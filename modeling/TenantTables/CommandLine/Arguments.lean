namespace TenantTables.CommandLine

structure Switch where
  name : String
  letter : Option Char := none
  takesValue : Bool := true
  deriving DecidableEq, Repr

structure Arguments where
  positional : List String := []
  given : List (String × String) := []
  deriving DecidableEq, Repr

namespace Arguments

def value? (a : Arguments) (name : String) : Option String :=
  ((a.given.filter (·.1 == name)).getLast?).map (·.2)

def has (a : Arguments) (name : String) : Bool :=
  a.given.any (·.1 == name)

def addPositional (arg : String) (a : Arguments) : Arguments :=
  { a with positional := arg :: a.positional }

def addGiven (s : Switch) (value : String) (a : Arguments) : Arguments :=
  { a with given := (s.name, value) :: a.given }

def splitValue (cs : List Char) : List Char × Option (List Char) :=
  match cs.dropWhile (· ≠ '=') with
  | _ :: value => (cs.takeWhile (· ≠ '='), some value)
  | [] => (cs, none)

def switch? (switches : List Switch) (arg : List Char) : Option (Switch × Option String) :=
  match arg with
  | '-' :: '-' :: cs =>
    let (name, value) := splitValue cs
    (switches.find? fun s => s.name == String.ofList name).map (·, value.map String.ofList)
  | '-' :: c :: value =>
    (switches.find? fun s => s.letter == some c).map
      (·, if value.isEmpty then none else some (String.ofList value))
  | _ => none

def read (switches : List Switch) : List String → Option Arguments
  | [] => some {}
  | "--" :: rest => some { positional := rest }
  | arg :: rest =>
    if arg.toList.head? = some '-' ∧ 1 < arg.length then
      match switch? switches arg.toList with
      | none => none
      | some (s, some value) =>
        if s.takesValue then (read switches rest).map (addGiven s value) else none
      | some (s, none) =>
        if s.takesValue then
          match rest with
          | [] => none
          | value :: rest => (read switches rest).map (addGiven s value)
        else (read switches rest).map (addGiven s "")
    else (read switches rest).map (addPositional arg)

end Arguments
end TenantTables.CommandLine
