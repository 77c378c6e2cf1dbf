import TenantTables.Formula.Token

/-!
This module contains the trees of formulas and their reading: terms with plus signs between them,
added up from the left.
-/

namespace TenantTables

inductive Formula where
  | term (t : Formula.Term)
  | add (left right : Formula)
  deriving DecidableEq

namespace Formula

def readTerm (position : Nat) (cs : List Char) : Except Fault (Term × Nat × List Char) := do
  match ← Token.next position cs with
  | none => throw .unfinished
  | some (.term t, _, after, rest) => return (t, after, rest)
  | some (.plus, start, _, _) => throw (.unexpectedToken .plus start)

def readSum (left : Formula) : Nat → Nat → List Char → Except Fault Formula
  | 0, _, _ => .ok left
  | fuel + 1, position, cs => do
    match ← Token.next position cs with
    | none => return left
    | some (.plus, _, after, rest) =>
      let (t, after, rest) ← readTerm after rest
      readSum (.add left (.term t)) fuel after rest
    | some (t, start, _, _) => throw (.unexpectedToken t start)

def read (text : String) : Except Fault Formula := do
  let cs := text.toList
  let (t, after, rest) ← readTerm 0 cs
  readSum (.term t) (cs.length + 1) after rest

end Formula
end TenantTables
