import TenantTables.Pattern.Basic
import TenantTables.Pattern.Fault

/-!
This module contains the text of a pattern while it is read: its tokens, and what is known about the
groups so far. A token is a character, or a backslash with the character after it.
-/

namespace TenantTables.Pattern

structure Source where
  text : Array Char
  position : Nat := 0
  flags : Flags := {}
  /-- The widths of the groups from number 0 on, where a group that is still open has none. -/
  widths : Array (Option Width) := #[none]
  names : List (String × Nat) := []
  /-- Inside of a look behind, the number of groups before it. -/
  lookBehind : Option Nat := none
  /-- Groups that a condition refers to by number, and where. -/
  conditions : List (Nat × Nat) := []

abbrev Scan := StateT Source (Except Fault)

namespace Source

def next? (s : Source) : Option (List Char) :=
  match s.text[s.position]? with
  | some '\\' => some ('\\' :: s.text[s.position + 1]?.toList)
  | some c => some [c]
  | none => none

def groupCount (s : Source) : Nat :=
  s.widths.size

def isClosed (s : Source) (index : Nat) : Bool :=
  match s.widths[index]? with
  | some (some _) => true
  | _ => false

def widthOfGroup (s : Source) (index : Nat) : Width :=
  ((s.widths[index]?).getD none).getD ⟨0, 0⟩

def check (s : Source) : Except Fault Source :=
  if s.text[s.position]? = some '\\' ∧ s.text.size ≤ s.position + 1 then
    .error (.at .badEscapeAtEnd (s.text.size - 1))
  else .ok s

end Source

namespace Scan

def next? : Scan (Option (List Char)) :=
  return (← get).next?

def position : Scan Nat :=
  return (← get).position

def fail (problem : Problem) (back : Nat := 0) : Scan α := do
  throw (.at problem ((← position) - back))

def seek (position : Nat) : Scan Unit := do
  let s ← get
  set (← Source.check { s with position })

def take : Scan (List Char) := do
  let token := (← next?).getD []
  seek ((← position) + token.length)
  return token

def accept (c : Char) : Scan Bool := do
  if (← next?) = some [c] then
    let _ ← take
    return true
  else return false

def takeWhile (p : Char → Bool) : Nat → Scan (List Char)
  | 0 => return []
  | n + 1 => do
    match ← next? with
    | some [c] =>
      if p c then
        let _ ← take
        return c :: (← takeWhile p n)
      else return []
    | _ => return []

def takeUntil (terminator : Char) (what : String) : Scan (List Char) := do
  go ((← get).text.size + 1) []
where
  go : Nat → List Char → Scan (List Char)
    | 0, found => return found
    | fuel + 1, found => do
      match ← next? with
      | none =>
        if found.isEmpty then fail (.missing what)
        else fail (.unterminated terminator.toString "name") found.length
      | some token =>
        let _ ← take
        if token = [terminator] then
          if found.isEmpty then fail (.missing what) 1 else return found
        else go fuel (found ++ token)

end Scan
end TenantTables.Pattern
