import TenantTables.Pattern.Reader
import TenantTables.Proofs.Text.Digit

/-!
This module contains where a pattern has a number that is too large to count with: in a long run of its digits, or
in an escape of eight hexadecimal digits.
-/

namespace TenantTables.Pattern

def Fault.isLarge : Fault → Bool
  | .repeatTooLarge | .codeTooLarge => true
  | _ => false

def HasLargeNumber (cs : List Char) : Prop :=
  (∃ ds, ds <:+: cs ∧ (∀ c ∈ ds, c.isDigit = true) ∧ 4294967295 ≤ Text.natOfDigits ds) ∨ ['\\', 'U'] <:+: cs

namespace Scan

/--
A reading from a state leaves the text as it is, and fails for a large number only if the text has one. What it
returns, and the state after it, are as described.
-/
def Runs (cs : List Char) (s : Source) (m : Scan α) (Q : α → Source → Prop) : Prop :=
  match m.run s with
  | .ok (a, s') => s'.text.toList = cs ∧ Q a s'
  | .error f => f.isLarge = true → HasLargeNumber cs

variable {cs : List Char} {s : Source}

variable {Q : α → Prop} {R : β → Prop}

end Scan

section Readers

open Scan

variable {cs : List Char}

end Readers

theorem isLarge_of_orElse {o o' : Option Fault} {f : Fault} (h : (o <|> o') = some f)
    (ho : o = some f → f.isLarge = false) (ho' : o' = some f → f.isLarge = false) : f.isLarge = false := by
  cases o with
  | none => exact ho' h
  | some _ => exact ho h

mutual

theorem isLarge_of_fault? {template : Bool} {n : Node} {f : Fault} (h : n.fault? template = some f) :
    f.isLarge = false := by
  cases n with
  | group _ _ _ body => exact isLarge_of_faultIn? h
  | atomic body => exact isLarge_of_faultIn? h
  | repeated greed _ _ body =>
    unfold Node.fault? at h
    split at h
    . obtain rfl := Option.some.inj h
      rfl
    . exact isLarge_of_faultIn? h
  | branch alternatives => exact isLarge_of_faultInAny? h
  | conditional _ yes no => exact isLarge_of_orElse h isLarge_of_faultIn? isLarge_of_faultIn?
  | look ahead _ width body =>
    unfold Node.fault? at h
    split at h
    . exact isLarge_of_faultIn? h
    . split at h
      . obtain rfl := Option.some.inj h
        rfl
      . split at h
        . obtain rfl := Option.some.inj h
          rfl
        . exact isLarge_of_faultIn? h
  | _ => contradiction

theorem isLarge_of_faultIn? {template : Bool} {ns : List Node} {f : Fault} (h : faultIn? template ns = some f) :
    f.isLarge = false := by
  cases ns with
  | nil => contradiction
  | cons n ns => exact isLarge_of_orElse h isLarge_of_fault? isLarge_of_faultIn?

theorem isLarge_of_faultInAny? {template : Bool} {ps : List (List Node)} {f : Fault}
    (h : faultInAny? template ps = some f) : f.isLarge = false := by
  cases ps with
  | nil => contradiction
  | cons p ps => exact isLarge_of_orElse h isLarge_of_faultIn? isLarge_of_faultInAny?

end

variable {cs : List Char}

end TenantTables.Pattern
