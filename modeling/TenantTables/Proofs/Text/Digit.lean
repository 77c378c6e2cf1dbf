import Mathlib.Data.List.Induction
import Mathlib.Tactic.Ring
import TenantTables.Text.Character

namespace TenantTables.Text

theorem digit?_of_isDigit {c : Char} (h : c.isDigit = true) : digit? c = some (c.toNat - 48) := by
  have hlt : c.toNat < 128 := by
    have hle := (Char.isDigit_iff_toNat.mp h).2
    have hnine : '9'.toNat = 57 := rfl
    omega
  rw [digit?, if_pos hlt, if_pos h]

theorem digit?_lt_ten {c : Char} {n : Nat} (h : digit? c = some n) : n < 10 := by
  unfold digit? at h
  split at h
  . split at h
    . next hdigit =>
      have hle := (Char.isDigit_iff_toNat.mp hdigit).2
      have hnine : '9'.toNat = 57 := rfl
      have hn := Option.some.inj h
      omega
    . contradiction
  . obtain ⟨z, hz, rfl⟩ := Option.map_eq_some_iff.mp h
    have hrange := List.find?_some hz
    simp only [Bool.and_eq_true, decide_eq_true_eq] at hrange
    omega

theorem natOfDigits_concat (cs : List Char) (c : Char) :
    natOfDigits (cs ++ [c]) = 10 * natOfDigits cs + (digit? c).getD 0 := by
  rw [natOfDigits, List.foldl_append]
  rfl

theorem natOfDigits_lt (cs : List Char) : natOfDigits cs < 10 ^ cs.length := by
  induction cs using List.reverseRecOn with
  | nil => decide
  | append_singleton cs c ih =>
    have hdigit : (digit? c).getD 0 < 10 := by
      cases h : digit? c with
      | none => decide
      | some n => exact digit?_lt_ten h
    rw [natOfDigits_concat, List.length_append, List.length_singleton, Nat.pow_succ]
    omega

theorem natOfDigits_eq {cs : List Char} (h : ∀ c ∈ cs, c.isDigit = true) :
    natOfDigits cs = Nat.ofDigitChars 10 cs 0 := by
  have hfrom (n : Nat) :
      cs.foldl (fun n c => 10 * n + (digit? c).getD 0) n = Nat.ofDigitChars 10 cs n := by
    induction cs generalizing n with
    | nil => rfl
    | cons c cs ih =>
      rw [List.foldl_cons, digit?_of_isDigit (h c List.mem_cons_self)]
      exact ih (fun c hc => h c (List.mem_cons_of_mem _ hc)) _
  exact hfrom 0

theorem isDigit_of_isDigit {c : Char} (h : c.isDigit = true) : isDigit c = true := by
  rw [isDigit, digit?_of_isDigit h]
  rfl

structure IsNumeral (cs : List Char) : Prop where
  nonempty : cs ≠ []
  isDigit : ∀ c ∈ cs, c.isDigit = true

section Decimal

variable {n : Nat} {c : Char}

theorem isDigit_of_mem_toDigits (h : c ∈ Nat.toDigits 10 n) : c.isDigit = true :=
  Nat.isDigit_of_mem_toDigits (by decide) (by decide) h

theorem natOfDigits_toDigits (n : Nat) : natOfDigits (Nat.toDigits 10 n) = n := by
  rw [natOfDigits_eq fun _ => isDigit_of_mem_toDigits]
  exact Nat.ofDigitChars_toDigits (by decide) (by decide)

theorem natOfDigits_replicate_append (k : Nat) (cs : List Char) :
    natOfDigits (List.replicate k '0' ++ cs) = natOfDigits cs := by
  induction k with
  | zero => rfl
  | succ k ih => exact ih

end Decimal

end TenantTables.Text
