import Mathlib.Data.List.Basic
import Mathlib.Data.List.TakeWhile
import TenantTables.Text.Space

namespace TenantTables.Text

section Run

variable {p : Char → Bool} {cs rest : List Char}

theorem takeWhile_append_of_head? (hall : ∀ c ∈ cs, p c = true)
    (hrest : ∀ c, rest.head? = some c → p c = false) :
    (cs ++ rest).takeWhile p = cs ∧ (cs ++ rest).dropWhile p = rest := by
  rw [List.takeWhile_append_of_pos hall, List.dropWhile_append_of_pos hall]
  cases rest with
  | nil => exact ⟨List.append_nil cs, rfl⟩
  | cons c rest =>
    have hc := hrest c rfl
    rw [List.takeWhile_cons_of_neg (by simp [hc]), List.dropWhile_cons_of_neg (by simp [hc])]
    exact ⟨List.append_nil cs, rfl⟩

end Run

section Trim

variable {p : Char → Bool} {cs : List Char}

theorem dropWhile_of_head? (h : ∀ c, cs.head? = some c → p c = false) : cs.dropWhile p = cs := by
  cases cs with
  | nil => rfl
  | cons c cs => simp [h c rfl]

theorem of_head?_dropWhile {c : Char} (h : (cs.dropWhile p).head? = some c) : p c = false := by
  have hnot := List.head?_dropWhile_not p cs
  rw [h] at hnot
  exact hnot

theorem trimBy_of_forall (h : ∀ c ∈ cs, p c = false) : trimBy p cs = cs := by
  have hrev : ∀ c, cs.reverse.head? = some c → p c = false := by
    intro c hc
    exact h c (List.mem_reverse.mp (List.mem_of_mem_head? hc))
  rw [trimBy, dropWhile_of_head? fun c hc => h c (List.mem_of_mem_head? hc), dropWhile_of_head? hrev,
    List.reverse_reverse]

structure Trims (p : Char → Bool) (cs core : List Char) : Prop where
  ends : ∃ front back, cs = front ++ core ++ back ∧ (∀ c ∈ front, p c = true) ∧ ∀ c ∈ back, p c = true
  head : ∀ c, core.head? = some c → p c = false
  last : ∀ c, core.getLast? = some c → p c = false

theorem trims_trimBy (p : Char → Bool) (cs : List Char) : Trims p cs (trimBy p cs) := by
  have hall {cs : List Char} : ∀ c ∈ cs.takeWhile p, p c = true := fun _ => List.mem_takeWhile_imp
  have hback : cs.dropWhile p = trimBy p cs ++ ((cs.dropWhile p).reverse.takeWhile p).reverse := by
    rw [trimBy, ← List.reverse_append, List.takeWhile_append_dropWhile, List.reverse_reverse]
  constructor
  . refine ⟨cs.takeWhile p, ((cs.dropWhile p).reverse.takeWhile p).reverse, ?_, hall, fun c hc => ?_⟩
    . rw [List.append_assoc, ← hback, List.takeWhile_append_dropWhile]
    . exact hall c (List.mem_reverse.mp hc)
  . -- what is trimmed off the end leaves the front as it was
    intro c hc
    have hdropped : (cs.dropWhile p).head? = some c := by
      rw [hback, List.head?_append, hc]
      rfl
    exact of_head?_dropWhile hdropped
  . intro c hc
    rw [trimBy, List.getLast?_reverse] at hc
    exact of_head?_dropWhile hc

theorem Trims.eq {core : List Char} (h : Trims p cs core) : trimBy p cs = core := by
  obtain ⟨front, back, rfl, hfront, hback⟩ := h.ends
  rw [trimBy, List.append_assoc, List.dropWhile_append_of_pos hfront]
  cases core with
  | nil =>
    rw [List.nil_append, List.dropWhile_eq_nil_iff.mpr hback]
    rfl
  | cons c core =>
    have hlast : ∀ a, (c :: core).reverse.head? = some a → p a = false := by
      intro a ha
      exact h.last a (by rwa [List.head?_reverse] at ha)
    have hfirst : (c :: core ++ back).dropWhile p = c :: core ++ back := dropWhile_of_head? h.head
    rw [hfirst, List.reverse_append, List.dropWhile_append_of_pos fun a ha => hback a (List.mem_reverse.mp ha),
      dropWhile_of_head? hlast, List.reverse_reverse]

theorem trimBy_trimBy (p : Char → Bool) (cs : List Char) : trimBy p (trimBy p cs) = trimBy p cs := by
  have htrims := trims_trimBy p cs
  exact Trims.eq ⟨⟨[], [], by simp⟩, htrims.head, htrims.last⟩

end Trim

theorem isSpace_of_isDigit {c : Char} (h : c.isDigit = true) : isSpace c = false := by
  obtain ⟨hlow, hhigh⟩ := Char.isDigit_iff_toNat.mp h
  have hzero : '0'.toNat = 48 := rfl
  have hnine : '9'.toNat = 57 := rfl
  simp only [isSpace, Bool.or_eq_false_iff, Bool.and_eq_false_iff, decide_eq_false_iff_not]
  omega

theorem trim_trim (s : String) : trim (trim s) = trim s := by
  rw [trim, trim, String.toList_ofList, trimChars, trimChars, trimBy_trimBy]

end TenantTables.Text
