import Mathlib.Data.List.Basic
import TenantTables.Document.Rules

/-!
This module contains which texts are names in snake case. The check of a name does not look at a newline at
the end, so it takes such a name with a newline after it too.
-/

namespace TenantTables.Text

structure IsSnakeName (s : String) : Prop where
  start : ∃ c, s.toList.head? = some c ∧ 'a' ≤ c ∧ c ≤ 'z'
  chars : ∀ c ∈ s.toList, ('a' ≤ c ∧ c ≤ 'z') ∨ ('0' ≤ c ∧ c ≤ '9') ∨ c = '_'

def IsSnakeLine (s : String) : Prop :=
  IsSnakeName s ∨ ∃ name, IsSnakeName name ∧ s = name ++ "\n"

def endsInNewline (s : String) : Bool :=
  s.toList.getLast? == some '\n'

section Snake

variable {s : String}

theorem isSnakeStart_iff {c : Char} : isSnakeStart c = true ↔ 'a' ≤ c ∧ c ≤ 'z' := by
  simp [isSnakeStart]

theorem isSnakeChar_iff {c : Char} :
    isSnakeChar c = true ↔ ('a' ≤ c ∧ c ≤ 'z') ∨ ('0' ≤ c ∧ c ≤ '9') ∨ c = '_' := by
  simp [isSnakeChar, isSnakeStart, or_assoc]

theorem isSnakeName_iff {c : Char} {cs : List Char} (h : s.toList = c :: cs) :
    IsSnakeName s ↔ isSnakeStart c = true ∧ cs.all isSnakeChar = true := by
  rw [isSnakeStart_iff, List.all_eq_true]
  constructor
  . rintro ⟨⟨d, hd, hstart⟩, hchars⟩
    rw [h] at hd hchars
    obtain rfl := Option.some.inj hd
    exact ⟨hstart, fun c hc => isSnakeChar_iff.mpr (hchars c (List.mem_cons_of_mem _ hc))⟩
  . rintro ⟨hstart, hall⟩
    refine ⟨⟨c, by rw [h]; rfl, hstart⟩, ?_⟩
    rw [h, List.forall_mem_cons]
    exact ⟨.inl hstart, fun c hc => isSnakeChar_iff.mp (hall c hc)⟩

theorem IsSnakeName.exists_cons (h : IsSnakeName s) : ∃ c cs, s.toList = c :: cs := by
  obtain ⟨c, hc, -⟩ := h.start
  obtain ⟨cs, hcs⟩ := List.head?_eq_some_iff.mp hc
  exact ⟨c, cs, hcs⟩

instance (s : String) : Decidable (IsSnakeName s) :=
  match h : s.toList with
  | [] => .isFalse fun hname => by
    obtain ⟨c, cs, hcons⟩ := hname.exists_cons
    rw [h] at hcons
    contradiction
  | _ :: _ => decidable_of_iff _ (isSnakeName_iff h).symm

theorem isSnakeCase_iff : isSnakeCase s = true ↔ IsSnakeLine s := by
  constructor
  . intro h
    unfold isSnakeCase at h
    cases hs : s.toList with
    | nil => simp [hs] at h
    | cons c cs =>
      rw [hs] at h
      simp only [Bool.and_eq_true, Bool.or_eq_true, decide_eq_true_eq] at h
      obtain ⟨hstart, hall | ⟨hlast, hall⟩⟩ := h
      . exact .inl ((isSnakeName_iff hs).mpr ⟨hstart, hall⟩)
      . obtain ⟨init, rfl⟩ := List.getLast?_eq_some_iff.mp hlast
        rw [List.dropLast_concat] at hall
        refine .inr ⟨String.ofList (c :: init), ?_, ?_⟩
        . exact (isSnakeName_iff String.toList_ofList).mpr ⟨hstart, hall⟩
        . apply String.toList_injective
          rw [hs, String.toList_append, String.toList_ofList]
          rfl
  . rintro (h | ⟨name, h, rfl⟩)
    . obtain ⟨c, cs, hs⟩ := h.exists_cons
      obtain ⟨hstart, hall⟩ := (isSnakeName_iff hs).mp h
      simp [isSnakeCase, hs, hstart, hall]
    . obtain ⟨c, cs, hname⟩ := h.exists_cons
      obtain ⟨hstart, hall⟩ := (isSnakeName_iff hname).mp h
      have hline : (name ++ "\n").toList = c :: (cs ++ ['\n']) := by
        rw [String.toList_append, hname]
        rfl
      unfold isSnakeCase
      rw [hline]
      dsimp only
      rw [List.dropLast_concat, hstart, hall]
      simp

theorem isSnakeLine_iff_of_endsInNewline (h : endsInNewline s = false) : IsSnakeLine s ↔ IsSnakeName s := by
  refine ⟨?_, .inl⟩
  rintro (hname | ⟨name, -, rfl⟩)
  . exact hname
  . simp [endsInNewline] at h

theorem isSnakeChar_of_isSnakeLine (h : IsSnakeLine s) {c : Char} (hc : c ∈ s.toList) :
    isSnakeChar c = true ∨ c = '\n' := by
  rcases h with h | ⟨name, h, rfl⟩
  . exact .inl (isSnakeChar_iff.mpr (h.chars c hc))
  . rw [String.toList_append] at hc
    rcases List.mem_append.mp hc with hc | hc
    . exact .inl (isSnakeChar_iff.mpr (h.chars c hc))
    . exact .inr (List.mem_singleton.mp hc)

end Snake

end TenantTables.Text
