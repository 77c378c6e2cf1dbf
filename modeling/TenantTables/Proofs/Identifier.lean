import Mathlib.Tactic.Ring
import TenantTables.Identifier
import TenantTables.Proofs.Text.Space

namespace TenantTables

namespace Text

def IsHex (c : Char) : Prop :=
  ∃ d < 16, c = Nat.digitChar d

theorem hexDigits_succ (width n : Nat) :
    hexDigits (width + 1) n = Nat.digitChar (n / 16 ^ width % 16) :: hexDigits width n := by
  rw [hexDigits, List.range_succ, List.reverse_append, List.map_append, hexDigits]
  show Nat.digitChar ((n >>> (4 * width)) % 16) :: _ = _
  rw [Nat.shiftRight_eq_div_pow, Nat.pow_mul]
  rfl

theorem length_hexDigits (width n : Nat) : (hexDigits width n).length = width := by
  simp [hexDigits]

theorem isHex_of_mem_hexDigits {width n : Nat} {c : Char} (h : c ∈ hexDigits width n) : IsHex c := by
  obtain ⟨i, -, rfl⟩ := List.mem_map.mp h
  exact ⟨_, Nat.mod_lt _ (by decide), rfl⟩

theorem hexDigits_mod {width whole : Nat} (h : width ≤ whole) (n : Nat) :
    hexDigits width (n % 16 ^ whole) = hexDigits width n := by
  induction width with
  | zero => rfl
  | succ width ih =>
    have hpow : 16 ^ whole = 16 ^ width * (16 * 16 ^ (whole - width - 1)) := by
      rw [← Nat.pow_succ', ← Nat.pow_add]
      congr 1
      omega
    rw [hexDigits_succ, hexDigits_succ, ih (by omega), hpow, Nat.mod_mul_right_div_self,
      Nat.mod_mul_right_mod]

theorem of_isHex {p : Char → Prop} {c : Char} (hp : ∀ d < 16, p (Nat.digitChar d)) (h : IsHex c) : p c := by
  obtain ⟨d, hd, rfl⟩ := h
  exact hp d hd

end Text

namespace Identifier

open Text

variable {n : Nat} {cs : List Char}

theorem hexDigit?_digitChar {d : Nat} (h : d < 16) : hexDigit? (Nat.digitChar d) = some d := by
  revert d
  decide

theorem removeWord_of_not_mem {c : Char} {word : List Char} (h : c ∉ cs) : removeWord (c :: word) cs = cs := by
  unfold removeWord
  induction cs with
  | nil => rfl
  | cons a cs ih =>
    obtain ⟨hne, hcs⟩ : c ≠ a ∧ c ∉ cs := by simpa using h
    rw [List.length_cons, removeWord.go, List.isPrefixOf, beq_false_of_ne hne, Bool.false_and, if_neg (by decide),
      ih hcs]

theorem readGrouped?_hexDigits (acc width n : Nat) :
    readGrouped? acc (hexDigits width n) = some (16 ^ width * acc + n % 16 ^ width) := by
  induction width generalizing acc with
  | zero => simp [hexDigits, readGrouped?, Nat.mod_one]
  | succ width ih =>
    have hdigit : n / 16 ^ width % 16 < 16 := Nat.mod_lt _ (by decide)
    have hgap : Nat.digitChar (n / 16 ^ width % 16) ≠ '_' :=
      of_isHex (p := (· ≠ '_')) (by decide) ⟨_, hdigit, rfl⟩
    rw [hexDigits_succ, readGrouped?.eq_3 _ _ _ fun _ _ h => absurd h hgap, hexDigit?_digitChar hdigit,
      Option.bind_some, ih, Nat.mod_pow_succ]
    congr 1
    ring

theorem readNumber?_of_isHex (hcs : ∀ c ∈ cs, IsHex c) (hne : cs ≠ []) : readNumber? cs = readGrouped? 0 cs := by
  have htrim : trimBy isPlainSpace cs = cs :=
    trimBy_of_forall fun c hc => of_isHex (p := fun c => isPlainSpace c = false) (by decide) (hcs c hc)
  obtain ⟨c, cs, rfl⟩ := List.exists_cons_of_ne_nil hne
  have hsign : c ≠ '+' := of_isHex (p := (· ≠ '+')) (by decide) (hcs c List.mem_cons_self)
  have hgap : c ≠ '_' := of_isHex (p := (· ≠ '_')) (by decide) (hcs c List.mem_cons_self)
  unfold readNumber?
  rw [htrim]
  cases cs with
  | nil => simp [hsign]
  | cons x rest =>
    have hmark : ¬(x = 'x' ∨ x = 'X') :=
      of_isHex (p := fun x => ¬(x = 'x' ∨ x = 'X')) (by decide) (hcs x (by simp))
    simp [hsign, hgap, hmark]

theorem toList_print (n : Nat) : (print n).toList =
    (hexDigits 32 n).take 8 ++ '-' :: (((hexDigits 32 n).drop 8).take 4 ++ '-' ::
      (((hexDigits 32 n).drop 12).take 4 ++ '-' :: (((hexDigits 32 n).drop 16).take 4 ++ '-' ::
        ((hexDigits 32 n).drop 20).take 12))) := by
  rw [print, String.toList_ofList]
  simp [List.intercalate]

theorem mem_print {c : Char} (h : c ∈ (print n).toList) : IsHex c ∨ c = '-' := by
  have hgroup {start length : Nat} (h : c ∈ ((hexDigits 32 n).drop start).take length) : IsHex c :=
    isHex_of_mem_hexDigits (List.mem_of_mem_drop (List.mem_of_mem_take h))
  rw [toList_print] at h
  simp only [List.mem_append, List.mem_cons] at h
  rcases h with h | h | h | h | h | h | h | h | h
  . exact .inl (isHex_of_mem_hexDigits (List.mem_of_mem_take h))
  . exact .inr h
  . exact .inl (hgroup h)
  . exact .inr h
  . exact .inl (hgroup h)
  . exact .inr h
  . exact .inl (hgroup h)
  . exact .inr h
  . exact .inl (hgroup h)

theorem filter_print (n : Nat) : (print n).toList.filter (· ≠ '-') = hexDigits 32 n := by
  have hkeep {cs : List Char} (h : ∀ c ∈ cs, c ∈ hexDigits 32 n) : cs.filter (· ≠ '-') = cs := by
    refine List.filter_eq_self.mpr fun c hc => ?_
    exact of_isHex (p := fun c => decide (c ≠ '-') = true) (by decide) (isHex_of_mem_hexDigits (h c hc))
  have hgroup (start length : Nat) :
      (((hexDigits 32 n).drop start).take length).filter (· ≠ '-') = ((hexDigits 32 n).drop start).take length :=
    hkeep fun c hc => List.mem_of_mem_drop (List.mem_of_mem_take hc)
  have hlast : ((hexDigits 32 n).drop 20).take 12 = (hexDigits 32 n).drop 20 := by
    rw [List.take_of_length_le]
    rw [List.length_drop, length_hexDigits]
  have hjoin (start length : Nat) : ((hexDigits 32 n).drop start).take length ++
      (hexDigits 32 n).drop (start + length) = (hexDigits 32 n).drop start := by
    rw [← List.drop_drop, List.take_append_drop]
  have hhyphen (cs : List Char) : ('-' :: cs).filter (· ≠ '-') = cs.filter (· ≠ '-') := rfl
  rw [toList_print]
  simp only [List.filter_append, hhyphen, hgroup]
  rw [hlast, hkeep fun c hc => List.mem_of_mem_take hc, hjoin 16 4, hjoin 12 4, hjoin 8 4, List.take_append_drop]

theorem read_printed (n : Nat) : read (print n) = .ok (n % 16 ^ 32) := by
  have hchars {p : Char → Prop} (hp : ∀ d < 16, p (Nat.digitChar d)) (hhyphen : p '-') :
      ∀ c ∈ (print n).toList, p c := by
    intro c hc
    rcases mem_print hc with hc | rfl
    . exact of_isHex hp hc
    . exact hhyphen
  have hspace : trimChars (print n).toList = (print n).toList :=
    trimBy_of_forall (hchars (p := fun c => isSpace c = false) (by decide) (by decide))
  have hword (word : List Char) : removeWord ('u' :: word) (print n).toList = (print n).toList :=
    removeWord_of_not_mem fun hc => hchars (p := (· ≠ 'u')) (by decide) (by decide) 'u' hc rfl
  have hbraces : trimBy (fun c => c = '\x7b' || c = '\x7d') (print n).toList = (print n).toList :=
    trimBy_of_forall (hchars (p := fun c => (decide (c = '\x7b') || decide (c = '\x7d')) = false) (by decide)
      (by decide))
  have hdigits : readNumber? (hexDigits 32 n) = some (n % 16 ^ 32) := by
    rw [readNumber?_of_isHex (fun _ => isHex_of_mem_hexDigits) (by simp [hexDigits_succ]), readGrouped?_hexDigits,
      Nat.mul_zero, Nat.zero_add]
  have hwords : removeWord "uuid:".toList (removeWord "urn:".toList (print n).toList) = (print n).toList := by
    show removeWord ('u' :: "uid:".toList) (removeWord ('u' :: "rn:".toList) _) = _
    rw [hword, hword]
  unfold read
  dsimp only
  rw [hspace, hwords, hbraces, filter_print, length_hexDigits, if_neg (by decide), hdigits]

theorem normalize_print (n : Nat) : normalize (print n) = .ok (print n) := by
  rw [normalize, read_printed]
  show Except.ok (print (n % 16 ^ 32)) = _
  rw [print, hexDigits_mod (Nat.le_refl 32), print]

end Identifier
end TenantTables
