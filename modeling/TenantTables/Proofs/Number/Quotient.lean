import Mathlib.Algebra.Order.Ring.Nat
import TenantTables.Number.Binary64

/-!
This module contains that the quotient of two integers as a double, rounded up, is the exact quotient
rounded up, as long as the integers are no larger than those that count records and pages.
-/

namespace TenantTables.Binary64

theorem nearestEven_le {num den g : Nat} (hden : 0 < den) (h : num ≤ g * den) :
    nearestEven num den ≤ g := by
  have hsplit : num / den * den + num % den = num := Nat.div_add_mod' num den
  have hquotient : num / den ≤ g := Nat.div_le_of_le_mul (by rwa [Nat.mul_comm])
  rcases Nat.lt_or_eq_of_le hquotient with hlt | heq
  . have hnext : nearestEven num den ≤ num / den + 1 := by
      unfold nearestEven
      dsimp only
      split
      . omega
      . split
        . omega
        . split <;> omega
    omega
  . -- the quotient is the bound itself, so nothing remains that could be rounded up
    have hzero : num % den = 0 := by
      rw [heq] at hsplit
      omega
    simp [nearestEven, hzero, heq, hden]

theorem le_nearestEven {num den g : Nat} (hden : 0 < den) (h : g * den ≤ num) :
    g ≤ nearestEven num den := by
  have hquotient : g ≤ num / den := (Nat.le_div_iff_mul_le hden).mpr h
  have hnext : num / den ≤ nearestEven num den := by
    unfold nearestEven
    dsimp only
    split
    . omega
    . split
      . omega
      . split <;> omega
  omega

theorem le_of_nearestEven_le {num den g : Nat} (hden : 0 < den) (h : nearestEven num den ≤ g) :
    2 * num ≤ (2 * g + 1) * den := by
  have hsplit : num / den * den + num % den = num := Nat.div_add_mod' num den
  have hrest : num % den < den := Nat.mod_lt num hden
  have hmul {a b : Nat} (hab : a ≤ b) : a * den ≤ b * den := Nat.mul_le_mul_right den hab
  unfold nearestEven at h
  dsimp only at h
  split at h
  . have := hmul h
    rw [Nat.add_mul, Nat.mul_assoc]
    omega
  . split at h
    . have := hmul h
      rw [Nat.add_mul] at this
      rw [Nat.add_mul, Nat.mul_assoc]
      omega
    . split at h
      . have := hmul h
        rw [Nat.add_mul, Nat.mul_assoc]
        omega
      . have := hmul h
        rw [Nat.add_mul] at this
        rw [Nat.add_mul, Nat.mul_assoc]
        omega

theorem scaled_ofParts {mantissa shift : Nat} (hlow : leastFull ≤ mantissa)
    (hhigh : mantissa ≤ 2 * leastFull) (hshift : shift < 2045) :
    (ofParts false mantissa shift).scaled = (mantissa * 2 ^ shift : Nat) := by
  unfold ofParts
  split
  . next heq =>
    have hcanonical : IsCanonical leastFull (shift + 1) := ⟨by decide, by omega, .inl (Nat.le_refl _)⟩
    rw [dif_pos hcanonical, scaled, heq, Nat.shiftLeft_eq, Nat.pow_succ]
    simp only [Bool.false_eq_true, ↓reduceIte]
    congr 1
    rw [Nat.mul_comm 2, Nat.mul_assoc, Nat.mul_comm 2]
  . next hne =>
    have hcanonical : IsCanonical mantissa shift := ⟨by omega, by omega, .inl hlow⟩
    rw [dif_pos hcanonical, scaled, Nat.shiftLeft_eq]
    simp

theorem ceil_le_iff (x : Binary64) (p : Int) : x.ceil ≤ p ↔ x.scaled ≤ p * one := by
  have hone : (0 : Int) < one := by exact_mod_cast one_pos
  unfold ceil
  calc -(-x.scaled / one) ≤ p
      ↔ -p ≤ -x.scaled / one := by omega
    _ ↔ -p * one ≤ -x.scaled := Int.le_ediv_iff_mul_le hone
    _ ↔ x.scaled ≤ p * one := by
      rw [Int.neg_mul]
      omega

theorem scaled_ofRatio {n l : Nat} (hn : 0 < n) (hn' : n < 2 ^ 53) (hl : 0 < l) (hl' : l < 2 ^ 63) :
    ∃ shift ≤ binaryPlaces, l * 2 ^ shift * 2 ^ 52 ≤ n * one ∧
      (ofRatio false n l).scaled = (nearestEven (n * one) (l * 2 ^ shift) * 2 ^ shift : Nat) := by
  have hone : one = 2 ^ binaryPlaces := by rw [one, Nat.one_shiftLeft]
  have hlarge : 2 ^ 52 ≤ n * one / l := by
    rw [Nat.le_div_iff_mul_le hl, hone]
    calc 2 ^ 52 * l
        ≤ 2 ^ 52 * 2 ^ 63 := Nat.mul_le_mul_left _ (Nat.le_of_lt hl')
      _ ≤ 2 ^ binaryPlaces := by
        rw [← Nat.pow_add]
        exact Nat.pow_le_pow_right (by decide) (by decide)
      _ ≤ n * 2 ^ binaryPlaces := Nat.le_mul_of_pos_left _ hn
  have hne : n * one / l ≠ 0 := by omega
  have hhigh : n * one / l < 2 ^ (53 + binaryPlaces) := by
    calc n * one / l
        ≤ n * one := Nat.div_le_self _ _
      _ < 2 ^ 53 * one := Nat.mul_lt_mul_of_pos_right hn' one_pos
      _ = 2 ^ (53 + binaryPlaces) := by rw [hone, Nat.pow_add]
  have hlog : 52 ≤ Nat.log2 (n * one / l) := (Nat.le_log2 hne).mpr hlarge
  have hlog' : Nat.log2 (n * one / l) < 53 + binaryPlaces := (Nat.log2_lt hne).mpr hhigh
  obtain ⟨shift, hshift⟩ := Nat.exists_eq_add_of_le' hlog
  -- the quotient has 53 digits before the point once it is divided by the power of two
  have hbelow : l * 2 ^ shift * 2 ^ 52 ≤ n * one := by
    have hself := Nat.log2_self_le hne
    rw [hshift, Nat.pow_add, Nat.le_div_iff_mul_le hl] at hself
    calc l * 2 ^ shift * 2 ^ 52
        = 2 ^ shift * 2 ^ 52 * l := by rw [Nat.mul_assoc, Nat.mul_comm]
      _ ≤ n * one := hself
  have habove : n * one ≤ 2 * leastFull * (l * 2 ^ shift) := by
    have hself : n * one / l < 2 ^ (Nat.log2 (n * one / l) + 1) := Nat.lt_log2_self
    rw [hshift, Nat.div_lt_iff_lt_mul hl] at hself
    calc n * one
        ≤ 2 ^ (shift + 52 + 1) * l := Nat.le_of_lt hself
      _ = 2 ^ shift * 2 ^ 53 * l := by rw [Nat.add_assoc, Nat.pow_add]
      _ = 2 * leastFull * (l * 2 ^ shift) := by
        show 2 ^ shift * 9007199254740992 * l = 9007199254740992 * (l * 2 ^ shift)
        rw [Nat.mul_comm (2 ^ shift), Nat.mul_assoc, Nat.mul_comm l]
  have hden : 0 < l * 2 ^ shift := Nat.mul_pos hl (Nat.two_pow_pos shift)
  have hshiftle : shift ≤ binaryPlaces := by omega
  refine ⟨shift, hshiftle, hbelow, ?_⟩
  rw [ofRatio, ofUnits, hshift, Nat.add_sub_cancel, Nat.shiftLeft_eq]
  apply scaled_ofParts
  . apply le_nearestEven hden
    rw [Nat.mul_comm]
    exact hbelow
  . exact nearestEven_le hden habove
  . exact Nat.lt_of_le_of_lt hshiftle (by decide)

theorem scaled_ofRatio_zero {l : Nat} (hl : 0 < l) : (ofRatio false 0 l).scaled = 0 := by
  have hnearest : nearestEven 0 (l <<< 0) = 0 := by
    simp [nearestEven, hl]
  rw [ofRatio, Nat.zero_mul, ofUnits, Nat.zero_div]
  rw [show Nat.log2 0 - 52 = 0 from rfl, hnearest]
  rfl

theorem scaled_ofRatio_le_iff {n l : Nat} (hn : 0 < n) (hn' : n < 2 ^ 53) (hl : 0 < l)
    (hl' : l < 2 ^ 63) (p : Nat) :
    (ofRatio false n l).scaled ≤ (p * one : Nat) ↔ n ≤ p * l := by
  obtain ⟨shift, hshift, hbelow, hscaled⟩ := scaled_ofRatio hn hn' hl hl'
  have hone : one = 2 ^ (binaryPlaces - shift) * 2 ^ shift := by
    rw [← Nat.pow_add, Nat.sub_add_cancel hshift, one, Nat.one_shiftLeft]
  have hden : 0 < l * 2 ^ shift := Nat.mul_pos hl (Nat.two_pow_pos shift)
  have hgrid : p * 2 ^ (binaryPlaces - shift) * (l * 2 ^ shift) = p * l * one := by
    rw [hone]
    ac_rfl
  rw [hscaled, Int.ofNat_le]
  constructor
  . intro h
    have hnearest : nearestEven (n * one) (l * 2 ^ shift) ≤ p * 2 ^ (binaryPlaces - shift) := by
      apply Nat.le_of_mul_le_mul_right _ (Nat.two_pow_pos shift)
      rwa [Nat.mul_assoc, ← hone]
    have hhalf := le_of_nearestEven_le hden hnearest
    rw [Nat.add_mul, Nat.mul_assoc, hgrid, Nat.one_mul] at hhalf
    have hgap : l * 2 ^ shift < 2 * one := by
      have htop : n * one < 2 ^ 53 * one := Nat.mul_lt_mul_of_pos_right hn' one_pos
      omega
    have hlt : n * one < (p * l + 1) * one := by
      rw [Nat.add_mul]
      omega
    exact Nat.lt_succ_iff.mp (Nat.lt_of_mul_lt_mul_right hlt)
  . intro h
    have hnearest : nearestEven (n * one) (l * 2 ^ shift) ≤ p * 2 ^ (binaryPlaces - shift) := by
      apply nearestEven_le hden
      rw [hgrid]
      exact Nat.mul_le_mul_right one h
    calc nearestEven (n * one) (l * 2 ^ shift) * 2 ^ shift
        ≤ p * 2 ^ (binaryPlaces - shift) * 2 ^ shift := Nat.mul_le_mul_right _ hnearest
      _ = p * one := by rw [Nat.mul_assoc, ← hone]

theorem ceil_ofRatio_le_iff {n l : Nat} (hn : n < 2 ^ 53) (hl : 0 < l) (hl' : l < 2 ^ 63) (p : Int) :
    (ofRatio false n l).ceil ≤ p ↔ (n : Int) ≤ p * l := by
  have hone : (0 : Int) < one := by exact_mod_cast one_pos
  have hlpos : (0 : Int) < l := by exact_mod_cast hl
  rw [ceil_le_iff]
  rcases Nat.eq_zero_or_pos n with rfl | hpos
  . rw [scaled_ofRatio_zero hl]
    rw [Int.mul_nonneg_iff_of_pos_right hone]
    exact (Int.mul_nonneg_iff_of_pos_right hlpos).symm
  . cases p with
    | ofNat p =>
      have hiff := scaled_ofRatio_le_iff hpos hn hl hl' p
      rw [Int.natCast_mul] at hiff
      rw [Int.ofNat_eq_natCast, hiff]
      exact_mod_cast Iff.rfl
    | negSucc p =>
      -- neither the double nor the quotient is negative
      have hscaled : (0 : Int) ≤ (ofRatio false n l).scaled := by
        obtain ⟨shift, -, -, hscaled⟩ := scaled_ofRatio hpos hn hl hl'
        rw [hscaled]
        exact Int.natCast_nonneg _
      have hleft : Int.negSucc p * one < 0 := Int.mul_neg_of_neg_of_pos (Int.negSucc_lt_zero p) hone
      have hright : Int.negSucc p * l < 0 := Int.mul_neg_of_neg_of_pos (Int.negSucc_lt_zero p) hlpos
      constructor <;> intro h <;> omega

end TenantTables.Binary64
