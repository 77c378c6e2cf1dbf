import Mathlib.Order.Monotone.Basic
import TenantTables.Calendar.Moment

namespace TenantTables

namespace Calendar

theorem climb_eq (go : Nat → Nat → Nat) {start : Nat → Nat} {number place : Nat}
    (hzero : ∀ n, go 0 n = n)
    (hsucc : ∀ steps n, go (steps + 1) n = if start (n + 1) < number then go steps (n + 1) else n)
    (hmono : Monotone start) (hlow : start place < number) (hhigh : number ≤ start (place + 1))
    (steps guess : Nat) (hguess : guess ≤ place) (hsteps : place ≤ guess + steps) :
    go steps guess = place := by
  induction steps generalizing guess with
  | zero =>
    rw [hzero]
    omega
  | succ steps ih =>
    rw [hsucc]
    rcases Nat.lt_or_eq_of_le hguess with hlt | rfl
    . have hstart : start (guess + 1) ≤ start place := hmono hlt
      rw [if_pos (by omega)]
      exact ih (guess + 1) hlt (by omega)
    . rw [if_neg (by omega)]

theorem daysBeforeYear_succ (year : Nat) (h : 1 ≤ year) :
    daysBeforeYear (year + 1) = daysBeforeYear year + 365 + (if isLeap year then 1 else 0) := by
  obtain ⟨y, rfl⟩ : ∃ y, year = y + 1 := ⟨year - 1, by omega⟩
  have hleap : isLeap (y + 1) = true ↔ 4 ∣ y + 1 ∧ (¬100 ∣ y + 1 ∨ 400 ∣ y + 1) := by
    simp [isLeap, Nat.dvd_iff_mod_eq_zero]
  have hcentury : 100 ∣ y + 1 → 4 ∣ y + 1 := Nat.dvd_trans (by decide)
  have hcycle : 400 ∣ y + 1 → 100 ∣ y + 1 := Nat.dvd_trans (by decide)
  have hle : y / 100 ≤ y / 4 := Nat.div_le_div_left (by decide) (by decide)
  simp only [daysBeforeYear, Nat.add_sub_cancel, Nat.succ_div, hleap]
  generalize y / 4 = a at *
  generalize y / 100 = b at *
  generalize y / 400 = c at *
  by_cases h4 : 4 ∣ y + 1 <;> by_cases h100 : 100 ∣ y + 1 <;> by_cases h400 : 400 ∣ y + 1 <;>
    simp_all <;> omega

theorem monotone_daysBeforeYear : Monotone daysBeforeYear := by
  apply monotone_nat_of_le_succ
  intro year
  unfold daysBeforeYear
  dsimp only
  omega

theorem monotone_daysBeforeMonth (year : Nat) : Monotone (daysBeforeMonth year) := by
  apply monotone_nat_of_le_succ
  intro month
  match month with
  | 0 => exact Nat.le_refl _
  | month + 1 => exact Nat.le_add_right _ _

theorem daysBeforeMonth_succ (year month : Nat) (h : 1 ≤ month) :
    daysBeforeMonth year (month + 1) = daysBeforeMonth year month + daysInMonth year month := by
  match month with
  | month + 1 => rfl

theorem daysBeforeMonth_thirteen (year : Nat) :
    daysBeforeMonth year 13 = 365 + (if isLeap year then 1 else 0) := by
  simp only [daysBeforeMonth, daysInMonth]
  split <;> rfl

end Calendar

open Calendar

namespace Date

theorem yearOf_eq {year number : Nat} (hyear : 1 ≤ year ∧ year ≤ 9999)
    (hlow : daysBeforeYear year < number) (hhigh : number ≤ daysBeforeYear (year + 1)) :
    yearOf number = year := by
  apply climb_eq (yearOf.go number) (fun _ => rfl) (fun _ _ => rfl) monotone_daysBeforeYear hlow
    hhigh
  . unfold daysBeforeYear at hhigh
    dsimp only at hhigh
    omega
  . unfold daysBeforeYear at hlow
    dsimp only at hlow
    omega

theorem monthOf_eq {year month number : Nat} (hmonth : 1 ≤ month ∧ month ≤ 12)
    (hlow : daysBeforeMonth year month < number)
    (hhigh : number ≤ daysBeforeMonth year (month + 1)) : monthOf year number = month :=
  climb_eq (monthOf.go year number) (fun _ => rfl) (fun _ _ => rfl)
    (monotone_daysBeforeMonth year) hlow hhigh 11 1 hmonth.1 (by omega)

theorem dayOfYear_bounds (d : Date) :
    daysBeforeMonth d.year d.month < daysBeforeMonth d.year d.month + d.day ∧
      daysBeforeMonth d.year d.month + d.day ≤ daysBeforeMonth d.year (d.month + 1) ∧
      daysBeforeYear d.year + (daysBeforeMonth d.year d.month + d.day) ≤
        daysBeforeYear (d.year + 1) := by
  obtain ⟨year, month, day, hyear, hmonth, hday⟩ := d
  have hsucc := daysBeforeMonth_succ year month hmonth.1
  have hlast := monotone_daysBeforeMonth year (show month + 1 ≤ 13 by omega)
  rw [daysBeforeMonth_thirteen] at hlast
  have hnext := daysBeforeYear_succ year hyear.1
  dsimp only
  omega

theorem ofOrdinal?_ordinal (d : Date) : ofOrdinal? d.ordinal = some d := by
  obtain ⟨hlow, hhigh, hnext⟩ := d.dayOfYear_bounds
  have hyear : yearOf d.ordinal = d.year := by
    apply yearOf_eq d.valid.1 <;> unfold ordinal <;> omega
  have hrest : d.ordinal - daysBeforeYear d.year = daysBeforeMonth d.year d.month + d.day := by
    unfold ordinal
    omega
  have hmonth : monthOf d.year (daysBeforeMonth d.year d.month + d.day) = d.month :=
    monthOf_eq d.valid.2.1 hlow hhigh
  unfold ofOrdinal?
  dsimp only
  rw [hyear, hrest, hmonth, Nat.add_sub_cancel_left, ofYmd?, dif_pos d.valid]

theorem ordinal_of_ofOrdinal? {number : Nat} {d : Date} (h : ofOrdinal? number = some d) : d.ordinal = number := by
  unfold ofOrdinal? at h
  dsimp only at h
  generalize yearOf number = year at h
  generalize monthOf year (number - daysBeforeYear year) = month at h
  unfold ofYmd? at h
  split at h
  . next hvalid =>
    obtain rfl := Option.some.inj h
    have hday := hvalid.2.2.1
    unfold ordinal
    dsimp only
    omega
  . contradiction

end Date

namespace Moment

theorem ofClockReading?_clockReading (m : Moment) :
    ofClockReading? m.clockReading m.offset = some m := by
  have hreading : m.clockReading = ((m.date.ordinal * dayLength + m.time.val : Nat) : Int) := by
    unfold clockReading
    push_cast
    rfl
  have hday : (m.date.ordinal * dayLength + m.time.val) / dayLength = m.date.ordinal := by
    rw [Nat.mul_comm, Nat.mul_add_div (by decide), Nat.div_eq_of_lt m.time.isLt, Nat.add_zero]
  have htime : (m.date.ordinal * dayLength + m.time.val) % dayLength = m.time.val := by
    rw [Nat.mul_comm, Nat.mul_add_mod, Nat.mod_eq_of_lt m.time.isLt]
  unfold ofClockReading?
  rw [if_pos (by omega)]
  simp only [hreading, Int.toNat_natCast, hday, htime, Date.ofOrdinal?_ordinal]
  rfl

theorem clockReading_of_ofClockReading? {reading : Int} {offset : Option Int} {m : Moment}
    (h : ofClockReading? reading offset = some m) : m.clockReading = reading ∧ m.offset = offset := by
  unfold ofClockReading? at h
  split at h
  . next hreading =>
    obtain ⟨date, hdate, rfl⟩ := Option.map_eq_some_iff.mp h
    refine ⟨?_, rfl⟩
    rw [clockReading, Date.ordinal_of_ofOrdinal? hdate]
    have hparts := Nat.div_add_mod' reading.toNat dayLength
    dsimp only
    omega
  . contradiction

theorem toUtc?_of_utc {m : Moment} (h : m.offset = some 0) : m.toUtc? = some m := by
  have hinstant : m.instant = m.clockReading := by
    rw [instant, h]
    exact Int.sub_zero _
  rw [toUtc?, hinstant, ← h]
  exact m.ofClockReading?_clockReading

theorem toUtc?_eq_some {m u : Moment} : m.toUtc? = some u ↔ u.offset = some 0 ∧ u.instant = m.instant := by
  constructor
  . intro h
    obtain ⟨hreading, hoffset⟩ := clockReading_of_ofClockReading? h
    refine ⟨hoffset, ?_⟩
    rw [instant, hoffset, hreading]
    exact Int.sub_zero _
  . rintro ⟨hoffset, hinstant⟩
    rw [toUtc?, ← hinstant]
    exact toUtc?_of_utc hoffset

end Moment
end TenantTables
