/-!
This module contains the dates of the proleptic Gregorian calendar from year 1 to year 9999, and
their numbering by days.
-/

namespace TenantTables

namespace Calendar

def isLeap (year : Nat) : Bool :=
  year % 4 = 0 && (year % 100 ≠ 0 || year % 400 = 0)

def daysInMonth (year month : Nat) : Nat :=
  match month with
  | 2 => if isLeap year then 29 else 28
  | 4 | 6 | 9 | 11 => 30
  | _ => 31

def daysBeforeYear (year : Nat) : Nat :=
  let y := year - 1
  y * 365 + y / 4 - y / 100 + y / 400

def daysBeforeMonth (year : Nat) : Nat → Nat
  | 0 => 0
  | 1 => 0
  | month + 1 => daysBeforeMonth year month + daysInMonth year month

def IsDate (year month day : Nat) : Prop :=
  (1 ≤ year ∧ year ≤ 9999) ∧ (1 ≤ month ∧ month ≤ 12) ∧ 1 ≤ day ∧ day ≤ daysInMonth year month

instance (year month day : Nat) : Decidable (IsDate year month day) := by
  unfold IsDate
  infer_instance

end Calendar

open Calendar

structure Date where
  year : Nat
  month : Nat
  day : Nat
  valid : IsDate year month day := by decide
  deriving DecidableEq

namespace Date

instance : Inhabited Date where
  default := { year := 1, month := 1, day := 1 }

def ordinal (d : Date) : Nat :=
  daysBeforeYear d.year + daysBeforeMonth d.year d.month + d.day

/--
The year that a day number falls into. The first guess is never too late, and falls behind by less
than one year in four centuries.
-/
def yearOf (ordinal : Nat) : Nat :=
  go 64 (ordinal / 366 + 1)
where
  go : Nat → Nat → Nat
    | 0, year => year
    | steps + 1, year => if daysBeforeYear (year + 1) < ordinal then go steps (year + 1) else year

def monthOf (year dayOfYear : Nat) : Nat :=
  go 11 1
where
  go : Nat → Nat → Nat
    | 0, month => month
    | steps + 1, month =>
      if daysBeforeMonth year (month + 1) < dayOfYear then go steps (month + 1) else month

def ofYmd? (year month day : Nat) : Option Date :=
  if h : IsDate year month day then some ⟨year, month, day, h⟩ else none

def ofOrdinal? (ordinal : Nat) : Option Date :=
  let year := yearOf ordinal
  let dayOfYear := ordinal - daysBeforeYear year
  let month := monthOf year dayOfYear
  ofYmd? year month (dayOfYear - daysBeforeMonth year month)

end Date
end TenantTables
