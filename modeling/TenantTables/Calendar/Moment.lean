import TenantTables.Calendar.Date

/-!
This module contains moments: a date and a time of day, read either on no particular clock or on a
clock with a known offset from UTC. All durations are whole microseconds.
-/

namespace TenantTables

namespace Calendar

def second : Nat := 1000000

def minute : Nat := 60 * second

def hour : Nat := 60 * minute

def dayLength : Nat := 24 * hour

end Calendar

open Calendar

structure Moment where
  date : Date
  time : Fin dayLength
  offset : Option Int
  deriving DecidableEq

namespace Moment

instance : Inhabited Moment where
  default := ⟨default, ⟨0, by decide⟩, none⟩

def isAware (m : Moment) : Bool :=
  m.offset.isSome

def clockReading (m : Moment) : Int :=
  m.date.ordinal * dayLength + m.time.val

def instant (m : Moment) : Int :=
  m.clockReading - m.offset.getD 0

def ofClockReading? (reading : Int) (offset : Option Int) : Option Moment :=
  if 0 ≤ reading then
    let n := reading.toNat
    (Date.ofOrdinal? (n / dayLength)).map fun date =>
      ⟨date, ⟨n % dayLength, Nat.mod_lt n (by decide)⟩, offset⟩
  else none

def toUtc? (m : Moment) : Option Moment :=
  ofClockReading? m.instant (some 0)

def addMicroseconds? (m : Moment) (n : Int) : Option Moment :=
  ofClockReading? (m.clockReading + n) m.offset

def ofTime? (date : Date) (hours minutes seconds micros : Nat) (offset : Option Int) :
    Option Moment :=
  let n := hours * hour + minutes * minute + seconds * second + micros
  if h : n < dayLength then some ⟨date, ⟨n, h⟩, offset⟩ else none

end Moment
end TenantTables
