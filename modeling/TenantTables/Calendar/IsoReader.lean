import TenantTables.Calendar.Moment
import TenantTables.Text.Character

/-!
This module contains the reading of moments from ISO 8601 text: calendar dates and week dates with or
without hyphens, then any one separator, then a time with or without colons, a fraction and an
offset.

The text is taken as its octets, each octet of a longer character being a copy of that character, for
positions in the text count octets.
-/

namespace TenantTables

open Calendar

inductive IsoFault where
  | malformed
  | yearRange (year : Nat)
  | monthRange
  | dayRange
  | hourRange
  | minuteRange
  | secondRange
  | offsetRange (offset : Int)
  deriving DecidableEq, Repr

namespace IsoReader

def octets (cs : List Char) : List Char :=
  cs.flatMap fun c => List.replicate c.utf8Size c

def digits? : Nat → List Char → Option (Nat × List Char)
  | n, cs =>
    let ds := cs.take n
    if ds.length = n && ds.all Char.isDigit then some (Text.natOfDigits ds, cs.drop n) else none

/--
Where the date ends. A week date may leave a choice, which goes to a hyphen before the time when
digits follow it, and to a day of the week otherwise.
-/
def dateLength? (cs : List Char) : Option Nat :=
  if cs.length = 7 then some 7
  else if cs[4]? = some '-' then
    if cs[5]? = some 'W' then
      if cs[8]? = some '-' then
        if cs.length = 9 then none
        else if (cs[10]?.map Char.isDigit).getD false then some 8
        else some 10
      else some 8
    else some 10
  else if cs[4]? = some 'W' then
    let run := 7 + ((cs.drop 7).takeWhile Char.isDigit).length
    if run < 9 then some run
    else if run % 2 = 0 then some 7
    else some 8
  else some 8

def newYear (year : Nat) : Int :=
  if year = 0 then -365 else daysBeforeYear year + 1

def weekday (ordinal : Int) : Int :=
  (ordinal + 6) % 7

/--
The day number of a day of a week of a year. Years that start on a Thursday have 53 weeks, and so do
leap years that start on a Wednesday.
-/
def weekDate? (year week day : Nat) : Option Int :=
  let first := newYear year
  let start := weekday first
  let long := start = 3 ∨ (start = 2 ∧ isLeap year)
  if week = 0 ∨ 53 < week ∨ (week = 53 ∧ ¬long) then none
  else if day = 0 ∨ 7 < day then none
  else
    let monday := if 3 < start then first - start + 7 else first - start
    some (monday + (week - 1) * 7 + (day - 1))

/--
Reads a date that fills the text. The result is a year, a month and a day that may still be out of
range: a day before the calendar is in no month of its first year, and one after it is in year 10000.
-/
def readDate (cs : List Char) : Except IsoFault (Nat × Nat × Nat) := do
  let some (year, cs) := digits? 4 cs | throw .malformed
  let hyphens := cs.head? = some '-'
  let cs := if hyphens then cs.drop 1 else cs
  if cs.head? = some 'W' then
    let some (week, cs) := digits? 2 (cs.drop 1) | throw .malformed
    let day ←
      if cs.isEmpty then pure 1
      else if hyphens && cs.head? ≠ some '-' then throw .malformed
      else
        match digits? 1 (if hyphens then cs.drop 1 else cs) with
        | some (day, []) => pure day
        | _ => throw .malformed
    let some ordinal := weekDate? year week day | throw .malformed
    if ordinal ≤ 0 then return (1, 0, 1)
    else
      match Date.ofOrdinal? ordinal.toNat with
      | some d => return (d.year, d.month, d.day)
      | none => return (10000, 1, 1)
  else
    let some (month, cs) := digits? 2 cs | throw .malformed
    if hyphens && cs.head? ≠ some '-' then throw .malformed
    else
      match digits? 2 (if hyphens then cs.drop 1 else cs) with
      | some (day, []) => return (year, month, day)
      | _ => throw .malformed

structure ClockFields where
  hours : Nat := 0
  minutes : Nat := 0
  seconds : Nat := 0
  micros : Nat := 0

/--
Reads up to six digits of a fraction and passes over the digits after them. The flag tells whether
something is left before `next`, the character after the segment.
-/
def readFraction? (cs : List Char) (next : Char) : Option (Nat × Bool) :=
  let n := min cs.length 6
  (digits? n cs).map fun (value, rest) =>
    let rest := rest.dropWhile Char.isDigit
    (value * Nat.pow 10 (6 - n), rest.headD next ≠ '\x00')

/--
Reads hours, then minutes and seconds if there are any, then a fraction. Colons stand between all of
them or between none. The flag tells whether something is left before `next`, the character after
the segment.
-/
def readClock? (cs : List Char) (next : Char) : Option (ClockFields × Bool) :=
  (digits? 2 cs).bind fun (hours, cs) =>
    let fields : ClockFields := { hours }
    match cs with
    | [] => some (fields, next ≠ '\x00')
    | [c] => some (fields, c ≠ '\x00')
    | c :: rest =>
      if c = ':' then afterHours true fields rest
      else if c = '.' ∨ c = ',' then withFraction fields rest
      else afterHours false fields cs
where
  withFraction (fields : ClockFields) (cs : List Char) : Option (ClockFields × Bool) :=
    (readFraction? cs next).map fun (micros, more) => ({ fields with micros }, more)
  afterHours (colons : Bool) (fields : ClockFields) (cs : List Char) :
      Option (ClockFields × Bool) :=
    (digits? 2 cs).bind fun (minutes, cs) =>
      let fields := { fields with minutes }
      match cs with
      | [] => some (fields, next ≠ '\x00')
      | [c] => some (fields, c ≠ '\x00')
      | c :: rest =>
        if colons && c = ':' then afterMinutes colons fields rest
        else if c = '.' ∨ c = ',' then withFraction fields rest
        else if colons then none
        else afterMinutes colons fields cs
  afterMinutes (colons : Bool) (fields : ClockFields) (cs : List Char) :
      Option (ClockFields × Bool) :=
    (digits? 2 cs).bind fun (seconds, cs) =>
      let fields := { fields with seconds }
      match cs with
      | [] => some (fields, next ≠ '\x00')
      | [c] => some (fields, c ≠ '\x00')
      | c :: rest =>
        if colons && c = ':' then withFraction fields rest
        else if c = '.' ∨ c = ',' then withFraction fields rest
        else if colons then none
        else withFraction fields cs

def ClockFields.total (c : ClockFields) : Nat :=
  c.hours * hour + c.minutes * minute + c.seconds * second + c.micros

def readTime (cs : List Char) : Except IsoFault (ClockFields × Option Int) := do
  let isZone (c : Char) : Bool := c = '+' || c = '-' || c = 'Z'
  let clock := cs.takeWhile fun c => !isZone c
  let zone := cs.dropWhile fun c => !isZone c
  let some (fields, more) := readClock? clock (zone.headD '\x00') | throw .malformed
  match zone with
  | [] => if more then throw .malformed else return (fields, none)
  | 'Z' :: rest =>
    if rest.headD '\x00' = '\x00' then return (fields, some 0) else throw .malformed
  | sign :: rest =>
    let some (offset, more) := readClock? rest '\x00' | throw .malformed
    if more then throw .malformed
    else
      let n : Int := offset.total
      let seconds := offset.total / second
      let n := if seconds = 0 then 0 else if sign = '-' then -n else n
      return (fields, some n)

def readAfterDate : List Char → Except IsoFault (ClockFields × Option Int)
  | [] => .ok ({}, none)
  | separator :: rest => readTime (rest.drop (separator.utf8Size - 1))

def demand (condition : Bool) (fault : IsoFault) : Except IsoFault Unit :=
  if condition then .ok () else .error fault

def demandSome (o : Option α) (fault : IsoFault) : Except IsoFault α :=
  match o with
  | some a => .ok a
  | none => .error fault

def read (s : String) : Except IsoFault Moment := do
  demand (7 ≤ s.length) .malformed
  let cs := octets s.toList
  let n ← demandSome (dateLength? cs) .malformed
  let (year, month, day) ← readDate (cs.take n)
  let (fields, offset) ← readAfterDate (cs.drop n)
  let o := offset.getD 0
  demand (o.natAbs < dayLength) (.offsetRange o)
  demand (1 ≤ year && year ≤ 9999) (.yearRange year)
  demand (1 ≤ month && month ≤ 12) .monthRange
  let date ← demandSome (Date.ofYmd? year month day) .dayRange
  demand (fields.hours < 24) .hourRange
  demand (fields.minutes < 60) .minuteRange
  demand (fields.seconds < 60) .secondRange
  demandSome (Moment.ofTime? date fields.hours fields.minutes fields.seconds fields.micros offset)
    .secondRange

end IsoReader
end TenantTables
