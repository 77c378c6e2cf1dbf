import TenantTables.Failure
import TenantTables.Record
import TenantTables.Value.Equality

/-!
This module contains the checks of record data against the fields of a table. A value that is accepted
has one normal form for its type: text, a number, a truth value, or the ISO text of a date.
-/

namespace TenantTables

def Value.isBlank : Value → Bool
  | .null => true
  | .text s => s.isEmpty
  | _ => false

def Binary64.Place.isUnder (p : Place) (bound : Binary64) : Bool :=
  match bound.place? with
  | some q => p.lt q
  | none => false

def Binary64.Place.isOver (p : Place) (bound : Binary64) : Bool :=
  match bound.place? with
  | some q => q.lt p
  | none => false

namespace Field

/--
Splits a text into the digits before a point and those after it. The point comes with digits after it
or not at all, and one newline may end the text.
-/
def splitDigits? (s : String) : Option (List Char × List Char) :=
  let cs := s.toList
  let whole := cs.takeWhile Text.isDigit
  if whole.isEmpty then none
  else
    match cs.dropWhile Text.isDigit with
    | [] => some (whole, [])
    | ['\n'] => some (whole, [])
    | '.' :: more =>
      let fraction := more.takeWhile Text.isDigit
      let tail := more.dropWhile Text.isDigit
      if fraction.isEmpty || !(tail.isEmpty || tail == ['\n']) then none
      else some (whole, fraction)
    | _ => none

def number? (v : Value) : Outcome (Option Value) :=
  match v with
  | .int _ => .ok (some v)
  | .real x => .ok (if x.isNan then none else some v)
  | .text s =>
    match splitDigits? s with
    | none => .ok none
    | some (whole, []) =>
      if integerDigitLimit < whole.length then .error (.digitLimit whole.length)
      else .ok (some (.int (Text.natOfDigits whole)))
    | some (whole, fraction) => .ok (some (.real (Binary64.ofPointDigits whole fraction)))
  | _ => .ok none

def checkBounds (f : Field) (v : Value) (place : Binary64.Place)
    (low high : String → Binary64 → Rule) : Outcome Unit := do
  let rules := f.validation.getD {}
  if let some bound := rules.min then
    if place.isUnder bound then reject (low f.displayName bound) f.name v
  if let some bound := rules.max then
    if place.isOver bound then reject (high f.displayName bound) f.name v

def checkNumber (f : Field) (v : Value) : Outcome Value := do
  match ← number? v with
  | none => reject (.number f.displayName) f.name v
  | some n =>
    if let some (some place) := n.place? then
      checkBounds f v place .atLeast .atMost
    return n

def checkBoolean (f : Field) (v : Value) : Outcome Value :=
  match v with
  | .bool _ => .ok v
  | .text "true" => .ok (.bool true)
  | .text "false" => .ok (.bool false)
  | _ => reject (.boolean f.displayName) f.name v

def checkDate (f : Field) (v : Value) : Outcome Value :=
  match v with
  | .date d => .ok (.text d.print)
  | .moment m => .ok (.text m.print)
  | .text s =>
    match IsoReader.read (Text.trim s) with
    | .ok _ => .ok (.text (Text.trim s))
    | .error _ => reject (.date f.displayName) f.name v
  | _ => reject (.date f.displayName) f.name v

def patternFound (pattern text : String) : Bool :=
  pattern.isEmpty ||
    match Pattern.read pattern with
    | .ok p => p.found text
    | .error _ => false

def checkText (f : Field) (v : Value) : Outcome Value :=
  match v with
  | .text s => do
    if let some pattern := (f.validation.getD {}).pattern then
      if !patternFound pattern s then reject (.pattern f.displayName pattern) f.name v
    checkBounds f v (.ofInt s.length) .longEnough .shortEnough
    return v
  | _ => reject (.text f.displayName) f.name v

/--
The normal form of a value that is not null. Values of relations and computed values are taken as they
are.
-/
def check (f : Field) (v : Value) : Outcome Value :=
  match f.type with
  | .number => checkNumber f v
  | .boolean => checkBoolean f v
  | .date => checkDate f v
  | .text => checkText f v
  | .relation => .ok v
  | .computed => .ok v

def findDuplicate? (f : Field) (v : Value) (records : List Record) : Option Record :=
  records.find? fun r =>
    match r.data.get? f.name with
    | some w => w.equals v
    | none => false

def ensureUnique (f : Field) (v : Value) (records : List Record) : Outcome Unit :=
  match findDuplicate? f v records with
  | some _ => reject (.unique f.displayName) f.name v
  | none => .ok ()

def accept (f : Field) (data : Entries) : Outcome (Option Value) :=
  let v := data.get f.name
  if f.required && v.isBlank then reject (.required f.displayName) f.name v
  else if v.isNull then .ok none
  else (f.check v).map some

end Field

def validate (fields : List Field) (data : Entries) : Outcome Entries :=
  fields.foldlM
    (fun accepted f => do
      match ← f.accept data with
      | some v => return accepted.put f.name v
      | none => return accepted)
    data

end TenantTables
