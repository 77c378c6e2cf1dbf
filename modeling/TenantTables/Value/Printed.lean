import TenantTables.Calendar.Iso
import TenantTables.Identifier
import TenantTables.Number.Reading
import TenantTables.Number.Shortest
import TenantTables.Text.Quoted
import TenantTables.Value.Basic

namespace TenantTables

namespace Calendar

def describeDuration (micros : Int) : String :=
  let days := micros.fdiv dayLength
  let rest := (micros.fmod dayLength).toNat
  let part (name : String) (n : Int) : List String :=
    if n = 0 then [] else [name ++ "=" ++ toString n]
  let parts := part "days" days ++ part "seconds" (rest / second) ++
    part "microseconds" (rest % second)
  "datetime.timedelta(" ++ (if parts.isEmpty then "0" else ", ".intercalate parts) ++ ")"

end Calendar

open Calendar

def Date.describe (d : Date) : String :=
  "datetime.date(" ++ ", ".intercalate [toString d.year, toString d.month, toString d.day] ++ ")"

def Moment.describe (m : Moment) : String :=
  let t := m.time.val
  let tail :=
    if t % second ≠ 0 then [t / second % 60, t % second]
    else if t / second % 60 ≠ 0 then [t / second % 60]
    else []
  let fields := [m.date.year, m.date.month, m.date.day, t / hour, t / minute % 60] ++ tail
  let zone := match m.offset with
    | none => []
    | some 0 => ["tzinfo=datetime.timezone.utc"]
    | some o => ["tzinfo=datetime.timezone(" ++ describeDuration o ++ ")"]
  "datetime.datetime(" ++ ", ".intercalate (fields.map toString ++ zone) ++ ")"

namespace Value

mutual

def describe : Value → String
  | .null => "None"
  | .bool b => if b then "True" else "False"
  | .int i => toString i
  | .real x => x.print
  | .text s => Text.quoted s
  | .date d => d.describe
  | .moment m => m.describe
  | .uuid n => "UUID('" ++ Identifier.print n ++ "')"
  | .list items => "[" ++ ", ".intercalate (describeItems items) ++ "]"
  | .map entries => "\x7b" ++ ", ".intercalate (describeEntries entries) ++ "\x7d"

def describeItems : List Value → List String
  | [] => []
  | v :: vs => describe v :: describeItems vs

def describeEntries : List (String × Value) → List String
  | [] => []
  | (k, v) :: es => (Text.quoted k ++ ": " ++ describe v) :: describeEntries es

end

def print : Value → String
  | .text s => s
  | .date d => d.print
  | .moment m => m.printWith " "
  | .uuid n => Identifier.print n
  | v => v.describe

mutual

def isLong : Value → Bool
  | .int i => integerDigitLimit < (Nat.toDigits 10 i.natAbs).length
  | .list items => itemsLong items
  | .map entries => entriesLong entries
  | _ => false

def itemsLong : List Value → Bool
  | [] => false
  | v :: vs => isLong v || itemsLong vs

def entriesLong : List (String × Value) → Bool
  | [] => false
  | (_, v) :: es => isLong v || entriesLong es

end

end Value
end TenantTables
