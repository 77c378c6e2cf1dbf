import TenantTables.Calendar.IsoReader
import TenantTables.Document.Scalar
import TenantTables.Identifier
import TenantTables.Value.Printed

namespace TenantTables

namespace Text

def isSnakeStart (c : Char) : Bool :=
  'a' ≤ c && c ≤ 'z'

def isSnakeChar (c : Char) : Bool :=
  isSnakeStart c || ('0' ≤ c && c ≤ '9') || c = '_'

/--
A lowercase letter, then lowercase letters, digits and underscores. A newline at the end is not
looked at.
-/
def isSnakeCase (s : String) : Bool :=
  match s.toList with
  | [] => false
  | c :: cs => isSnakeStart c && (cs.all isSnakeChar || (cs.getLast? = some '\n' &&
      cs.dropLast.all isSnakeChar))

end Text

def IsoFault.message (text : String) : IsoFault → String
  | .malformed => "Invalid isoformat string: " ++ Text.quoted text
  | .yearRange year => "year " ++ toString year ++ " is out of range"
  | .monthRange => "month must be in 1..12"
  | .dayRange => "day is out of range for month"
  | .hourRange => "hour must be in 0..23"
  | .minuteRange => "minute must be in 0..59"
  | .secondRange => "second must be in 0..59"
  | .offsetRange offset =>
    "offset must be a timedelta strictly between -timedelta(hours=24) and timedelta(hours=24), not "
      ++ Calendar.describeDuration offset ++ "."

namespace Document

inductive Refusal where
  | reason (text : String)
  | halt (h : Halt)
  deriving DecidableEq, Repr

abbrev Ruling (α : Type) := Except Refusal α

namespace Ruling

def requireText (label : String) : Value → Ruling String
  | .text s => .ok s
  | _ => .error (.halt (.notText label))

def nonBlank (label s : String) : Except String String :=
  if Text.isBlank s then .error (label ++ " cannot be empty") else .ok s

def snakeCase (label s : String) : Except String String :=
  if Text.isSnakeCase s then .ok s else .error (label ++ " must be in snake_case")

def identifier : Value → Ruling String
  | .uuid n => .ok (Identifier.print n)
  | .text s =>
    match Identifier.normalize s with
    | .ok s => .ok s
    | .error f => .error (.reason f.message)
  | _ => .error (.halt .notIdentifier)

def aware (m : Moment) : Except String Moment :=
  if m.isAware then .ok m else .error "datetime must be timezone-aware"

def moment (label : String) : Value → Ruling Moment
  | .moment m => (aware m).mapError .reason
  | .text s =>
    match IsoReader.read s with
    | .ok m => (aware m).mapError .reason
    | .error f => .error (.reason (f.message s))
  | _ => .error (.halt (.notMoment label))

end Ruling

def Reader.ruled (rule : Value → Ruling α) : Reader α := fun v =>
  match rule v with
  | .ok a => .value a
  | .error (.reason text) => .mismatch (.rule text) v
  | .error (.halt h) => .halted h

namespace Reader

def textWith (rule : String → Except String String) : Reader String := fun v =>
  (text v).andThen fun s => .require (rule s) v

def identifier : Reader String := ruled Ruling.identifier

def moment (label : String) : Reader Moment := ruled (Ruling.moment label)

end Reader
end Document
end TenantTables
