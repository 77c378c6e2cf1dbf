import TenantTables.Text.Character
import TenantTables.Text.Quoted
import TenantTables.Text.Space

/-!
This module contains the identifiers of tables, fields, relations and records: numbers of 128 bits
with one written form and many accepted ones.
-/

namespace TenantTables.Identifier

def print (n : Nat) : String :=
  let ds := Text.hexDigits 32 n
  let group (start length : Nat) : List Char := (ds.drop start).take length
  String.ofList <| List.intercalate ['-'] [group 0 8, group 8 4, group 12 4, group 16 4, group 20 12]

inductive Fault where
  | badlyFormed
  | badDigits (digits : String)
  deriving DecidableEq, Repr

def Fault.message : Fault → String
  | .badlyFormed => "badly formed hexadecimal UUID string"
  | .badDigits digits =>
    "invalid literal for int() with base 16: " ++ String.ofList ((Text.quoted digits).toList.take 200)

def removeWord (word : List Char) (cs : List Char) : List Char :=
  go cs.length cs
where
  go : Nat → List Char → List Char
    | 0, cs => cs
    | _ + 1, [] => []
    | fuel + 1, c :: cs =>
      if word.isPrefixOf (c :: cs) then go fuel ((c :: cs).drop word.length) else c :: go fuel cs

def hexDigit? (c : Char) : Option Nat :=
  if 'a' ≤ c ∧ c ≤ 'f' then some (c.toNat - 'a'.toNat + 10)
  else if 'A' ≤ c ∧ c ≤ 'F' then some (c.toNat - 'A'.toNat + 10)
  else Text.digit? c

def readGrouped? : Nat → List Char → Option Nat
  | n, [] => some n
  | n, '_' :: c :: cs => (hexDigit? c).bind fun d => readGrouped? (16 * n + d) cs
  | n, c :: cs => (hexDigit? c).bind fun d => readGrouped? (16 * n + d) cs

/--
Reads a number in base 16 with white space around it, a plus sign, the mark of the base, digits of
any script, and underscores. The zero in the mark is that of any script, too.
-/
def readNumber? (cs : List Char) : Option Nat :=
  let cs := Text.trimBy Text.isPlainSpace cs
  let cs := match cs with
    | '+' :: rest => rest
    | _ => cs
  let (marked, cs) := match cs with
    | zero :: x :: rest =>
      if Text.digit? zero = some 0 ∧ (x = 'x' ∨ x = 'X') then (true, rest) else (false, cs)
    | _ => (false, cs)
  match cs with
  | [] => none
  | '_' :: _ :: _ => if marked then readGrouped? 0 cs else none
  | _ => readGrouped? 0 cs

def read (s : String) : Except Fault Nat :=
  let cs := Text.trimChars s.toList
  let cs := removeWord "uuid:".toList (removeWord "urn:".toList cs)
  let cs := (Text.trimBy (fun c => c = '\x7b' || c = '\x7d') cs).filter (· ≠ '-')
  if cs.length ≠ 32 then .error .badlyFormed
  else
    match readNumber? cs with
    | some n => .ok n
    | none => .error (.badDigits (String.ofList cs))

def normalize (s : String) : Except Fault String :=
  (read s).map print

end TenantTables.Identifier
