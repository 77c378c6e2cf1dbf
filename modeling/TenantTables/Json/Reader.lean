import TenantTables.Identifier
import TenantTables.Number.Reading
import TenantTables.Value.Basic

/-!
This module contains the reading of JSON text. Besides JSON proper it takes the words for the
infinities and for the value that is no number, which records may hold.
-/

namespace TenantTables.Json

inductive Fault where
  | malformed
  | digitLimit (digits : Nat)
  deriving DecidableEq, Repr

abbrev Step (α : Type) := Except Fault (α × List Char)

def isGap (c : Char) : Bool :=
  c = ' ' || c = '\t' || c = '\n' || c = '\r'

def skipGap (cs : List Char) : List Char :=
  cs.dropWhile isGap

def hexNumber? (cs : List Char) : Option Nat :=
  if cs.all fun c => c.toNat < 128 then
    cs.foldlM (fun n c => (Identifier.hexDigit? c).map (16 * n + ·)) 0
  else none

def escaped? : Char → Option Char
  | '"' => some '"'
  | '\\' => some '\\'
  | '/' => some '/'
  | 'b' => some '\x08'
  | 'f' => some '\x0c'
  | 'n' => some '\n'
  | 'r' => some '\r'
  | 't' => some '\t'
  | _ => none

def joinPair (high low : Nat) : Char :=
  Char.ofNat (0x10000 + (high - 0xd800) * 0x400 + (low - 0xdc00))

def isHigh (n : Nat) : Bool := 0xd800 ≤ n && n < 0xdc00

def isLow (n : Nat) : Bool := 0xdc00 ≤ n && n < 0xe000

def lone (n : Nat) : Char :=
  if isHigh n || isLow n then '\ufffd' else Char.ofNat n

def readText : List Char → Step (List Char)
  | [] => .error .malformed
  | '"' :: cs => .ok ([], cs)
  | '\\' :: 'u' :: a :: b :: c :: d :: '\\' :: 'u' :: e :: f :: g :: h :: cs =>
    match hexNumber? [a, b, c, d], hexNumber? [e, f, g, h] with
    | some m, some n =>
      if isHigh m && isLow n then prepend (joinPair m n) (readText cs)
      else prepend (lone m) (readText ('\\' :: 'u' :: e :: f :: g :: h :: cs))
    | _, _ => .error .malformed
  | '\\' :: 'u' :: a :: b :: c :: d :: cs =>
    match hexNumber? [a, b, c, d] with
    | some n => prepend (lone n) (readText cs)
    | none => .error .malformed
  | '\\' :: c :: cs =>
    match escaped? c with
    | some c => prepend c (readText cs)
    | none => .error .malformed
  | c :: cs => if c.toNat < 32 then .error .malformed else prepend c (readText cs)
where
  prepend (c : Char) (r : Step (List Char)) : Step (List Char) :=
    r.map fun (s, rest) => (c :: s, rest)

def splitFraction (cs : List Char) : List Char × List Char :=
  match cs with
  | '.' :: more =>
    let ds := more.takeWhile Char.isDigit
    if ds.isEmpty then ([], cs) else ('.' :: ds, more.dropWhile Char.isDigit)
  | _ => ([], cs)

def splitExponent (cs : List Char) : List Char × List Char :=
  match cs with
  | e :: more =>
    if e = 'e' ∨ e = 'E' then
      let sign := more.takeWhile fun c => c = '+' || c = '-'
      let rest := more.drop sign.length
      let ds := rest.takeWhile Char.isDigit
      if ds.isEmpty || 1 < sign.length then ([], cs)
      else (e :: sign ++ ds, rest.dropWhile Char.isDigit)
    else ([], cs)
  | [] => ([], cs)

def readNumber (cs : List Char) : Step Value :=
  let (negative, body) := match cs with
    | '-' :: rest => (true, rest)
    | _ => (false, cs)
  let digits := body.takeWhile Char.isDigit
  let whole := if digits.head? = some '0' then ['0'] else digits
  let (fraction, rest) := splitFraction (body.drop whole.length)
  let (exponent, rest) := splitExponent rest
  if whole.isEmpty then .error .malformed
  else if fraction.isEmpty && exponent.isEmpty then
    if integerDigitLimit < whole.length then .error (.digitLimit whole.length)
    else
      let n : Int := Text.natOfDigits whole
      .ok (.int (if negative then -n else n), rest)
  else
    match Binary64.readUnsigned? Char.isDigit negative (whole ++ fraction ++ exponent) with
    | some x => .ok (.real x, rest)
    | none => .error .malformed

def words : List (List Char × Value) :=
  [("null".toList, .null), ("true".toList, .bool true), ("false".toList, .bool false),
   ("NaN".toList, .real .nan), ("Infinity".toList, .real (.infinite false)),
   ("-Infinity".toList, .real (.infinite true))]

mutual

def readValue : Nat → List Char → Step Value
  | 0, _ => .error .malformed
  | fuel + 1, cs =>
    match words.find? fun w => w.1.isPrefixOf cs with
    | some (word, v) => .ok (v, cs.drop word.length)
    | none =>
      match cs with
      | '"' :: cs => (readText cs).map fun (s, rest) => (.text (String.ofList s), rest)
      | '[' :: cs =>
        match skipGap cs with
        | ']' :: rest => .ok (.list [], rest)
        | cs => (readItems fuel cs).map fun (vs, rest) => (.list vs, rest)
      | '\x7b' :: cs =>
        match skipGap cs with
        | '\x7d' :: rest => .ok (.map [], rest)
        | cs => (readMembers fuel cs).map fun (es, rest) => (.map (Entries.ofList es), rest)
      | cs => readNumber cs

def readItems : Nat → List Char → Except Fault (List Value × List Char)
  | 0, _ => .error .malformed
  | fuel + 1, cs => do
    let (v, rest) ← readValue fuel cs
    match skipGap rest with
    | ']' :: rest => return ([v], rest)
    | ',' :: rest => do
      let (vs, rest) ← readItems fuel (skipGap rest)
      return (v :: vs, rest)
    | _ => .error .malformed

def readMembers : Nat → List Char → Except Fault (List (String × Value) × List Char)
  | 0, _ => .error .malformed
  | fuel + 1, cs => do
    let (key, rest) ← match cs with
      | '"' :: cs => readText cs
      | _ => .error .malformed
    let rest ← match skipGap rest with
      | ':' :: rest => pure (skipGap rest)
      | _ => .error .malformed
    let (v, rest) ← readValue fuel rest
    let member := (String.ofList key, v)
    match skipGap rest with
    | '\x7d' :: rest => return ([member], rest)
    | ',' :: rest => do
      let (es, rest) ← readMembers fuel (skipGap rest)
      return (member :: es, rest)
    | _ => .error .malformed

end

def read (s : String) : Except Fault Value := do
  let cs := skipGap s.toList
  let (v, rest) ← readValue (2 * cs.length + 2) cs
  if (skipGap rest).isEmpty then return v
  throw .malformed

end TenantTables.Json
