import TenantTables.Number.Reading
import TenantTables.Value.Printed

/-!
This module contains the tokens of formulas. A token is a term or a plus sign, and white space may
stand between tokens.
-/

namespace TenantTables.Formula

inductive Term where
  | text (s : String)
  | whole (n : Nat)
  | real (x : Binary64)
  | field (name : String)
  deriving DecidableEq

inductive Token where
  | term (t : Term)
  | plus
  deriving DecidableEq

inductive Fault where
  | unexpectedCharacter (c : Char) (position : Nat)
  | unexpectedToken (t : Token) (position : Nat)
  | unfinished
  | unknownField (name : String)
  | digitLimit (digits : Nat)
  | longInteger
  deriving DecidableEq

def Token.value : Token → Value
  | .term (.text s) => .text s
  | .term (.whole n) => .int n
  | .term (.real x) => .real x
  | .term (.field name) => .text name
  | .plus => .text "+"

def Fault.message : Fault → String
  | .unexpectedCharacter c position =>
    "unexpected character " ++ Text.quoted c.toString ++ " at position " ++ toString position
  | .unexpectedToken t position =>
    "unexpected " ++ t.value.describe ++ " at position " ++ toString position
  | .unfinished => "formula ends where a value was expected"
  | .unknownField name => "unknown field " ++ Text.quoted name
  | .digitLimit digits => digitLimitMessage digits
  | .longInteger => longIntegerMessage

namespace Token

def isGap (c : Char) : Bool :=
  c = ' ' || c = '\t' || c = '\r' || c = '\n'

def isNameStart (c : Char) : Bool :=
  c.isAlpha || c = '_'

def isNameChar (c : Char) : Bool :=
  c.isAlphanum || c = '_'

/--
Reads a quoted text after its opening mark, up to the same mark. A backslash stands before a character
that is taken as it is, which must not be a newline. The result is the text, the number of characters
read and the rest.
-/
def readQuoted? (mark : Char) : List Char → Option (List Char × Nat × List Char)
  | [] => none
  | ['\\'] => none
  | '\\' :: c :: cs =>
    if c = '\n' then none
    else (readQuoted? mark cs).map fun (s, n, rest) => (c :: s, n + 2, rest)
  | c :: cs =>
    if c = mark then some ([], 1, cs)
    else (readQuoted? mark cs).map fun (s, n, rest) => (c :: s, n + 1, rest)

def splitNumber (cs : List Char) : List Char × List Char × List Char :=
  let whole := cs.takeWhile Text.isDigit
  match cs.dropWhile Text.isDigit with
  | '.' :: more =>
    let fraction := more.takeWhile Text.isDigit
    if fraction.isEmpty then (whole, [], '.' :: more)
    else (whole, fraction, more.dropWhile Text.isDigit)
  | rest => (whole, [], rest)

def read (position : Nat) : List Char → Except Fault (Option (Token × Nat × List Char))
  | [] => .ok none
  | c :: cs =>
    if c = '"' ∨ c = '\'' then
      match readQuoted? c cs with
      | some (s, n, rest) => .ok (some (.term (.text (String.ofList s)), n + 1, rest))
      | none => .error (.unexpectedCharacter c position)
    else if Text.isDigit c then
      let (whole, fraction, rest) := splitNumber (c :: cs)
      if fraction.isEmpty then
        if integerDigitLimit < whole.length then .error (.digitLimit whole.length)
        else .ok (some (.term (.whole (Text.natOfDigits whole)), whole.length, rest))
      else
        .ok (some (.term (.real (Binary64.ofPointDigits whole fraction)),
          whole.length + 1 + fraction.length, rest))
    else if isNameStart c then
      let name := c :: cs.takeWhile isNameChar
      .ok (some (.term (.field (String.ofList name)), name.length, cs.dropWhile isNameChar))
    else if c = '+' then .ok (some (.plus, 1, cs))
    else .error (.unexpectedCharacter c position)

def next (position : Nat) (cs : List Char) :
    Except Fault (Option (Token × Nat × Nat × List Char)) :=
  let start := position + (cs.takeWhile isGap).length
  (read start (cs.dropWhile isGap)).map fun found =>
    found.map fun (t, n, rest) => (t, start, start + n, rest)

def all (cs : List Char) : Except Fault (List (Token × Nat)) :=
  go (cs.length + 1) 0 cs
where
  go : Nat → Nat → List Char → Except Fault (List (Token × Nat))
    | 0, _, _ => .ok []
    | fuel + 1, position, cs => do
      match ← next position cs with
      | none => return []
      | some (t, start, after, rest) => return (t, start) :: (← go fuel after rest)

end Token
end TenantTables.Formula
