import TenantTables.Number.Binary64
import TenantTables.Text.Character
import TenantTables.Text.Space

namespace TenantTables

def integerDigitLimit : Nat := 4300

def digitLimitMessage (digits : Nat) : String :=
  "Exceeds the limit (" ++ toString integerDigitLimit ++
    " digits) for integer string conversion: value has " ++ toString digits ++
    " digits; use sys.set_int_max_str_digits() to increase the limit"

def longIntegerMessage : String :=
  "Exceeds the limit (" ++ toString integerDigitLimit ++
    " digits) for integer string conversion; use sys.set_int_max_str_digits() to increase the limit"

namespace Binary64

def ofPointDigits (whole fraction : List Char) : Binary64 :=
  ofDecimal false (Text.natOfDigits (whole ++ fraction)) (-fraction.length)

def splitSign : List Char → Bool × List Char
  | '-' :: cs => (true, cs)
  | '+' :: cs => (false, cs)
  | cs => (false, cs)

/--
An exponent part: nothing, or the letter with an optional sign and at least one digit. The value is
cut off at a bound that no text's digits can make up for.
-/
def readExponent? (isDigit : Char → Bool) : List Char → Option Int
  | [] => some 0
  | e :: cs =>
    if e = 'e' ∨ e = 'E' then
      let (negative, ds) := splitSign cs
      if ds.isEmpty || !ds.all isDigit then none
      else
        let significant := ds.dropWhile fun c => Text.digit? c = some 0
        let n : Int :=
          if 18 < significant.length then 1000000000000000000 else Text.natOfDigits significant
        some (if negative then -n else n)
    else none

def readUnsigned? (isDigit : Char → Bool) (negative : Bool) (cs : List Char) : Option Binary64 :=
  let whole := cs.takeWhile isDigit
  let rest := cs.dropWhile isDigit
  let (fraction, tail) := match rest with
    | '.' :: more => (more.takeWhile isDigit, more.dropWhile isDigit)
    | _ => ([], rest)
  if whole.isEmpty && fraction.isEmpty then none
  else
    (readExponent? isDigit tail).map fun e =>
      ofDecimal negative (Text.natOfDigits (whole ++ fraction)) (e - fraction.length)

def lowerAscii (cs : List Char) : List Char :=
  cs.map Char.toLower

def readPlain? (isDigit : Char → Bool) (cs : List Char) : Option Binary64 :=
  let (negative, body) := splitSign cs
  let name := lowerAscii body
  if name = "inf".toList ∨ name = "infinity".toList then some (.infinite negative)
  else if name = "nan".toList then some .nan
  else readUnsigned? isDigit negative body

def ungroup? (isDigit : Char → Bool) (cs : List Char) : Option (List Char) :=
  go false cs
where
  go (afterDigit : Bool) : List Char → Option (List Char)
    | [] => some []
    | '_' :: c :: rest =>
      if afterDigit && isDigit c then (go true rest).map (c :: ·) else none
    | c :: rest => if c = '_' then none else (go (isDigit c) rest).map (c :: ·)

def read? (s : String) : Option Binary64 :=
  let cs := Text.trimBy Text.isPlainSpace s.toList
  (ungroup? Text.isDigit cs).bind (readPlain? Text.isDigit)

end Binary64

def readInteger? (s : String) : Option Int :=
  let cs := Text.trimBy Text.isPlainSpace s.toList
  (Binary64.ungroup? Text.isDigit cs).bind fun cs =>
    let (negative, ds) := Binary64.splitSign cs
    if ds.isEmpty || !ds.all Text.isDigit || integerDigitLimit < ds.length then none
    else
      let n : Int := Text.natOfDigits ds
      some (if negative then -n else n)

end TenantTables
