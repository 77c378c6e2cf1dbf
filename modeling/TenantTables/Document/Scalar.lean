import TenantTables.Document.Reading
import TenantTables.Number.Reading

/-!
This module contains the reading of single values. A number, an integer and a truth value may each be
written as text, and as each other where nothing is lost.
-/

namespace TenantTables.Document.Reader

def text : Reader String
  | .text s => .value s
  | v => .mismatch .text v

def choice (names : List (String × α)) : Reader α := fun v =>
  let found := match v with
    | .text s => names.lookup s
    | _ => none
  match found with
  | some a => .value a
  | none => .mismatch (.choice (names.map (·.1))) v

def booleanWords : List (String × Bool) :=
  [("0", false), ("off", false), ("f", false), ("false", false), ("n", false), ("no", false),
   ("1", true), ("on", true), ("t", true), ("true", true), ("y", true), ("yes", true)]

def wordRange : Int × Int := (-9223372036854775808, 9223372036854775807)

def boolean : Reader Bool
  | .bool b => .value b
  | v@(.text s) =>
    match booleanWords.lookup s.toLower with
    | some b => .value b
    | none => .mismatch .booleanText v
  | v@(.int i) => ofInteger v i
  | v@(.real x) =>
    match x.toInt? with
    | some i => if wordRange.1 < i then ofInteger v i else .mismatch .boolean v
    | none => .mismatch .boolean v
  | v => .mismatch .boolean v
where
  ofInteger (v : Value) (i : Int) : Reading Bool :=
    if i = 0 then .value false
    else if i = 1 then .value true
    else if wordRange.1 ≤ i ∧ i ≤ wordRange.2 then .mismatch .booleanText v
    else .mismatch .boolean v

def dropUnderscores (cs : List Char) : List Char :=
  let single := cs.zip (cs.drop 1) |>.all fun (a, b) => !(a = '_' && b = '_')
  if single && cs.head? ≠ some '_' && cs.getLast? ≠ some '_' then cs.filter (· ≠ '_') else cs

def number : Reader Binary64
  | .real x => .value x
  | .bool b => .value (.ofInt (if b then 1 else 0))
  | v@(.int i) =>
    let x := Binary64.ofInt i
    if x.isFinite then .value x else .mismatch .number v
  | v@(.text s) =>
    let cs := Text.trimBy Text.isPlainSpace s.toList
    match Binary64.readPlain? Char.isDigit (dropUnderscores cs) with
    | some x => .value x
    | none => .mismatch .numberText v
  | v => .mismatch .number v

def integerDigits? (s : String) : Option (List Char) :=
  let cs := Text.trimBy Text.isPlainSpace s.toList
  let unsigned := match cs with
    | '+' :: rest => if rest.head? = some '-' then none else some rest
    | _ => some cs
  (unsigned.bind dropZeros?).map fun cs =>
    match cs.dropWhile (· ≠ '.') with
    | '.' :: zeros =>
      if zeros.all (· = '0') then cs.takeWhile (· ≠ '.') else cs
    | _ => cs
where
  dropZeros? (cs : List Char) : Option (List Char) :=
    match cs with
    | '0' :: rest =>
      let kept := rest.dropWhile fun c => c = '0' || c = '_'
      match kept with
      | [] => cs.getLast?.map ([·])
      | '.' :: _ => some (((cs.take (cs.length - kept.length)).getLast?.toList) ++ kept)
      | c :: _ => if c.isDigit then some kept else none
    | c :: _ => if c.isDigit ∨ c = '-' then some cs else none
    | [] => none

def integer : Reader Int
  | .int i => .value i
  | .bool b => .value (if b then 1 else 0)
  | v@(.real x) =>
    if !x.isFinite then .mismatch .infinite v
    else
      match x.toInt? with
      | some i =>
        if wordRange.1 < i ∧ i ≤ wordRange.2 then .value i else .mismatch .integerSize v
      | none => .mismatch .fraction v
  | v@(.text s) =>
    if integerDigitLimit < s.utf8ByteSize then .mismatch .integerSize v
    else
      match integerDigits? s with
      | none => .mismatch .integerText v
      | some cs =>
        let cs := dropUnderscores cs
        let (negative, ds) := match cs with
          | '-' :: ds => (true, ds)
          | _ => (false, cs)
        if ds.isEmpty || !ds.all Char.isDigit then .mismatch .integerText v
        else
          let n : Int := Text.natOfDigits ds
          .value (if negative then -n else n)
  | v => .mismatch .integer v

def integerFrom (bound : Int) : Reader Int := fun v =>
  (integer v).andThen fun i => if bound ≤ i then .value i else .mismatch (.atLeast bound) v

end TenantTables.Document.Reader
