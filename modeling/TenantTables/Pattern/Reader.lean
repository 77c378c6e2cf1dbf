import TenantTables.Number.Reading
import TenantTables.Pattern.Source
import TenantTables.Text.Character

namespace TenantTables.Pattern

open Scan

def isOctal (c : Char) : Bool :=
  '0' ≤ c && c ≤ '7'

def isHex (c : Char) : Bool :=
  c.isDigit || ('a' ≤ c && c ≤ 'f') || ('A' ≤ c && c ≤ 'F')

def hexValue (cs : List Char) : Nat :=
  cs.foldl (fun n c =>
    16 * n + (if c.isDigit then c.toNat - 48 else c.toLower.toNat - 87)) 0

def octalValue (cs : List Char) : Nat :=
  cs.foldl (fun n c => 8 * n + (c.toNat - 48)) 0

def plainEscapes : List (Char × Nat) :=
  [('a', 7), ('b', 8), ('f', 12), ('n', 10), ('r', 13), ('t', 9), ('v', 11), ('\\', 92)]

def categoryEscapes : List (Char × SetItem) :=
  [('d', .category .digit false), ('D', .category .digit true), ('s', .category .space false),
   ('S', .category .space true), ('w', .category .word false), ('W', .category .word true)]

def anchorEscapes : List (Char × Anchor) :=
  [('A', .textStart), ('b', .boundary), ('B', .notBoundary), ('Z', .textEnd)]

def readHex (c : Char) (n : Nat) : Scan Nat := do
  let ds ← takeWhile isHex n
  let escape := '\\' :: c :: ds
  if ds.length ≠ n then fail (.incompleteEscape (String.ofList escape)) escape.length
  let value := hexValue ds
  if 0x7fffffff < value then throw .codeTooLarge
  if 0x10ffff < value then fail (.badEscape (String.ofList escape)) escape.length
  return value

/--
Reads an escape with the name of a character. The names that Unicode gives to characters are left out here, so
each of them is refused as one that nobody gave.
-/
def readNamed : Scan Nat := do
  if !(← accept '\x7b') then fail (.missing "\x7b")
  let name ← takeUntil '\x7d' "character name"
  fail (.characterName (String.ofList name)) (name.length + 4)

def readCommonEscape? (c : Char) : Scan (Option Nat) := do
  if c = 'x' then return some (← readHex c 2)
  else if c = 'u' then return some (← readHex c 4)
  else if c = 'U' then return some (← readHex c 8)
  else if c = 'N' then return some (← readNamed)
  else return none

def readSelf (c : Char) : Scan Nat := do
  if c.isAlpha ∨ c.isDigit then fail (.badEscape (String.ofList ['\\', c])) 2
  else return c.toNat

def checkOctal (escape : List Char) : Scan Nat := do
  let value := octalValue escape
  if 0o377 < value then
    fail (.octalRange (String.ofList ('\\' :: escape))) (escape.length + 1)
  return value

def readSetEscape (c : Char) : Scan SetItem := do
  if let some code := plainEscapes.lookup c then return .single code
  if let some item := categoryEscapes.lookup c then return item
  if let some code ← readCommonEscape? c then return .single code
  if isOctal c then
    return .single (← checkOctal (c :: (← takeWhile isOctal 2)))
  return .single (← readSelf c)

/--
A reference inside of a look behind must not be to a group of the same look behind.
-/
def checkLookBehind (index : Nat) : Scan Unit := do
  let s ← get
  if let some before := s.lookBehind then
    if !s.isClosed index then fail .openGroup
    if before ≤ index then fail .lookBehindGroup

def readReference (c : Char) : Scan Node := do
  let mut digits := [c]
  if let some [d] ← next? then
    if d.isDigit then
      let _ ← take
      digits := [c, d]
      if isOctal c && isOctal d then
        if let some [e] ← next? then
          if isOctal e then
            let _ ← take
            return .char (← checkOctal [c, d, e])
  let index := Text.natOfDigits digits
  let s ← get
  if index < s.groupCount then
    if !s.isClosed index then fail .openGroup (digits.length + 1)
    checkLookBehind index
    return .backref index
  fail (.invalidGroup index) digits.length

def readEscape (c : Char) : Scan Node := do
  if let some item := categoryEscapes.lookup c then return .set false [item]
  if let some a := anchorEscapes.lookup c then return .anchor a
  if let some code := plainEscapes.lookup c then return .char code
  if let some code ← readCommonEscape? c then return .char code
  if c = '0' then return .char (octalValue (← takeWhile isOctal 2))
  if c.isDigit then readReference c else return .char (← readSelf c)

def readSet (start : Nat) : Scan Node := do
  let negated ← accept '^'
  let items ← go ((← get).text.size + 1) []
  match items with
  | [.single c] => return if negated then .notChar c else .char c
  | _ => return .set negated items
where
  unterminated : Scan (List SetItem) := do
    fail .unterminatedSet ((← position) - start)
  member (token : List Char) : Scan SetItem :=
    match token with
    | ['\\', c] => readSetEscape c
    | c :: _ => return .single c.toNat
    | [] => fail .unterminatedSet
  go : Nat → List SetItem → Scan (List SetItem)
    | 0, items => return items
    | fuel + 1, items => do
      let first ← take
      if first.isEmpty then unterminated
      else if first = [']'] ∧ !items.isEmpty then return items
      else
        let low ← member first
        if ← accept '-' then
          let last ← take
          if last.isEmpty then unterminated
          else if last = [']'] then return items ++ [low, .single '-'.toNat]
          else
            let high ← member last
            match low, high with
            | .single a, .single b =>
              if b < a then badRange first last else go fuel (items ++ [.span a b])
            | _, _ => badRange first last
        else go fuel (items ++ [low])
  badRange (first last : List Char) : Scan (List SetItem) :=
    fail (.badRange (String.ofList first) (String.ofList last)) (first.length + 1 + last.length)

def flagOf? : Char → Option Flags
  | 'i' => some { ignoreCase := true }
  | 'm' => some { multiline := true }
  | 's' => some { dotAll := true }
  | 'x' => some { verbose := true }
  | 'a' => some { ascii := true }
  | 'u' => some { unicode := true }
  | 't' => some { template := true }
  | 'L' => some {}
  | _ => none

def unknownFlag (token : List Char) (expected : String) : Scan α :=
  let letter := match token with
    | [c] => Text.isAlphanumeric c && !Text.isDigit c
    | _ => false
  fail (if letter then .unknownFlag else .missing expected) token.length

def readFlagsOn : Nat → List Char → Flags → Scan (Flags × List Char)
  | 0, token, add => return (add, token)
  | fuel + 1, token, add => do
    let [c] := token | unknownFlag token "-, : or )"
    let some flag := flagOf? c | unknownFlag token "-, : or )"
    if c = 'L' then fail (.inlineFlags "cannot use 'L' flag with a str pattern")
    let add := add.union flag
    if add.ascii && add.unicode then
      fail (.inlineFlags "flags 'a', 'u' and 'L' are incompatible")
    let token ← take
    if token.isEmpty then fail (.missing "-, : or )")
    if token = [')'] ∨ token = ['-'] ∨ token = [':'] then return (add, token)
    readFlagsOn fuel token add

def readFlagsOff : Nat → List Char → Flags → Scan Flags
  | 0, _, del => return del
  | fuel + 1, token, del => do
    let expected := if del.isEmpty then "flag" else ":"
    let [c] := token | unknownFlag token expected
    let some flag := flagOf? c | unknownFlag token expected
    if c = 'a' ∨ c = 'u' ∨ c = 'L' then
      fail (.inlineFlags "cannot turn off flags 'a', 'u' and 'L'")
    let del := del.union flag
    let token ← take
    if token.isEmpty then fail (.missing ":")
    if token = [':'] then return del
    readFlagsOff fuel token del

def readFlags (token : List Char) : Scan (Option (Flags × Flags)) := do
  let fuel := (← get).text.size + 1
  let (add, last) ← if token = ['-'] then pure ({}, token) else readFlagsOn fuel token {}
  if last = [')'] then
    modify fun s => { s with flags := s.flags.union add }
    return none
  if add.template then fail (.inlineFlags "cannot turn on global flag") 1
  let del ←
    if last = ['-'] then
      let token ← take
      if token.isEmpty then fail (.missing "flag")
      readFlagsOff fuel token {}
    else pure {}
  if del.template then fail (.inlineFlags "cannot turn off global flag") 1
  if (add.ignoreCase && del.ignoreCase) || (add.multiline && del.multiline) ||
      (add.dotAll && del.dotAll) || (add.verbose && del.verbose) then
    fail (.inlineFlags "flag turned on and off") 1
  return some (add, del)

def isName (cs : List Char) : Bool :=
  match cs with
  | [] => false
  | c :: rest => Text.isIdentifierStart c && rest.all Text.isIdentifierPart

def checkName (name : List Char) : Scan Unit := do
  if !isName name then fail (.badGroupName (String.ofList name)) (name.length + 1)

def groupNumber? (cs : List Char) : Option Int :=
  let (negative, body) := Binary64.splitSign (Text.trimBy Text.isPlainSpace cs)
  (Binary64.ungroup? Text.isDigit body).bind fun ds =>
    if ds.isEmpty || !ds.all Text.isDigit then none
    else
      let n : Int := Text.natOfDigits ds
      some (if negative then -n else n)

def readCondition : Scan Nat := do
  let name ← takeUntil ')' "group name"
  let back := name.length + 1
  let index ←
    if isName name then
      match (← get).names.lookup (String.ofList name) with
      | some index => pure index
      | none => fail (.unknownGroupName (String.ofList name)) back
    else
      match groupNumber? name with
      | some (.ofNat 0) => fail .badGroupNumber back
      | some (.ofNat index) => do
        let spot := (← position) - back
        modify fun s =>
          if s.conditions.any (·.1 == index) then s
          else { s with conditions := s.conditions ++ [(index, spot)] }
        pure index
      | _ => fail (.badGroupName (String.ofList name)) back
  checkLookBehind index
  return index

def openGroup (name : Option (List Char)) : Scan Nat := do
  let s ← get
  let index := s.groupCount
  let s := { s with widths := s.widths.push none }
  match name with
  | none => set s
  | some name =>
    let word := String.ofList name
    match s.names.lookup word with
    | some was => fail (.redefined word index was) (name.length + 1)
    | none => set { s with names := (word, index) :: s.names }
  return index

def closeGroup (index : Nat) (body : List Node) : Scan Unit :=
  modify fun s =>
    { s with widths := s.widths.setIfInBounds index (some (widthOf s.widthOfGroup body)) }

def repeatBound (digits : List Char) : Scan Nat := do
  if integerDigitLimit < digits.length then throw (.digitLimit digits.length)
  let n := Text.natOfDigits digits
  if 4294967295 ≤ n then throw .repeatTooLarge
  return n

/--
Reads a quantifier after its first character: the least and the greatest number of repetitions, or
none if a brace turns out to stand for itself.
-/
def readBounds (first : Char) : Scan (Option (Nat × Option Nat)) := do
  match first with
  | '?' => return some (0, some 1)
  | '*' => return some (0, none)
  | '+' => return some (1, none)
  | _ =>
    let here ← position
    if (← next?) = some ['\x7d'] then return none
    let size := (← get).text.size
    let low ← takeWhile Char.isDigit size
    let high ← if ← accept ',' then takeWhile Char.isDigit size else pure low
    if !(← accept '\x7d') then
      seek here
      return none
    let least ← if low.isEmpty then pure 0 else repeatBound low
    if high.isEmpty then return some (least, none)
    let most ← repeatBound high
    if most < least then fail .repeatOrder ((← position) - here)
    return some (least, some most)

def isRepeated : Node → Bool
  | .repeated .. => true
  | _ => false

def isAnchor : Node → Bool
  | .anchor _ => true
  | _ => false

def repeatLast (start least : Nat) (most : Option Nat) (done : List Node) : Scan (List Node) := do
  let here ← position
  match done with
  | [] => fail .nothingToRepeat (here - start)
  | last :: before =>
    if isAnchor last then fail .nothingToRepeat (here - start)
    if isRepeated last then fail .multipleRepeat (here - start)
    let body := match last with
      | .group none add del body => if add.isEmpty && del.isEmpty then body else [last]
      | _ => [last]
    if ← accept '?' then return .repeated .lazy least most body :: before
    if ← accept '+' then return .repeated .possessive least most body :: before
    return .repeated .greedy least most body :: before

def isVerboseSpace (c : Char) : Bool :=
  c = ' ' || (9 ≤ c.toNat && c.toNat ≤ 13)

def skipLine : Nat → Scan Unit
  | 0 => return ()
  | fuel + 1 => do
    let token ← take
    if token.isEmpty ∨ token = ['\n'] then return () else skipLine fuel

def skipComment (start : Nat) : Nat → Scan Unit
  | 0 => return ()
  | fuel + 1 => do
    let token ← take
    if token.isEmpty then fail (.missing "), unterminated comment") ((← position) - start)
    else if token = [')'] then return ()
    else skipComment start fuel

inductive Opening where
  | group (name : Option (List Char))
  | plain (add del : Flags)
  | atomic
  | nothing
  | settings
  | backref (index : Nat)
  | condition (index : Nat)
  | look (ahead negated : Bool)

def readOpening (start : Nat) : Scan Opening := do
  if !(← accept '?') then return .group none
  let token ← take
  if token.isEmpty then fail .unexpectedEnd
  if token = ['P'] then
    if ← accept '<' then
      let name ← takeUntil '>' "group name"
      checkName name
      return .group (some name)
    if ← accept '=' then
      let name ← takeUntil ')' "group name"
      checkName name
      let some index := (← get).names.lookup (String.ofList name)
        | fail (.unknownGroupName (String.ofList name)) (name.length + 1)
      if !(← get).isClosed index then fail .openGroup (name.length + 1)
      checkLookBehind index
      return .backref index
    let token ← take
    if token.isEmpty then fail .unexpectedEnd
    fail (.unknownExtension ("?P" ++ String.ofList token)) (token.length + 2)
  else if token = [':'] then return .plain {} {}
  else if token = ['#'] then
    skipComment start ((← get).text.size + 1)
    return .nothing
  else if token = ['='] then return .look true false
  else if token = ['!'] then return .look true true
  else if token = ['<'] then
    let token ← take
    if token.isEmpty then fail .unexpectedEnd
    if token = ['='] then return .look false false
    if token = ['!'] then return .look false true
    fail (.unknownExtension ("?<" ++ String.ofList token)) (token.length + 2)
  else if token = ['('] then return .condition (← readCondition)
  else if token = ['>'] then return .atomic
  else
    let known := match token with
      | [c] => c = '-' || (flagOf? c).isSome
      | _ => false
    if !known then fail (.unknownExtension ("?" ++ String.ofList token)) (token.length + 1)
    match ← readFlags token with
    | none => return .settings
    | some (add, del) => return .plain add del

def close (start : Nat) : Scan Unit := do
  if !(← accept ')') then fail (.missing "), unterminated subpattern") ((← position) - start)

mutual

def readAlternatives (fuel : Nat) (verbose top : Bool) : Scan (List Node) := do
  match fuel with
  | 0 => return []
  | fuel + 1 =>
    let alternatives ← readMore fuel verbose top top
    match alternatives with
    | [body] => return body
    | _ => return [.branch alternatives]

def readMore (fuel : Nat) (verbose top first : Bool) : Scan (List (List Node)) := do
  match fuel with
  | 0 => return []
  | fuel + 1 =>
    let body ← readItems fuel verbose first []
    if ← accept '|' then
      let s ← get
      let verbose := if top then s.flags.verbose else verbose
      return body :: (← readMore fuel verbose top false)
    else return [body]

def readItems (fuel : Nat) (verbose first : Bool) (done : List Node) : Scan (List Node) := do
  match fuel with
  | 0 => return done.reverse
  | fuel + 1 =>
    let some token ← next? | return done.reverse
    if token = ['|'] ∨ token = [')'] then return done.reverse
    let start ← position
    let _ ← take
    match token with
    | ['\\', c] => readItems fuel verbose first ((← readEscape c) :: done)
    | c :: _ =>
      if verbose && isVerboseSpace c then readItems fuel verbose first done
      else if verbose && c = '#' then
        skipLine ((← get).text.size + 1)
        readItems fuel verbose first done
      else if c = '[' then readItems fuel verbose first ((← readSet start) :: done)
      else if c = '*' ∨ c = '+' ∨ c = '?' ∨ c = '\x7b' then
        match ← readBounds c with
        | none => readItems fuel verbose first (.char c.toNat :: done)
        | some (least, most) =>
          readItems fuel verbose first (← repeatLast start least most done)
      else if c = '.' then readItems fuel verbose first (.any :: done)
      else if c = '^' then readItems fuel verbose first (.anchor .lineStart :: done)
      else if c = '$' then readItems fuel verbose first (.anchor .lineEnd :: done)
      else if c = '(' then
        match ← readOpening start with
        | .nothing => readItems fuel verbose first done
        | .settings =>
          if !first || !done.isEmpty then
            let here ← position
            fail .misplacedFlags (here - start)
          let s ← get
          readItems fuel s.flags.verbose first done
        | .backref index => readItems fuel verbose first (.backref index :: done)
        | .condition index =>
          let yes ← readItems fuel verbose false []
          let no ←
            if ← accept '|' then
              let no ← readItems fuel verbose false []
              if (← next?) = some ['|'] then fail .tooManyBranches
              pure no
            else pure []
          close start
          readItems fuel verbose first (.conditional index yes no :: done)
        | .look ahead negated =>
          let outer := (← get).lookBehind
          if !ahead && outer.isNone then
            modify fun s => { s with lookBehind := some s.groupCount }
          let body ← readAlternatives fuel verbose false
          if !ahead then modify fun s => { s with lookBehind := outer }
          close start
          let s ← get
          let width := widthOf s.widthOfGroup body
          let width := if width.least = width.most then some width.least else none
          readItems fuel verbose first (.look ahead negated width body :: done)
        | .atomic =>
          let body ← readAlternatives fuel verbose false
          close start
          readItems fuel verbose first (.atomic body :: done)
        | .plain add del =>
          let body ← readAlternatives fuel ((verbose || add.verbose) && !del.verbose) false
          close start
          readItems fuel verbose first (.group none add del body :: done)
        | .group name =>
          let index ← openGroup name
          let body ← readAlternatives fuel verbose false
          close start
          closeGroup index body
          readItems fuel verbose first (.group (some index) {} {} body :: done)
      else readItems fuel verbose first (.char c.toNat :: done)
    | [] => return done.reverse

end

mutual

/--
The first look behind without one width, or repetition where the settings forbid it.
-/
def Node.fault? (template : Bool) : Node → Option Fault
  | .group _ _ _ body => faultIn? template body
  | .atomic body => faultIn? template body
  | .repeated greed _ _ body =>
    if template then
      some (.templateRepeat (match greed with
        | .greedy => "MAX_REPEAT"
        | .lazy => "MIN_REPEAT"
        | .possessive => "POSSESSIVE_REPEAT"))
    else faultIn? template body
  | .branch alternatives => faultInAny? template alternatives
  | .conditional _ yes no => faultIn? template yes <|> faultIn? template no
  | .look ahead _ width body =>
    if ahead then faultIn? template body
    else
      match width with
      | none => some .variableLookBehind
      | some n => if 4294967296 ≤ n then some .longLookBehind else faultIn? template body
  | _ => none

def faultIn? (template : Bool) : List Node → Option Fault
  | [] => none
  | n :: ns => n.fault? template <|> faultIn? template ns

def faultInAny? (template : Bool) : List (List Node) → Option Fault
  | [] => none
  | p :: ps => faultIn? template p <|> faultInAny? template ps

end

end Pattern

structure Pattern where
  flags : Pattern.Flags
  body : List Pattern.Node

namespace Pattern

/--
Reads a pattern. Each recursive call consumes a token or is one of three calls on the way to the next
one.
-/
def read (text : String) : Except Fault Pattern := do
  let chars := text.toList.toArray
  let source ← Source.check { text := chars }
  let (body, source) ← (readAlternatives (4 * chars.size + 8) false true).run source
  if source.flags.ascii && source.flags.unicode then throw .clashingFlags
  if source.next?.isSome then throw (.at .unbalanced source.position)
  if let some (index, spot) := source.conditions.find? fun c => source.groupCount ≤ c.1 then
    throw (.at (.invalidGroup index) spot)
  if let some fault := faultIn? source.flags.template body then throw fault
  return { flags := source.flags, body }

end Pattern
end TenantTables
