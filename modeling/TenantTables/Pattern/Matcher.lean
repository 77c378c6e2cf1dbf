import TenantTables.Pattern.Reader

/-!
This module contains the search for a pattern in a text. It tries the alternatives of a pattern in
order and goes back to the next one where the rest of the pattern fails, which the continuation of
each step decides.
-/

namespace TenantTables.Pattern

structure Spot where
  position : Nat
  groups : List (Nat × Nat × Nat)

abbrev Goal := Spot → Option Spot

def isWordChar (ascii : Bool) (c : Char) : Bool :=
  c = '_' || (if ascii then c.isAlphanum else Text.isAlphanumeric c)

def Category.holds (ascii : Bool) (c : Char) : Category → Bool
  | .digit => if ascii then c.isDigit else Text.isDigit c
  | .space => if ascii then isVerboseSpace c else Text.isSpace c
  | .word => isWordChar ascii c

def caseFamily (flags : Flags) (c : Char) : List Char :=
  if !flags.ignoreCase then [c]
  else if flags.ascii then [c.toLower, c.toUpper]
  else (Text.caseVariants c).flatMap fun l => l :: Text.upperForms l

def SetItem.holds (flags : Flags) (family : List Char) (c : Char) : SetItem → Bool
  | .single n => family.any fun f => f.toNat = n
  | .span first last => family.any fun f => first ≤ f.toNat && f.toNat ≤ last
  | .category kind negated => kind.holds flags.ascii c != negated

def Node.takes (flags : Flags) (c : Char) : Node → Bool
  | .char n => (SetItem.single n).holds flags (caseFamily flags c) c
  | .notChar n => !(SetItem.single n).holds flags (caseFamily flags c) c
  | .any => flags.dotAll || c ≠ '\n'
  | .set negated items => items.any (SetItem.holds flags (caseFamily flags c) c) != negated
  | _ => false

def Node.isSingle : Node → Bool
  | .char _ => true
  | .notChar _ => true
  | .any => true
  | .set _ _ => true
  | _ => false

def Anchor.holds (text : Array Char) (flags : Flags) (i : Nat) : Anchor → Bool
  | .textStart => i = 0
  | .textEnd => i = text.size
  | .lineStart => i = 0 || (flags.multiline && text[i - 1]? = some '\n')
  | .lineEnd =>
    i = text.size || (text[i]? = some '\n' && (flags.multiline || i + 1 = text.size))
  | .boundary => text.size ≠ 0 && wordBefore != wordAfter
  | .notBoundary => text.size ≠ 0 && wordBefore == wordAfter
where
  wordBefore : Bool := 0 < i && (text[i - 1]?.map (isWordChar flags.ascii)).getD false
  wordAfter : Bool := (text[i]?.map (isWordChar flags.ascii)).getD false

def countWhile (text : Array Char) (test : Char → Bool) : Nat → Nat → Nat
  | 0, _ => 0
  | bound + 1, i =>
    match text[i]? with
    | some c => if test c then countWhile text test bound (i + 1) + 1 else 0
    | none => 0

def longestFirst (spot : Spot) (least : Nat) (goal : Goal) : Nat → Option Spot
  | 0 => goal { spot with position := spot.position + least }
  | extra + 1 =>
    match goal { spot with position := spot.position + least + extra + 1 } with
    | some found => some found
    | none => longestFirst spot least goal extra

def shortestFirst (spot : Spot) (goal : Goal) : Nat → Nat → Option Spot
  | length, 0 => goal { spot with position := spot.position + length }
  | length, extra + 1 =>
    match goal { spot with position := spot.position + length } with
    | some found => some found
    | none => shortestFirst spot goal (length + 1) extra

def repeatSingle (text : Array Char) (test : Char → Bool) (greed : Greed) (least : Nat)
    (most : Option Nat) (spot : Spot) (goal : Goal) : Option Spot :=
  let bound := min (most.getD text.size) text.size
  let count := countWhile text test bound spot.position
  if count < least then none
  else
    match greed with
    | .greedy => longestFirst spot least goal (count - least)
    | .lazy => shortestFirst spot goal least (count - least)
    | .possessive => goal { spot with position := spot.position + count }

def mayRepeat (most : Option Nat) (count : Nat) : Bool :=
  match most with
  | some n => count < n
  | none => true

/--
Repeats a step. Once there are enough repetitions, one that starts where the one before it started is
not tried, so each but the last one moves on.
-/
def repeatStep (step : Spot → Goal → Option Spot) (greed : Greed) (most : Option Nat)
    (goal : Goal) : Nat → Nat → Nat → Option Nat → Spot → Option Spot
  | 0, _, _, _, _ => none
  | fuel + 1, needed + 1, count, last, spot =>
    step spot (repeatStep step greed most goal fuel needed (count + 1) last)
  | fuel + 1, 0, count, last, spot =>
    let more := mayRepeat most count && last ≠ some spot.position
    let again : Unit → Option Spot := fun _ =>
      if more then
        step spot (repeatStep step greed most goal fuel 0 (count + 1) (some spot.position))
      else none
    match greed with
    | .lazy =>
      match goal spot with
      | some found => some found
      | none => again ()
    | _ =>
      match again () with
      | some found => some found
      | none => goal spot

def repeatFirm (step : Spot → Goal → Option Spot) (most : Option Nat) :
    Nat → Nat → Nat → Option Nat → Spot → Option Spot
  | 0, _, _, _, spot => some spot
  | fuel + 1, needed + 1, count, last, spot =>
    match step spot some with
    | some found => repeatFirm step most fuel needed (count + 1) last found
    | none => none
  | fuel + 1, 0, count, last, spot =>
    if mayRepeat most count && last ≠ some spot.position then
      match step spot some with
      | some found => repeatFirm step most fuel 0 (count + 1) (some spot.position) found
      | none => some spot
    else some spot

/--
Repeats a step that may take any number of characters. There are never more repetitions than needed
ones, characters left, and one that takes no character.
-/
def repeatAny (text : Array Char) (step : Spot → Goal → Option Spot) (greed : Greed) (least : Nat)
    (most : Option Nat) (spot : Spot) (goal : Goal) : Option Spot :=
  let fuel := least + text.size + 2
  match greed with
  | .possessive => (repeatFirm step most fuel least 0 none spot).bind goal
  | _ => repeatStep step greed most goal fuel least 0 none spot

def onlySingle? : List Node → Option Node
  | [n] => if n.isSingle then some n else none
  | _ => none

def sameCharacter (flags : Flags) (a b : Char) : Bool :=
  if !flags.ignoreCase then a = b
  else if flags.ascii then a.toLower = b.toLower
  else Text.toLower a = Text.toLower b

def sameText (text : Array Char) (flags : Flags) (i j : Nat) : Nat → Bool
  | 0 => true
  | length + 1 =>
    match text[i]?, text[j]? with
    | some a, some b => sameCharacter flags a b && sameText text flags (i + 1) (j + 1) length
    | _, _ => false

mutual

def Node.run (text : Array Char) : Node → Flags → Spot → Goal → Option Spot
  | .anchor a, flags, spot, goal =>
    if a.holds text flags spot.position then goal spot else none
  | .group index add del body, flags, spot, goal =>
    let start := spot.position
    runAll text body (flags.enter add del) spot fun found =>
      match index with
      | none => goal found
      | some index =>
        let others := found.groups.filter fun g => g.1 ≠ index
        goal { found with groups := (index, start, found.position) :: others }
  | .atomic body, flags, spot, goal => (runAll text body flags spot some).bind goal
  | .repeated greed least most body, flags, spot, goal =>
    match onlySingle? body with
    | some single => repeatSingle text (single.takes flags) greed least most spot goal
    | none => repeatAny text (runAll text body flags) greed least most spot goal
  | .branch alternatives, flags, spot, goal => runAny text alternatives flags spot goal
  | .backref index, flags, spot, goal =>
    match spot.groups.lookup index with
    | none => none
    | some (first, last) =>
      let length := last - first
      if sameText text flags spot.position first length then
        goal { spot with position := spot.position + length }
      else none
  | .conditional index yes no, flags, spot, goal =>
    if (spot.groups.lookup index).isSome then runAll text yes flags spot goal
    else runAll text no flags spot goal
  | .look ahead negated width body, flags, spot, goal =>
    let back := if ahead then 0 else width.getD 0
    let found :=
      if spot.position < back then none
      else runAll text body flags { spot with position := spot.position - back } some
    if negated then
      match found with
      | some _ => none
      | none => goal spot
    else
      match found with
      | some found => goal { found with position := spot.position }
      | none => none
  | node, flags, spot, goal =>
    match text[spot.position]? with
    | some c =>
      if node.takes flags c then goal { spot with position := spot.position + 1 } else none
    | none => none

def runAll (text : Array Char) : List Node → Flags → Spot → Goal → Option Spot
  | [], _, spot, goal => goal spot
  | n :: ns, flags, spot, goal => n.run text flags spot fun found => runAll text ns flags found goal

def runAny (text : Array Char) : List (List Node) → Flags → Spot → Goal → Option Spot
  | [], _, _, _ => none
  | p :: ps, flags, spot, goal =>
    match runAll text p flags spot goal with
    | some found => some found
    | none => runAny text ps flags spot goal

end

end Pattern

def Pattern.found (p : Pattern) (text : String) : Bool :=
  let chars := text.toList.toArray
  (List.range (chars.size + 1)).any fun i =>
    (runAll chars p.body p.flags ⟨i, []⟩ some).isSome

end TenantTables
