import TenantTables.Text.Quoted

namespace TenantTables.Pattern

inductive Problem where
  | badEscapeAtEnd
  | badEscape (escape : String)
  | incompleteEscape (escape : String)
  | octalRange (escape : String)
  | characterName (name : String)
  | missing (what : String)
  | unterminated (terminator what : String)
  | unterminatedSet
  | badRange (first last : String)
  | repeatOrder
  | nothingToRepeat
  | multipleRepeat
  | unexpectedEnd
  | unknownExtension (text : String)
  | badGroupName (name : String)
  | unknownGroupName (name : String)
  | badGroupNumber
  | openGroup
  | lookBehindGroup
  | invalidGroup (index : Nat)
  | redefined (name : String) (index was : Nat)
  | tooManyBranches
  | misplacedFlags
  | unknownFlag
  | inlineFlags (reason : String)
  | unbalanced
  deriving DecidableEq, Repr

def Problem.message : Problem → String
  | .badEscapeAtEnd => "bad escape (end of pattern)"
  | .badEscape e => "bad escape " ++ e
  | .incompleteEscape e => "incomplete escape " ++ e
  | .octalRange e => "octal escape value " ++ e ++ " outside of range 0-0o377"
  | .characterName n => "undefined character name " ++ Text.quoted n
  | .missing what => "missing " ++ what
  | .unterminated t what => "missing " ++ t ++ ", unterminated " ++ what
  | .unterminatedSet => "unterminated character set"
  | .badRange a b => "bad character range " ++ a ++ "-" ++ b
  | .repeatOrder => "min repeat greater than max repeat"
  | .nothingToRepeat => "nothing to repeat"
  | .multipleRepeat => "multiple repeat"
  | .unexpectedEnd => "unexpected end of pattern"
  | .unknownExtension t => "unknown extension " ++ t
  | .badGroupName n => "bad character in group name " ++ Text.quoted n
  | .unknownGroupName n => "unknown group name " ++ Text.quoted n
  | .badGroupNumber => "bad group number"
  | .openGroup => "cannot refer to an open group"
  | .lookBehindGroup => "cannot refer to group defined in the same lookbehind subpattern"
  | .invalidGroup i => "invalid group reference " ++ toString i
  | .redefined n i was =>
    "redefinition of group name " ++ Text.quoted n ++ " as group " ++ toString i ++
      "; was group " ++ toString was
  | .tooManyBranches => "conditional backref with more than two branches"
  | .misplacedFlags => "global flags not at the start of the expression"
  | .unknownFlag => "unknown flag"
  | .inlineFlags reason => "bad inline flags: " ++ reason
  | .unbalanced => "unbalanced parenthesis"

/--
A problem has a position, unless it shows only once the whole pattern is read. Besides problems
there are clashing flags, and numbers too large to count with.
-/
inductive Fault where
  | at (problem : Problem) (position : Nat)
  | variableLookBehind
  | longLookBehind
  | templateRepeat (greed : String)
  | clashingFlags
  | digitLimit (digits : Nat)
  | repeatTooLarge
  | codeTooLarge
  deriving DecidableEq, Repr

def describePosition (pattern : List Char) (position : Nat) : String :=
  let before := pattern.take position
  let spot := " at position " ++ toString position
  if pattern.contains '\n' then
    let column := (before.reverse.takeWhile (· ≠ '\n')).length + 1
    spot ++ " (line " ++ toString (before.count '\n' + 1) ++ ", column " ++ toString column ++ ")"
  else spot

end TenantTables.Pattern
