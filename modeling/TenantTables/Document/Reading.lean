import TenantTables.Document.Mismatch

/-!
This module contains the result of reading a document. Reading goes on past a part that does not fit,
so that it can name all of them in order, and halts at a part that its rule cannot consider at all.
-/

namespace TenantTables.Document

inductive Halt where
  | notText (label : String)
  | notMoment (label : String)
  | notMapping (label : String)
  | notIdentifier
  | repeatTooLarge
  | codeTooLarge
  deriving DecidableEq, Repr

namespace Halt

def message : Halt → String
  | .notText label => label ++ " must be a string"
  | .notMoment label => label ++ " must be a datetime"
  | .notMapping label => label ++ " must be a dictionary"
  | .notIdentifier => "expected UUID or string for identifier field"
  | .repeatTooLarge => "the repetition number is too large"
  | .codeTooLarge => "Python int too large to convert to C int"

def isOverflow : Halt → Bool
  | .repeatTooLarge => true
  | .codeTooLarge => true
  | _ => false

end Halt

inductive Reading (α : Type u) where
  | value (a : α)
  | issues (first : Issue) (rest : List Issue)
  | halted (reason : Halt)

namespace Reading

def map (f : α → β) : Reading α → Reading β
  | .value a => .value (f a)
  | .issues i is => .issues i is
  | .halted r => .halted r

def seq (f : Reading (α → β)) (a : Unit → Reading α) : Reading β :=
  match f with
  | .value f => (a ()).map f
  | .halted r => .halted r
  | .issues i is =>
    match a () with
    | .value _ => .issues i is
    | .issues j js => .issues i (is ++ j :: js)
    | .halted r => .halted r

instance : Applicative Reading where
  map := map
  pure := .value
  seq := seq

def andThen (r : Reading α) (f : α → Reading β) : Reading β :=
  match r with
  | .value a => f a
  | .issues i is => .issues i is
  | .halted r => .halted r

def under (step : Step) : Reading α → Reading α
  | .value a => .value a
  | .issues i is =>
    let lift (i : Issue) : Issue := { i with path := step :: i.path }
    .issues (lift i) (is.map lift)
  | .halted r => .halted r

def mismatch (m : Mismatch) (input : Value) : Reading α :=
  .issues ⟨[], m, input⟩ []

def require (rule : Except String α) (input : Value) : Reading α :=
  match rule with
  | .ok a => .value a
  | .error reason => mismatch (.rule reason) input

end Reading

abbrev Reader (α : Type u) := Value → Reading α

namespace Reader

def items (r : Reader α) (vs : List Value) : Reading (List α) :=
  go 0 vs
where
  go (i : Nat) : List Value → Reading (List α)
    | [] => .value []
    | v :: vs => List.cons <$> (r v).under (.index i) <*> go (i + 1) vs

def list (r : Reader α) : Reader (List α)
  | .list vs => items r vs
  | v => .mismatch .list v

def nullable (r : Reader α) : Reader (Option α)
  | .null => .value none
  | v => (r v).map some

def any : Reader Value := .value

def entries : Reader Entries
  | .map es => .value es
  | v => .mismatch .mapping v

def document (name : String) (r : Entries → Reading α) : Reader α
  | .map es => r es
  | v => .mismatch (.document name) v

end Reader

def required (es : Entries) (key : String) (r : Reader α) : Reading α :=
  match es.get? key with
  | some v => (r v).under (.key key)
  | none => (Reading.mismatch .missing (.map es)).under (.key key)

def optional (es : Entries) (key : String) (default : α) (r : Reader α) : Reading α :=
  match es.get? key with
  | some v => (r v).under (.key key)
  | none => .value default

def given (es : Entries) (key : String) (r : Reader α) : Reading (Option α) :=
  match es.get? key with
  | some v => ((r v).map some).under (.key key)
  | none => .value none

def noOthers (es : Entries) (keys : List String) : Reading Unit :=
  go (es.filter fun e => !keys.contains e.1)
where
  go : Entries → Reading Unit
    | [] => .value ()
    | (k, v) :: es =>
      (fun _ _ => ()) <$> (Reading.mismatch .unexpected v : Reading Unit).under (.key k) <*> go es

end TenantTables.Document
