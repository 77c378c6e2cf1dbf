import TenantTables.Document.Rules
import TenantTables.Pattern.Matcher
import TenantTables.Value.Exchange

/-!
This module contains the fields of tables: their types and constraints, the requests to add and to
change one, and how all of them are read from documents.
-/

namespace TenantTables

inductive FieldType where
  | text
  | number
  | boolean
  | date
  | relation
  | computed
  deriving DecidableEq, Repr

namespace FieldType

def name : FieldType → String
  | .text => "text"
  | .number => "number"
  | .boolean => "boolean"
  | .date => "date"
  | .relation => "relation"
  | .computed => "computed"

def names : List (String × FieldType) :=
  [.text, .number, .boolean, .date, .relation, .computed].map fun t => (t.name, t)

end FieldType

structure Constraints where
  min : Option Binary64 := none
  max : Option Binary64 := none
  pattern : Option String := none
  deriving DecidableEq

structure Field where
  id : String
  name : String
  displayName : String
  type : FieldType
  required : Bool := false
  unique : Option Bool := none
  defaultValue : Value := .null
  validation : Option Constraints := none
  formula : Option String := none
  deriving DecidableEq

structure FieldSpec where
  name : String
  displayName : String
  type : FieldType
  required : Bool := false
  unique : Option Bool := none
  defaultValue : Value := .null
  validation : Option Constraints := none
  formula : Option String := none

/--
The parts of constraints that a request sets. An unset part is `none`, and a part set to null is
`some none`.
-/
structure ConstraintsUpdate where
  min : Option (Option Binary64) := none
  max : Option (Option Binary64) := none
  pattern : Option (Option String) := none

structure FieldUpdate where
  displayName : Option (Option String) := none
  type : Option (Option FieldType) := none
  required : Option (Option Bool) := none
  unique : Option (Option Bool) := none
  defaultValue : Option Value := none
  validation : Option (Option ConstraintsUpdate) := none
  formula : Option (Option String) := none

namespace Constraints

def toEntries (c : Constraints) : Entries :=
  [("min", .ofOption .real c.min), ("max", .ofOption .real c.max),
   ("pattern", .ofOption .text c.pattern)]

def toDocument (c : Constraints) : Value := .map c.toEntries

def toCompact (c : Constraints) : Value := .map c.toEntries.present

end Constraints

def ConstraintsUpdate.toConstraints (u : ConstraintsUpdate) : Constraints where
  min := u.min.join
  max := u.max.join
  pattern := u.pattern.join

def ConstraintsUpdate.toDocument (u : ConstraintsUpdate) : Value :=
  let part (name : String) (v : Option Value) : Entries := (v.map (name, ·)).toList
  .map (part "min" (u.min.map (.ofOption .real)) ++ part "max" (u.max.map (.ofOption .real)) ++
    part "pattern" (u.pattern.map (.ofOption .text)))

namespace Document

def patternRefusal (text : String) : Pattern.Fault → Refusal
  | .at problem position =>
    .reason ("invalid pattern: " ++ problem.message ++
      Pattern.describePosition text.toList position)
  | .variableLookBehind => .reason "invalid pattern: look-behind requires fixed-width pattern"
  | .longLookBehind => .reason "invalid pattern: looks too much behind"
  | .templateRepeat greed =>
    .reason ("invalid pattern: internal: unsupported template operator " ++ greed)
  | .clashingFlags => .reason "ASCII and UNICODE flags are incompatible"
  | .digitLimit digits => .reason (digitLimitMessage digits)
  | .repeatTooLarge => .halt .repeatTooLarge
  | .codeTooLarge => .halt .codeTooLarge

namespace Reader

def pattern : Reader String := fun v =>
  (text v).andThen fun s =>
    ruled (fun _ => match Pattern.read s with
      | .ok _ => .ok s
      | .error f => .error (patternRefusal s f)) v

def fieldType : Reader FieldType := choice FieldType.names

def constraintsUpdate : Reader ConstraintsUpdate :=
  document "FieldValidation" fun es =>
    (fun min max pattern _ => { min, max, pattern })
      <$> given es "min" (nullable number)
      <*> given es "max" (nullable number)
      <*> given es "pattern" (nullable pattern)
      <*> noOthers es ["min", "max", "pattern"]

def constraints : Reader Constraints := fun v =>
  (constraintsUpdate v).map ConstraintsUpdate.toConstraints

def formulaRule (type : Option FieldType) (formula : Option String) : Except String Unit :=
  if type = some .computed ∧ (formula.map Text.isBlank).getD true then
    .error "computed fields require a formula"
  else .ok ()

def displayName : Reader String := textWith (Ruling.nonBlank "display_name")

def fieldKeys : List String :=
  ["name", "display_name", "type", "required", "unique", "default_value", "validation", "formula"]

def fieldParts (nameReader : Reader String) (es : Entries) (others : List String) :
    Reading FieldSpec :=
  (fun name displayName type required unique defaultValue validation formula _ =>
      { name, displayName, type, required, unique, defaultValue, validation, formula })
    <$> required es "name" nameReader
    <*> required es "display_name" displayName
    <*> required es "type" fieldType
    <*> optional es "required" false boolean
    <*> optional es "unique" none (nullable boolean)
    <*> optional es "default_value" .null any
    <*> optional es "validation" none (nullable constraints)
    <*> optional es "formula" none (nullable text)
    <*> noOthers es (others ++ fieldKeys)

def fieldSpec : Reader FieldSpec := fun v =>
  (document "FieldSpec" (fun es => fieldParts text es []) v).andThen fun spec =>
    (Reading.require (formulaRule spec.type spec.formula) v).map fun _ => spec

end Reader
end Document

def FieldSpec.toField (spec : FieldSpec) (id : String) : Field where
  id := id
  name := spec.name
  displayName := spec.displayName
  type := spec.type
  required := spec.required
  unique := spec.unique
  defaultValue := spec.defaultValue
  validation := spec.validation
  formula := spec.formula

namespace Document.Reader

def field : Reader Field := fun v =>
  let parts := document "FieldDefinition" (fun es =>
    (fun id (spec : FieldSpec) => spec.toField id)
      <$> required es "id" identifier
      <*> fieldParts (textWith (Ruling.snakeCase "field name")) es ["id"]) v
  parts.andThen fun f => (Reading.require (formulaRule f.type f.formula) v).map fun _ => f

def fieldUpdate : Reader FieldUpdate :=
  document "FieldUpdate" fun es =>
    (fun displayName type required unique defaultValue validation formula _ =>
        { displayName, type, required, unique, defaultValue, validation, formula })
      <$> given es "display_name" (nullable text)
      <*> given es "type" (nullable fieldType)
      <*> given es "required" (nullable boolean)
      <*> given es "unique" (nullable boolean)
      <*> given es "default_value" any
      <*> given es "validation" (nullable constraintsUpdate)
      <*> given es "formula" (nullable text)
      <*> noOthers es (fieldKeys.erase "name")

end Document.Reader

namespace FieldSpec

def toEntries (s : FieldSpec) : Entries :=
  [("name", .text s.name), ("display_name", .text s.displayName), ("type", .text s.type.name),
   ("required", .bool s.required), ("unique", .ofOption .bool s.unique),
   ("default_value", s.defaultValue), ("validation", .ofOption (·.toDocument) s.validation),
   ("formula", .ofOption .text s.formula)]

def toDocument (s : FieldSpec) : Value := .map s.toEntries

end FieldSpec

namespace Field

def toSpec (f : Field) : FieldSpec where
  name := f.name
  displayName := f.displayName
  type := f.type
  required := f.required
  unique := f.unique
  defaultValue := f.defaultValue
  validation := f.validation
  formula := f.formula

def toEntries (f : Field) : Entries :=
  ("id", .text f.id) :: f.toSpec.toEntries

def toDocument (f : Field) : Value := .map f.toEntries

def toCompact (f : Field) : Value :=
  .map (f.toEntries.put "validation" (.ofOption (·.toCompact) f.validation)).present

def exchange (f : Field) : Field :=
  { f with defaultValue := f.defaultValue.exchange }

def hasDefault (f : Field) : Bool := !f.defaultValue.isNull

def isComputed (f : Field) : Bool := f.type = .computed

end Field

namespace FieldUpdate

def toEntries (u : FieldUpdate) : Entries :=
  let part (name : String) (v : Option Value) : Entries := (v.map (name, ·)).toList
  part "display_name" (u.displayName.map (.ofOption .text)) ++
    part "type" (u.type.map (.ofOption fun t => .text t.name)) ++
    part "required" (u.required.map (.ofOption .bool)) ++
    part "unique" (u.unique.map (.ofOption .bool)) ++
    part "default_value" u.defaultValue ++
    part "validation" (u.validation.map (.ofOption (·.toDocument))) ++
    part "formula" (u.formula.map (.ofOption .text))

def toDocument (u : FieldUpdate) : Value := .map u.toEntries

end FieldUpdate

end TenantTables
