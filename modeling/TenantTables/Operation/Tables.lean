import TenantTables.Operation.Request

/-!
This module contains the operations on tables. An edit loads the table, changes it, counts its version
up and writes it back as a whole, all under the lock of the table.
-/

namespace TenantTables

structure TableRequest where
  tenantId : Value
  name : Value
  displayName : Value
  description : Value := .null

namespace Tables

open Document Program

def checkName (kind : String) : Value → Outcome String
  | v@(.text s) => if Text.isSnakeCase s then .ok s else reject (.snakeCase kind) "name" v
  | v => reject (.snakeCase kind) "name" v

def newTable (id name : String) (r : TableRequest) (now : Moment) : Reading Table :=
  let es := [("tenant_id", r.tenantId), ("display_name", r.displayName),
    ("description", r.description), ("created_at", .moment now), ("updated_at", .moment now)]
  (fun tenantId displayName description createdAt updatedAt =>
      { id, tenantId, name, displayName, description, createdAt, updatedAt })
    <$> required es "tenant_id" (Reader.textWith (Ruling.nonBlank "tenant_id"))
    <*> required es "display_name" Reader.displayName
    <*> required es "description" (Reader.nullable Reader.text)
    <*> required es "created_at" (Reader.moment "created_at")
    <*> required es "updated_at" (Reader.moment "updated_at")

def isTaken (r : TableRequest) (name : String) : Program Bool :=
  match r.tenantId with
  | .text tenantId => return (← ask (.tableNamed tenantId name)).isSome
  | _ => return false

def add (r : TableRequest) (name : String) : Program Table := do
  let now ← ask .clock
  let id ← ask .identifier
  let table ← (newTable id name r now).toRequest
  try
    ask (.insertTable table)
  catch
    | .storage .integrity => reject (.nameFree "Table") "name" (.text name)
    | e => throw e
  return table

/--
Creates a table. Without looking for the name first, storage alone finds out that it is taken.
-/
def create (r : TableRequest) (lookUp : Bool) : Program Table := do
  let name ← checkName "Table" r.name
  if lookUp then
    if ← isTaken r name then reject (.nameFree "Table") "name" (.text name)
  add r name

def get (tableId : String) (tenantId : Option String) : Program Table := do
  let table ← requireTable tableId
  match tenantId with
  | some tenant =>
    if table.tenantId ≠ tenant then throw (.notFound "Table")
    return table
  | none => return table

def list (tenantId : String) : Program (List TableSummary) := do
  let tables ← ask (.tablesOf tenantId)
  let counts ← ask (.liveCounts (tables.map (·.id)))
  return tables.map fun t => ⟨t, (counts.lookup t.id).getD 0⟩

def revise (t : Table) (displayName description : Value) (now : Moment) : Reading Table :=
  let es := [("display_name", displayName), ("description", description)].filter (!·.2.isNull)
  (fun displayName description updatedAt =>
      { t with displayName, description, version := t.version + 1, updatedAt })
    <$> optional es "display_name" t.displayName Reader.displayName
    <*> optional es "description" t.description (Reader.nullable Reader.text)
    <*> required [("updated_at", .moment now)] "updated_at" (Reader.moment "updated_at")

def write (t : Table) (displayName description : Value) : Program Table := do
  let now ← ask .clock
  let t ← (revise t displayName description now).toRequest
  ask (.saveTable t)
  return t

def update (tableId : String) (displayName description : Value) : Program Table :=
  locked tableId do
    let table ← requireTable tableId
    if displayName.isNull && description.isNull then return table
    write table displayName description

def requestedName : Request FieldSpec → Outcome Value
  | .ready spec => .ok (.text spec.name)
  | .document (.map es) => .ok (Entries.get es "name")
  | .document v => .error (.noMember v.kindName "get")

def define (spec : FieldSpec) (id : String) : Reading Field :=
  let es := ("id", .text id) :: spec.toEntries
  (Reader.fieldParts (Reader.textWith (Ruling.snakeCase "field name")) es ["id"]).andThen
    fun spec =>
      (Reading.require (Reader.formulaRule spec.type spec.formula) (.map es)).map fun _ =>
        spec.toField id

def addField (tableId : String) (request : Request FieldSpec) : Program Table := do
  let name ← requestedName request
  locked tableId do
    let table ← requireTable tableId
    let name ← checkName "Field" name
    if (table.fieldByName? name).isSome then reject (.nameFree "Field") "name" (.text name)
    let spec ← request.read Reader.fieldSpec
    let id ← ask .identifier
    let field ← (define spec id).toRequest
    write { table with fields := table.fields ++ [field] } .null .null

def merge (f : Field) (u : FieldUpdate) : Reading Field :=
  let es := u.toEntries
  let merged : Reading Field :=
    (fun displayName type required unique defaultValue validation formula =>
        { f with displayName, type, required, unique, defaultValue, validation, formula })
      <$> optional es "display_name" f.displayName Reader.displayName
      <*> optional es "type" f.type Reader.fieldType
      <*> optional es "required" f.required Reader.boolean
      <*> optional es "unique" f.unique (Reader.nullable Reader.boolean)
      <*> optional es "default_value" f.defaultValue Reader.any
      <*> optional es "validation" f.validation (Reader.nullable Reader.constraints)
      <*> optional es "formula" f.formula (Reader.nullable Reader.text)
  merged.andThen fun f =>
    (Reading.require (Reader.formulaRule f.type f.formula) f.toDocument).map fun _ => f

def updateField (tableId fieldId : String) (request : Request FieldUpdate) : Program Table :=
  locked tableId do
    let table ← requireTable tableId
    let existing ← match table.fieldById? fieldId with
      | some f => pure f
      | none => throw (.notFound "Field")
    let u ← request.read Reader.fieldUpdate
    let merged ← (merge existing u).toRequest
    let fields := table.fields.map fun f => if f.id == fieldId then merged else f
    write { table with fields } .null .null

def deleteField (tableId fieldId : String) : Program Table :=
  locked tableId do
    let table ← requireTable tableId
    if (table.fieldById? fieldId).isNone then throw (.notFound "Field")
    write { table with fields := table.fields.filter (·.id != fieldId) } .null .null

def requireTarget (table : Table) (id : String) : Program Table := do
  if id = table.id then return table
  match ← ask (.table id) with
  | some target =>
    if target.tenantId ≠ table.tenantId then throw (.notFound "Target table")
    return target
  | none => throw (.notFound "Target table")

def createRelation (tableId : String) (request : Request RelationSpec) : Program Table := do
  let spec ← request.read Reader.relationSpec
  locked tableId do
    let table ← requireTable tableId
    let target ← requireTarget table spec.toTable
    if (table.fieldByName? spec.fromField).isNone then
      reject .sourceField "from_field" (.text spec.fromField)
    if (target.fieldByName? spec.toField).isNone then
      reject .targetField "to_field" (.text spec.toField)
    let id ← ask .identifier
    let relation : Relation :=
      { id, type := spec.type, fromTable := table.id, toTable := target.id,
        fromField := spec.fromField, toField := spec.toField }
    write { table with relations := table.relations ++ [relation] } .null .null

def dangles (table : Table) (target : Option Table) (r : Relation) : Bool :=
  (table.fieldByName? r.fromField).isNone ||
    match target with
    | some t => (t.fieldByName? r.toField).isNone
    | none => true

def danglingRelations (tableId : String) : Program (List Relation) := do
  let table ← requireTable tableId
  table.relations.filterM fun r => do
    let target ← if r.toTable = table.id then pure (some table) else ask (.table r.toTable)
    return dangles table target r

end Tables
end TenantTables
