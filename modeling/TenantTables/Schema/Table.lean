import TenantTables.Schema.Field
import TenantTables.Schema.Relation

namespace TenantTables

structure Table where
  id : String
  tenantId : String
  name : String
  displayName : String
  description : Option String := none
  fields : List Field := []
  relations : List Relation := []
  version : Int := 0
  createdAt : Moment
  updatedAt : Moment
  deriving DecidableEq

structure TableSummary where
  table : Table
  recordCount : Int
  deriving DecidableEq

namespace Table

def schemaVersion : String := "table_definition.v1"

def fieldById? (t : Table) (id : String) : Option Field :=
  t.fields.find? (·.id == id)

def fieldByName? (t : Table) (name : String) : Option Field :=
  t.fields.find? (·.name == name)

def fieldNames (t : Table) : List String :=
  t.fields.map (·.name)

end Table

namespace Document.Reader

def versioned (expected : String) (es : Entries) : Reading String :=
  optional es "schema_version" expected text

def checkVersion (expected actual : String) (v : Value) : Reading Unit :=
  .require
    (if actual = expected then .ok ()
    else .error ("expected schema_version '" ++ expected ++ "'")) v

def withVersion (expected : String) : Value → Value
  | .map es => .map (if Entries.contains es "schema_version" then es
      else es ++ [("schema_version", .text expected)])
  | v => v

def tableKeys : List String :=
  ["schema_version", "id", "tenant_id", "name", "display_name", "description", "fields",
   "relations", "version", "created_at", "updated_at"]

def table : Reader Table := fun v =>
  let v := withVersion Table.schemaVersion v
  let parts := document "TableDefinition" (fun es =>
    (fun form id tenantId name displayName description fields relations version createdAt
        updatedAt _ =>
        (form, Table.mk id tenantId name displayName description fields relations version
          createdAt updatedAt))
      <$> versioned Table.schemaVersion es
      <*> required es "id" identifier
      <*> required es "tenant_id" (textWith (Ruling.nonBlank "tenant_id"))
      <*> required es "name" (textWith (Ruling.snakeCase "table name"))
      <*> required es "display_name" displayName
      <*> optional es "description" none (nullable text)
      <*> optional es "fields" [] (list field)
      <*> optional es "relations" [] (list relation)
      <*> optional es "version" 0 (integerFrom 0)
      <*> required es "created_at" (moment "created_at")
      <*> required es "updated_at" (moment "updated_at")
      <*> noOthers es tableKeys) v
  parts.andThen fun (form, t) => (checkVersion Table.schemaVersion form v).map fun _ => t

def tableSummary : Reader TableSummary :=
  document "TableSummary" fun es =>
    TableSummary.mk <$> required es "table" table
      <*> required es "record_count" (integerFrom 0)

end Document.Reader

namespace Table

def entriesWith (field : Field → Value) (moment : Moment → Value) (t : Table) : Entries :=
  [("schema_version", .text schemaVersion), ("id", .text t.id),
   ("tenant_id", .text t.tenantId), ("name", .text t.name), ("display_name", .text t.displayName),
   ("description", .ofOption .text t.description), ("fields", .list (t.fields.map field)),
   ("relations", .list (t.relations.map (·.toDocument))), ("version", .int t.version),
   ("created_at", moment t.createdAt), ("updated_at", moment t.updatedAt)]

def toDocument (t : Table) : Value :=
  .map (t.entriesWith Field.toDocument .moment)

def toExchange (t : Table) : Value :=
  .map (t.entriesWith (·.exchange.toDocument) fun m => .text m.printExchange)

def toCompact (t : Table) : Value :=
  .map (t.entriesWith (·.exchange.toCompact) fun m => .text m.printExchange).present

end Table

namespace TableSummary

def toDocument (s : TableSummary) : Value :=
  .map [("table", s.table.toDocument), ("record_count", .int s.recordCount)]

def toExchange (s : TableSummary) : Value :=
  .map [("table", s.table.toExchange), ("record_count", .int s.recordCount)]

end TableSummary

end TenantTables
