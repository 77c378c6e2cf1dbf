import TenantTables.Document.Rules
import TenantTables.Schema.Table
import TenantTables.Value.Exchange

namespace TenantTables

structure Record where
  id : String
  tableId : String
  data : Entries := []
  createdBy : Option String := none
  updatedBy : Option String := none
  createdAt : Moment
  updatedAt : Moment
  deletedAt : Option Moment := none
  deriving DecidableEq

namespace Record

def schemaVersion : String := "record.v1"

def reservedColumns : List String :=
  ["id", "created_at", "updated_at"]

def isDeleted (r : Record) : Bool :=
  r.deletedAt.isSome

def toRow (r : Record) : Entries :=
  ("id", .text r.id) :: r.data.filter (fun e => !reservedColumns.contains e.1) ++
    [("created_at", .moment r.createdAt), ("updated_at", .moment r.updatedAt)]

def toEntries (r : Record) : Entries :=
  [("schema_version", .text schemaVersion), ("id", .text r.id), ("table_id", .text r.tableId),
   ("data", .map r.data), ("created_by", .ofOption .text r.createdBy),
   ("updated_by", .ofOption .text r.updatedBy), ("created_at", .moment r.createdAt),
   ("updated_at", .moment r.updatedAt), ("deleted_at", .ofOption .moment r.deletedAt)]

def toDocument (r : Record) : Value := .map r.toEntries

def toCompact (r : Record) : Value :=
  (Value.map r.toEntries.present).exchange

end Record

namespace Document.Reader

def recordData : Reader Entries
  | .null => .value []
  | .map es => .value es
  | _ => .halted (.notMapping "data")

def recordKeys : List String :=
  ["schema_version", "id", "table_id", "data", "created_by", "updated_by", "created_at",
   "updated_at", "deleted_at"]

def record : Reader Record := fun v =>
  let v := withVersion Record.schemaVersion v
  let parts := document "Record" (fun es =>
    (fun form id tableId data createdBy updatedBy createdAt updatedAt deletedAt _ =>
        (form, Record.mk id tableId data createdBy updatedBy createdAt updatedAt deletedAt))
      <$> versioned Record.schemaVersion es
      <*> required es "id" identifier
      <*> required es "table_id" identifier
      <*> optional es "data" [] recordData
      <*> optional es "created_by" none (nullable text)
      <*> optional es "updated_by" none (nullable text)
      <*> required es "created_at" (moment "created_at")
      <*> required es "updated_at" (moment "updated_at")
      <*> optional es "deleted_at" none (nullable (moment "deleted_at"))
      <*> noOthers es recordKeys) v
  parts.andThen fun (form, r) => (checkVersion Record.schemaVersion form v).map fun _ => r

end Document.Reader

end TenantTables
