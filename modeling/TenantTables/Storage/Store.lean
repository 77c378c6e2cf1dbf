import TenantTables.Query.Request
import TenantTables.Storage.Filter
import TenantTables.Value.Exchange

/-!
This module contains the stored tables and records: the form in which they are stored, how they are
written, and how they are found. Nothing is ever removed.
-/

namespace TenantTables

structure Store where
  isReady : Bool := false
  tables : List Table := []
  records : List Record := []

/--
Moments are stored at UTC. A clock without a known offset is taken to show it.
-/
def Moment.stored (m : Moment) : Outcome Moment :=
  match m.toUtc? with
  | some m => .ok m
  | none => .error (.storage .statement)

def storedData (data : Entries) : Outcome Entries :=
  if (Value.map data).isPlain then .ok data else .error (.storage .statement)

namespace Table

def stored (t : Table) : Outcome Table := do
  let createdAt ← t.createdAt.stored
  let updatedAt ← t.updatedAt.stored
  return { t with fields := t.fields.map Field.exchange, createdAt, updatedAt }

def fieldsDocument (t : Table) : Value :=
  .list (t.fields.map (·.exchange.toDocument))

/--
A stored table with a newer form of it written over it. What identifies the table stays, and so do
fields that agree with the newer ones.
-/
def overwrite (old new : Table) : Outcome Table := do
  let updatedAt ← new.updatedAt.stored
  if !fitsWord new.version then throw .wideInteger
  return { old with
    displayName := new.displayName
    description := new.description
    fields :=
      if new.fieldsDocument.agrees old.fieldsDocument then old.fields
      else new.fields.map Field.exchange
    relations := new.relations
    version := new.version
    updatedAt }

end Table

namespace Record

def stored (r : Record) : Outcome Record := do
  let data ← storedData r.data
  let createdAt ← r.createdAt.stored
  let updatedAt ← r.updatedAt.stored
  let deletedAt ← r.deletedAt.mapM Moment.stored
  return { r with data, createdAt, updatedAt, deletedAt }

/--
A stored record with a newer form of it written over it. What identifies the record and its origin
stays, and so does data that agrees with the newer one.
-/
def overwrite (old new : Record) : Outcome Record := do
  let data ←
    if (Value.map new.data).agrees (.map old.data) then pure old.data else storedData new.data
  let updatedAt ← new.updatedAt.stored
  let deletedAt ← new.deletedAt.mapM Moment.stored
  return { old with data, updatedBy := new.updatedBy, updatedAt, deletedAt }

def stamp (r : Record) : TimestampColumn → Moment
  | .createdAt => r.createdAt
  | .updatedAt => r.updatedAt

def notAfter (column : TimestampColumn) (a b : Record) : Bool :=
  let s := (a.stamp column).instant
  let t := (b.stamp column).instant
  s < t || (s == t && a.id ≤ b.id)

end Record

structure Selection where
  tableId : String
  filters : Entries := []
  column : TimestampColumn := .createdAt
  descending : Bool := true
  offset : Int := 0
  limit : Option Int := none
  excludeId : Option String := none

namespace Selection

def arrange (s : Selection) (records : List Record) : List Record :=
  if s.descending then records.mergeSort fun a b => b.notAfter s.column a
  else records.mergeSort (Record.notAfter s.column)

def page (s : Selection) (records : List Record) : List Record :=
  let rest := records.drop s.offset.toNat
  match s.limit with
  | some n => if n < 0 then rest else rest.take n.toNat
  | none => rest

end Selection

namespace TimestampColumn

def ofName (name : String) : Outcome TimestampColumn :=
  match [createdAt, updatedAt].find? (·.name == name) with
  | some c => .ok c
  | none => .error (.orderColumn name)

end TimestampColumn

namespace Store

def prepare (s : Store) : Store :=
  { s with isReady := true }

def requireReady (s : Store) : Outcome Unit :=
  if s.isReady then .ok () else .error (.storage .operational)

def table? (s : Store) (id : String) : Option Table :=
  s.tables.find? (·.id == id)

def record? (s : Store) (id : String) : Option Record :=
  s.records.find? (·.id == id)

def tableNamed? (s : Store) (tenantId name : String) : Option Table :=
  s.tables.find? fun t => t.tenantId == tenantId && t.name == name

def tablesOf (s : Store) (tenantId : String) : List Table :=
  (s.tables.filter (·.tenantId == tenantId)).mergeSort
    fun a b => b.createdAt.instant ≤ a.createdAt.instant

def live (s : Store) (tableId : String) : List Record :=
  s.records.filter fun r => r.tableId == tableId && !r.isDeleted

def insertTable (s : Store) (t : Table) : Outcome Store := do
  let t ← t.stored
  s.requireReady
  if !fitsWord t.version then throw .wideInteger
  if (s.table? t.id).isSome || (s.tableNamed? t.tenantId t.name).isSome then
    throw (.storage .integrity)
  return { s with tables := s.tables ++ [t] }

def saveTable (s : Store) (t : Table) : Outcome Store := do
  s.requireReady
  match s.table? t.id with
  | none => s.insertTable t
  | some old =>
    let new ← old.overwrite t
    return { s with tables := s.tables.map fun u => if u.id == t.id then new else u }

def saveRecord (s : Store) (r : Record) : Outcome Store := do
  s.requireReady
  match s.record? r.id with
  | none =>
    let new ← r.stored
    return { s with records := s.records ++ [new] }
  | some old =>
    let new ← old.overwrite r
    return { s with records := s.records.map fun q => if q.id == r.id then new else q }

def matching (s : Store) (tableId : String) (filters : Entries) : Outcome (List Record) := do
  Filter.checkPaths filters
  s.requireReady
  let filters ← Filter.readAll filters
  Record.filterAll filters (s.live tableId)

def count (s : Store) (tableId : String) (filters : Entries) : Outcome Nat := do
  return (← s.matching tableId filters).length

def select (s : Store) (q : Selection) : Outcome (List Record) := do
  Filter.checkPaths q.filters
  s.requireReady
  let filters ← Filter.readAll q.filters
  if !fitsWord (q.limit.getD 0) || !fitsWord q.offset then throw .wideInteger
  if q.limit = some 0 then return []
  let records ← Record.filterAll filters (s.live q.tableId)
  return q.page (q.arrange (records.filter fun r => q.excludeId != some r.id))

def liveCounts (s : Store) (tableIds : List String) : Outcome (List (String × Nat)) := do
  if tableIds.isEmpty then return []
  s.requireReady
  return (tableIds.map fun id => (id, (s.live id).length)).filter fun e => e.2 ≠ 0

end Store

def Store.toDocument (s : Store) : Value :=
  .map [("is_ready", .bool s.isReady), ("tables", .list (s.tables.map (·.toDocument))),
    ("records", .list (s.records.map (·.toDocument)))]

namespace Document.Reader

def store : Reader Store :=
  document "Store" fun es =>
    Store.mk <$> required es "is_ready" boolean
      <*> required es "tables" (list table)
      <*> required es "records" (list record)

end Document.Reader
end TenantTables
