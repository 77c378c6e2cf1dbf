import TenantTables.Formula.Evaluation
import TenantTables.Operation.Request
import TenantTables.Validation

/-!
This module contains the operations on the records of a table. A write validates the data against the
current fields of the table, computes the computed fields, and holds the unique fields against all
other live records, all under the lock of the table.
-/

namespace TenantTables.Records

open Program

def withDefaults (fields : List Field) (data : Entries) : Entries :=
  fields.foldl
    (fun data f =>
      if !f.isComputed && f.hasDefault && !data.contains f.name then data.put f.name f.defaultValue
      else data)
    data

def newData (fields : List Field) (payload : Entries) : Outcome Entries := do
  let data ← validate fields payload
  computeFields fields (withDefaults fields data)

def mergedData (fields : List Field) (data payload : Entries) : Outcome Entries := do
  let data ← validate fields (data.overlay payload)
  computeFields fields data

def uniqueFields (fields : List Field) (data : Entries) : List Field :=
  fields.filter fun f => f.unique == some true && !(data.get f.name).isNull

def ensureAllUnique (unique : List Field) (data : Entries) (others : List Record) : Outcome Unit :=
  unique.forM fun f => f.ensureUnique (data.get f.name) others

def checkUnique (table : Table) (data : Entries) (excludeId : Option String) : Program Unit := do
  let unique := uniqueFields table.fields data
  if unique.isEmpty then return
  let others ← ask (.select { tableId := table.id, excludeId })
  ensureAllUnique unique data others

def pairOf (position : Nat) (v : Value) : Outcome (Value × Value) :=
  let elements : Option (List Value) := match v with
    | .list vs => some vs
    | .text s => some (s.toList.map fun c => .text c.toString)
    | .map es => some (es.map fun e => .text e.1)
    | _ => none
  match elements with
  | none => .error (.notSequence position)
  | some [a, b] => .ok (a, b)
  | some vs => .error (.notPair position vs.length)

def entriesOfPairs (vs : List Value) : Outcome Entries := do
  let pairs ← vs.zipIdx.mapM fun (v, i) => pairOf i v
  let entries ← pairs.mapM fun (k, v) =>
    match k with
    | .text s => .ok (s, v)
    | _ => .error (.misfit ⟨[.key "data", .key k.describe, .key "[key]"], .text, k⟩ [])
  return Entries.ofList entries

/--
The entries of a payload. One that is no map has to be a sequence of pairs, and fields cannot be looked
up in it.
-/
def payloadEntries (fields : List Field) (payload : Value) : Outcome Entries := do
  let sequence ← match payload with
    | .map es => return es
    | .list vs => entriesOfPairs vs
    | .text s => entriesOfPairs (s.toList.map fun c => .text c.toString)
    | v => .error (.notIterable v.kindName)
  if fields.isEmpty then return sequence
  .error (.noMember payload.kindName "get")

def newRecord (id tableId : String) (data : Entries) (actor : Value) (now : Moment) :
    Document.Reading Record :=
  let created := Document.required [("created_by", actor)] "created_by"
    (Document.Reader.nullable Document.Reader.text)
  let updated := Document.required [("updated_by", actor)] "updated_by"
    (Document.Reader.nullable Document.Reader.text)
  let time (key : String) := Document.required [(key, .moment now)] key (Document.Reader.moment key)
  (fun createdBy updatedBy createdAt updatedAt =>
      { id, tableId, data, createdBy, updatedBy, createdAt, updatedAt })
    <$> created <*> updated <*> time "created_at" <*> time "updated_at"

def insert (tableId : String) (payload actor : Value) : Program Record :=
  locked tableId do
    let table ← requireTable tableId
    let payload ← payloadEntries table.fields payload
    let data ← newData table.fields payload
    checkUnique table data none
    let now ← ask .clock
    let id ← ask .identifier
    let record ← (newRecord id table.id data actor now).toOutcome
    ask (.saveRecord record)
    return record

def readActor (actor : Value) : Outcome (Option String) :=
  (Document.required [("updated_by", actor)] "updated_by"
    (Document.Reader.nullable Document.Reader.text)).toOutcome

def update (tableId recordId : String) (payload actor : Value) : Program Record :=
  locked tableId do
    let table ← requireTable tableId
    let existing ← requireRecord tableId recordId
    let payload ← match payload with
      | .map es => pure es
      | v => throw (.notMapping v.kindName)
    let data ← mergedData table.fields existing.data payload
    checkUnique table data (some recordId)
    let now ← ask .clock
    let updatedBy ← readActor actor
    let record : Record := { existing with data, updatedBy, updatedAt := now }
    ask (.saveRecord record)
    return record

def softDelete (tableId recordId : String) : Program Record :=
  locked tableId do
    let existing ← requireRecord tableId recordId
    let now ← ask .clock
    let record : Record := { existing with deletedAt := some now }
    ask (.saveRecord record)
    return record

def get (tableId recordId : String) : Program Record :=
  requireRecord tableId recordId

end TenantTables.Records
