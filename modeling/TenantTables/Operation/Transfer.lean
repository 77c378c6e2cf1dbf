import TenantTables.Operation.Records
import TenantTables.Settings
import TenantTables.Transfer.Sheet

namespace TenantTables.Transfer

open Program

def droppedColumns (table : Table) : List String :=
  Record.reservedColumns.filter fun c => !table.fieldNames.contains c

def rowPayload (dropped : List String) : Value → Outcome Entries
  | .map es => .ok (es.filter fun e => !dropped.contains e.1)
  | v => .error (.noMember v.kindName "items")

def importRow (tableId : String) (dropped : List String) (row actor : Value) :
    Program (Option Report) := do
  let result ← attempt do
    let payload ← rowPayload dropped row
    Records.insert tableId (.map payload) actor
  match result with
  | .ok _ => return none
  | .error e =>
    match e.report? with
    | some report => return some report
    | none => throw e

def importFrom (tableId : String) (dropped : List String) (actor : Value) (number : Int) :
    List Value → Program ImportResult
  | [] => return { imported := 0 }
  | row :: rows => do
    let report ← importRow tableId dropped row actor
    let rest ← importFrom tableId dropped actor (number + 1) rows
    return match report with
      | none => { rest with imported := rest.imported + 1 }
      | some r => { rest with errors := ⟨number, r.message⟩ :: rest.errors }

def importRows (settings : Settings) (tableId : String) (rows : List Value) (actor : Value) :
    Program ImportResult := do
  let table ← requireTable tableId
  importFrom tableId (droppedColumns table) actor settings.importHeaderOffset rows

def legacyColumns (table : Table) (records : List Record) : List String :=
  let keys := records.flatMap fun r => r.data.keys.filter fun k => !table.fieldNames.contains k
  keys.eraseDups.mergeSort

def exportRow (table : Table) (legacy : List String) (r : Record) : Entries :=
  let column (name : String) : String × Value := (name, r.data.get name)
  Entries.ofList <|
    ("id", .text r.id) :: table.fieldNames.map column ++
      [("created_at", .text r.createdAt.print), ("updated_at", .text r.updatedAt.print)] ++
      legacy.map column

def exportAll (settings : Settings) (tableId : String) (includeLegacy : Bool) :
    Program ExportResult := do
  let table ← requireTable tableId
  let records ← ask (.select { tableId, limit := some settings.exportLimit })
  let legacy := if includeLegacy then legacyColumns table records else []
  return {
    header := "id" :: table.fieldNames ++ ["created_at", "updated_at"] ++ legacy
    rows := records.map (exportRow table legacy) }

def importText (settings : Settings) (tableId text : String) (actor : Value) :
    Program ImportResult := do
  let rows ← (Sheet.read text).mapError Failure.csv
  importRows settings tableId (rows.map .map) actor

def exportText (settings : Settings) (tableId : String) (includeLegacy : Bool) :
    Program String := do
  return Sheet.write (← exportAll settings tableId includeLegacy)

end TenantTables.Transfer
