import TenantTables.Storage.Program

/-!
This module contains what the operations have in common: requests that are still documents or already
read, and the loading of tables and records that must be there.
-/

namespace TenantTables

inductive Request (α : Type) where
  | document (v : Value)
  | ready (a : α)

def Request.read (reader : Document.Reader α) : Request α → Outcome α
  | .document v => (reader v).toRequest
  | .ready a => .ok a

def Value.kindName : Value → String
  | .null => "NoneType"
  | .bool _ => "bool"
  | .int _ => "int"
  | .real _ => "float"
  | .text _ => "str"
  | .date _ => "date"
  | .moment _ => "datetime"
  | .uuid _ => "UUID"
  | .list _ => "list"
  | .map _ => "dict"

namespace Program

def requireTable (id : String) : Program Table := do
  match ← ask (.table id) with
  | some t => return t
  | none => throw (.notFound "Table")

def requireRecord (tableId recordId : String) : Program Record := do
  match ← ask (.record recordId) with
  | none => throw (.notFound "Record")
  | some r =>
    if r.isDeleted then throw (.notFound "Record")
    if r.tableId ≠ tableId then throw (.foreignRecord recordId tableId)
    return r

end Program

end TenantTables
