import TenantTables.Operation.Request
import TenantTables.Query.Sort
import TenantTables.Settings

/-!
This module contains the query for one page of the live records of a table. Storage filters, orders by
timestamps and cuts out the page, and a sort by a field of the data rearranges the page only.
-/

namespace TenantTables.Query

open Program

def pageSize (settings : Settings) (q : RecordQuery) : Outcome Int :=
  match q.limit with
  | none => .ok settings.defaultPageSize
  | some n =>
    if settings.maxPageSize < n then reject (.pageLimit settings.maxPageSize) "limit" (.int n)
    else .ok n

def isScalar : Value → Bool
  | .null | .bool _ | .int _ | .real _ | .text _ => true
  | _ => false

def checkFilters (filters : Entries) : Outcome Unit :=
  filters.forM fun (key, v) => do
    if !Text.isSnakeCase key then reject (.filterKey key) key v
    if !isScalar v then reject (.filterScalar key) key v

def selection (tableId : String) (q : RecordQuery) (size : Int) : Selection :=
  let base : Selection :=
    { tableId, filters := q.filters.getD [], offset := (q.page - 1) * size, limit := some size }
  match q.sort.bind fun s => s.timestampColumn?.map (s, ·) with
  | some (s, column) => { base with column, descending := s.descending }
  | none => base

def rows (q : RecordQuery) (records : List Record) : List Entries :=
  let rows := records.map (·.toRow)
  match q.sort with
  | some s => if s.timestampColumn?.isNone then s.sortRows rows else rows
  | none => rows

def pageCount (total : Nat) (size : Int) : Int :=
  (Binary64.ofRatio false total size.toNat).ceil

def readOptions : Request RecordQuery → Outcome RecordQuery
  | .document .null => .ok {}
  | request => request.read Document.Reader.recordQuery

def page (settings : Settings) (tableId : String) (request : Request RecordQuery) :
    Program QueryPage := do
  let q ← readOptions request
  let size ← pageSize settings q
  checkFilters (q.filters.getD [])
  discard (requireTable tableId)
  let s := selection tableId q size
  let total ← ask (.count tableId s.filters)
  let records ← ask (.select s)
  return { records := rows q records, total, page := q.page, totalPages := pageCount total size }

end TenantTables.Query
