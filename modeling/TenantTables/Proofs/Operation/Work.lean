import TenantTables.Proofs.Operation.Records
import TenantTables.Proofs.Operation.Tables
import TenantTables.Transfer.Report

/-!
This module contains the operations that work on one table under its lock, as data: which program each of
them runs, and what it has done to the world once it returns.
-/

namespace TenantTables

open Program

inductive Answer where
  | table (t : Table)
  | record (r : Record)
  | imported (r : ImportResult)
  deriving DecidableEq

inductive Work where
  | updateTable (displayName description : Value)
  | addField (request : Request FieldSpec)
  | updateField (fieldId : String) (request : Request FieldUpdate)
  | deleteField (fieldId : String)
  | createRelation (request : Request RelationSpec)
  | insert (payload actor : Value)
  | update (recordId : String) (payload actor : Value)
  | softDelete (recordId : String)

namespace Work

def isEdit : Work → Bool
  | insert .. | update .. | softDelete .. => false
  | _ => true

def program (tableId : String) : Work → Program Answer
  | updateTable displayName description => return .table (← Tables.update tableId displayName description)
  | addField request => return .table (← Tables.addField tableId request)
  | updateField fieldId request => return .table (← Tables.updateField tableId fieldId request)
  | deleteField fieldId => return .table (← Tables.deleteField tableId fieldId)
  | createRelation request => return .table (← Tables.createRelation tableId request)
  | insert payload actor => return .record (← Records.insert tableId payload actor)
  | update recordId payload actor => return .record (← Records.update tableId recordId payload actor)
  | softDelete recordId => return .record (← Records.softDelete tableId recordId)

theorem isGuarded_program (tableId : String) (work : Work) :
    (work.program tableId).IsGuarded tableId := by
  cases work with
  | updateTable displayName description =>
    exact isGuarded_map (Tables.isGuarded_update tableId displayName description) Answer.table
  | addField request => exact isGuarded_map (Tables.isGuarded_addField tableId request) Answer.table
  | updateField fieldId request =>
    exact isGuarded_map (Tables.isGuarded_updateField tableId fieldId request) Answer.table
  | deleteField fieldId =>
    exact isGuarded_map (Tables.isGuarded_deleteField tableId fieldId) Answer.table
  | createRelation request =>
    exact isGuarded_map (Tables.isGuarded_createRelation tableId request) Answer.table
  | insert payload actor =>
    exact isGuarded_map (Records.isGuarded_insert tableId payload actor) Answer.record
  | update recordId payload actor =>
    exact isGuarded_map (Records.isGuarded_update tableId recordId payload actor) Answer.record
  | softDelete recordId =>
    exact isGuarded_map (Records.isGuarded_softDelete tableId recordId) Answer.record

theorem store_of_error {source : Source} {w w' : World} {tableId : String} {work : Work} {e : Failure}
    (h : (work.program tableId).run source w = (.error e, w')) : w'.store = w.store := by
  have hstore := store_run_of_isGuarded (work.isGuarded_program tableId) source w (congrArg Prod.fst h)
  rw [h] at hstore
  exact hstore

def issued : Work → Nat
  | addField _ | createRelation _ | insert .. => 1
  | _ => 0

inductive Edits (source : Source) (w : World) (old : Table) : Work → Table → Prop where
  | updateTable {displayName description : Value} :
    ¬(displayName.isNull = true ∧ description.isNull = true) →
    Edits source w old (.updateTable displayName description) old
  | addField {request : Request FieldSpec} {spec : FieldSpec} {name : String} :
    Tables.requestedName request = .ok (.text name) → old.fieldByName? name = none →
    request.read Document.Reader.fieldSpec = .ok spec →
    Document.Reader.formulaRule spec.type spec.formula = .ok () →
    Edits source w old (.addField request)
      { old with fields := old.fields ++ [spec.toField (source.identifiers w.identifiers)] }
  | updateField {fieldId : String} {request : Request FieldUpdate} {existing merged : Field}
    {u : FieldUpdate} :
    old.fieldById? fieldId = some existing → request.read Document.Reader.fieldUpdate = .ok u →
    Tables.merge existing u = .value merged →
    Edits source w old (.updateField fieldId request)
      { old with fields := old.fields.map fun f => if f.id == fieldId then merged else f }
  | deleteField {fieldId : String} :
    (old.fieldById? fieldId).isSome = true →
    Edits source w old (.deleteField fieldId)
      { old with fields := old.fields.filter (·.id != fieldId) }
  | createRelation {request : Request RelationSpec} {relation : Relation} :
    Edits source w old (.createRelation request)
      { old with relations := old.relations ++ [relation] }

inductive Done (source : Source) (w w' : World) (tableId : String) : Work → Answer → Prop where
  | unchanged {displayName description : Value} {t : Table} :
    displayName.isNull = true → description.isNull = true → w.store.isReady = true →
    w.store.table? tableId = some t → w' = w →
    Done source w w' tableId (.updateTable displayName description) (.table t)
  | edited {work : Work} {old edit t : Table} :
    Edits source w old work edit → Tables.Edited source w w' tableId old edit t →
    w'.identifiers = w.identifiers + work.issued →
    Done source w w' tableId work (.table t)
  | inserted {payload actor : Value} {table : Table} {r : Record} :
    w.store.table? tableId = some table → Records.Inserted source w w' table payload r →
    Done source w w' tableId (.insert payload actor) (.record r)
  | updated {recordId : String} {payload actor : Value} {table : Table} {old r : Record} :
    w.store.table? tableId = some table →
    Records.Updated source w w' table recordId payload old r →
    Done source w w' tableId (.update recordId payload actor) (.record r)
  | deleted {recordId : String} {old r : Record} :
    Records.Deleted source w w' tableId recordId old r →
    Done source w w' tableId (.softDelete recordId) (.record r)

theorem done_of_run {source : Source} {w w' : World} {tableId : String} {work : Work}
    {answer : Answer} (h : (work.program tableId).run source w = (.ok answer, w')) :
    Done source w w' tableId work answer := by
  cases work with
  | updateTable displayName description =>
    obtain ⟨t, hrun, rfl⟩ := run_map_ok.mp h
    rcases Tables.update_ok hrun with ⟨hready, hfound, hsame, hname, hdescription⟩ | ⟨old, hedited, hnext, hsome⟩
    . exact .unchanged hname hdescription hready hfound hsame
    . exact .edited (.updateTable hsome) hedited hnext
  | addField request =>
    obtain ⟨t, hrun, rfl⟩ := run_map_ok.mp h
    obtain ⟨old, spec, name, hrequested, hfree, hspec, hedited, hnext, hrule⟩ := Tables.addField_ok hrun
    exact .edited (.addField hrequested hfree hspec hrule) hedited hnext
  | updateField fieldId request =>
    obtain ⟨t, hrun, rfl⟩ := run_map_ok.mp h
    obtain ⟨old, existing, u, merged, hexisting, hu, hmerged, hedited, hnext⟩ :=
      Tables.updateField_ok hrun
    exact .edited (.updateField hexisting hu hmerged) hedited hnext
  | deleteField fieldId =>
    obtain ⟨t, hrun, rfl⟩ := run_map_ok.mp h
    obtain ⟨old, hexists, hedited, hnext⟩ := Tables.deleteField_ok hrun
    exact .edited (.deleteField hexists) hedited hnext
  | createRelation request =>
    obtain ⟨t, hrun, rfl⟩ := run_map_ok.mp h
    obtain ⟨old, _, relation, -, hedited, hnext⟩ := Tables.createRelation_ok hrun
    exact .edited .createRelation hedited hnext
  | insert payload actor =>
    obtain ⟨r, hrun, rfl⟩ := run_map_ok.mp h
    obtain ⟨table, htable, hinserted⟩ := Records.insert_ok hrun
    exact .inserted htable hinserted
  | update recordId payload actor =>
    obtain ⟨r, hrun, rfl⟩ := run_map_ok.mp h
    obtain ⟨table, old, htable, hupdated⟩ := Records.update_ok hrun
    exact .updated htable hupdated
  | softDelete recordId =>
    obtain ⟨r, hrun, rfl⟩ := run_map_ok.mp h
    obtain ⟨old, hdeleted⟩ := Records.softDelete_ok hrun
    exact .deleted hdeleted

end Work
end TenantTables
