import TenantTables.Operation.Query
import TenantTables.Proofs.Operation.Frame
import TenantTables.Proofs.Storage.Without

/-!
This module contains everything that is done with storage, whether it writes or only reads, and that all of
it overlooks a deleted record but what asks for that record by its identifier.
-/

namespace TenantTables

open Program

namespace Tables

theorem uses_get {allowed : {β : Type} → Call β → Bool} {tableId : String}
    (h : allowed (.table tableId) = true) (tenantId : Option String) :
    (get tableId tenantId).Uses allowed := by
  apply uses_bind (uses_requireTable h)
  intro table
  cases tenantId with
  | none => trivial
  | some tenant =>
    dsimp only
    split <;> trivial

theorem searches_get (tableId : String) (tenantId : Option String) :
    (get tableId tenantId).Uses Call.isSearch :=
  uses_get rfl tenantId

theorem searches_list (tenantId : String) : (list tenantId).Uses Call.isSearch := by
  apply uses_bind (uses_ask rfl)
  intro tables
  exact uses_bind (uses_ask rfl) fun _ => trivial

theorem searches_danglingRelations (tableId : String) :
    (danglingRelations tableId).Uses Call.isSearch := by
  apply uses_bind (searches_requireTable tableId)
  intro table
  apply uses_filterM
  intro r
  dsimp only
  split
  . trivial
  . exact uses_bind (uses_ask rfl) fun _ => trivial

variable {id : String}

theorem spares_add (r : TableRequest) (name : String) : (add r name).Uses (Call.spares id) := by
  apply uses_bind (uses_ask rfl)
  intro now
  apply uses_bind (uses_ask rfl)
  intro tableId
  apply uses_bind (uses_lift _)
  intro table
  apply uses_bind
  . apply uses_tryCatch (uses_ask rfl)
    intro e
    split <;> trivial
  . exact fun _ => trivial

theorem spares_create (r : TableRequest) (lookUp : Bool) : (create r lookUp).Uses (Call.spares id) := by
  apply uses_bind (uses_lift _)
  intro name
  dsimp only
  split
  . apply uses_bind (spares_of_searches (searches_isTaken r name))
    intro taken
    exact uses_ite_reject (spares_add r name)
  . exact spares_add r name

theorem spares_write (t : Table) (displayName description : Value) :
    (write t displayName description).Uses (Call.spares id) := by
  apply uses_bind (uses_ask rfl)
  intro now
  apply uses_bind (uses_lift _)
  intro t'
  exact uses_bind (uses_ask rfl) fun _ => trivial

theorem spares_update (tableId : String) (displayName description : Value) :
    (update tableId displayName description).Uses (Call.spares id) := by
  apply uses_locked rfl rfl
  apply uses_bind (spares_of_searches (searches_requireTable tableId))
  intro table
  split
  . trivial
  . exact spares_write _ _ _

theorem spares_addField (tableId : String) (request : Request FieldSpec) :
    (addField tableId request).Uses (Call.spares id) := by
  apply uses_bind (uses_lift _)
  intro requested
  apply uses_locked rfl rfl
  apply uses_bind (spares_of_searches (searches_requireTable tableId))
  intro table
  apply uses_bind (uses_lift _)
  intro name
  apply uses_ite_reject
  apply uses_bind (uses_lift _)
  intro spec
  apply uses_bind (uses_ask rfl)
  intro fieldId
  apply uses_bind (uses_lift _)
  intro field
  exact spares_write _ _ _

theorem spares_updateField (tableId fieldId : String) (request : Request FieldUpdate) :
    (updateField tableId fieldId request).Uses (Call.spares id) := by
  apply uses_locked rfl rfl
  apply uses_bind (spares_of_searches (searches_requireTable tableId))
  intro table
  dsimp only
  split
  . apply uses_bind (uses_pure _)
    intro existing
    apply uses_bind (uses_lift _)
    intro u
    apply uses_bind (uses_lift _)
    intro merged
    exact spares_write _ _ _
  . trivial

theorem spares_deleteField (tableId fieldId : String) :
    (deleteField tableId fieldId).Uses (Call.spares id) := by
  apply uses_locked rfl rfl
  apply uses_bind (spares_of_searches (searches_requireTable tableId))
  intro table
  dsimp only
  split
  . trivial
  . exact spares_write _ _ _

theorem spares_createRelation (tableId : String) (request : Request RelationSpec) :
    (createRelation tableId request).Uses (Call.spares id) := by
  apply uses_bind (uses_lift _)
  intro spec
  apply uses_locked rfl rfl
  apply uses_bind (spares_of_searches (searches_requireTable tableId))
  intro table
  apply uses_bind (spares_of_searches (searches_requireTarget table _))
  intro target
  apply uses_ite_reject
  apply uses_ite_reject
  apply uses_bind (uses_ask rfl)
  intro relationId
  exact spares_write _ _ _

end Tables

theorem Query.uses_page {allowed : {β : Type} → Call β → Bool} {tableId : String}
    (htable : allowed (.table tableId) = true) (hcount : ∀ filters, allowed (.count tableId filters) = true)
    (hselect : ∀ s : Selection, s.tableId = tableId → allowed (.select s) = true) (settings : Settings)
    (request : Request RecordQuery) : (page settings tableId request).Uses allowed := by
  have hload : (requireTable tableId >>= fun _ => pure ()).Uses allowed :=
    uses_bind (uses_requireTable htable) fun _ => uses_pure ()
  apply uses_bind (uses_lift _)
  intro q
  apply uses_bind (uses_lift _)
  intro size
  apply uses_bind (uses_lift _)
  intro _
  apply uses_bind hload
  intro _
  apply uses_bind (uses_ask (hcount _))
  intro total
  refine uses_bind (uses_ask (hselect _ ?_)) fun _ => trivial
  unfold selection
  dsimp only
  split <;> rfl

theorem Query.searches_page (settings : Settings) (tableId : String) (request : Request RecordQuery) :
    (page settings tableId request).Uses Call.isSearch :=
  uses_page rfl (fun _ => rfl) (fun _ _ => rfl) settings request

namespace Transfer

theorem uses_exportAll {allowed : {β : Type} → Call β → Bool} {tableId : String}
    (htable : allowed (.table tableId) = true)
    (hselect : ∀ s : Selection, s.tableId = tableId → allowed (.select s) = true) (settings : Settings)
    (includeLegacy : Bool) : (exportAll settings tableId includeLegacy).Uses allowed := by
  apply uses_bind (uses_requireTable htable)
  intro table
  exact uses_bind (uses_ask (hselect _ rfl)) fun _ => trivial

theorem searches_exportAll (settings : Settings) (tableId : String) (includeLegacy : Bool) :
    (exportAll settings tableId includeLegacy).Uses Call.isSearch :=
  uses_exportAll rfl (fun _ _ => rfl) settings includeLegacy

theorem searches_exportText (settings : Settings) (tableId : String) (includeLegacy : Bool) :
    (exportText settings tableId includeLegacy).Uses Call.isSearch :=
  uses_bind (searches_exportAll settings tableId includeLegacy) fun _ => trivial

end Transfer

namespace World

structure HasBuried (source : Source) (w : World) (id : String) : Prop where
  buried : w.store.Buries id
  passed : ∀ n, w.identifiers ≤ n → source.identifiers n ≠ id

variable {source : Source} {w w' : World} {id : String}

theorem hasBuried_change {may : String → Work → Prop} (hle : w.identifiers ≤ w'.identifiers)
    (hchange : Change source may w w') (h : w.HasBuried source id) : w'.HasBuried source id := by
  refine ⟨?_, fun n hn => h.passed n (Nat.le_trans hle hn)⟩
  rcases (puts_of_change hchange).2 with hsame | ⟨new, hputs⟩
  . exact Store.buries_of_records_eq hsame h.buried
  . have hne : new.id ≠ id := by
      rcases hputs.place with ⟨hid, -⟩ | ⟨old, hold, halive⟩
      . rw [hid]
        exact h.passed _ (Nat.le_refl _)
      . intro heq
        have hdeleted := h.buried old (Store.record?_mem hold) ((Store.record?_id hold).trans heq)
        rw [halive] at hdeleted
        contradiction
    exact Store.buries_of_records_eq hputs.records (Store.buries_putRecord hne h.buried)

end World

namespace Records

variable {source : Source} {w : World} {id : String}

theorem spares_requireRecord {recordId : String} (hne : recordId ≠ id) (tableId : String) :
    (requireRecord tableId recordId).Uses (Call.spares id) := by
  apply uses_bind (uses_ask (bne_iff_ne.mpr hne))
  intro found
  cases found with
  | none => trivial
  | some r =>
    dsimp only
    split
    . trivial
    . split <;> trivial

theorem overlooks_save {r : Record} (hne : r.id ≠ id) (h : w.store.Buries id) :
    (ask (.saveRecord r) >>= fun _ => pure r).Overlooks source id w :=
  overlooks_of_uses (uses_bind (uses_ask (bne_iff_ne.mpr hne)) fun _ => trivial) h

theorem overlooks_insert (h : w.HasBuried source id) (tableId : String) (payload actor : Value) :
    (insert tableId payload actor).Overlooks source id w := by
  apply overlooks_locked
  apply overlooks_bind (overlooks_of_uses (spares_of_searches (searches_requireTable tableId)) h.buried)
  intro table v hload
  obtain ⟨-, -, rfl⟩ := requireTable_ok hload
  apply overlooks_bind (overlooks_done _)
  intro es v hes
  obtain ⟨-, rfl⟩ := run_lift_ok.mp hes
  apply overlooks_bind (overlooks_done _)
  intro data v hdata
  obtain ⟨-, rfl⟩ := run_lift_ok.mp hdata
  apply overlooks_bind (overlooks_of_uses (spares_of_searches (searches_checkUnique _ _ _)) h.buried)
  intro _ v hunique
  obtain ⟨rfl, -⟩ := checkUnique_ok hunique
  apply overlooks_bind (overlooks_of_uses (uses_ask rfl) h.buried)
  intro now v hnow
  cases hnow
  apply overlooks_bind (overlooks_of_uses (uses_ask rfl) (by exact h.buried))
  intro recordId v hidentifier
  cases hidentifier
  apply overlooks_bind (overlooks_done _)
  intro r v hnew
  obtain ⟨hread, rfl⟩ := run_lift_ok.mp hnew
  obtain ⟨-, _, _, hshape⟩ := newRecord_ok hread
  apply overlooks_save _ (by exact h.buried)
  rw [hshape]
  exact h.passed _ (Nat.le_refl _)

theorem overlooks_update (h : w.HasBuried source id) (tableId : String) {recordId : String}
    (hne : recordId ≠ id) (payload actor : Value) :
    (update tableId recordId payload actor).Overlooks source id w := by
  apply overlooks_locked
  apply overlooks_bind (overlooks_of_uses (spares_of_searches (searches_requireTable tableId)) h.buried)
  intro table v hload
  obtain ⟨-, -, rfl⟩ := requireTable_ok hload
  apply overlooks_bind (overlooks_of_uses (spares_requireRecord hne tableId) h.buried)
  intro existing v hexisting
  obtain ⟨-, hfound, -, -, rfl⟩ := requireRecord_ok hexisting
  cases payload with
  | map es =>
    dsimp only
    rw [pure_bind]
    apply overlooks_bind (overlooks_done _)
    intro data v hdata
    obtain ⟨-, rfl⟩ := run_lift_ok.mp hdata
    apply overlooks_bind (overlooks_of_uses (spares_of_searches (searches_checkUnique _ _ _)) h.buried)
    intro _ v hunique
    obtain ⟨rfl, -⟩ := checkUnique_ok hunique
    apply overlooks_bind (overlooks_of_uses (uses_ask rfl) h.buried)
    intro now v hnow
    cases hnow
    apply overlooks_bind (overlooks_done _)
    intro updatedBy v hactor
    obtain ⟨-, rfl⟩ := run_lift_ok.mp hactor
    apply overlooks_save _ (by exact h.buried)
    rw [← Store.record?_id hfound] at hne
    exact hne
  | _ => exact overlooks_done _

theorem overlooks_softDelete (h : w.HasBuried source id) (tableId : String) {recordId : String}
    (hne : recordId ≠ id) : (softDelete tableId recordId).Overlooks source id w := by
  apply overlooks_locked
  apply overlooks_bind (overlooks_of_uses (spares_requireRecord hne tableId) h.buried)
  intro existing v hexisting
  obtain ⟨-, hfound, -, -, rfl⟩ := requireRecord_ok hexisting
  apply overlooks_bind (overlooks_of_uses (uses_ask rfl) h.buried)
  intro now v hnow
  cases hnow
  dsimp only
  apply overlooks_save _ (by exact h.buried)
  rw [← Store.record?_id hfound] at hne
  exact hne

end Records

namespace Transfer

variable {source : Source} {w : World} {id : String}

theorem overlooks_importRow (h : w.HasBuried source id) (tableId : String) (dropped : List String)
    (row actor : Value) : (importRow tableId dropped row actor).Overlooks source id w := by
  apply overlooks_bind
  . apply overlooks_attempt
    apply overlooks_bind (overlooks_done _)
    intro payload v hpayload
    obtain ⟨-, rfl⟩ := run_lift_ok.mp hpayload
    exact Records.overlooks_insert h _ _ _
  . intro result v _
    cases result with
    | ok _ => exact overlooks_done _
    | error e =>
      dsimp only
      split <;> exact overlooks_done _

theorem hasBuried_importRow (h : w.HasBuried source id) (tableId : String) (dropped : List String)
    (row actor : Value) :
    ((importRow tableId dropped row actor).run source w).2.HasBuried source id := by
  have hchanges : (importRow tableId dropped row actor).Changes source fun _ _ => True :=
    changes_importRow fun _ _ _ => trivial
  exact hchanges (·.HasBuried source id) (fun _ _ => World.hasBuried_change) w h

theorem overlooks_importFrom (h : w.HasBuried source id) (tableId : String) (dropped : List String)
    (actor : Value) (number : Int) (rows : List Value) :
    (importFrom tableId dropped actor number rows).Overlooks source id w := by
  induction rows generalizing number w with
  | nil => exact overlooks_done _
  | cons row rows ih =>
    apply overlooks_bind (overlooks_importRow h tableId dropped row actor)
    intro report v hrow
    have hv : v.HasBuried source id := by
      have hafter := hasBuried_importRow h tableId dropped row actor
      rw [hrow] at hafter
      exact hafter
    exact overlooks_bind (ih hv _) fun _ _ _ => overlooks_done _

theorem overlooks_importRows (h : w.HasBuried source id) (settings : Settings) (tableId : String)
    (rows : List Value) (actor : Value) :
    (importRows settings tableId rows actor).Overlooks source id w := by
  apply overlooks_bind (overlooks_of_uses (spares_of_searches (searches_requireTable tableId)) h.buried)
  intro table v hload
  obtain ⟨-, -, rfl⟩ := requireTable_ok hload
  exact overlooks_importFrom h _ _ _ _ _

theorem overlooks_importText (h : w.HasBuried source id) (settings : Settings)
    (tableId text : String) (actor : Value) :
    (importText settings tableId text actor).Overlooks source id w := by
  apply overlooks_bind (overlooks_done _)
  intro rows v hrows
  obtain ⟨-, rfl⟩ := run_lift_ok.mp hrows
  exact overlooks_importRows h _ _ _ _

end Transfer

def Operation.asksFor (recordId : String) : Operation → Bool
  | .work _ job => job.rewrites recordId
  | _ => false

theorem Work.overlooks_program {source : Source} {w : World} {id : String} (h : w.HasBuried source id)
    (tableId : String) {job : Work} (hjob : job.rewrites id = false) :
    (job.program tableId).Overlooks source id w := by
  have hmap {α β : Type} {p : Program α} (f : α → β) (hp : p.Overlooks source id w) :
      (p >>= fun a => pure (f a)).Overlooks source id w :=
    overlooks_bind hp fun _ _ _ => overlooks_done _
  cases job with
  | updateTable displayName description =>
    exact hmap _ (overlooks_of_uses (Tables.spares_update _ _ _) h.buried)
  | addField request => exact hmap _ (overlooks_of_uses (Tables.spares_addField _ _) h.buried)
  | updateField fieldId request =>
    exact hmap _ (overlooks_of_uses (Tables.spares_updateField _ _ _) h.buried)
  | deleteField fieldId => exact hmap _ (overlooks_of_uses (Tables.spares_deleteField _ _) h.buried)
  | createRelation request =>
    exact hmap _ (overlooks_of_uses (Tables.spares_createRelation _ _) h.buried)
  | insert payload actor => exact hmap _ (Records.overlooks_insert h _ _ _)
  | update recordId payload actor =>
    exact hmap _ (Records.overlooks_update h _ (ne_of_beq_false hjob) _ _)
  | softDelete recordId => exact hmap _ (Records.overlooks_softDelete h _ (ne_of_beq_false hjob))

theorem Operation.overlooks_program {source : Source} {w : World} {id : String}
    (h : w.HasBuried source id) {op : Operation} (hop : op.asksFor id = false) :
    op.program.Overlooks source id w := by
  cases op with
  | createTable r lookUp =>
    exact overlooks_bind (overlooks_of_uses (Tables.spares_create r lookUp) h.buried)
      fun _ _ _ => overlooks_done _
  | work tableId job => exact Work.overlooks_program h tableId hop
  | importRows settings tableId rows actor =>
    exact overlooks_bind (Transfer.overlooks_importRows h settings tableId rows actor)
      fun _ _ _ => overlooks_done _
  | importText settings tableId text actor =>
    exact overlooks_bind (Transfer.overlooks_importText h settings tableId text actor)
      fun _ _ _ => overlooks_done _

inductive Activity : Type → Type 1 where
  | operation (op : Operation) : Activity Answer
  | getTable (tableId : String) (tenantId : Option String) : Activity Table
  | listTables (tenantId : String) : Activity (List TableSummary)
  | danglingRelations (tableId : String) : Activity (List Relation)
  | getRecord (tableId recordId : String) : Activity Record
  | queryPage (settings : Settings) (tableId : String) (request : Request RecordQuery) :
    Activity QueryPage
  | exportAll (settings : Settings) (tableId : String) (includeLegacy : Bool) : Activity ExportResult
  | exportText (settings : Settings) (tableId : String) (includeLegacy : Bool) : Activity String
  | search {α : Type} (c : Call α) (h : c.isSearch = true) : Activity α

namespace Activity

def program : Activity α → Program α
  | operation op => op.program
  | getTable tableId tenantId => Tables.get tableId tenantId
  | listTables tenantId => Tables.list tenantId
  | danglingRelations tableId => Tables.danglingRelations tableId
  | getRecord tableId recordId => Records.get tableId recordId
  | queryPage settings tableId request => Query.page settings tableId request
  | exportAll settings tableId includeLegacy => Transfer.exportAll settings tableId includeLegacy
  | exportText settings tableId includeLegacy => Transfer.exportText settings tableId includeLegacy
  | search c _ => ask c

def asksFor (recordId : String) : Activity α → Bool
  | operation op => op.asksFor recordId
  | getRecord _ id => id == recordId
  | _ => false

variable {source : Source} {w : World} {id : String}

theorem overlooks_program (h : w.HasBuried source id) (a : Activity α) (ha : a.asksFor id = false) :
    a.program.Overlooks source id w := by
  have hsearch {β : Type} {p : Program β} (hp : p.Uses Call.isSearch) : p.Overlooks source id w :=
    overlooks_of_uses (spares_of_searches hp) h.buried
  cases a with
  | operation op => exact Operation.overlooks_program h ha
  | getTable tableId tenantId => exact hsearch (Tables.searches_get tableId tenantId)
  | listTables tenantId => exact hsearch (Tables.searches_list tenantId)
  | danglingRelations tableId => exact hsearch (Tables.searches_danglingRelations tableId)
  | getRecord tableId recordId =>
    exact overlooks_of_uses (Records.spares_requireRecord (ne_of_beq_false ha) tableId) h.buried
  | queryPage settings tableId request => exact hsearch (Query.searches_page settings tableId request)
  | exportAll settings tableId includeLegacy =>
    exact hsearch (Transfer.searches_exportAll settings tableId includeLegacy)
  | exportText settings tableId includeLegacy =>
    exact hsearch (Transfer.searches_exportText settings tableId includeLegacy)
  | search c hc => exact hsearch (uses_ask hc)

def operation? : Activity α → Option Operation
  | operation op => some op
  | _ => none

theorem reads_program (a : Activity α) (h : a.operation? = none) : a.program.Reads := by
  cases a with
  | operation op => simp [operation?] at h
  | getTable tableId tenantId => exact reads_of_searches (Tables.searches_get tableId tenantId)
  | listTables tenantId => exact reads_of_searches (Tables.searches_list tenantId)
  | danglingRelations tableId => exact reads_of_searches (Tables.searches_danglingRelations tableId)
  | getRecord tableId recordId => exact reads_requireRecord tableId recordId
  | queryPage settings tableId request =>
    exact reads_of_searches (Query.searches_page settings tableId request)
  | exportAll settings tableId includeLegacy =>
    exact reads_of_searches (Transfer.searches_exportAll settings tableId includeLegacy)
  | exportText settings tableId includeLegacy =>
    exact reads_of_searches (Transfer.searches_exportText settings tableId includeLegacy)
  | search c hc => exact uses_ask (Call.isRead_of_isSearch hc)

theorem run_keeps {P : World → Prop}
    (hkeep : ∀ may w w', w.identifiers ≤ w'.identifiers → Change source may w w' → P w → P w')
    (a : Activity α) (hw : P w) : P (a.program.run source w).2 := by
  have hreads (b : Activity α) (hb : b.operation? = none) : P (b.program.run source w).2 := by
    have hchanges : b.program.Changes source fun _ _ => False := changes_of_reads (b.reads_program hb)
    exact hchanges P (hkeep _) w hw
  cases a with
  | operation op => exact op.changes_program P (hkeep op.Does) w hw
  | _ => exact hreads _ rfl

end Activity

namespace World

variable {source : Source} {w : World}

def along (source : Source) (w : World) (as : List ((α : Type) × Activity α)) : World :=
  as.foldl (fun w a => (a.2.program.run source w).2) w

theorem along_append (source : Source) (w : World) (as later : List ((α : Type) × Activity α)) :
    w.along source (as ++ later) = (w.along source as).along source later :=
  List.foldl_append

theorem along_keeps {P : World → Prop}
    (hkeep : ∀ may w w', w.identifiers ≤ w'.identifiers → Change source may w w' → P w → P w')
    (hw : P w) (as : List ((α : Type) × Activity α)) : P (w.along source as) := by
  induction as generalizing w with
  | nil => exact hw
  | cons a as ih => exact ih (a.2.run_keeps hkeep hw)

end World
end TenantTables
