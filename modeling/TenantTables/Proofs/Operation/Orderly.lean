import TenantTables.Proofs.Operation.Labels

/-!
This module contains that the definitions of tables stay in order: no two tables of a tenant share a name, and
the fields of a table stay apart by identifier and by name. Each operation leaves the tables alone, creates one
or writes one over itself.
-/

namespace TenantTables

open Program

namespace Call

def sparesTables : Call β → Bool
  | insertTable _ | saveTable _ => false
  | _ => true

end Call

namespace Program

theorem uses_of_reads {p : Program α} (h : p.Reads) : p.Uses Call.sparesTables := by
  induction p with
  | done r => trivial
  | call c next ih =>
    refine ⟨?_, fun r => ih r (h.2 r)⟩
    have hread := h.1
    cases c <;> simp_all [Call.isRead, Call.sparesTables]

theorem tables_run_of_uses {p : Program α} (h : p.Uses Call.sparesTables) (source : Source) (w : World) :
    (p.run source w).2.store.tables = w.store.tables ∧
      (p.run source w).2.store.isReady = w.store.isReady := by
  induction p generalizing w with
  | done r => exact ⟨rfl, rfl⟩
  | @call β c next ih =>
    have hanswer : (w.answer source c).2.store.tables = w.store.tables ∧
        (w.answer source c).2.store.isReady = w.store.isReady := by
      cases c with
      | insertTable t => simp [Call.sparesTables, Uses] at h
      | saveTable t => simp [Call.sparesTables, Uses] at h
      | saveRecord r =>
        cases hsave : w.store.saveRecord r with
        | error e => simp [World.answer, World.answer.write, hsave]
        | ok s =>
          obtain ⟨-, new, -, rfl⟩ := Store.saveRecord_ok hsave
          simp [World.answer, World.answer.write, hsave]
      | _ => exact ⟨rfl, rfl⟩
    obtain ⟨htables, hready⟩ := ih _ (h.2 _) (w.answer source c).2
    exact ⟨htables.trans hanswer.1, hready.trans hanswer.2⟩

end Program

namespace Records

theorem sparesTables_insert (tableId : String) (payload actor : Value) :
    (insert tableId payload actor).Uses Call.sparesTables := by
  apply uses_locked rfl rfl
  apply uses_bind (uses_of_reads (reads_requireTable _))
  intro table
  apply uses_bind (uses_lift _)
  intro es
  apply uses_bind (uses_lift _)
  intro data
  apply uses_bind (uses_of_reads (reads_checkUnique _ _ _))
  intro _
  apply uses_bind (uses_ask rfl)
  intro now
  apply uses_bind (uses_ask rfl)
  intro id
  apply uses_bind (uses_lift _)
  intro record
  exact uses_bind (uses_ask rfl) fun _ => trivial

theorem sparesTables_update (tableId recordId : String) (payload actor : Value) :
    (update tableId recordId payload actor).Uses Call.sparesTables := by
  apply uses_locked rfl rfl
  apply uses_bind (uses_of_reads (reads_requireTable _))
  intro table
  apply uses_bind (uses_of_reads (reads_requireRecord _ _))
  intro existing
  dsimp only
  split
  . apply uses_bind (uses_pure _)
    intro es
    apply uses_bind (uses_lift _)
    intro data
    apply uses_bind (uses_of_reads (reads_checkUnique _ _ _))
    intro _
    apply uses_bind (uses_ask rfl)
    intro now
    apply uses_bind (uses_lift _)
    intro updatedBy
    exact uses_bind (uses_ask rfl) fun _ => trivial
  . trivial

theorem sparesTables_softDelete (tableId recordId : String) :
    (softDelete tableId recordId).Uses Call.sparesTables := by
  apply uses_locked rfl rfl
  apply uses_bind (uses_of_reads (reads_requireRecord _ _))
  intro existing
  apply uses_bind (uses_ask rfl)
  intro now
  exact uses_bind (uses_ask rfl) fun _ => trivial

end Records

namespace Transfer

theorem sparesTables_importRow (tableId : String) (dropped : List String) (row actor : Value) :
    (importRow tableId dropped row actor).Uses Call.sparesTables := by
  apply uses_bind
  . apply uses_attempt
    apply uses_bind (uses_of_reads (reads_lift _))
    intro payload
    exact Records.sparesTables_insert _ _ _
  . intro result
    cases result with
    | ok _ => trivial
    | error e =>
      dsimp only
      split <;> trivial

theorem sparesTables_importRows (settings : Settings) (tableId : String) (rows : List Value)
    (actor : Value) : (importRows settings tableId rows actor).Uses Call.sparesTables := by
  apply uses_bind (uses_of_reads (reads_requireTable _))
  intro table
  generalize settings.importHeaderOffset = number
  induction rows generalizing number with
  | nil => trivial
  | cons row rows ih =>
    apply uses_bind (sparesTables_importRow _ _ _ _)
    intro report
    exact uses_bind (ih _) fun _ => trivial

theorem sparesTables_importText (settings : Settings) (tableId text : String) (actor : Value) :
    (importText settings tableId text actor).Uses Call.sparesTables := by
  apply uses_bind (uses_of_reads (reads_lift _))
  intro rows
  exact sparesTables_importRows _ _ _ _

end Transfer

namespace Operation

def revises (tableId : String) : Operation → Bool
  | .work id job => id == tableId && job.revises
  | _ => false

inductive Redefines (source : Source) (w w' : World) : Operation → Outcome Answer → Prop where
  | none {op : Operation} {result : Outcome Answer} :
    w'.store.tables = w.store.tables → w'.store.isReady = w.store.isReady →
    w.identifiers ≤ w'.identifiers →
    (∀ tableId, op.revises tableId = true → ∃ e, result = .error e) →
    Redefines source w w' op result
  | created {r : TableRequest} {lookUp : Bool} {t : Table} : Tables.Created source w w' t →
    Redefines source w w' (.createTable r lookUp) (.ok (.table t))
  | revised {tableId : String} {job : Work} {answer : Answer} {old new : Table} :
    w.store.table? tableId = some old → Work.Revises source w w' job old new →
    Redefines source w w' (.work tableId job) (.ok answer)

theorem redefines_of_run (source : Source) (w : World) (op : Operation) :
    op.Redefines source w (op.program.run source w).2 (op.program.run source w).1 := by
  have hle := identifiers_le_run source w op.program
  cases op with
  | createTable r lookUp =>
    rcases hrun : (program (.createTable r lookUp)).run source w with ⟨e | answer, w'⟩
    . have hlast : (program (.createTable r lookUp)).WritesLast :=
        writesLast_map (Tables.writesLast_create r lookUp) Answer.table
      have hstore := store_run_of_error hlast source w (congrArg Prod.fst hrun)
      rw [hrun] at hle
      rw [hrun] at hstore
      exact .none (congrArg Store.tables hstore) (congrArg Store.isReady hstore) hle
        fun _ _ => ⟨e, rfl⟩
    . obtain ⟨t, hcreate, rfl⟩ := run_map_ok.mp hrun
      exact .created (Tables.create_ok hcreate)
  | work tableId job =>
    rcases hrun : (program (.work tableId job)).run source w with ⟨e | answer, w'⟩
    . have hstore := Work.store_of_error hrun
      rw [hrun] at hle
      exact .none (congrArg Store.tables hstore) (congrArg Store.isReady hstore) hle
        fun _ _ => ⟨e, rfl⟩
    . rw [hrun] at hle
      rcases Work.tables_of_done (Work.done_of_run hrun) with
        ⟨hrevises, htables, hready⟩ | ⟨old, new, hold, hrevised⟩
      . apply Redefines.none htables hready hle
        intro id hid
        simp [revises, hrevises] at hid
      . exact .revised hold hrevised
  | importRows settings tableId rows actor =>
    have huses : (program (.importRows settings tableId rows actor)).Uses Call.sparesTables :=
      uses_bind (Transfer.sparesTables_importRows settings tableId rows actor) fun _ => trivial
    obtain ⟨htables, hready⟩ := tables_run_of_uses huses source w
    exact .none htables hready hle (by simp [revises])
  | importText settings tableId text actor =>
    have huses : (program (.importText settings tableId text actor)).Uses Call.sparesTables :=
      uses_bind (Transfer.sparesTables_importText settings tableId text actor) fun _ => trivial
    obtain ⟨htables, hready⟩ := tables_run_of_uses huses source w
    exact .none htables hready hle (by simp [revises])

end Operation

theorem nodup_append_singleton {as : List α} {a : α} (has : as.Nodup) (ha : a ∉ as) :
    (as ++ [a]).Nodup := by
  rw [List.nodup_append_comm]
  exact List.nodup_cons.mpr ⟨ha, has⟩

namespace Work

variable {source : Source} {w : World} {job : Work} {labels labels' : List (String × String)}

theorem mem_of_relabels (h : Relabels source w labels job labels') {label : String × String}
    (hmem : label ∈ labels') :
    label ∈ labels ∨ (job.issued = 1 ∧ label.1 = source.identifiers w.identifiers) := by
  cases h with
  | kept => exact .inl hmem
  | added =>
    rcases List.mem_append.mp hmem with hmem | hmem
    . exact .inl hmem
    . rw [List.mem_singleton.mp hmem]
      exact .inr ⟨rfl, rfl⟩
  | removed => exact .inl (List.mem_filter.mp hmem).1

theorem relabels_keeps (h : Relabels source w labels job labels') {label : String × String}
    (hmem : label ∈ labels) : label ∈ labels' ∨ job = .deleteField label.1 := by
  cases h with
  | kept => exact .inl hmem
  | added => exact .inl (List.mem_append_left _ hmem)
  | @removed fieldId =>
    by_cases hid : label.1 = fieldId
    . exact .inr (by rw [hid])
    . left
      simpa [hmem] using hid

theorem nodup_of_relabels (h : Relabels source w labels job labels')
    (hnew : source.identifiers w.identifiers ∉ labels.map (·.1)) (hids : (labels.map (·.1)).Nodup)
    (hnames : (labels.map (·.2)).Nodup) :
    (labels'.map (·.1)).Nodup ∧ (labels'.map (·.2)).Nodup := by
  cases h with
  | kept => exact ⟨hids, hnames⟩
  | added hfree =>
    rw [List.map_append, List.map_append]
    exact ⟨nodup_append_singleton hids hnew, nodup_append_singleton hnames hfree⟩
  | removed =>
    exact ⟨hids.sublist (List.filter_sublist.map _), hnames.sublist (List.filter_sublist.map _)⟩

end Work

namespace World

structure IsOrderly (source : Source) (w : World) : Prop where
  ready : w.store.tables ≠ [] → w.store.isReady = true
  ids : (w.store.tables.map (·.id)).Nodup
  names : (w.store.tables.map fun t => (t.tenantId, t.name)).Nodup
  tables : ∀ t ∈ w.store.tables, t.IsWellFormed
  issued : ∀ t ∈ w.store.tables, ∀ label ∈ t.labels,
    ∃ n < w.identifiers, label.1 = source.identifiers n

variable {source : Source} {w w' : World}

theorem table?_of_mem (h : w.IsOrderly source) {t : Table} (ht : t ∈ w.store.tables) :
    w.store.table? t.id = some t :=
  find?_of_mem Table.id h.ids ht

theorem isOrderly_of_eq (h : w.IsOrderly source) (htables : w'.store.tables = w.store.tables)
    (hready : w'.store.isReady = w.store.isReady) (hle : w.identifiers ≤ w'.identifiers) :
    w'.IsOrderly source := by
  refine ⟨?_, ?_, ?_, ?_, ?_⟩
  . rw [htables, hready]
    exact h.ready
  . rw [htables]
    exact h.ids
  . rw [htables]
    exact h.names
  . rw [htables]
    exact h.tables
  . rw [htables]
    intro t ht label hlabel
    obtain ⟨n, hn, hid⟩ := h.issued t ht label hlabel
    exact ⟨n, Nat.lt_of_lt_of_le hn hle, hid⟩

theorem isOrderly_of_created (h : w.IsOrderly source) {t : Table}
    (hcreated : Tables.Created source w w' t) : w'.IsOrderly source := by
  obtain ⟨s, hinsert, rfl⟩ := hcreated.saved
  obtain ⟨hready, hfreeId, hfreeName, new, hnew, hstore⟩ := Store.insertTable_ok hinsert
  obtain ⟨_, _, _, _, hshape⟩ := hcreated.shape
  obtain ⟨_, _, -, -, hnewshape⟩ := Table.stored_ok hnew
  have hfields : new.fields = [] := by
    rw [hnewshape, hshape]
    rfl
  have hid : ∀ u ∈ w.store.tables, u.id ≠ new.id := by
    have : new.id = t.id := by rw [hnewshape]
    simpa [Store.table?, this] using hfreeId
  have hname : ∀ u ∈ w.store.tables, (u.tenantId, u.name) ≠ (new.tenantId, new.name) := by
    have htenant : new.tenantId = t.tenantId := by rw [hnewshape]
    have hname : new.name = t.name := by rw [hnewshape]
    simpa [Store.tableNamed?, htenant, hname] using hfreeName
  have htables : w'.store.tables = w.store.tables ++ [new] := by
    rw [hstore]
    exact putKeyed_of_forall_ne Table.id new w.store.tables hid
  refine ⟨?_, ?_, ?_, ?_, ?_⟩
  . intro _
    rw [hstore]
    exact hready
  . rw [htables, List.map_append]
    exact nodup_append_singleton h.ids (by simpa using hid)
  . rw [htables, List.map_append]
    exact nodup_append_singleton h.names (by simpa using hname)
  . rw [htables]
    intro u hu
    rcases List.mem_append.mp hu with hu | hu
    . exact h.tables u hu
    . rw [List.mem_singleton.mp hu]
      constructor <;> simp [hfields]
  . rw [htables]
    intro u hu label hlabel
    rcases List.mem_append.mp hu with hu | hu
    . obtain ⟨n, hn, hlabelId⟩ := h.issued u hu label hlabel
      have := hcreated.identifiers
      exact ⟨n, by omega, hlabelId⟩
    . rw [List.mem_singleton.mp hu, Table.labels, hfields] at hlabel
      simp at hlabel

theorem isOrderly_of_revised (hids : Function.Injective source.identifiers) (h : w.IsOrderly source)
    {tableId : String} {job : Work} {old new : Table} (hold : w.store.table? tableId = some old)
    (hrevised : Work.Revises source w w' job old new) : w'.IsOrderly source := by
  have holdmem := Store.table?_mem hold
  have holdformed := h.tables old holdmem
  have hrelabels := hrevised.labels holdformed
  have hmem : ∃ u ∈ w.store.tables, u.id = new.id := ⟨old, holdmem, hrevised.id.symm⟩
  have hsame : ∀ u ∈ w.store.tables, u.id = new.id → u = old := fun u hu hid =>
    List.inj_on_of_nodup_map h.ids hu holdmem (hid.trans hrevised.id)
  -- the next identifier is none of those that the fields have
  have hnew : source.identifiers w.identifiers ∉ old.labels.map (·.1) := by
    intro hmem
    obtain ⟨label, hlabel, hid⟩ := List.mem_map.mp hmem
    obtain ⟨n, hn, hissued⟩ := h.issued old holdmem label hlabel
    have := hids (hissued.symm.trans hid)
    omega
  obtain ⟨hnewids, hnewnames⟩ := Work.nodup_of_relabels hrelabels hnew
    (Table.ids_eq_labels ▸ holdformed.ids) (Table.names_eq_labels ▸ holdformed.names)
  have hnewformed : new.IsWellFormed :=
    ⟨Table.ids_eq_labels ▸ hnewids, Table.names_eq_labels ▸ hnewnames, hrevised.formulas holdformed⟩
  have htables : w'.store.tables = putKeyed Table.id new w.store.tables := by
    rw [hrevised.store]
    rfl
  refine ⟨?_, ?_, ?_, ?_, ?_⟩
  . intro _
    rw [hrevised.store]
    exact h.ready (List.ne_nil_of_mem holdmem)
  . rw [htables, map_putKeyed Table.id _ new _ hmem]
    . exact h.ids
    . exact fun u _ hid => hid
  . rw [htables, map_putKeyed Table.id _ new _ hmem]
    . exact h.names
    . intro u hu hid
      rw [hsame u hu hid, hrevised.tenantId, hrevised.name]
  . rw [htables]
    intro u hu
    rcases (mem_putKeyed Table.id new u _).mp hu with rfl | ⟨hu, -⟩
    . exact hnewformed
    . exact h.tables u hu
  . rw [htables]
    intro u hu label hlabel
    have hle := hrevised.identifiers
    rcases (mem_putKeyed Table.id new u _).mp hu with rfl | ⟨hu, -⟩
    . rcases Work.mem_of_relabels hrelabels hlabel with hlabel | ⟨hissued, hid⟩
      . obtain ⟨n, hn, hid⟩ := h.issued old holdmem label hlabel
        exact ⟨n, by omega, hid⟩
      . exact ⟨w.identifiers, by omega, hid⟩
    . obtain ⟨n, hn, hid⟩ := h.issued u hu label hlabel
      exact ⟨n, by omega, hid⟩

theorem isOrderly_run (hids : Function.Injective source.identifiers) (h : w.IsOrderly source)
    (op : Operation) : (op.program.run source w).2.IsOrderly source := by
  have hredefines := op.redefines_of_run source w
  generalize (op.program.run source w).1 = result at hredefines
  cases hredefines with
  | none htables hready hle _ => exact isOrderly_of_eq h htables hready hle
  | created hcreated => exact isOrderly_of_created h hcreated
  | revised hold hrevised => exact isOrderly_of_revised hids h hold hrevised

theorem isOrderly_after (hids : Function.Injective source.identifiers) (h : w.IsOrderly source)
    (ops : List Operation) : (w.after source ops).IsOrderly source := by
  induction ops generalizing w with
  | nil => exact h
  | cons op ops ih => exact ih (isOrderly_run hids h op)

theorem isOrderly_of_nil (h : w.store.tables = []) : w.IsOrderly source := by
  constructor <;> simp [h]

end World
end TenantTables
