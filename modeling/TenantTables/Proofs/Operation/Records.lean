import TenantTables.Operation.Records
import TenantTables.Proofs.Document.Reading
import TenantTables.Proofs.Storage.Runs

namespace TenantTables

theorem Outcome.forM_eq_ok {f : α → Outcome Unit} {as : List α} :
    as.forM f = .ok () ↔ ∀ a ∈ as, f a = .ok () := by
  induction as with
  | nil => simp [pure, Except.pure]
  | cons a as ih =>
    rw [List.forall_mem_cons, ← ih]
    show (f a >>= fun _ => as.forM f) = .ok () ↔ _
    rw [Outcome.bind_eq_ok]
    constructor
    . rintro ⟨_, ha, has⟩
      exact ⟨ha, has⟩
    . rintro ⟨ha, has⟩
      exact ⟨(), ha, has⟩

theorem Field.ensureUnique_eq_ok {f : Field} {v : Value} {records : List Record} :
    f.ensureUnique v records = .ok () ↔
      ∀ q ∈ records, ∀ x, q.data.get? f.name = some x → x.equals v = false := by
  have hnone : f.findDuplicate? v records = none ↔
      ∀ q ∈ records, ∀ x, q.data.get? f.name = some x → x.equals v = false := by
    rw [findDuplicate?, List.find?_eq_none]
    apply forall₂_congr
    intro q _
    cases q.data.get? f.name <;> simp
  rw [← hnone, ensureUnique]
  cases f.findDuplicate? v records <;> simp [reject]

theorem Store.mem_of_select_ok {s : Store} {tableId : String} {excludeId : Option String}
    {records : List Record} (h : s.select { tableId, excludeId } = .ok records) (q : Record) :
    q ∈ records ↔ q ∈ s.live tableId ∧ excludeId ≠ some q.id := by
  unfold Store.select at h
  obtain ⟨_, -, h⟩ := Outcome.bind_eq_ok.mp h
  obtain ⟨_, -, h⟩ := Outcome.bind_eq_ok.mp h
  obtain ⟨filters, hfilters, h⟩ := Outcome.bind_eq_ok.mp h
  obtain ⟨-, h⟩ := Outcome.ite_throw_eq_ok.mp h
  rw [if_neg (by simp)] at h
  obtain ⟨found, hfound, h⟩ := Outcome.bind_eq_ok.mp h
  obtain rfl : filters = [] := (Except.ok.inj hfilters).symm
  obtain rfl : found = s.live tableId := (Except.ok.inj hfound).symm
  rw [← Except.ok.inj h]
  simp [Selection.page, Selection.arrange]

namespace Records

open Program

variable {source : Source} {w w' : World}

def Admits (s : Store) (table : Table) (data : Entries) (excludeId : Option String) : Prop :=
  ∀ f ∈ uniqueFields table.fields data, ∀ q ∈ s.live table.id, excludeId ≠ some q.id →
    ∀ v, q.data.get? f.name = some v → v.equals (data.get f.name) = false

theorem equals_eq_false_of_admits {s : Store} {table : Table} {data : Entries}
    {excludeId : Option String} (h : Admits s table data excludeId) {f : Field}
    (hf : f ∈ table.fields) (hunique : f.unique = some true)
    (hnull : (data.get f.name).isNull = false) {q : Record} (hq : q ∈ s.live table.id)
    (hne : excludeId ≠ some q.id) (hqnull : (q.data.get f.name).isNull = false) :
    (q.data.get f.name).equals (data.get f.name) = false := by
  have hmem : f ∈ uniqueFields table.fields data := by
    simp [uniqueFields, hf, hunique, hnull]
  apply h f hmem q hq hne
  rw [Entries.get] at hqnull ⊢
  cases hget : q.data.get? f.name with
  | none => simp [hget, Value.isNull] at hqnull
  | some v => rfl

theorem checkUnique_ok {table : Table} {data : Entries} {excludeId : Option String}
    (h : (checkUnique table data excludeId).run source w = (.ok (), w')) :
    w = w' ∧ Admits w.store table data excludeId := by
  unfold checkUnique at h
  dsimp only at h
  split at h
  . next hempty =>
    obtain ⟨-, rfl⟩ := run_pure_ok.mp h
    refine ⟨rfl, ?_⟩
    intro f hf
    rw [List.isEmpty_iff.mp hempty] at hf
    simp at hf
  . obtain ⟨others, v, hselect, h⟩ := run_bind_ok.mp h
    obtain ⟨hothers, rfl⟩ := run_select_ok.mp hselect
    obtain ⟨hall, rfl⟩ := run_lift_ok.mp h
    refine ⟨rfl, ?_⟩
    intro f hf q hq hne
    rw [ensureAllUnique, Outcome.forM_eq_ok] at hall
    apply Field.ensureUnique_eq_ok.mp (hall f hf) q
    exact (Store.mem_of_select_ok hothers q).mpr ⟨hq, hne⟩

theorem newRecord_ok {id tableId : String} {data : Entries} {actor : Value} {now : Moment}
    {r : Record} (h : (newRecord id tableId data actor now).toOutcome = .ok r) :
    now.isAware = true ∧ ∃ createdBy updatedBy,
      r = { id, tableId, data, createdBy, updatedBy, createdAt := now, updatedAt := now } := by
  have htime {key : String} {m : Moment}
      (h : Document.required [(key, .moment now)] key (Document.Reader.moment key) = .value m) :
      now.isAware = true ∧ now = m := by
    obtain ⟨v, hv, h⟩ := Document.required_eq_value.mp h
    obtain rfl : Value.moment now = v := by simpa [Entries.get?] using hv
    exact Document.Reader.moment_eq_value.mp h
  simp only [newRecord, Document.Reading.toOutcome_eq_ok, Document.Reading.seq_eq_value,
    Document.Reading.map_eq_value] at h
  obtain ⟨_, updatedAt, ⟨_, createdAt, ⟨_, updatedBy, ⟨createdBy, -, rfl⟩, -, rfl⟩, hcreated, rfl⟩,
    hupdated, rfl⟩ := h
  obtain ⟨haware, rfl⟩ := htime hcreated
  obtain ⟨-, rfl⟩ := htime hupdated
  exact ⟨haware, createdBy, updatedBy, rfl⟩

structure Inserted (source : Source) (w w' : World) (table : Table) (payload : Value) (r : Record) :
    Prop where
  ready : w.store.isReady = true
  data : ∃ es, payloadEntries table.fields payload = .ok es ∧ newData table.fields es = .ok r.data
  admits : Admits w.store table r.data none
  aware : (source.clock w.readings).isAware = true
  shape : ∃ createdBy updatedBy, r =
    { id := source.identifiers w.identifiers, tableId := table.id, data := r.data, createdBy
      updatedBy, createdAt := source.clock w.readings, updatedAt := source.clock w.readings }
  saved : ∃ s, w.store.saveRecord r = .ok s ∧
    w' = { store := s, identifiers := w.identifiers + 1, readings := w.readings + 1 }

theorem Inserted.id {table : Table} {payload : Value} {r : Record}
    (h : Inserted source w w' table payload r) : r.id = source.identifiers w.identifiers := by
  obtain ⟨_, _, hshape⟩ := h.shape
  rw [hshape]

theorem Inserted.tableId {table : Table} {payload : Value} {r : Record}
    (h : Inserted source w w' table payload r) : r.tableId = table.id := by
  obtain ⟨_, _, hshape⟩ := h.shape
  rw [hshape]

theorem Inserted.store {table : Table} {payload : Value} {r : Record}
    (h : Inserted source w w' table payload r) :
    w'.identifiers = w.identifiers + 1 ∧
      ∃ new, w.store.kept r = .ok new ∧ w'.store = w.store.putRecord new := by
  obtain ⟨s, hsave, rfl⟩ := h.saved
  obtain ⟨-, new, hkept, rfl⟩ := Store.saveRecord_ok hsave
  exact ⟨rfl, new, hkept, rfl⟩

theorem insert_ok {tableId : String} {payload actor : Value} {r : Record}
    (h : (insert tableId payload actor).run source w = (.ok r, w')) :
    ∃ table, w.store.table? tableId = some table ∧ Inserted source w w' table payload r := by
  rw [insert, run_locked] at h
  obtain ⟨table, v, hload, h⟩ := run_bind_ok.mp h
  obtain ⟨hready, htable, rfl⟩ := requireTable_ok hload
  obtain ⟨es, hes, h⟩ := run_lift_bind_ok.mp h
  obtain ⟨data, hdata, h⟩ := run_lift_bind_ok.mp h
  obtain ⟨_, v, hunique, h⟩ := run_bind_ok.mp h
  obtain ⟨rfl, hadmits⟩ := checkUnique_ok hunique
  rw [run_clock_bind_ok, run_identifier_bind_ok] at h
  obtain ⟨record, hrecord, h⟩ := run_lift_bind_ok.mp h
  obtain ⟨_, v, hsave, h⟩ := run_bind_ok.mp h
  obtain ⟨s, hsaved, rfl⟩ := run_saveRecord_ok.mp hsave
  obtain ⟨rfl, rfl⟩ := run_pure_ok.mp h
  obtain ⟨haware, createdBy, updatedBy, rfl⟩ := newRecord_ok hrecord
  exact ⟨table, htable, hready, ⟨es, hes, hdata⟩, hadmits, haware, ⟨createdBy, updatedBy, rfl⟩,
    ⟨s, hsaved, rfl⟩⟩

structure Updated (source : Source) (w w' : World) (table : Table) (recordId : String)
    (payload : Value) (old r : Record) : Prop where
  ready : w.store.isReady = true
  found : w.store.record? recordId = some old
  alive : old.isDeleted = false
  belongs : old.tableId = table.id
  data : ∃ es, payload = .map es ∧ mergedData table.fields old.data es = .ok r.data
  admits : Admits w.store table r.data (some recordId)
  shape : ∃ updatedBy, r =
    { old with data := r.data, updatedBy, updatedAt := source.clock w.readings }
  saved : ∃ s, w.store.saveRecord r = .ok s ∧
    w' = { w with store := s, readings := w.readings + 1 }

theorem Updated.id {table : Table} {recordId : String} {payload : Value} {old r : Record}
    (h : Updated source w w' table recordId payload old r) : r.id = recordId := by
  obtain ⟨_, hshape⟩ := h.shape
  rw [hshape]
  show old.id = recordId
  exact Store.record?_id h.found

theorem Updated.store {table : Table} {recordId : String} {payload : Value} {old r : Record}
    (h : Updated source w w' table recordId payload old r) :
    w.store.record? r.id = some old ∧
      ∃ new, w.store.kept r = .ok new ∧ w'.store = w.store.putRecord new := by
  obtain ⟨s, hsave, rfl⟩ := h.saved
  obtain ⟨-, new, hkept, rfl⟩ := Store.saveRecord_ok hsave
  exact ⟨h.id ▸ h.found, new, hkept, rfl⟩

theorem update_ok {tableId recordId : String} {payload actor : Value} {r : Record}
    (h : (update tableId recordId payload actor).run source w = (.ok r, w')) :
    ∃ table old, w.store.table? tableId = some table ∧
      Updated source w w' table recordId payload old r := by
  rw [update, run_locked] at h
  obtain ⟨table, v, hload, h⟩ := run_bind_ok.mp h
  obtain ⟨hready, htable, rfl⟩ := requireTable_ok hload
  obtain ⟨old, v, hold, h⟩ := run_bind_ok.mp h
  obtain ⟨-, hfound, halive, hbelongs, rfl⟩ := requireRecord_ok hold
  cases payload with
  | map es =>
    dsimp only at h
    rw [pure_bind] at h
    obtain ⟨data, hdata, h⟩ := run_lift_bind_ok.mp h
    obtain ⟨_, v, hunique, h⟩ := run_bind_ok.mp h
    obtain ⟨rfl, hadmits⟩ := checkUnique_ok hunique
    rw [run_clock_bind_ok] at h
    obtain ⟨updatedBy, -, h⟩ := run_lift_bind_ok.mp h
    obtain ⟨_, v, hsave, h⟩ := run_bind_ok.mp h
    obtain ⟨s, hsaved, rfl⟩ := run_saveRecord_ok.mp hsave
    obtain ⟨rfl, rfl⟩ := run_pure_ok.mp h
    have hid : old.tableId = table.id := by
      rw [hbelongs, Store.table?_id htable]
    exact ⟨table, old, htable, hready, hfound, halive, hid, ⟨es, rfl, hdata⟩, hadmits,
      ⟨updatedBy, rfl⟩, ⟨s, hsaved, rfl⟩⟩
  | _ => simp [run_bind] at h

structure Deleted (source : Source) (w w' : World) (tableId recordId : String) (old r : Record) :
    Prop where
  ready : w.store.isReady = true
  found : w.store.record? recordId = some old
  alive : old.isDeleted = false
  belongs : old.tableId = tableId
  shape : r = { old with deletedAt := some (source.clock w.readings) }
  saved : ∃ s, w.store.saveRecord r = .ok s ∧
    w' = { w with store := s, readings := w.readings + 1 }

theorem Deleted.id {tableId recordId : String} {old r : Record}
    (h : Deleted source w w' tableId recordId old r) : r.id = recordId := by
  rw [h.shape]
  show old.id = recordId
  exact Store.record?_id h.found

theorem Deleted.store {tableId recordId : String} {old r : Record}
    (h : Deleted source w w' tableId recordId old r) :
    w.store.record? r.id = some old ∧
      ∃ new, w.store.kept r = .ok new ∧ w'.store = w.store.putRecord new := by
  obtain ⟨s, hsave, rfl⟩ := h.saved
  obtain ⟨-, new, hkept, rfl⟩ := Store.saveRecord_ok hsave
  exact ⟨h.id ▸ h.found, new, hkept, rfl⟩

theorem softDelete_ok {tableId recordId : String} {r : Record}
    (h : (softDelete tableId recordId).run source w = (.ok r, w')) :
    ∃ old, Deleted source w w' tableId recordId old r := by
  rw [softDelete, run_locked] at h
  obtain ⟨old, v, hold, h⟩ := run_bind_ok.mp h
  obtain ⟨hready, hfound, halive, hbelongs, rfl⟩ := requireRecord_ok hold
  rw [run_clock_bind_ok] at h
  obtain ⟨_, v, hsave, h⟩ := run_bind_ok.mp h
  obtain ⟨s, hsaved, rfl⟩ := run_saveRecord_ok.mp hsave
  obtain ⟨rfl, rfl⟩ := run_pure_ok.mp h
  exact ⟨old, hready, hfound, halive, hbelongs, rfl, s, hsaved, rfl⟩

theorem searches_checkUnique (table : Table) (data : Entries) (excludeId : Option String) :
    (checkUnique table data excludeId).Uses Call.isSearch := by
  unfold checkUnique
  dsimp only
  split
  . trivial
  . exact uses_bind (uses_ask rfl) fun _ => uses_lift _

theorem reads_checkUnique (table : Table) (data : Entries) (excludeId : Option String) :
    (checkUnique table data excludeId).Reads :=
  reads_of_searches (searches_checkUnique table data excludeId)

theorem isGuarded_insert (tableId : String) (payload actor : Value) :
    (insert tableId payload actor).IsGuarded tableId := by
  apply isGuarded_locked
  apply writesLast_bind (reads_requireTable _)
  intro table
  apply writesLast_bind (reads_lift _)
  intro es
  apply writesLast_bind (reads_lift _)
  intro data
  apply writesLast_bind (reads_checkUnique _ _ _)
  intro _
  apply writesLast_bind (uses_ask rfl)
  intro now
  apply writesLast_bind (uses_ask rfl)
  intro id
  apply writesLast_bind (reads_lift _)
  intro record
  exact writesLast_ask rfl record

theorem isGuarded_update (tableId recordId : String) (payload actor : Value) :
    (update tableId recordId payload actor).IsGuarded tableId := by
  apply isGuarded_locked
  apply writesLast_bind (reads_requireTable _)
  intro table
  apply writesLast_bind (reads_requireRecord _ _)
  intro existing
  have hrest (es : Entries) : (do
      let data ← mergedData table.fields existing.data es
      checkUnique table data (some recordId)
      let now ← ask .clock
      let updatedBy ← readActor actor
      let record : Record := { existing with data, updatedBy, updatedAt := now }
      ask (.saveRecord record)
      return record : Program Record).WritesLast := by
    apply writesLast_bind (reads_lift _)
    intro data
    apply writesLast_bind (reads_checkUnique _ _ _)
    intro _
    apply writesLast_bind (uses_ask rfl)
    intro now
    apply writesLast_bind (reads_lift _)
    intro updatedBy
    exact writesLast_ask rfl _
  cases payload with
  | map es => exact hrest es
  | _ => exact .done _

theorem isGuarded_softDelete (tableId recordId : String) :
    (softDelete tableId recordId).IsGuarded tableId := by
  apply isGuarded_locked
  apply writesLast_bind (reads_requireRecord _ _)
  intro existing
  apply writesLast_bind (uses_ask rfl)
  intro now
  exact writesLast_ask rfl _

end Records
end TenantTables
