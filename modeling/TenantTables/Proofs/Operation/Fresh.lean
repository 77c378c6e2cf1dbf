import TenantTables.Proofs.Operation.History

namespace TenantTables.World

def IsFresh (source : Source) (w : World) : Prop :=
  ∀ n, w.identifiers ≤ n → w.store.record? (source.identifiers n) = none ∧
    ∀ m, w.identifiers ≤ m → source.identifiers m = source.identifiers n → m = n

variable {source : Source} {w w' : World}

theorem record?_of_inserted (h : w.IsFresh source) {table : Table} {payload : Value} {r : Record}
    (hinserted : Records.Inserted source w w' table payload r) : w.store.record? r.id = none := by
  rw [hinserted.id]
  exact (h w.identifiers (Nat.le_refl _)).1

theorem isFresh_of_records_eq (h : w.IsFresh source) (hle : w.identifiers ≤ w'.identifiers)
    (hrecords : w'.store.records = w.store.records) : w'.IsFresh source := by
  intro n hn
  obtain ⟨hnone, hinj⟩ := h n (Nat.le_trans hle hn)
  refine ⟨?_, fun m hm => hinj m (Nat.le_trans hle hm)⟩
  rw [Store.record?, hrecords]
  exact hnone

/--
A record is put among the records: under the next identifier, which is taken by it, or over a record that is not
deleted.
-/
structure Puts (source : Source) (w w' : World) (new : Record) : Prop where
  ready : w.store.isReady = true
  kept : ∃ r, w.store.kept r = .ok new
  records : w'.store.records = putKeyed Record.id new w.store.records
  place : (new.id = source.identifiers w.identifiers ∧ w.identifiers < w'.identifiers) ∨
    ∃ old, w.store.record? new.id = some old ∧ old.isDeleted = false

theorem Puts.record? {new : Record} (h : Puts source w w' new) (id : String) :
    w'.store.record? id = if id = new.id then some new else w.store.record? id := by
  rw [Store.record?, h.records]
  exact find?_putKeyed Record.id new w.store.records id

theorem puts_of_change {may : String → Work → Prop} (hchange : Change source may w w') :
    w'.store.isReady = w.store.isReady ∧
      (w'.store.records = w.store.records ∨ ∃ new, Puts source w w' new) := by
  have hputTable {new : Table} (hstore : w'.store = w.store.putTable new) :
      w'.store.isReady = w.store.isReady ∧
        (w'.store.records = w.store.records ∨ ∃ new, Puts source w w' new) := by
    rw [hstore]
    exact ⟨rfl, .inl rfl⟩
  cases hchange with
  | idle hstore => exact ⟨by rw [hstore], .inl (by rw [hstore])⟩
  | created hcreated =>
    obtain ⟨-, new, -, -, hstore⟩ := hcreated.store
    exact hputTable hstore
  | done _ hdone =>
    cases hdone with
    | unchanged _ _ _ _ hsame => exact ⟨by rw [hsame], .inl (by rw [hsame])⟩
    | edited _ hedited _ =>
      obtain ⟨new, -, -, hstore⟩ := hedited.store
      exact hputTable hstore
    | inserted _ hinserted =>
      obtain ⟨hnext, new, hkept, hstore⟩ := hinserted.store
      refine ⟨by rw [hstore]; rfl, .inr ⟨new, hinserted.ready, ⟨_, hkept⟩, by rw [hstore]; rfl, ?_⟩⟩
      exact .inl ⟨(Store.kept_id hkept).trans hinserted.id, by omega⟩
    | updated _ hupdated =>
      obtain ⟨hfound, new, hkept, hstore⟩ := hupdated.store
      refine ⟨by rw [hstore]; rfl, .inr ⟨new, hupdated.ready, ⟨_, hkept⟩, by rw [hstore]; rfl, ?_⟩⟩
      exact .inr ⟨_, by rw [Store.kept_id hkept, hfound], hupdated.alive⟩
    | deleted hdeleted =>
      obtain ⟨hfound, new, hkept, hstore⟩ := hdeleted.store
      refine ⟨by rw [hstore]; rfl, .inr ⟨new, hdeleted.ready, ⟨_, hkept⟩, by rw [hstore]; rfl, ?_⟩⟩
      exact .inr ⟨_, by rw [Store.kept_id hkept, hfound], hdeleted.alive⟩

theorem records_change {may : String → Work → Prop} (hchange : Change source may w w') :
    w'.store.records = w.store.records ∨
      ∃ r new, w.store.kept r = .ok new ∧ w'.store.records = putKeyed Record.id new w.store.records := by
  rcases (puts_of_change hchange).2 with hsame | ⟨new, hputs⟩
  . exact .inl hsame
  . obtain ⟨r, hkept⟩ := hputs.kept
    exact .inr ⟨r, new, hkept, hputs.records⟩

theorem isFresh_change {may : String → Work → Prop} (hle : w.identifiers ≤ w'.identifiers)
    (hchange : Change source may w w') (h : w.IsFresh source) : w'.IsFresh source := by
  rcases (puts_of_change hchange).2 with hsame | ⟨new, hputs⟩
  . exact isFresh_of_records_eq h hle hsame
  . intro n hn
    obtain ⟨hnone, hinj⟩ := h n (Nat.le_trans hle hn)
    refine ⟨?_, fun m hm => hinj m (Nat.le_trans hle hm)⟩
    rw [hputs.record?]
    split
    . next heq =>
      rcases hputs.place with ⟨hid, hlt⟩ | ⟨old, hold, -⟩
      . have := hinj w.identifiers (Nat.le_refl _) (hid.symm.trans heq.symm)
        omega
      . rw [← heq, hnone] at hold
        contradiction
    . exact hnone

structure IsKeyed (source : Source) (w : World) : Prop where
  fresh : w.IsFresh source
  nodup : (w.store.records.map (·.id)).Nodup

theorem nodup_records_change {may : String → Work → Prop} (hchange : Change source may w w')
    (h : (w.store.records.map (·.id)).Nodup) : (w'.store.records.map (·.id)).Nodup := by
  rcases records_change hchange with hsame | ⟨_, new, -, hput⟩
  . rw [hsame]
    exact h
  . rw [hput]
    exact nodup_putKeyed Record.id new h

theorem isKeyed_change {may : String → Work → Prop} (hle : w.identifiers ≤ w'.identifiers)
    (hchange : Change source may w w') (h : w.IsKeyed source) : w'.IsKeyed source :=
  ⟨isFresh_change hle hchange h.fresh, nodup_records_change hchange h.nodup⟩

theorem nodup_records_after (h : (w.store.records.map (·.id)).Nodup) (ops : List Operation) :
    ((w.after source ops).store.records.map (·.id)).Nodup := by
  apply after_keeps (P := fun w => (w.store.records.map (·.id)).Nodup) _ h
  intro op _ w w' _ hchange hw
  exact nodup_records_change hchange hw

end TenantTables.World
