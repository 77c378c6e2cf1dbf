import TenantTables.Proofs.Storage.Runs

/-!
This module contains storage without the records under one identifier. If they are deleted, a program that
asks for other records only runs in the same way with and without them.
-/

namespace TenantTables

theorem Outcome.map_bind (r : Outcome α) (f : α → Outcome β) (g : β → γ) :
    (r >>= f).map g = r >>= fun a => (f a).map g := by
  cases r <;> rfl

namespace Store

variable {s : Store} {id : String}

def without (s : Store) (id : String) : Store :=
  { s with records := s.records.filter (·.id != id) }

@[simp]
theorem table?_without (s : Store) (id tableId : String) :
    (s.without id).table? tableId = s.table? tableId := rfl

@[simp]
theorem tableNamed?_without (s : Store) (id tenantId name : String) :
    (s.without id).tableNamed? tenantId name = s.tableNamed? tenantId name := rfl

def Buries (s : Store) (id : String) : Prop :=
  ∀ r ∈ s.records, r.id = id → r.isDeleted = true

theorem buries_of_records_eq {s' : Store} (hrecords : s'.records = s.records) (h : s.Buries id) :
    s'.Buries id := by
  rw [Buries, hrecords]
  exact h

theorem buries_putRecord {new : Record} (hne : new.id ≠ id) (h : s.Buries id) :
    (s.putRecord new).Buries id := by
  intro q hq hid
  rcases (mem_putRecord new q).mp hq with rfl | ⟨hq, -⟩
  . exact absurd hid hne
  . exact h q hq hid

theorem records_saveTable {s' : Store} {t : Table} (h : s.saveTable t = .ok s') :
    s'.records = s.records := by
  cases hfound : s.table? t.id with
  | none =>
    rw [saveTable, hfound] at h
    obtain ⟨_, -, h⟩ := Outcome.bind_eq_ok.mp h
    obtain ⟨-, -, -, new, -, rfl⟩ := insertTable_ok h
    rfl
  | some old =>
    obtain ⟨-, new, -, rfl⟩ := saveTable_ok hfound h
    rfl

theorem live_without (h : s.Buries id) (tableId : String) : (s.without id).live tableId = s.live tableId := by
  rw [live, live, without, List.filter_filter]
  apply List.filter_congr
  intro r hr
  by_cases hid : r.id = id
  . simp [h r hr hid]
  . simp [hid]

theorem record?_without {recordId : String} (hne : recordId ≠ id) :
    (s.without id).record? recordId = s.record? recordId := by
  rw [record?, record?, without, List.find?_filter]
  apply congrArg (List.find? · s.records)
  funext r
  by_cases hid : r.id = recordId
  . simp [hid, hne]
  . simp [hid]

theorem matching_without (h : s.Buries id) (tableId : String) (filters : Entries) :
    (s.without id).matching tableId filters = s.matching tableId filters := by
  rw [matching, matching, live_without h]
  rfl

theorem select_without (h : s.Buries id) (q : Selection) : (s.without id).select q = s.select q := by
  rw [select, select, live_without h]
  rfl

theorem liveCounts_without (h : s.Buries id) (tableIds : List String) :
    (s.without id).liveCounts tableIds = s.liveCounts tableIds := by
  simp only [liveCounts, live_without h]
  rfl

theorem insertTable_without (t : Table) :
    (s.without id).insertTable t = (s.insertTable t).map (·.without id) := by
  rw [insertTable, insertTable, Outcome.map_bind]
  apply bind_congr
  intro new
  rw [Outcome.map_bind]
  apply bind_congr
  intro _
  dsimp only
  rw [table?_without, tableNamed?_without]
  split
  . rfl
  . split <;> rfl

theorem saveTable_without (t : Table) :
    (s.without id).saveTable t = (s.saveTable t).map (·.without id) := by
  rw [saveTable, saveTable, Outcome.map_bind]
  apply bind_congr
  intro _
  rw [table?_without]
  cases s.table? t.id with
  | none => exact insertTable_without t
  | some old =>
    dsimp only
    rw [Outcome.map_bind]
    rfl

theorem putRecord_without {new : Record} (hne : new.id ≠ id) :
    (s.without id).putRecord new = (s.putRecord new).without id := by
  have hother : ∀ r : Record, r.id = new.id → (r.id != id) = true := by
    intro r hr
    rw [hr]
    exact bne_iff_ne.mpr hne
  exact congrArg (fun records => { s with records }) (filter_putKeyed Record.id new s.records hother).symm

theorem saveRecord_without {r : Record} (hne : r.id ≠ id) :
    (s.without id).saveRecord r = (s.saveRecord r).map (·.without id) := by
  have hkept : (s.without id).kept r = s.kept r := by
    rw [kept, kept, record?_without hne]
  rw [saveRecord_eq, saveRecord_eq, hkept, Outcome.map_bind]
  apply bind_congr
  intro _
  cases hnew : s.kept r with
  | error e => rfl
  | ok new => exact congrArg Except.ok (putRecord_without (kept_id hnew ▸ hne))

end Store

namespace Call

def spares (id : String) : Call β → Bool
  | record recordId => recordId != id
  | saveRecord r => r.id != id
  | _ => true

theorem spares_of_isSearch {c : Call β} (h : c.isSearch = true) (id : String) : c.spares id = true := by
  cases c <;> first | rfl | contradiction

end Call

namespace World

variable {source : Source} {w : World} {id : String}

def without (w : World) (id : String) : World :=
  { w with store := w.store.without id }

theorem write_without (r : Outcome Store) :
    answer.write (w.without id) (r.map (·.without id)) =
      ((answer.write w r).1, (answer.write w r).2.without id) := by
  cases r <;> rfl

theorem answer_without {c : Call β} (hc : c.spares id = true) (h : w.store.Buries id) :
    (w.without id).answer source c = ((w.answer source c).1, (w.answer source c).2.without id) := by
  cases c with
  | record recordId =>
    have hfound : (w.without id).store.record? recordId = w.store.record? recordId :=
      Store.record?_without (bne_iff_ne.mp hc)
    rw [answer, answer, hfound]
    rfl
  | select q =>
    have hfound : (w.without id).store.select q = w.store.select q := Store.select_without h q
    rw [answer, answer, hfound]
    rfl
  | count tableId filters =>
    have hfound : (w.without id).store.matching tableId filters = w.store.matching tableId filters :=
      Store.matching_without h tableId filters
    rw [answer, answer, Store.count, Store.count, hfound]
    rfl
  | liveCounts tableIds =>
    have hfound : (w.without id).store.liveCounts tableIds = w.store.liveCounts tableIds :=
      Store.liveCounts_without h tableIds
    rw [answer, answer, hfound]
    rfl
  | insertTable t =>
    rw [answer, answer, ← write_without, ← Store.insertTable_without]
    rfl
  | saveTable t =>
    rw [answer, answer, ← write_without, ← Store.saveTable_without]
    rfl
  | saveRecord r =>
    rw [answer, answer, ← write_without, ← Store.saveRecord_without (bne_iff_ne.mp hc)]
    rfl
  | _ => rfl

theorem buries_write {r : Outcome Store} (h : w.store.Buries id)
    (hr : ∀ s, r = .ok s → s.Buries id) : (answer.write w r).2.store.Buries id := by
  cases r with
  | error e => exact h
  | ok s => exact hr s rfl

theorem buries_answer {c : Call β} (hc : c.spares id = true) (h : w.store.Buries id) :
    (w.answer source c).2.store.Buries id := by
  cases c with
  | insertTable t =>
    apply buries_write h
    intro s hinsert
    obtain ⟨-, -, -, new, -, rfl⟩ := Store.insertTable_ok hinsert
    exact h
  | saveTable t =>
    apply buries_write h
    intro s hsave
    exact Store.buries_of_records_eq (Store.records_saveTable hsave) h
  | saveRecord r =>
    apply buries_write h
    intro s hsave
    obtain ⟨-, new, hkept, rfl⟩ := Store.saveRecord_ok hsave
    apply Store.buries_putRecord _ h
    rw [Store.kept_id hkept]
    exact bne_iff_ne.mp hc
  | _ => exact h

end World

namespace Program

variable {source : Source} {w : World} {id : String}

def Overlooks (source : Source) (id : String) (w : World) (p : Program α) : Prop :=
  p.run source (w.without id) = ((p.run source w).1, (p.run source w).2.without id)

theorem overlooks_done (r : Outcome α) : (done r).Overlooks source id w := rfl

theorem overlooks_bind {p : Program α} {f : α → Program β} (hp : p.Overlooks source id w)
    (hf : ∀ a v, p.run source w = (.ok a, v) → (f a).Overlooks source id v) :
    (p >>= f).Overlooks source id w := by
  rw [Overlooks, run_bind, run_bind, hp]
  rcases hrun : p.run source w with ⟨e | a, v⟩
  . rfl
  . exact hf a v hrun

theorem overlooks_attempt {p : Program α} (hp : p.Overlooks source id w) :
    p.attempt.Overlooks source id w := by
  rw [Overlooks, run_attempt, run_attempt, hp]

theorem overlooks_locked {tableId : String} {p : Program α} (hp : p.Overlooks source id w) :
    (locked tableId p).Overlooks source id w := by
  rw [Overlooks, run_locked, run_locked, hp]

theorem spares_of_searches {p : Program α} (h : p.Uses Call.isSearch) : p.Uses (Call.spares id) :=
  uses_mono (fun _ hc => Call.spares_of_isSearch hc id) h

theorem overlooks_of_uses {p : Program α} (hp : p.Uses (Call.spares id)) (h : w.store.Buries id) :
    p.Overlooks source id w := by
  induction p generalizing w with
  | done r => rfl
  | call c next ih =>
    have hanswer : (w.without id).answer source c = _ := World.answer_without hp.1 h
    have hburies : (w.answer source c).2.store.Buries id := World.buries_answer hp.1 h
    have hnext := ih (w.answer source c).1 (hp.2 _) hburies
    rw [Overlooks, run, hanswer]
    exact hnext

end Program

end TenantTables
