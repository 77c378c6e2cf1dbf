import Mathlib.Data.List.Forall2
import TenantTables.Proofs.Operation.History
import TenantTables.Proofs.Record.Supplied

namespace TenantTables

open Program

structure Record.Reorders (r s : Record) : Prop where
  shape : s = { r with data := s.data }
  data : r.data.Reorders s.data

structure Store.Reorders (s s' : Store) : Prop where
  shape : s' = { s with records := s'.records }
  records : List.Forall₂ Record.Reorders s.records s'.records

structure World.Reorders (w v : World) : Prop where
  shape : v = { w with store := v.store }
  store : w.store.Reorders v.store

theorem Record.reorders_refl (r : Record) : r.Reorders r :=
  ⟨rfl, r.data.reorders_refl⟩

theorem Store.reorders_refl (s : Store) : s.Reorders s :=
  ⟨rfl, List.forall₂_same.mpr fun r _ => r.reorders_refl⟩

theorem World.reorders_refl (w : World) : w.Reorders w :=
  ⟨rfl, w.store.reorders_refl⟩

section Store

variable {s : Store} {r r' old : Record} {es es' : Entries}

theorem Entries.Reorders.isPlain (h : es.Reorders es') : (Value.map es).isPlain = (Value.map es').isPlain := by
  rw [Bool.eq_iff_iff, Value.isPlain_map_iff, Value.isPlain_map_iff]
  simp only [h.perm.mem_iff]

theorem Entries.Reorders.agrees (h : es.Reorders es') (v : Value) :
    (Value.map es).agrees v = (Value.map es').agrees v := by
  cases v with
  | map other =>
    rw [Value.agrees, Value.agrees, h.perm.length_eq]
    congr 1
    rw [Bool.eq_iff_iff, Value.entriesAgree_iff, Value.entriesAgree_iff]
    simp only [h.perm.mem_iff]
  | _ => rfl

theorem same_storedData (h : es.Reorders es') :
    Outcome.Same Entries.Reorders (storedData es) (storedData es') := by
  rw [storedData, storedData, h.isPlain]
  split
  . exact .ok h
  . exact .error _

theorem same_stored (h : r.Reorders r') : Outcome.Same Record.Reorders r.stored r'.stored := by
  rw [h.shape, Record.stored, Record.stored]
  refine (same_storedData h.data).bind fun data data' hdata => ?_
  apply Outcome.same_bind
  intro createdAt
  apply Outcome.same_bind
  intro updatedAt
  apply Outcome.same_bind
  intro deletedAt
  exact .ok ⟨rfl, hdata⟩

theorem same_overwrite (h : r.Reorders r') (old : Record) :
    Outcome.Same Record.Reorders (old.overwrite r) (old.overwrite r') := by
  have hrest {data data' : Entries} (hdata : data.Reorders data') :
      Outcome.Same Record.Reorders
        (do
          let updatedAt ← r.updatedAt.stored
          let deletedAt ← r.deletedAt.mapM Moment.stored
          return { old with data, updatedBy := r.updatedBy, updatedAt, deletedAt })
        (do
          let updatedAt ← r.updatedAt.stored
          let deletedAt ← r.deletedAt.mapM Moment.stored
          return { old with data := data', updatedBy := r.updatedBy, updatedAt, deletedAt }) := by
    apply Outcome.same_bind
    intro updatedAt
    apply Outcome.same_bind
    intro deletedAt
    exact .ok ⟨rfl, hdata⟩
  rw [h.shape, Record.overwrite, Record.overwrite, h.data.agrees]
  dsimp only
  split
  . exact hrest old.data.reorders_refl
  . exact (same_storedData h.data).bind fun _ _ hdata => hrest hdata

theorem same_kept (s : Store) (h : r.Reorders r') : Outcome.Same Record.Reorders (s.kept r) (s.kept r') := by
  have hid : r'.id = r.id := by rw [h.shape]
  rw [Store.kept, Store.kept, hid]
  cases s.record? r.id with
  | none => exact same_stored h
  | some old => exact same_overwrite h old

theorem reorders_putRecord (s : Store) (h : r.Reorders r') : (s.putRecord r).Reorders (s.putRecord r') := by
  have hid : r'.id = r.id := by rw [h.shape]
  refine ⟨rfl, ?_⟩
  rw [Store.putRecord, Store.putRecord, putKeyed, putKeyed, hid]
  dsimp only
  split
  . rw [List.forall₂_map_left_iff, List.forall₂_map_right_iff, List.forall₂_same]
    intro q _
    split
    . exact h
    . exact q.reorders_refl
  . exact List.rel_append (List.forall₂_same.mpr fun q _ => q.reorders_refl) (.cons h .nil)

theorem same_saveRecord (s : Store) (h : r.Reorders r') :
    Outcome.Same Store.Reorders (s.saveRecord r) (s.saveRecord r') := by
  rw [Store.saveRecord_eq, Store.saveRecord_eq]
  apply Outcome.same_bind
  intro _
  exact (same_kept s h).bind fun _ _ hnew => .ok (reorders_putRecord s hnew)

end Store

/--
Two runs end alike if they fail in the same way or come to related results, in worlds that are the same but for
the order of the data of records.
-/
structure EndAlike (R : α → β → Prop) (x : Outcome α × World) (y : Outcome β × World) : Prop where
  result : Outcome.Same R x.1 y.1
  world : x.2.Reorders y.2

section Run

variable {source : Source} {w : World} {R : γ → δ → Prop}

theorem endAlike_bind {p : Program α} {f : α → Program γ} {g : α → Program δ}
    (h : ∀ a v, p.run source w = (.ok a, v) → EndAlike R ((f a).run source v) ((g a).run source v)) :
    EndAlike R ((p >>= f).run source w) ((p >>= g).run source w) := by
  rw [run_bind, run_bind]
  cases hrun : p.run source w with
  | mk r v =>
    cases r with
    | ok a => exact h a v hrun
    | error e => exact ⟨.error e, v.reorders_refl⟩

theorem endAlike_lift_bind {S : α → β → Prop} {r : Outcome α} {s : Outcome β} {f : α → Program γ}
    {g : β → Program δ} (hrs : Outcome.Same S r s)
    (h : ∀ a b, S a b → EndAlike R ((f a).run source w) ((g b).run source w)) :
    EndAlike R (((liftM r : Program α) >>= f).run source w) (((liftM s : Program β) >>= g).run source w) := by
  cases hrs with
  | ok hab => exact h _ _ hab
  | error e => exact ⟨.error e, w.reorders_refl⟩

theorem endAlike_save {r r' : Record} (h : r.Reorders r') :
    EndAlike Record.Reorders ((ask (.saveRecord r) >>= fun _ => pure r).run source w)
      ((ask (.saveRecord r') >>= fun _ => pure r').run source w) := by
  have hsave := same_saveRecord w.store h
  rw [run_bind, run_bind, run_ask, run_ask, World.answer, World.answer]
  generalize w.store.saveRecord r = result, w.store.saveRecord r' = result' at hsave
  cases hsave with
  | ok hstore => exact ⟨.ok h, rfl, hstore⟩
  | error e => exact ⟨.error e, w.reorders_refl⟩

end Run

namespace Records

variable {source : Source} {w : World} {tableId recordId : String} {p q : Entries} {actor : Value} {table : Table}
  {data data' : Entries}

theorem checkUnique_congr (h : data.Agree data') (excludeId : Option String) :
    checkUnique table data excludeId = checkUnique table data' excludeId := by
  have hget : ∀ k, data.get k = data'.get k := fun k => Entries.get_of_get? (h k)
  simp only [checkUnique, uniqueFields, ensureAllUnique, hget]
  rfl

theorem newRecord_eq_map (id tableId : String) (data data' : Entries) (actor : Value) (now : Moment) :
    newRecord id tableId data' actor now =
      (fun r : Record => { r with data := data' }) <$> newRecord id tableId data actor now := by
  rw [newRecord, newRecord, Document.Reading.map_seq, Document.Reading.map_seq, Document.Reading.map_seq,
    Document.Reading.map_map]
  rfl

theorem same_newRecord (id tableId : String) (h : data.Reorders data') (actor : Value) (now : Moment) :
    Outcome.Same Record.Reorders (newRecord id tableId data actor now).toOutcome
      (newRecord id tableId data' actor now).toOutcome := by
  rw [newRecord_eq_map id tableId data data']
  cases hrecord : newRecord id tableId data actor now with
  | value r =>
    obtain ⟨-, _, _, rfl⟩ := newRecord_ok (Document.Reading.toOutcome_eq_ok.mpr hrecord)
    exact .ok ⟨rfl, h⟩
  | issues first rest => exact .error _
  | halted reason => exact .error _

theorem endAlike_insert
    (hinputs : ∀ t, w.store.table? tableId = some t → (inputs t.fields p).Reorders (inputs t.fields q))
    (halike : ∀ t, w.store.table? tableId = some t → p.PassAlike t.fields q) :
    EndAlike Record.Reorders ((insert tableId (.map p) actor).run source w)
      ((insert tableId (.map q) actor).run source w) := by
  rw [insert, insert, run_locked, run_locked]
  apply endAlike_bind
  intro table v hload
  obtain ⟨-, htable, rfl⟩ := requireTable_ok hload
  -- the entries of a payload that is a map are the map
  show EndAlike _ (((liftM (newData table.fields p) : Program Entries) >>= _).run source w)
    (((liftM (newData table.fields q) : Program Entries) >>= _).run source w)
  refine endAlike_lift_bind (same_newData (halike table htable) (hinputs table htable)) ?_
  intro data data' hdata
  rw [checkUnique_congr hdata.agree]
  apply endAlike_bind
  intro _ v _
  apply endAlike_bind
  intro now v' _
  apply endAlike_bind
  intro id v'' _
  refine endAlike_lift_bind (same_newRecord id table.id hdata actor now) ?_
  intro r r' hrecord
  exact endAlike_save hrecord

theorem endAlike_update
    (hinputs : ∀ t old, w.store.table? tableId = some t → w.store.record? recordId = some old →
      (inputs t.fields (old.data.overlay p)).Reorders (inputs t.fields (old.data.overlay q)))
    (halike : ∀ t old, w.store.table? tableId = some t → w.store.record? recordId = some old →
      (old.data.overlay p).PassAlike t.fields (old.data.overlay q)) :
    EndAlike Record.Reorders ((update tableId recordId (.map p) actor).run source w)
      ((update tableId recordId (.map q) actor).run source w) := by
  rw [update, update, run_locked, run_locked]
  apply endAlike_bind
  intro table v hload
  obtain ⟨-, htable, rfl⟩ := requireTable_ok hload
  apply endAlike_bind
  intro old v hload
  obtain ⟨-, hold, -, -, rfl⟩ := requireRecord_ok hload
  dsimp only
  rw [pure_bind, pure_bind]
  refine endAlike_lift_bind (same_mergedData (halike table old htable hold) (hinputs table old htable hold)) ?_
  intro data data' hdata
  rw [checkUnique_congr hdata.agree]
  apply endAlike_bind
  intro _ v _
  apply endAlike_bind
  intro now v' _
  apply endAlike_bind
  intro updatedBy v'' _
  exact endAlike_save ⟨rfl, hdata⟩

/--
With either of two payloads that only differ in what they supply for computed fields, an insert or an update
fails in the same way or stores the same data. Only a required computed field has to find a value in both, or
the same in both.
-/
theorem endAlike_of_supplied (source : Source) (w : World) (tableId : String) (actor : Value) (hp : p.keys.Nodup)
    (hq : q.keys.Nodup)
    (hsame : ∀ t, w.store.table? tableId = some t →
      ∀ k, (∀ f ∈ t.fields, f.isComputed = true → f.name ≠ k) → p.get? k = q.get? k) :
    ((∀ t, w.store.table? tableId = some t → p.PassAlike t.fields q) →
      EndAlike Record.Reorders ((insert tableId (.map p) actor).run source w)
        ((insert tableId (.map q) actor).run source w)) ∧
    ∀ recordId, (∀ t old, w.store.table? tableId = some t → w.store.record? recordId = some old →
        (old.data.overlay p).PassAlike t.fields (old.data.overlay q)) →
      EndAlike Record.Reorders ((update tableId recordId (.map p) actor).run source w)
        ((update tableId recordId (.map q) actor).run source w) := by
  constructor
  . intro halike
    exact endAlike_insert (fun t ht => reorders_inputs hp hq (hsame t ht)) halike
  . intro recordId halike
    exact endAlike_update (fun t old ht _ => reorders_inputs_overlay hp hq (hsame t ht) old.data) halike

theorem endAlike_of_supplied_of_formula :
    let t : Table :=
      { id := "t", tenantId := "x", name := "points", displayName := "Points"
        createdAt := Source.sample.clock 0, updatedAt := Source.sample.clock 0
        fields := [
          { id := "i", name := "n", displayName := "N", type := .text },
          { id := "j", name := "c", displayName := "C", type := .computed, required := true
            formula := some "n + '!'" }] }
    let old : Record :=
      { id := "r", tableId := "t", data := [("n", .text "z"), ("c", .text "z!")]
        createdAt := Source.sample.clock 0, updatedAt := Source.sample.clock 0 }
    let w : World := { store := { isReady := true, tables := [t], records := [old] } }
    let p : Entries := [("n", .text "a"), ("c", .int 1)]
    let q : Entries := [("c", .text "b"), ("n", .text "a")]
    (p.keys.Nodup ∧ q.keys.Nodup ∧ p.PassAlike t.fields q ∧
      (old.data.overlay p).PassAlike t.fields (old.data.overlay q)) ∧
    (EndAlike Record.Reorders ((insert "t" (.map p) .null).run .sample w)
        ((insert "t" (.map q) .null).run .sample w) ∧
      EndAlike Record.Reorders ((update "t" "r" (.map p) .null).run .sample w)
        ((update "t" "r" (.map q) .null).run .sample w)) ∧
    ((insert "t" (.map p) .null).run .sample w).1.toOption.map (·.data) =
      some [("n", .text "a"), ("c", .text "a!")] ∧
    ((update "t" "r" (.map q) .null).run .sample w).1.toOption.map (·.data) =
      some [("n", .text "a"), ("c", .text "a!")] := by
  intro t old w p q
  have hp : p.keys.Nodup := by decide
  have hq : q.keys.Nodup := by decide
  have hsame : ∀ k, (∀ f ∈ t.fields, f.isComputed = true → f.name ≠ k) → p.get? k = q.get? k := by
    intro k hk
    have hc : "c" ≠ k := hk _ (List.mem_cons_of_mem _ List.mem_cons_self) rfl
    simp [p, q, Entries.get?_cons, hc]
  have hinsert : p.PassAlike t.fields q := by
    intro f hf
    simp only [t, List.mem_cons, List.not_mem_nil, or_false] at hf
    rcases hf with rfl | rfl
    . exact .inl (by decide)
    . exact .inr (by decide)
  have hupdate : (old.data.overlay p).PassAlike t.fields (old.data.overlay q) := by
    intro f hf
    simp only [t, List.mem_cons, List.not_mem_nil, or_false] at hf
    rcases hf with rfl | rfl
    . exact .inl (by decide)
    . exact .inr (by decide)
  have htable : w.store.table? "t" = some t := by decide +kernel
  have hrecord : w.store.record? "r" = some old := by decide +kernel
  obtain ⟨hinserts, hupdates⟩ := endAlike_of_supplied .sample w "t" .null hp hq fun t' ht' => by
    obtain rfl := Option.some.inj (htable.symm.trans ht')
    exact hsame
  refine ⟨⟨hp, hq, hinsert, hupdate⟩, ⟨hinserts ?_, hupdates "r" ?_⟩, by decide +kernel, by decide +kernel⟩
  . intro t' ht'
    obtain rfl := Option.some.inj (htable.symm.trans ht')
    exact hinsert
  . intro t' old' ht' hold'
    obtain rfl := Option.some.inj (htable.symm.trans ht')
    obtain rfl := Option.some.inj (hrecord.symm.trans hold')
    exact hupdate

theorem writes_differ_of_required :
    let w := World.after .sample { store := { isReady := true } } [
      .createTable
        { tenantId := .text "x", name := .text "points", displayName := .text "Points" } true,
      .work "i" (.addField (.ready
        { name := "c", displayName := "C", type := .computed, required := true, formula := some "'x'" }))]
    let w' := w.after .sample [.work "i" (.insert (.map [("c", .int 1)]) .null)]
    (((insert "i" (.map []) .null).run .sample w).1 = reject (.required "C") "c" .null ∧
      ((insert "i" (.map [("c", .int 1)]) .null).run .sample w).1.toOption.map (·.data) = some [("c", .text "x")]) ∧
    ((update "i" "iii" (.map [("c", .null)]) .null).run .sample w').1 = reject (.required "C") "c" .null ∧
      ((update "i" "iii" (.map []) .null).run .sample w').1.toOption.map (·.data) = some [("c", .text "x")] := by
  intro w w'
  decide +kernel

end Records

end TenantTables
