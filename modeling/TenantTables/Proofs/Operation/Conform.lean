import TenantTables.Proofs.Operation.Orderly
import TenantTables.Proofs.Operation.ReadBack
import TenantTables.Proofs.Record.Data

namespace TenantTables

open Program

def Table.Conforms (t : Table) (data : Entries) : Prop :=
  ∀ f ∈ t.fields, f.isChecked = true → f.Admits (data.get f.name)

def Table.NearlyConforms (t : Table) (data : Entries) : Prop :=
  ∀ f ∈ t.fields, f.isChecked = true →
    f.Admits (data.get f.name) ∨ data.get f.name = f.defaultValue

def Work.IsTimely : Work → Prop
  | .insert payload _ | .update _ payload _ => ∀ es : Entries, payload = .map es → es.AreTimely
  | _ => True

def Operation.IsTimely (op : Operation) : Prop :=
  ∀ tableId job, op.Does tableId job → job.IsTimely

def Store.IsPlain (s : Store) : Prop :=
  ∀ r ∈ s.records, (Value.map r.data).isPlain = true

namespace Store

variable {s : Store} {r new : Record}

theorem isPlain_of_kept (h : s.IsPlain) (hkept : s.kept r = .ok new) : (Value.map new.data).isPlain = true := by
  unfold kept at hkept
  split at hkept
  . obtain ⟨hplain, _, _, _, -, -, -, rfl⟩ := Record.stored_ok hkept
    exact hplain
  . next old hold =>
    obtain ⟨data, _, _, hdata, -, -, rfl⟩ := Record.overwrite_ok hkept
    split at hdata
    . exact hdata ▸ h old (record?_mem hold)
    . exact hdata.2 ▸ hdata.1

theorem alike_of_kept {old : Record} (hold : s.record? r.id = some old) (hkept : s.kept r = .ok new)
    (hloses : (Answer.record r).losesChange s = false) : (Value.map new.data).alike (.map r.data) = true := by
  rw [Answer.losesChange_record hold, Bool.and_eq_false_iff] at hloses
  unfold kept at hkept
  rw [hold] at hkept
  obtain ⟨data, _, _, hdata, -, -, rfl⟩ := Record.overwrite_ok hkept
  dsimp only
  split at hdata
  . next hagrees =>
    rcases hloses with hloses | hloses
    . simp [hagrees] at hloses
    . rw [hdata]
      simpa using hloses
  . rw [hdata.2]
    exact Value.alike_refl _

end Store

namespace World

variable {source : Source} {w v v' : World} {may : String → Work → Prop}

theorem isPlain_change (hchange : Change source may v v') (h : v.store.IsPlain) : v'.store.IsPlain := by
  rcases records_change hchange with hsame | ⟨r, new, hkept, hput⟩
  . intro q hq
    rw [hsame] at hq
    exact h q hq
  . intro q hq
    rw [hput] at hq
    rcases (mem_putKeyed Record.id new q _).mp hq with rfl | ⟨hq, -⟩
    . exact Store.isPlain_of_kept h hkept
    . exact h q hq

theorem isPlain_of_reachable (h : w.Reachable source) : w.store.IsPlain := by
  refine keeps_of_reachable (P := fun w => w.store.IsPlain) ?_ ?_ h
  . intro isReady r hr
    simp at hr
  . intro op v v' _ hchange hv
    exact isPlain_change hchange hv

theorem isOrderly_of_reachable (hids : Function.Injective source.identifiers) (h : w.Reachable source) :
    w.IsOrderly source := by
  obtain ⟨isReady, ops, rfl⟩ := h
  exact isOrderly_after hids (isOrderly_of_nil rfl) ops

structure Gains (w v : World) : Prop where
  tables : ∀ id t, w.store.table? id = some t → v.store.table? id = some t
  records : ∀ id r t, w.store.record? id = none → v.store.record? id = some r →
    w.store.table? r.tableId = some t → t.NearlyConforms r.data

theorem gains_refl (w : World) : w.Gains w := by
  refine ⟨fun _ _ ht => ht, ?_⟩
  intro id r t hnone hr
  simp [hnone] at hr

theorem nearlyConforms_of_newData {t : Table} (ht : t.IsWellFormed) {payload : Value} {data : Entries}
    (htimely : ∀ es : Entries, payload = .map es → es.AreTimely)
    (h : ∃ es, Records.payloadEntries t.fields payload = .ok es ∧ Records.newData t.fields es = .ok data) :
    t.NearlyConforms data := by
  obtain ⟨es, hes, hdata⟩ := h
  intro f hf hchecked
  -- with fields to check, a payload is a map
  have hpayload : payload = .map es := by
    have hsome : t.fields.isEmpty = false := by
      rw [Bool.eq_false_iff, ne_eq, List.isEmpty_iff]
      exact List.ne_nil_of_mem hf
    unfold Records.payloadEntries at hes
    cases payload with
    | map es' =>
      obtain rfl : es' = es := Except.ok.inj hes
      rfl
    | list vs =>
      obtain ⟨_, -, hes⟩ := Outcome.bind_eq_ok.mp hes
      simp [hsome] at hes
    | text s =>
      obtain ⟨_, -, hes⟩ := Outcome.bind_eq_ok.mp hes
      simp [hsome] at hes
    | _ => simp [Bind.bind, Except.bind] at hes
  exact Records.admits_newData ht.names (htimely es hpayload) hdata hf hchecked

theorem gains_change (hformed : ∀ t ∈ w.store.tables, t.IsWellFormed)
    (hmay : ∀ tableId job, may tableId job → job.IsTimely ∧ ∃ payload actor, job = .insert payload actor)
    (hfresh : v.IsFresh source) (hchange : Change source may v v') (h : w.Gains v) : w.Gains v' := by
  cases hchange with
  | idle hstore =>
    refine ⟨?_, ?_⟩
    . rw [hstore]
      exact h.tables
    . rw [hstore]
      exact h.records
  | created hcreated =>
    obtain ⟨hfree, new, hnew, -, hstore⟩ := hcreated.store
    obtain ⟨_, _, -, -, hshape⟩ := Table.stored_ok hnew
    refine ⟨?_, ?_⟩
    . intro id t ht
      have hv := h.tables id t ht
      rw [hstore, Store.table?_putTable, if_neg, hv]
      rintro rfl
      have hid : new.id = _ := congrArg Table.id hshape
      rw [hid, hfree] at hv
      simp at hv
    . rw [hstore]
      exact h.records
  | @done tableId job answer hdoes hdone =>
    obtain ⟨htimely, payload, actor, rfl⟩ := hmay _ _ hdoes
    cases hdone with
    | edited hedit => cases hedit
    | @inserted _ _ table r htable hinserted =>
      obtain ⟨-, new, hkept, hstore⟩ := hinserted.store
      have hnone := record?_of_inserted hfresh hinserted
      obtain ⟨hnewTable, hnewData, -⟩ := Store.kept_of_none hnone hkept
      refine ⟨?_, ?_⟩
      . rw [hstore]
        exact h.tables
      . intro id q t hid hq ht
        rw [hstore, Store.record?_putRecord] at hq
        split at hq
        . obtain rfl := Option.some.inj hq
          have hsame : t = table := by
            have hv := h.tables _ _ ht
            rw [hnewTable, hinserted.tableId, Store.table?_id htable, htable] at hv
            exact (Option.some.inj hv).symm
          rw [hnewData]
          subst hsame
          exact nearlyConforms_of_newData (hformed t (Store.table?_mem ht)) htimely hinserted.data
        . exact h.records id q t hid hq ht

end World

namespace Operation

variable {source : Source} {w : World} {recordId : String}

inductive Writes (source : Source) (w : World) (recordId : String) : Operation → Prop where
  | adds {op : Operation} {r : Record} : w.store.record? recordId = none →
    (op.program.run source w).2.store.record? recordId = some r → Writes source w recordId op
  | updates {tableId : String} {payload actor : Value} {answer : Answer} :
    ((Operation.work tableId (.update recordId payload actor)).program.run source w).1 = .ok answer →
    Writes source w recordId (.work tableId (.update recordId payload actor))

theorem record?_of_not_insert (source : Source) (tableId : String) {job : Work}
    (hjob : ∀ payload actor, job ≠ .insert payload actor) (hnone : w.store.record? recordId = none) :
    ((job.program tableId).run source w).2.store.record? recordId = none := by
  rcases hrun : (job.program tableId).run source w with ⟨e | answer, w'⟩
  . rw [Work.store_of_error hrun]
    exact hnone
  . have hdone := Work.done_of_run hrun
    cases hdone with
    | unchanged _ _ _ _ hsame => exact hsame ▸ hnone
    | edited _ hedited _ =>
      obtain ⟨new, -, -, hstore⟩ := hedited.store
      rw [hstore]
      exact hnone
    | inserted => exact absurd rfl (hjob _ _)
    | updated _ hupdated =>
      obtain ⟨hfound, new, hkept, hstore⟩ := hupdated.store
      rw [hstore, Store.record?_putRecord, if_neg, hnone]
      rintro rfl
      rw [Store.kept_id hkept, hfound] at hnone
      simp at hnone
    | deleted hdeleted =>
      obtain ⟨hfound, new, hkept, hstore⟩ := hdeleted.store
      rw [hstore, Store.record?_putRecord, if_neg, hnone]
      rintro rfl
      rw [Store.kept_id hkept, hfound] at hnone
      simp at hnone

theorem nearlyConforms_of_adds (op : Operation) (hformed : ∀ t ∈ w.store.tables, t.IsWellFormed)
    (hfresh : w.IsFresh source) (htimely : op.IsTimely) {r : Record} {t : Table}
    (hnone : w.store.record? recordId = none)
    (hr : (op.program.run source w).2.store.record? recordId = some r)
    (ht : w.store.table? r.tableId = some t) : t.NearlyConforms r.data := by
  have hgains (hinsert : ∀ tableId job, op.Does tableId job → ∃ payload actor, job = .insert payload actor) :
      t.NearlyConforms r.data := by
    have hkeep := op.changes_program (fun v => v.IsFresh source ∧ w.Gains v)
      (fun v v' hle hchange hv => ⟨World.isFresh_change hle hchange hv.1,
        World.gains_change hformed (fun tableId job hdoes => ⟨htimely _ _ hdoes, hinsert _ _ hdoes⟩) hv.1
          hchange hv.2⟩) w ⟨hfresh, World.gains_refl w⟩
    exact hkeep.2.records recordId r t hnone hr ht
  cases op with
  | createTable => exact hgains (by rintro _ _ ⟨⟩)
  | importRows => exact hgains (by rintro _ _ ⟨⟩; exact ⟨_, _, rfl⟩)
  | importText => exact hgains (by rintro _ _ ⟨⟩; exact ⟨_, _, rfl⟩)
  | work tableId job =>
    by_cases hjob : ∃ payload actor, job = .insert payload actor
    . apply hgains
      rintro _ _ ⟨⟩
      exact hjob
    . have hstill := record?_of_not_insert source tableId
        (fun payload actor heq => hjob ⟨payload, actor, heq⟩) hnone
      rw [program_work, hstill] at hr
      simp at hr

theorem conforms_of_updated {w' : World} {table : Table} {payload : Value} {old r q : Record}
    (hformed : table.IsWellFormed) (hplain : w.store.IsPlain)
    (htimely : ∀ es : Entries, payload = .map es → es.AreTimely)
    (h : Records.Updated source w w' table recordId payload old r)
    (hq : w'.store.record? recordId = some q) :
    table.Conforms r.data ∧
      ((Answer.record r).losesChange w.store = false → table.Conforms q.data) := by
  obtain ⟨es, hes, hdata⟩ := h.data
  have hold : Entries.AreTimely old.data := Entries.areTimely_of_isPlain (hplain old (Store.record?_mem h.found))
  have hconforms : table.Conforms r.data := fun f hf hchecked =>
    Records.admits_mergedData hformed.names hold (htimely es hes) hdata hf hchecked
  refine ⟨hconforms, ?_⟩
  intro hloses
  obtain ⟨hfound, new, hkept, hstore⟩ := h.store
  have hid : recordId = new.id := by rw [Store.kept_id hkept, h.id]
  rw [hstore, Store.record?_putRecord, if_pos hid] at hq
  obtain rfl := Option.some.inj hq
  have halike := Store.alike_of_kept hfound hkept hloses
  rw [Value.alike_map] at halike
  intro f hf hchecked
  exact Field.admits_of_alike hchecked (Value.alike_get_of_entriesAlike halike f.name) (hconforms f hf hchecked)

theorem data_change {may : String → Work → Prop} {v v' : World} {r : Record}
    (hmay : ∀ tableId payload actor, ¬may tableId (.update recordId payload actor))
    (hfresh : v.IsFresh source) (hchange : Change source may v v')
    (h : ∃ q, v.store.record? recordId = some q ∧ q.tableId = r.tableId ∧ q.data = r.data) :
    ∃ q, v'.store.record? recordId = some q ∧ q.tableId = r.tableId ∧ q.data = r.data := by
  obtain ⟨q, hq, htable, hdata⟩ := h
  cases hchange with
  | idle hstore => exact ⟨q, hstore ▸ hq, htable, hdata⟩
  | created hcreated =>
    obtain ⟨-, new, -, -, hstore⟩ := hcreated.store
    rw [hstore]
    exact ⟨q, hq, htable, hdata⟩
  | done hdoes hdone =>
    cases hdone with
    | unchanged _ _ _ _ hsame => exact ⟨q, hsame ▸ hq, htable, hdata⟩
    | edited _ hedited _ =>
      obtain ⟨new, -, -, hstore⟩ := hedited.store
      rw [hstore]
      exact ⟨q, hq, htable, hdata⟩
    | inserted _ hinserted =>
      obtain ⟨-, new, hkept, hstore⟩ := hinserted.store
      refine ⟨q, ?_, htable, hdata⟩
      rw [hstore, Store.record?_putRecord, if_neg, hq]
      rintro rfl
      rw [Store.kept_id hkept, World.record?_of_inserted hfresh hinserted] at hq
      simp at hq
    | @updated id _ _ _ _ _ _ hupdated =>
      obtain ⟨-, new, hkept, hstore⟩ := hupdated.store
      refine ⟨q, ?_, htable, hdata⟩
      rw [hstore, Store.record?_putRecord, if_neg, hq]
      rintro rfl
      rw [Store.kept_id hkept, hupdated.id] at hmay
      exact hmay _ _ _ hdoes
    | @deleted id old d hdeleted =>
      obtain ⟨hfound, new, hkept, hstore⟩ := hdeleted.store
      rw [hstore, Store.record?_putRecord]
      split
      . next heq =>
        rw [heq, Store.kept_id hkept, hfound] at hq
        obtain rfl := Option.some.inj hq
        obtain ⟨hnewTable, hnewData, -⟩ := Store.kept_of_some hfound hkept
        refine ⟨new, rfl, hnewTable.trans htable, ?_⟩
        have hsame : d.data = old.data := by rw [hdeleted.shape]
        rw [hsame, or_self] at hnewData
        exact hnewData.trans hdata
      . exact ⟨q, hq, htable, hdata⟩

theorem data_run (hfresh : w.IsFresh source) {r : Record} (hr : w.store.record? recordId = some r)
    {op : Operation} (hop : ¬op.Writes source w recordId) :
    ∃ q, (op.program.run source w).2.store.record? recordId = some q ∧
      q.tableId = r.tableId ∧ q.data = r.data := by
  have hkeeps (hmay : ∀ tableId payload actor, ¬op.Does tableId (.update recordId payload actor)) :
      ∃ q, (op.program.run source w).2.store.record? recordId = some q ∧
        q.tableId = r.tableId ∧ q.data = r.data := by
    have hkeep := op.changes_program (fun v => v.IsFresh source ∧
        ∃ q, v.store.record? recordId = some q ∧ q.tableId = r.tableId ∧ q.data = r.data)
      (fun v v' hle hchange hv =>
        ⟨World.isFresh_change hle hchange hv.1, data_change hmay hv.1 hchange hv.2⟩)
      w ⟨hfresh, r, hr, rfl, rfl⟩
    exact hkeep.2
  by_cases hupdates : ∃ tableId payload actor, op = .work tableId (.update recordId payload actor)
  . obtain ⟨tableId, payload, actor, rfl⟩ := hupdates
    rcases hrun : ((Work.update recordId payload actor).program tableId).run source w with ⟨e | answer, w'⟩
    . rw [program_work, hrun]
      have hstore : w'.store = w.store := Work.store_of_error hrun
      exact ⟨r, hstore ▸ hr, rfl, rfl⟩
    . exact absurd (.updates (congrArg Prod.fst hrun)) hop
  . apply hkeeps
    rintro tableId payload actor ⟨⟩
    exact hupdates ⟨tableId, payload, actor, rfl⟩

end Operation

namespace World

variable {source : Source} {w : World} {recordId : String}

def Leaves (source : Source) (recordId : String) : World → List Operation → Prop
  | _, [] => True
  | w, op :: ops =>
    ¬op.Writes source w recordId ∧ Leaves source recordId (op.program.run source w).2 ops

theorem data_after {ops : List Operation} (hfresh : w.IsFresh source) {r : Record}
    (hr : w.store.record? recordId = some r) (hops : w.Leaves source recordId ops) :
    ∃ q, (w.after source ops).store.record? recordId = some q ∧ q.tableId = r.tableId ∧ q.data = r.data := by
  induction ops generalizing w r with
  | nil => exact ⟨r, hr, rfl, rfl⟩
  | cons op ops ih =>
    obtain ⟨hop, hops⟩ := hops
    have hfresh' := op.changes_program (IsFresh source) (fun _ _ => isFresh_change) w hfresh
    obtain ⟨q, hq, htable, hdata⟩ := Operation.data_run hfresh hr hop
    obtain ⟨q', hq', htable', hdata'⟩ := ih hfresh' hq hops
    exact ⟨q', hq', htable'.trans htable, hdata'.trans hdata⟩

/--
What a record holds for a field, as it was last written under the current fields of its table: a value that
the field admits, the default value of the field if the write was its first, or, in place of an admitted
value, what the write has failed to change.
-/
theorem conforms_after (source : Source) (hids : Function.Injective source.identifiers)
    (hw : w.Reachable source) {op : Operation} (htimely : op.IsTimely) (hwrites : op.Writes source w recordId)
    {later : List Operation} (hlast : (op.program.run source w).2.Leaves source recordId later) {r : Record}
    {t old : Table}
    (hr : ((op.program.run source w).2.after source later).store.record? recordId = some r)
    (ht : ((op.program.run source w).2.after source later).store.table? r.tableId = some t)
    (hold : w.store.table? r.tableId = some old) (hsame : t.fields = old.fields) :
    ∀ f ∈ t.fields, f.isChecked = true →
      f.Admits (r.data.get f.name) ∨
      (w.store.record? recordId = none ∧ r.data.get f.name = f.defaultValue) ∨
      ∃ q, (op.program.run source w).1 = .ok (.record q) ∧ f.Admits (q.data.get f.name) ∧
        (Answer.record q).losesChange w.store = true := by
  have horderly := isOrderly_of_reachable hids hw
  have hfresh := isFresh_of_reachable hids hw
  have hplain := isPlain_of_reachable hw
  have hfresh' := op.changes_program (IsFresh source) (fun _ _ => isFresh_change) w hfresh
  intro f hf hchecked
  rw [hsame] at hf
  cases hwrites with
  | @adds _ q hnone hq =>
    obtain ⟨r', hr', htable, hdata⟩ := data_after hfresh' hq hlast
    rw [hr] at hr'
    obtain rfl := Option.some.inj hr'
    rw [htable] at hold
    rw [hdata]
    rcases Operation.nearlyConforms_of_adds op horderly.tables hfresh htimely hnone hq hold f hf hchecked with
      hadmits | hdefault
    . exact .inl hadmits
    . exact .inr (.inl ⟨hnone, hdefault⟩)
  | @updates tableId payload actor answer hanswer =>
    have hrun : ((Work.update recordId payload actor).program tableId).run source w = (.ok answer, _) :=
      Prod.ext hanswer rfl
    have hdone := Work.done_of_run hrun
    cases hdone with
    | edited hedit => cases hedit
    | @updated _ _ _ table existing q htable hupdated =>
      have hpayload := htimely tableId _ (.work tableId _)
      have hnew : ∃ new, (((Work.update recordId payload actor).program tableId).run source w).2.store.record?
          recordId = some new ∧ new.tableId = existing.tableId := by
        obtain ⟨hfound, new, hkept, hstore⟩ := hupdated.store
        refine ⟨new, ?_, (Store.kept_of_some hfound hkept).1⟩
        rw [hstore, Store.record?_putRecord, if_pos]
        rw [Store.kept_id hkept, hupdated.id]
      obtain ⟨new, hnew, hnewTable⟩ := hnew
      obtain ⟨r', hr', hrTable, hdata⟩ := data_after hfresh' hnew hlast
      rw [hr] at hr'
      obtain rfl := Option.some.inj hr'
      have htable' : old = table := by
        rw [hrTable, hnewTable, hupdated.belongs, Store.table?_id htable, htable] at hold
        exact (Option.some.inj hold).symm
      subst htable'
      obtain ⟨hreturned, hstored⟩ := Operation.conforms_of_updated (horderly.tables old (Store.table?_mem htable))
        hplain hpayload hupdated hnew
      cases hloses : (Answer.record q).losesChange w.store with
      | true => exact .inr (.inr ⟨q, hanswer, hreturned f hf hchecked, hloses⟩)
      | false =>
        rw [hdata]
        exact .inl (hstored hloses f hf hchecked)

theorem conforms_after_update :
    let op : Operation := .work "i" (.update "iii" (.map [("n", .text "5")]) .null)
    let later : List Operation :=
      [.work "i" (.updateTable (.text "Places") .null), .work "i" (.softDelete "iii")]
    let v := (op.program.run .sample sample).2.after .sample later
    ∃ r t, v.store.record? "iii" = some r ∧ v.store.table? r.tableId = some t ∧
      r.data = [("n", .int 5)] ∧ r.isDeleted = true ∧ ∀ f ∈ t.fields, f.isChecked = true →
        f.Admits (r.data.get f.name) ∨
        (sample.store.record? "iii" = none ∧ r.data.get f.name = f.defaultValue) ∨
        ∃ q, (op.program.run .sample sample).1 = .ok (.record q) ∧ f.Admits (q.data.get f.name) ∧
          (Answer.record q).losesChange sample.store = true := by
  intro op later v
  have hrecord : (v.store.record? "iii").map (fun r => (r.tableId, r.data, r.isDeleted)) =
      some ("i", [("n", .int 5)], true) := by
    decide +kernel
  have htable : (v.store.table? "i").map (·.fields) = (sample.store.table? "i").map (·.fields) := by
    decide +kernel
  obtain ⟨r, hr, hparts⟩ := Option.map_eq_some_iff.mp hrecord
  obtain ⟨hid, hdata, hdeleted⟩ : r.tableId = "i" ∧ r.data = [("n", .int 5)] ∧ r.isDeleted = true := by
    simpa using hparts
  obtain ⟨old, hold⟩ : ∃ old, sample.store.table? r.tableId = some old := by
    rw [hid, ← Option.isSome_iff_exists]
    decide +kernel
  rw [← hid, hold] at htable
  obtain ⟨t, ht, hfields⟩ := Option.map_eq_some_iff.mp htable
  have htimely : (Operation.work "i" (.update "iii" (.map [("n", .text "5")]) .null)).IsTimely := by
    rintro _ _ ⟨⟩ es heq
    obtain rfl := Value.map.inj heq
    intro e he
    obtain rfl : e = ("n", .text "5") := by simpa using he
    rintro m o ⟨⟩
  have hwrites : op.Writes .sample sample "iii" := by
    have hok : (op.program.run .sample sample).1.isOk = true := by decide +kernel
    cases hanswer : (op.program.run .sample sample).1 with
    | ok answer => exact .updates hanswer
    | error e => simp [hanswer, Except.isOk, Except.toBool] at hok
  have hlast : (op.program.run .sample sample).2.Leaves .sample "iii" later := by
    refine ⟨?_, ?_, trivial⟩
    . rintro (⟨hnone, -⟩ | _)
      exact absurd hnone (by decide +kernel)
    . rintro (⟨hnone, -⟩ | _)
      exact absurd hnone (by decide +kernel)
  exact ⟨r, t, hr, ht, hdata, hdeleted,
    conforms_after .sample Source.sample_injective ⟨true, _, rfl⟩ htimely hwrites hlast hr ht hold hfields⟩

theorem conforms_fails_of_default :
    let w := World.after .sample { store := { isReady := true } } [
      .createTable
        { tenantId := .text "x", name := .text "points", displayName := .text "Points" } true,
      .work "i" (.addField (.ready
        { name := "n", displayName := "N", type := .number, defaultValue := .text "abc" })),
      .work "i" (.insert (.map []) .null)]
    (w.store.record? "iii").map (·.data) = some [("n", .text "abc")] ∧
      ((w.store.table? "i").map fun t =>
        t.fields.map fun f => (f.name, f.isChecked, decide (f.Admits (.text "abc")))) =
          some [("n", true, false)] := by
  decide +kernel

end World
end TenantTables
