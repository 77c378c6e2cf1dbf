import TenantTables.Proofs.Operation.Activity
import TenantTables.Proofs.Operation.Conform
import TenantTables.Proofs.Record.Keys
import TenantTables.Proofs.Schema.Relation

namespace TenantTables

open Program

def Value.hasKey (key : String) : Value → Bool
  | .map es => Entries.contains es key
  | _ => false

structure Record.Retains (r q : Record) (sets : String → Bool) : Prop where
  tableId : q.tableId = r.tableId
  keys : r.data.keys ⊆ q.data.keys
  values : ∀ key, sets key = false → q.data.get? key = r.data.get? key

namespace Record

variable {r q p : Record} {sets sets' : String → Bool}

theorem retains_of_data_eq (htable : q.tableId = r.tableId) (hdata : q.data = r.data) :
    r.Retains q sets := by
  refine ⟨htable, ?_, ?_⟩
  . rw [hdata]
    exact List.Subset.refl _
  . intro key _
    rw [hdata]

theorem retains_trans (h : r.Retains q sets) (h' : q.Retains p sets') :
    r.Retains p fun key => sets key || sets' key := by
  refine ⟨h'.tableId.trans h.tableId, List.Subset.trans h.keys h'.keys, ?_⟩
  intro key hkey
  obtain ⟨hfirst, hsecond⟩ := Bool.or_eq_false_iff.mp hkey
  exact (h'.values key hsecond).trans (h.values key hfirst)

end Record

theorem Records.retains_of_updated {source : Source} {w w' : World} {table : Table} {recordId : String}
    {payload : Value} {old r new : Record}
    (h : Records.Updated source w w' table recordId payload old r) (hkept : w.store.kept r = .ok new) :
    old.Retains new fun key => payload.hasKey key || table.fieldNames.contains key := by
  obtain ⟨es, rfl, hdata⟩ := h.data
  obtain ⟨hfound, -⟩ := h.store
  obtain ⟨htable, hnewData, -⟩ := Store.kept_of_some hfound hkept
  rcases hnewData with hsame | hwritten
  . exact Record.retains_of_data_eq htable hsame
  . refine ⟨htable, ?_, ?_⟩
    . rw [hwritten]
      exact keys_subset_mergedData hdata
    . intro key hkey
      obtain ⟨hpayload, hfields⟩ := Bool.or_eq_false_iff.mp hkey
      rw [hwritten]
      apply get?_mergedData _ _ hdata
      . rw [← Entries.contains_iff_mem_keys]
        exact ne_true_of_eq_false hpayload
      . simpa [Table.fieldNames] using hfields

namespace Work

variable {source : Source} {w : World} {tableId : String}

theorem records_of_isEdit (source : Source) (w : World) (tableId : String) {job : Work}
    (h : job.isEdit = true) :
    ((job.program tableId).run source w).2.store.records = w.store.records := by
  rcases hrun : (job.program tableId).run source w with ⟨e | answer, w'⟩
  . rw [store_of_error hrun]
  . have hdone := done_of_run hrun
    cases hdone with
    | unchanged _ _ _ _ hsame => rw [hsame]
    | edited _ hedited _ =>
      obtain ⟨new, -, -, hstore⟩ := hedited.store
      rw [hstore, Store.records_putTable]
    | _ => simp [isEdit] at h

theorem not_mem_fieldNamesOf_of_delete {t : Table} (ht : w.store.table? tableId = some t)
    (hformed : t.IsWellFormed) {f : Field} (hf : f ∈ t.fields) {answer : Answer}
    (h : (((deleteField f.id).program tableId).run source w).1 = .ok answer) :
    f.name ∉ (((deleteField f.id).program tableId).run source w).2.store.fieldNamesOf tableId := by
  rcases table?_of_run source (.deleteField f.id) ht with
    ⟨_, edit, u, kept, -, -, -, hedit, hfields, -, hkept, hfound⟩ | ⟨herror, -⟩
  . rw [Store.fieldNamesOf_eq hfound]
    cases hedit with
    | deleteField hexists =>
      have hlength : u.fields.length ≠ t.fields.length := by
        rw [hfields]
        exact Nat.ne_of_lt (Table.length_filter_lt hexists)
      rw [Table.fieldNames, Table.fields_of_overwrite hlength hkept, hfields, List.map_map]
      intro hname
      obtain ⟨g, hg, hsame⟩ := List.mem_map.mp hname
      obtain ⟨hg, hne⟩ := List.mem_filter.mp hg
      rw [List.inj_on_of_nodup_map hformed.names hg hf hsame] at hne
      simp at hne
  . obtain ⟨e, he⟩ := herror rfl
    rw [h] at he
    simp at he

end Work

namespace Operation

def sets (w : World) (tableId recordId : String) (op : Operation) (key : String) : Bool :=
  match op with
  | .work id (.update id' payload _) =>
    id == tableId && id' == recordId &&
      (payload.hasKey key || (w.store.fieldNamesOf tableId).contains key)
  | _ => false

def mentions (recordId key : String) : Operation → Bool
  | .work _ (.update id payload _) => id == recordId && payload.hasKey key
  | _ => false

def declares (tableId name : String) : Operation → Bool
  | .work id (.addField request) =>
    id == tableId &&
      match Tables.requestedName request with
      | .ok (.text s) => s == name
      | _ => false
  | _ => false

variable {source : Source} {w : World} {recordId : String}

theorem retains_run (hfresh : w.IsFresh source) {r : Record} (hr : w.store.record? recordId = some r)
    (op : Operation) :
    ∃ q, (op.program.run source w).2.store.record? recordId = some q ∧
      r.Retains q (op.sets w r.tableId recordId) := by
  by_cases hwrites : op.Writes source w recordId
  . cases hwrites with
    | adds hnone =>
      rw [hr] at hnone
      contradiction
    | @updates tableId payload actor answer hanswer =>
      have hrun : ((Work.update recordId payload actor).program tableId).run source w = (.ok answer, _) :=
        Prod.ext hanswer rfl
      have hdone := Work.done_of_run hrun
      cases hdone with
      | edited hedit => cases hedit
      | @updated _ _ _ table _ _ htable hupdated =>
        obtain ⟨-, new, hkept, hstore⟩ := hupdated.store
        have hid : recordId = new.id := by rw [Store.kept_id hkept, hupdated.id]
        have hsame := hupdated.found
        rw [hr] at hsame
        obtain rfl := Option.some.inj hsame
        have htableId : tableId = r.tableId := by rw [hupdated.belongs, Store.table?_id htable]
        have hsets : (work tableId (.update recordId payload actor)).sets w r.tableId recordId =
            fun key => payload.hasKey key || table.fieldNames.contains key := by
          funext key
          simp [sets, ← htableId, Store.fieldNamesOf_eq htable]
        refine ⟨new, ?_, hsets ▸ Records.retains_of_updated hupdated hkept⟩
        rw [program_work, hstore, Store.record?_putRecord, if_pos hid]
  . obtain ⟨q, hq, htable, hdata⟩ := data_run hfresh hr hwrites
    exact ⟨q, hq, Record.retains_of_data_eq htable hdata⟩

theorem sets_of_mentions {tableId key : String} (hname : key ∉ w.store.fieldNamesOf tableId) (op : Operation)
    (h : op.mentions recordId key = false) : op.sets w tableId recordId key = false := by
  unfold sets
  split
  . simp_all [mentions]
  . rfl

theorem declares_of_edits {tableId : String} {job : Work} {old edit : Table}
    (h : Work.Edits source w old job edit) {f : Field} (hf : f ∈ edit.fields)
    (hnew : f.name ∉ old.fieldNames) : (work tableId job).declares tableId f.name = true := by
  have hold (hmem : f ∈ old.fields) : (work tableId job).declares tableId f.name = true :=
    absurd (List.mem_map_of_mem hmem) hnew
  cases h with
  | updateTable => exact hold hf
  | addField hname _ hspec _ =>
    rcases List.mem_append.mp hf with hf | hf
    . exact hold hf
    . obtain rfl := List.mem_singleton.mp hf
      simp [declares, hname, ← Tables.name_of_request hname hspec, FieldSpec.toField]
  | updateField hexisting _ hmerged =>
    obtain ⟨g, hg, rfl⟩ := List.mem_map.mp hf
    split at hnew
    . rw [(Tables.merge_eq_value hmerged).2.1] at hnew
      exact absurd (List.mem_map_of_mem (List.mem_of_find?_eq_some hexisting)) hnew
    . exact absurd (List.mem_map_of_mem hg) hnew
  | deleteField => exact hold (List.mem_filter.mp hf).1
  | createRelation => exact hold hf

theorem declares_of_mem_fieldNames (source : Source) (job : Work) {tableId name : String} {old new : Table}
    (hold : w.store.table? tableId = some old)
    (hfound : ((job.program tableId).run source w).2.store.table? tableId = some new)
    (hname : name ∈ new.fieldNames) (hadded : name ∉ old.fieldNames) :
    (work tableId job).declares tableId name = true := by
  rcases Work.table?_of_run source job hold with
    ⟨_, edit, u, kept, -, -, -, hedit, hfields, -, hkept, hnew⟩ | ⟨-, hnew⟩
  . obtain rfl := Option.some.inj (hfound.symm.trans hnew)
    rcases Table.fieldNames_of_overwrite hkept with hkept | hkept
    . rw [hkept] at hname
      exact absurd hname hadded
    . rw [hkept, Table.fieldNames, hfields] at hname
      obtain ⟨f, hf, rfl⟩ := List.mem_map.mp hname
      exact declares_of_edits hedit hf hadded
  . obtain rfl := Option.some.inj (hfound.symm.trans hnew)
    exact absurd hname hadded

theorem declares_of_mem_fieldNamesOf (op : Operation) {tableId name : String}
    (hname : name ∈ (op.program.run source w).2.store.fieldNamesOf tableId)
    (hnew : name ∉ w.store.fieldNamesOf tableId) : op.declares tableId name = true := by
  have hredefines := op.redefines_of_run source w
  generalize (op.program.run source w).1 = result at hredefines
  have hother (h : (op.program.run source w).2.store.table? tableId = w.store.table? tableId) :
      op.declares tableId name = true := by
    rw [Store.fieldNamesOf, h] at hname
    exact absurd hname hnew
  cases hredefines with
  | none htables _ _ _ =>
    apply hother
    rw [Store.table?, htables]
    rfl
  | created hcreated =>
    obtain ⟨-, new, -, hfields, hstore⟩ := hcreated.store
    by_cases hid : tableId = new.id
    . have hfound := Store.table?_putTable (s := w.store) new tableId
      rw [if_pos hid, ← hstore] at hfound
      rw [Store.fieldNamesOf_eq hfound, Table.fieldNames, hfields] at hname
      simp at hname
    . apply hother
      rw [hstore, Store.table?_putTable, if_neg hid]
  | @revised id job _ old new hold hrevised =>
    have hnewId : new.id = id := by rw [hrevised.id, Store.table?_id hold]
    by_cases hid : tableId = id
    . subst hid
      have hfound := Store.table?_putTable (s := w.store) new tableId
      rw [if_pos hnewId.symm, ← hrevised.store] at hfound
      rw [Store.fieldNamesOf_eq hfound] at hname
      rw [Store.fieldNamesOf_eq hold] at hnew
      exact declares_of_mem_fieldNames source job hold hfound hname hnew
    . apply hother
      rw [hrevised.store, Store.table?_putTable, if_neg]
      rwa [hnewId]

end Operation

namespace Activity

variable {source : Source} {w : World}

theorem declares_of_mem_fieldNamesOf (a : Activity α) {tableId name : String}
    (hname : name ∈ (a.program.run source w).2.store.fieldNamesOf tableId)
    (hnew : name ∉ w.store.fieldNamesOf tableId) : a.operation?.any (·.declares tableId name) = true := by
  have hreads (b : Activity α) (hb : b.operation? = none)
      (hname : name ∈ (b.program.run source w).2.store.fieldNamesOf tableId) :
      b.operation?.any (·.declares tableId name) = true := by
    rw [store_run_of_reads (b.reads_program hb)] at hname
    exact absurd hname hnew
  cases a with
  | operation op => exact op.declares_of_mem_fieldNamesOf hname hnew
  | _ => exact hreads _ rfl hname

theorem retains_run (hfresh : w.IsFresh source) {recordId : String}
    {r : Record} (hr : w.store.record? recordId = some r) (a : Activity α) :
    ∃ q, (a.program.run source w).2.store.record? recordId = some q ∧
      r.Retains q fun key => a.operation?.any (·.sets w r.tableId recordId key) := by
  have hreads (b : Activity α) (hb : b.operation? = none) :
      ∃ q, (b.program.run source w).2.store.record? recordId = some q ∧
        r.Retains q fun key => b.operation?.any (·.sets w r.tableId recordId key) := by
    rw [store_run_of_reads (b.reads_program hb)]
    exact ⟨r, hr, Record.retains_of_data_eq rfl rfl⟩
  cases a with
  | operation op => exact op.retains_run hfresh hr
  | _ => exact hreads _ rfl

end Activity

namespace World

def sets (source : Source) (tableId recordId : String) :
    World → List ((α : Type) × Activity α) → String → Bool
  | _, [], _ => false
  | w, a :: as, key =>
    a.2.operation?.any (·.sets w tableId recordId key) ||
      sets source tableId recordId (a.2.program.run source w).2 as key

variable {source : Source} {w : World}

theorem retains_along (hfresh : w.IsFresh source) {recordId : String} {r : Record}
    (hr : w.store.record? recordId = some r) (as : List ((α : Type) × Activity α)) :
    ∃ q, (w.along source as).store.record? recordId = some q ∧
      r.Retains q (w.sets source r.tableId recordId as) := by
  induction as generalizing w r with
  | nil => exact ⟨r, hr, Record.retains_of_data_eq rfl rfl⟩
  | cons a as ih =>
    have hfresh' := a.2.run_keeps (fun _ _ _ => isFresh_change) hfresh
    obtain ⟨q, hq, hretains⟩ := a.2.retains_run hfresh hr
    obtain ⟨p, hp, hretains'⟩ := ih hfresh' hq
    rw [hretains.tableId] at hretains'
    exact ⟨p, hp, Record.retains_trans hretains hretains'⟩

theorem sets_eq_false {tableId recordId key : String} {as : List ((α : Type) × Activity α)}
    (hname : key ∉ w.store.fieldNamesOf tableId)
    (hmentions : ∀ a ∈ as, a.2.operation?.any (·.mentions recordId key) = false)
    (hdeclares : ∀ a ∈ as, a.2.operation?.any (·.declares tableId key) = false) :
    w.sets source tableId recordId as key = false := by
  induction as generalizing w with
  | nil => rfl
  | cons a as ih =>
    rw [List.forall_mem_cons] at hmentions hdeclares
    obtain ⟨hmentions, hlater⟩ := hmentions
    rw [sets, Bool.or_eq_false_iff]
    constructor
    . rw [Option.any_eq_false] at hmentions ⊢
      intro op hop
      exact Operation.sets_of_mentions hname op (hmentions op hop)
    . apply ih _ hlater hdeclares.2
      intro hadded
      have hdeclared := a.2.declares_of_mem_fieldNamesOf hadded hname
      rw [hdeclares.1] at hdeclared
      contradiction

/--
Stored keys are never lost. Whatever is done, a record keeps each key of its data, and keeps its value unless
an update of the record has the key in its payload or finds it among the names of the fields. No edit of a
table changes a record, and after a field was deleted its value stays until an update mentions it, unless a
field of that name is added again.
-/
theorem retains_of_reachable (source : Source) (hids : Function.Injective source.identifiers)
    (hw : w.Reachable source) {r : Record} (hr : r ∈ w.store.records) :
    (∀ as, ∃ q ∈ (w.along source as).store.records, q.id = r.id ∧
      r.Retains q (w.sets source r.tableId r.id as)) ∧
    (∀ tableId (job : Work), job.isEdit = true →
      ((job.program tableId).run source w).2.store.records = w.store.records) ∧
    ∀ t f answer, w.store.table? r.tableId = some t → f ∈ t.fields →
      (((Work.deleteField f.id).program r.tableId).run source w).1 = .ok answer →
      ∀ as, (∀ a ∈ as, a.2.operation?.any (·.mentions r.id f.name) = false) →
        (∀ a ∈ as, a.2.operation?.any (·.declares r.tableId f.name) = false) →
        ∃ q ∈ ((((Work.deleteField f.id).program r.tableId).run source w).2.along source as).store.records,
          q.id = r.id ∧ q.data.get? f.name = r.data.get? f.name := by
  have horderly := isOrderly_of_reachable hids hw
  have hfresh := isFresh_of_reachable hids hw
  have hfound : w.store.record? r.id = some r := find?_of_mem Record.id (nodup_records_of_reachable hw) hr
  refine ⟨?_, fun tableId job hedit => Work.records_of_isEdit source w tableId hedit, ?_⟩
  . intro as
    obtain ⟨q, hq, hretains⟩ := retains_along hfresh hfound as
    exact ⟨q, Store.record?_mem hq, Store.record?_id hq, hretains⟩
  . intro t f answer ht hf hanswer as hmentions hdeclares
    have hname := Work.not_mem_fieldNamesOf_of_delete ht (horderly.tables t (Store.table?_mem ht)) hf hanswer
    have hfresh' : (((Work.deleteField f.id).program r.tableId).run source w).2.IsFresh source :=
      Work.isFresh_of_run _ hfresh
    have hrecords : (((Work.deleteField f.id).program r.tableId).run source w).2.store.records =
        w.store.records :=
      Work.records_of_isEdit source w r.tableId rfl
    rw [Store.record?, ← hrecords] at hfound
    obtain ⟨q, hq, hretains⟩ := retains_along hfresh' hfound as
    refine ⟨q, Store.record?_mem hq, Store.record?_id hq, hretains.values f.name ?_⟩
    exact sets_eq_false hname hmentions hdeclares

theorem retains_after_deletion :
    let w := (((Work.deleteField "ii").program "i").run .sample sample).2
    let as : List ((α : Type) × Activity α) :=
      [⟨_, .operation (.work "i" (.update "iii" (.map [("m", .int 5)]) .null))⟩]
    w.store.fieldNamesOf "i" = [] ∧
      ((w.along .sample as).store.record? "iii").map (·.data) = some [("n", .int 1), ("m", .int 5)] ∧
      ∃ q ∈ (w.along .sample as).store.records, q.id = "iii" ∧ q.data.get? "n" = some (.int 1) := by
  intro w as
  refine ⟨by decide +kernel, by decide +kernel, ?_⟩
  have hmentions : ∀ a ∈ as, a.2.operation?.any (·.mentions "iii" "n") = false := by decide +kernel
  have hdeclares : ∀ a ∈ as, a.2.operation?.any (·.declares "i" "n") = false := by decide +kernel
  clear_value as
  have hrecord : (sample.store.record? "iii").map (fun r => (r.tableId, r.data)) =
      some ("i", [("n", .int 1)]) := by
    decide +kernel
  obtain ⟨r, hr, hparts⟩ := Option.map_eq_some_iff.mp hrecord
  obtain ⟨htableId, hdata⟩ : r.tableId = "i" ∧ r.data = [("n", .int 1)] := by simpa using hparts
  have hid := Store.record?_id hr
  have htable : (sample.store.table? "i").map (fun t => t.fields.map fun f => (f.id, f.name)) =
      some [("ii", "n")] := by
    decide +kernel
  obtain ⟨t, ht, hlabels⟩ := Option.map_eq_some_iff.mp htable
  obtain ⟨f, hf, hlabel⟩ : ∃ f ∈ t.fields, (f.id, f.name) = ("ii", "n") :=
    List.mem_map.mp (hlabels ▸ List.mem_singleton_self _)
  obtain ⟨hfieldId, hname⟩ := Prod.mk.inj hlabel
  have hdeleted : (((Work.deleteField "ii").program "i").run .sample sample).1.isOk = true := by decide +kernel
  have hw : sample.Reachable .sample := ⟨true, _, rfl⟩
  have hretains := (retains_of_reachable .sample Source.sample_injective hw (Store.record?_mem hr)).2.2 t f
  rw [htableId, hid, hfieldId, hname, hdata] at hretains
  cases hanswer : (((Work.deleteField "ii").program "i").run .sample sample).1 with
  | error e => simp [hanswer, Except.isOk, Except.toBool] at hdeleted
  | ok answer =>
    obtain ⟨q, hq, hqid, hvalue⟩ := hretains answer ht hf hanswer as hmentions hdeclares
    rw [Entries.get?_cons, if_pos rfl] at hvalue
    exact ⟨q, hq, hqid, hvalue⟩

end World
end TenantTables
