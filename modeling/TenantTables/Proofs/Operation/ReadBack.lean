import TenantTables.Proofs.Operation.Fresh
import TenantTables.Proofs.Storage.Instant
import TenantTables.Proofs.Value.Alike

/-!
This module contains what is read back after a write. Storage leaves data and fields as they are where the
newer ones agree with them, and agreement does not tell a truth value, an integer and a number with a
point apart. Exactly a write that changes no more than that is not read back.
-/

namespace TenantTables

open Program

theorem Moment.stored_of_utc {m m' : Moment} (hutc : m.offset = some 0) (h : m.stored = .ok m') :
    m' = m := by
  unfold Moment.stored at h
  rw [Moment.toUtc?_of_utc hutc] at h
  exact (Except.ok.inj h).symm

theorem Moment.offset_of_stored {m m' : Moment} (h : m.stored = .ok m') : m'.offset = some 0 :=
  (Moment.stored_eq_ok.mp h).1

namespace Value

theorem length_eq_of_itemsAgree {as bs : List Value} (h : itemsAgree as bs = true) :
    as.length = bs.length := by
  induction as generalizing bs with
  | nil =>
    cases bs with
    | nil => rfl
    | cons b bs => simp [itemsAgree] at h
  | cons a as ih =>
    cases bs with
    | nil => simp [itemsAgree] at h
    | cons b bs =>
      rw [itemsAgree, Bool.and_eq_true] at h
      rw [List.length_cons, List.length_cons, ih h.2]

end Value

theorem Record.alike_toDocument (r : Record) (data : Entries) :
    ({ r with data } : Record).toDocument.alike r.toDocument = (Value.map data).alike (.map r.data) := by
  simp only [toDocument, toEntries, Value.alike_map, Value.entriesAlike_cons_cons, Value.alike_refl,
    Value.entriesAlike_nil_nil, Bool.true_and, Bool.and_true]

theorem Table.alike_toDocument (t : Table) (fields : List Field) :
    ({ t with fields } : Table).toDocument.alike t.toDocument =
      (Value.list (fields.map Field.toDocument)).alike (.list (t.fields.map Field.toDocument)) := by
  simp only [toDocument, entriesWith, Value.alike_map, Value.entriesAlike_cons_cons, Value.alike_refl,
    Value.entriesAlike_nil_nil, Bool.true_and, Bool.and_true]

def Table.IsExchanged (t : Table) : Prop :=
  ∀ f ∈ t.fields, f.exchange = f

namespace Table

variable {t : Table}

theorem fieldsDocument_of_isExchanged (h : t.IsExchanged) :
    t.fieldsDocument = .list (t.fields.map Field.toDocument) := by
  unfold fieldsDocument
  congr 1
  apply List.map_congr_left
  intro f hf
  rw [h f hf]

theorem map_exchange_of_isExchanged (h : t.IsExchanged) : t.fields.map Field.exchange = t.fields := by
  conv_rhs => rw [← List.map_id t.fields]
  exact List.map_congr_left h

end Table

structure Store.IsSettled (s : Store) : Prop where
  fields : ∀ id t, s.table? id = some t → t.IsExchanged
  updated : ∀ r ∈ s.records, r.updatedAt.offset = some 0

namespace Store

variable {s : Store}

theorem isSettled_putTable {t : Table} (h : s.IsSettled) (ht : t.IsExchanged) :
    (s.putTable t).IsSettled := by
  refine ⟨?_, h.updated⟩
  intro id u hu
  rw [table?_putTable] at hu
  split at hu
  . exact Option.some.inj hu ▸ ht
  . exact h.fields id u hu

theorem isSettled_putRecord {r : Record} (h : s.IsSettled) (hr : r.updatedAt.offset = some 0) :
    (s.putRecord r).IsSettled := by
  refine ⟨h.fields, ?_⟩
  intro q hq
  rcases (mem_putRecord r q).mp hq with rfl | ⟨hq, -⟩
  . exact hr
  . exact h.updated q hq

theorem offset_of_kept {r new : Record} (h : s.kept r = .ok new) : new.updatedAt.offset = some 0 := by
  unfold kept at h
  split at h
  . obtain ⟨-, _, _, _, -, hupdated, -, rfl⟩ := Record.stored_ok h
    exact Moment.offset_of_stored hupdated
  . obtain ⟨_, _, _, -, hupdated, -, rfl⟩ := Record.overwrite_ok h
    exact Moment.offset_of_stored hupdated

end Store

theorem Table.isExchanged_of_overwrite {old t new : Table} (hold : old.IsExchanged)
    (h : old.overwrite t = .ok new) : new.IsExchanged := by
  obtain ⟨_, -, rfl⟩ := Table.overwrite_ok h
  intro f hf
  dsimp only at hf
  split at hf
  . exact hold f hf
  . obtain ⟨g, -, rfl⟩ := List.mem_map.mp hf
    exact Field.exchange_exchange g

namespace Table

variable {t old new : Table}

theorem length_fields_of_agrees (h : t.fieldsDocument.agrees old.fieldsDocument = true) :
    t.fields.length = old.fields.length := by
  rw [fieldsDocument, fieldsDocument, Value.agrees] at h
  simpa using Value.length_eq_of_itemsAgree h

theorem length_filter_lt {fieldId : String} (h : (t.fieldById? fieldId).isSome = true) :
    (t.fields.filter (·.id != fieldId)).length < t.fields.length := by
  obtain ⟨f, hf⟩ := Option.isSome_iff_exists.mp h
  have hid : f.id = fieldId := by simpa using List.find?_some hf
  rw [List.length_filter_lt_length_iff_exists]
  exact ⟨f, List.mem_of_find?_eq_some hf, by simp [hid]⟩

theorem fields_of_overwrite (hlength : t.fields.length ≠ old.fields.length) (h : old.overwrite t = .ok new) :
    new.fields = t.fields.map Field.exchange := by
  obtain ⟨_, -, rfl⟩ := overwrite_ok h
  exact if_neg (mt length_fields_of_agrees hlength)

theorem fieldNames_of_overwrite (h : old.overwrite t = .ok new) :
    new.fieldNames = old.fieldNames ∨ new.fieldNames = t.fieldNames := by
  obtain ⟨_, -, rfl⟩ := overwrite_ok h
  unfold fieldNames
  dsimp only
  split
  . exact .inl rfl
  . right
    rw [List.map_map]
    rfl

end Table

namespace World

def Reachable (source : Source) (w : World) : Prop :=
  ∃ isReady ops, w = World.after source { store := { isReady } } ops

variable {source : Source} {w w' : World}

theorem isSettled_change {may : String → Work → Prop} (hchange : Change source may w w')
    (h : w.store.IsSettled) : w'.store.IsSettled := by
  cases hchange with
  | idle hstore => exact hstore ▸ h
  | created hcreated =>
    obtain ⟨-, new, -, hfields, hstore⟩ := hcreated.store
    rw [hstore]
    apply Store.isSettled_putTable h
    intro f hf
    rw [hfields] at hf
    simp at hf
  | done _ hdone =>
    cases hdone with
    | unchanged _ _ _ _ hsame => exact hsame ▸ h
    | edited _ hedited _ =>
      obtain ⟨new, hnew, -, hstore⟩ := hedited.store
      rw [hstore]
      exact Store.isSettled_putTable h
        (Table.isExchanged_of_overwrite (h.fields _ _ hedited.found) hnew)
    | inserted _ hinserted =>
      obtain ⟨-, new, hkept, hstore⟩ := hinserted.store
      exact hstore ▸ Store.isSettled_putRecord h (Store.offset_of_kept hkept)
    | updated _ hupdated =>
      obtain ⟨-, new, hkept, hstore⟩ := hupdated.store
      exact hstore ▸ Store.isSettled_putRecord h (Store.offset_of_kept hkept)
    | deleted hdeleted =>
      obtain ⟨-, new, hkept, hstore⟩ := hdeleted.store
      exact hstore ▸ Store.isSettled_putRecord h (Store.offset_of_kept hkept)

theorem keeps_of_reachable {P : World → Prop} (hstart : ∀ isReady, P { store := { isReady } })
    (hkeep : ∀ (op : Operation) (v v' : World), v.identifiers ≤ v'.identifiers →
      Change source op.Does v v' → P v → P v') (h : w.Reachable source) : P w := by
  obtain ⟨isReady, ops, rfl⟩ := h
  exact after_keeps (fun op _ => hkeep op) (hstart isReady)

theorem reachable_after (h : w.Reachable source) (ops : List Operation) :
    (w.after source ops).Reachable source := by
  obtain ⟨isReady, before, rfl⟩ := h
  exact ⟨isReady, before ++ ops, (after_append source _ before ops).symm⟩

theorem nodup_records_of_reachable (h : w.Reachable source) : (w.store.records.map (·.id)).Nodup := by
  obtain ⟨isReady, ops, rfl⟩ := h
  exact nodup_records_after (by simp) ops

theorem isSettled_of_reachable (h : w.Reachable source) : w.store.IsSettled := by
  refine keeps_of_reachable (P := fun w => w.store.IsSettled) ?_ ?_ h
  . intro isReady
    exact ⟨by simp [Store.table?], by simp⟩
  . intro op v v' _ hchange hv
    exact isSettled_change hchange hv

theorem isFresh_of_reachable (hids : Function.Injective source.identifiers)
    (h : w.Reachable source) : w.IsFresh source := by
  refine keeps_of_reachable (P := fun w => w.IsFresh source) ?_ ?_ h
  . intro isReady n _
    exact ⟨rfl, fun m _ heq => hids heq⟩
  . intro op v v' hle hchange hv
    exact isFresh_change hle hchange hv

theorem isKeyed_of_reachable (hids : Function.Injective source.identifiers) (h : w.Reachable source) :
    w.IsKeyed source :=
  ⟨isFresh_of_reachable hids h, nodup_records_of_reachable h⟩

end World

namespace Answer

/--
Whether reading the record or the table of an answer gives the JSON document of the answer. An import
answers nothing that could be read.
-/
def readsBack (source : Source) (w : World) : Answer → Bool
  | record r =>
    match ((ask (.record r.id)).run source w).1 with
    | .ok (some q) => q.toDocument.alike r.toDocument
    | _ => false
  | table t =>
    match ((ask (.table t.id)).run source w).1 with
    | .ok (some u) => u.toDocument.alike t.toDocument
    | _ => false
  | imported _ => true

/--
Whether the data or the fields of an answer agree with those that storage had before, but are not the same
JSON value.
-/
def losesChange (s : Store) : Answer → Bool
  | record r =>
    match s.record? r.id with
    | some old => (Value.map r.data).agrees (.map old.data) && !(Value.map old.data).alike (.map r.data)
    | none => false
  | table t =>
    match s.table? t.id with
    | some old => t.fieldsDocument.agrees old.fieldsDocument &&
        !old.fieldsDocument.alike t.fieldsDocument
    | none => false
  | imported _ => false

variable {source : Source} {w : World}

theorem readsBack_record {r q : Record} (hready : w.store.isReady = true)
    (hfound : w.store.record? r.id = some q) :
    (record r).readsBack source w = q.toDocument.alike r.toDocument := by
  rw [readsBack, run_record_ok.mpr ⟨hready, hfound, rfl⟩]

theorem readsBack_table {t u : Table} (hready : w.store.isReady = true)
    (hfound : w.store.table? t.id = some u) :
    (table t).readsBack source w = u.toDocument.alike t.toDocument := by
  rw [readsBack, run_table_ok.mpr ⟨hready, hfound, rfl⟩]

end Answer

namespace Tables

theorem defaultValue_of_merge {f merged : Field} {u : FieldUpdate} (h : merge f u = .value merged) :
    merged.defaultValue = f.defaultValue ∨ u.defaultValue = some merged.defaultValue := by
  obtain ⟨hnew, -⟩ := merge_eq_value_iff.mp h
  obtain ⟨-, -, -, -, hget, -⟩ := u.get?_toEntries
  cases hdefault : u.defaultValue with
  | none => exact .inl (hnew.defaultValue.kept (hget.trans hdefault))
  | some v =>
    have hread := hnew.defaultValue.set v (hget.trans hdefault)
    exact .inr (congrArg some (Document.Reader.any_eq_value.mp hread))

end Tables

def Operation.HasJsonDefault : Operation → Prop
  | .work _ (.addField request) =>
    ∀ spec, request.read Document.Reader.fieldSpec = .ok spec → spec.defaultValue.isJson = true
  | .work _ (.updateField _ request) =>
    ∀ u, request.read Document.Reader.fieldUpdate = .ok u →
      ∀ v, u.defaultValue = some v → v.isJson = true
  | _ => True

namespace Work

variable {source : Source} {w w' : World}

theorem isExchanged_of_edits {tableId : String} {old edit : Table} {job : Work}
    (hjson : (Operation.work tableId job).HasJsonDefault) (hold : old.IsExchanged)
    (h : Edits source w old job edit) : edit.IsExchanged := by
  cases h with
  | updateTable => exact hold
  | addField _ _ hspec =>
    intro f hf
    rcases List.mem_append.mp hf with hf | hf
    . exact hold f hf
    . rw [List.mem_singleton.mp hf, Field.exchange, FieldSpec.toField]
      simp only [Value.exchange_of_isJson (hjson _ hspec)]
  | updateField hexisting hu hmerged =>
    next existing merged u =>
    have hmem := List.mem_of_find?_eq_some hexisting
    have hdefault : merged.defaultValue.exchange = merged.defaultValue := by
      rcases Tables.defaultValue_of_merge hmerged with heq | hset
      . rw [heq]
        exact congrArg Field.defaultValue (hold existing hmem)
      . exact Value.exchange_of_isJson (hjson _ hu _ hset)
    intro f hf
    obtain ⟨g, hg, rfl⟩ := List.mem_map.mp hf
    split
    . rw [Field.exchange, hdefault]
    . exact hold g hg
  | deleteField =>
    intro f hf
    exact hold f (List.mem_filter.mp hf).1
  | createRelation => exact hold

theorem kept_of_inserted (hutc : ∀ n, (source.clock n).offset = some 0) {table : Table}
    {payload : Value} {r new : Record} (hnone : w.store.record? r.id = none)
    (h : Records.Inserted source w w' table payload r) (hkept : w.store.kept r = .ok new) :
    new = r := by
  obtain ⟨createdBy, updatedBy, hshape⟩ := h.shape
  have hcreatedAt : r.createdAt = source.clock w.readings := by rw [hshape]
  have hupdatedAt : r.updatedAt = source.clock w.readings := by rw [hshape]
  have hdeletedAt : r.deletedAt = none := by rw [hshape]
  unfold Store.kept at hkept
  rw [hnone] at hkept
  obtain ⟨-, created, updated, deleted, hcreated, hupdated, hdeleted, rfl⟩ := Record.stored_ok hkept
  obtain rfl := Moment.stored_of_utc (hcreatedAt ▸ hutc _) hcreated
  obtain rfl := Moment.stored_of_utc (hupdatedAt ▸ hutc _) hupdated
  rcases Outcome.option_mapM_eq_ok hdeleted with ⟨-, rfl⟩ | ⟨_, _, hsome, -, -⟩
  . rw [← hdeletedAt]
  . rw [hdeletedAt] at hsome
    simp at hsome

theorem kept_of_updated (hutc : ∀ n, (source.clock n).offset = some 0) {table : Table}
    {recordId : String} {payload : Value} {old r new : Record}
    (h : Records.Updated source w w' table recordId payload old r)
    (hkept : w.store.kept r = .ok new) :
    new = { r with
      data := if (Value.map r.data).agrees (.map old.data) then old.data else r.data } := by
  obtain ⟨updatedBy, hshape⟩ := h.shape
  have hupdatedAt : r.updatedAt = source.clock w.readings := by rw [hshape]
  have hdeletedAt : r.deletedAt = none := by
    rw [hshape]
    simpa [Record.isDeleted] using h.alive
  unfold Store.kept at hkept
  rw [h.store.1] at hkept
  obtain ⟨data, updated, deleted, hdata, hupdated, hdeleted, rfl⟩ := Record.overwrite_ok hkept
  obtain rfl := Moment.stored_of_utc (hupdatedAt ▸ hutc _) hupdated
  rcases Outcome.option_mapM_eq_ok hdeleted with ⟨-, rfl⟩ | ⟨_, _, hsome, -, -⟩
  . have hkeptdata : data = if (Value.map r.data).agrees (.map old.data) then old.data else r.data := by
      split at hdata
      . next hagrees => rw [if_pos hagrees, hdata]
      . next hagrees => rw [if_neg hagrees, hdata.2]
    rw [← hkeptdata, ← hdeletedAt, hshape]
  . rw [hdeletedAt] at hsome
    simp at hsome

theorem kept_of_deleted (hutc : ∀ n, (source.clock n).offset = some 0) {tableId recordId : String}
    {old r new : Record} (hsettled : w.store.IsSettled)
    (h : Records.Deleted source w w' tableId recordId old r) (hkept : w.store.kept r = .ok new) :
    new = r := by
  have hupdatedAt := hsettled.updated old (Store.record?_mem h.found)
  unfold Store.kept at hkept
  rw [h.store.1] at hkept
  obtain ⟨data, updated, deleted, hdata, hupdated, hdeleted, rfl⟩ := Record.overwrite_ok hkept
  rw [h.shape] at hupdated hdeleted hdata ⊢
  obtain rfl := Moment.stored_of_utc hupdatedAt hupdated
  rcases Outcome.option_mapM_eq_ok hdeleted with ⟨hnone, -⟩ | ⟨now, now', hsome, rfl, hnow⟩
  . simp at hnone
  . obtain rfl := Option.some.inj hsome
    obtain rfl := Moment.stored_of_utc (hutc _) hnow
    -- the data is the old one, so it does not matter whether it is written
    have hsame : data = old.data := by
      split at hdata
      . exact hdata
      . exact hdata.2
    rw [hsame]

theorem kept_of_edited (hutc : ∀ n, (source.clock n).offset = some 0) {tableId : String}
    {old edit t new : Table} (hedit : edit.IsExchanged)
    (h : Tables.Edited source w w' tableId old edit t) (hnew : old.overwrite t = .ok new) :
    new = { t with
      fields := if t.fieldsDocument.agrees old.fieldsDocument then old.fields else t.fields } := by
  obtain ⟨_, _, hshape⟩ := h.shape
  have hupdatedAt : t.updatedAt = source.clock w.readings := by rw [hshape]
  have hfields : t.fields.map Field.exchange = t.fields := by
    rw [hshape]
    exact Table.map_exchange_of_isExchanged hedit
  obtain ⟨updated, hupdated, rfl⟩ := Table.overwrite_ok hnew
  obtain rfl := Moment.stored_of_utc (hupdatedAt ▸ hutc _) hupdated
  rw [hfields, hshape]

theorem kept_of_created (hutc : ∀ n, (source.clock n).offset = some 0) {t new : Table}
    (h : Tables.Created source w w' t) (hnew : t.stored = .ok new) : new = t := by
  obtain ⟨_, _, _, _, hshape⟩ := h.shape
  have hcreatedAt : t.createdAt = source.clock w.readings := by rw [hshape]
  have hupdatedAt : t.updatedAt = source.clock w.readings := by rw [hshape]
  have hfields : t.fields.map Field.exchange = t.fields := by
    rw [hshape]
    rfl
  obtain ⟨created, updated, hcreated, hupdated, rfl⟩ := Table.stored_ok hnew
  obtain rfl := Moment.stored_of_utc (hcreatedAt ▸ hutc _) hcreated
  obtain rfl := Moment.stored_of_utc (hupdatedAt ▸ hutc _) hupdated
  rw [hfields]

end Work

namespace Answer

variable {source : Source} {w w' : World}

theorem losesChange_record_of_none {s : Store} {r : Record} (h : s.record? r.id = none) :
    (record r).losesChange s = false := by
  rw [losesChange, h]

theorem losesChange_table_of_none {s : Store} {t : Table} (h : s.table? t.id = none) :
    (table t).losesChange s = false := by
  rw [losesChange, h]

theorem losesChange_record {s : Store} {old r : Record} (h : s.record? r.id = some old) :
    (record r).losesChange s =
      ((Value.map r.data).agrees (.map old.data) && !(Value.map old.data).alike (.map r.data)) := by
  rw [losesChange, h]

theorem losesChange_table {s : Store} {old t : Table} (h : s.table? t.id = some old) :
    (table t).losesChange s =
      (t.fieldsDocument.agrees old.fieldsDocument &&
        !old.fieldsDocument.alike t.fieldsDocument) := by
  rw [losesChange, h]

theorem readsBack_of_kept_record {old r : Record} (hready : w.store.isReady = true)
    (hold : w.store.record? r.id = some old)
    (hstore : w'.store = w.store.putRecord { r with
      data := if (Value.map r.data).agrees (.map old.data) then old.data else r.data }) :
    (record r).readsBack source w' = !(record r).losesChange w.store := by
  have hfound := Store.record?_putRecord (s := w.store) { r with
    data := if (Value.map r.data).agrees (.map old.data) then old.data else r.data } r.id
  rw [if_pos rfl, ← hstore] at hfound
  have hready' : w'.store.isReady = true := by
    rw [hstore]
    exact hready
  rw [readsBack_record hready' hfound, Record.alike_toDocument, losesChange_record hold]
  split
  . next hagrees => simp [hagrees]
  . next hagrees => simp [hagrees]

theorem readsBack_of_kept_table {old t : Table} (hready : w.store.isReady = true)
    (hold : w.store.table? t.id = some old) (holdfields : old.IsExchanged) (htfields : t.IsExchanged)
    (hstore : w'.store = w.store.putTable { t with
      fields := if t.fieldsDocument.agrees old.fieldsDocument then old.fields else t.fields }) :
    (table t).readsBack source w' = !(table t).losesChange w.store := by
  have hfound := Store.table?_putTable (s := w.store) { t with
    fields := if t.fieldsDocument.agrees old.fieldsDocument then old.fields else t.fields } t.id
  rw [if_pos rfl, ← hstore] at hfound
  have hready' : w'.store.isReady = true := by
    rw [hstore]
    exact hready
  rw [readsBack_table hready' hfound, Table.alike_toDocument, losesChange_table hold,
    Table.fieldsDocument_of_isExchanged holdfields, Table.fieldsDocument_of_isExchanged htfields]
  split
  . next hagrees => simp [hagrees]
  . next hagrees => simp [hagrees]

end Answer

namespace Operation

def mayLose : Operation → Bool
  | .work _ (.update ..) => true
  | .work _ (.updateField ..) => true
  | _ => false

end Operation

namespace World

variable {source : Source} {w w' : World}

theorem readsBack_of_done (hutc : ∀ n, (source.clock n).offset = some 0)
    (hsettled : w.store.IsSettled) (hfresh : w.IsFresh source) {tableId : String} {job : Work}
    (hjson : (Operation.work tableId job).HasJsonDefault) {answer : Answer}
    (h : Work.Done source w w' tableId job answer) :
    answer.readsBack source w' = !answer.losesChange w.store := by
  cases h with
  | unchanged _ _ hready hfound hsame =>
    subst hsame
    rw [← Store.table?_id hfound] at hfound
    rw [Answer.readsBack_table hready hfound, Answer.losesChange_table hfound]
    simp
  | edited hedit hedited _ =>
    next old edit t _ =>
    have holdfields := hsettled.fields _ _ hedited.found
    have hedit := Work.isExchanged_of_edits hjson holdfields hedit
    have htfields : t.IsExchanged := by
      obtain ⟨_, _, hshape⟩ := hedited.shape
      rw [hshape]
      exact hedit
    obtain ⟨new, hnew, -, hstore⟩ := hedited.store
    rw [Work.kept_of_edited hutc hedit hedited hnew] at hstore
    exact Answer.readsBack_of_kept_table hedited.ready (hedited.id ▸ hedited.found) holdfields
      htfields hstore
  | inserted _ hinserted =>
    obtain ⟨-, new, hkept, hstore⟩ := hinserted.store
    have hnone := record?_of_inserted hfresh hinserted
    obtain rfl := Work.kept_of_inserted hutc hnone hinserted hkept
    have hfound := Store.record?_putRecord (s := w.store) new new.id
    rw [if_pos rfl, ← hstore] at hfound
    have hready : w'.store.isReady = true := by
      rw [hstore]
      exact hinserted.ready
    rw [Answer.readsBack_record hready hfound, Answer.losesChange_record_of_none hnone]
    simp
  | updated _ hupdated =>
    obtain ⟨hfound, new, hkept, hstore⟩ := hupdated.store
    rw [Work.kept_of_updated hutc hupdated hkept] at hstore
    exact Answer.readsBack_of_kept_record hupdated.ready hfound hstore
  | deleted hdeleted =>
    next old r =>
    obtain ⟨hfound, new, hkept, hstore⟩ := hdeleted.store
    obtain rfl := Work.kept_of_deleted hutc hsettled hdeleted hkept
    have hdata : new.data = old.data := by rw [hdeleted.shape]
    apply Answer.readsBack_of_kept_record hdeleted.ready hfound
    rw [hstore, ← hdata, ite_self]

theorem mayLose_of_losesChange (hfresh : w.IsFresh source) {tableId : String} {job : Work}
    {answer : Answer} (h : Work.Done source w w' tableId job answer)
    (hloses : answer.losesChange w.store = true) :
    (Operation.work tableId job).mayLose = true := by
  cases h with
  | unchanged _ _ _ hfound _ =>
    rw [← Store.table?_id hfound] at hfound
    rw [Answer.losesChange_table hfound] at hloses
    simp at hloses
  | edited hedit hedited _ =>
    next old edit t _ =>
    rw [Answer.losesChange_table (hedited.id ▸ hedited.found), Bool.and_eq_true] at hloses
    obtain ⟨_, _, hshape⟩ := hedited.shape
    have hfields : t.fields = edit.fields := by rw [hshape]
    -- fields that lose a change are other ones than before, but as many
    have hsame : edit.fields ≠ old.fields := by
      intro heq
      have hdocument : t.fieldsDocument = old.fieldsDocument := by
        rw [Table.fieldsDocument, Table.fieldsDocument, hfields, heq]
      rw [hdocument] at hloses
      simp at hloses
    have hlength : edit.fields.length = old.fields.length := by
      rw [← hfields]
      exact Table.length_fields_of_agrees hloses.1
    cases hedit with
    | updateTable => exact absurd rfl hsame
    | addField => simp at hlength
    | updateField => rfl
    | deleteField hexists => exact absurd hlength (Nat.ne_of_lt (Table.length_filter_lt hexists))
    | createRelation => exact absurd rfl hsame
  | inserted _ hinserted =>
    have hnone := record?_of_inserted hfresh hinserted
    rw [Answer.losesChange_record_of_none hnone] at hloses
    simp at hloses
  | updated _ _ => rfl
  | deleted hdeleted =>
    rw [Answer.losesChange_record hdeleted.store.1, hdeleted.shape] at hloses
    simp at hloses

/--
What a write returns is what a later read sees, exactly if the write does not lose a change; and only an
update of a record or of a field may lose one.
-/
theorem readsBack_eq_not_losesChange (source : Source) (hutc : ∀ n, (source.clock n).offset = some 0)
    (hids : Function.Injective source.identifiers) {w w' : World} (hw : w.Reachable source)
    {op : Operation} (hjson : op.HasJsonDefault) {answer : Answer}
    (hrun : op.program.run source w = (.ok answer, w')) :
    answer.readsBack source w' = !answer.losesChange w.store ∧
      (answer.losesChange w.store = true → op.mayLose = true) := by
  have hsettled := isSettled_of_reachable hw
  have hfresh := isFresh_of_reachable hids hw
  cases op with
  | createTable r lookUp =>
    obtain ⟨t, hcreate, rfl⟩ := run_map_ok.mp hrun
    have hcreated := Tables.create_ok hcreate
    obtain ⟨hnone, new, hnew, -, hstore⟩ := hcreated.store
    obtain rfl := Work.kept_of_created hutc hcreated hnew
    have hfound := Store.table?_putTable (s := w.store) new new.id
    rw [if_pos rfl, ← hstore] at hfound
    have hready : w'.store.isReady = true := by
      obtain ⟨s, hinsert, -⟩ := hcreated.saved
      rw [hstore]
      exact (Store.insertTable_ok hinsert).1
    rw [Answer.readsBack_table hready hfound, Answer.losesChange_table_of_none hnone]
    simp
  | work tableId job =>
    have hdone := Work.done_of_run hrun
    exact ⟨readsBack_of_done hutc hsettled hfresh hjson hdone, mayLose_of_losesChange hfresh hdone⟩
  | importRows settings tableId rows actor =>
    obtain ⟨result, -, rfl⟩ := run_map_ok.mp hrun
    simp [Answer.readsBack, Answer.losesChange]
  | importText settings tableId text actor =>
    obtain ⟨result, -, rfl⟩ := run_map_ok.mp hrun
    simp [Answer.readsBack, Answer.losesChange]

def sample : World :=
  World.after .sample { store := { isReady := true } } [
    .createTable
      { tenantId := .text "x", name := .text "points", displayName := .text "Points" } true,
    .work "i" (.addField (.ready { name := "n", displayName := "N", type := .number })),
    .work "i" (.insert (.map [("n", .int 1)]) .null)]

theorem readsBack_eq_false_of_point :
    let op : Operation := .work "i" (.update "iii" (.map [("n", .real (.ofInt 1))]) .null)
    (op.program.run .sample sample).1.map
      (fun answer => answer.readsBack .sample (op.program.run .sample sample).2) = .ok false := by
  decide +kernel

theorem readsBack_of_number :
    let op : Operation := .work "i" (.update "iii" (.map [("n", .int 2)]) .null)
    ∃ answer w', op.program.run .sample sample = (.ok answer, w') ∧
      answer.losesChange sample.store = false ∧
      answer.readsBack .sample w' = !answer.losesChange sample.store := by
  intro op
  have hkept : ((Operation.work "i" (.update "iii" (.map [("n", .int 2)]) .null)).program.run .sample
      sample).1.map (·.losesChange sample.store) = .ok false := by
    decide +kernel
  rcases hrun : op.program.run .sample sample with ⟨e | answer, w'⟩
  . rw [hrun] at hkept
    simp [Except.map] at hkept
  . rw [hrun] at hkept
    have hreachable : sample.Reachable .sample := ⟨true, _, rfl⟩
    have hjson : op.HasJsonDefault := trivial
    have hreads := readsBack_eq_not_losesChange .sample (fun _ => rfl) Source.sample_injective
      hreachable hjson hrun
    exact ⟨answer, w', rfl, Except.ok.inj hkept, hreads.1⟩

end World
end TenantTables
