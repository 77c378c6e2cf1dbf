import TenantTables.Storage.Store

/-!
This module contains what a write does to storage: it gives one identifier the form in which storage
keeps what was written, and leaves everything under other identifiers as it is.
-/

namespace TenantTables

theorem Outcome.bind_eq_ok {r : Except ε α} {f : α → Except ε β} {b : β} :
    (r >>= f) = .ok b ↔ ∃ a, r = .ok a ∧ f a = .ok b := by
  cases r with
  | error e => simp [Bind.bind, Except.bind]
  | ok a => simp [Bind.bind, Except.bind]

theorem Outcome.ok_bind (a : α) (f : α → Outcome β) : (Except.ok a >>= f) = f a := rfl

theorem Outcome.eq_ok_of_toOption {r : Outcome α} {a : α} (h : r.toOption = some a) : r = .ok a := by
  cases r with
  | error e => contradiction
  | ok b => exact congrArg Except.ok (Option.some.inj h)

theorem Outcome.ite_throw_eq_ok {c : Prop} [Decidable c] {e : Failure} {f : β → Outcome α}
    {r : Outcome α} {a : α} :
    (if c then (throw e : Outcome β) >>= f else r) = .ok a ↔ ¬c ∧ r = .ok a := by
  split
  . next h => simp [h, throw, throwThe, MonadExceptOf.throw, Bind.bind, Except.bind]
  . next h => simp [h]

theorem Outcome.option_mapM_eq_ok {f : α → Outcome β} {o : Option α} {o' : Option β}
    (h : o.mapM f = .ok o') :
    (o = none ∧ o' = none) ∨ ∃ a b, o = some a ∧ o' = some b ∧ f a = .ok b := by
  cases o with
  | none =>
    left
    exact ⟨rfl, (Except.ok.inj h).symm⟩
  | some a =>
    right
    obtain ⟨b, hb, h⟩ := Outcome.bind_eq_ok.mp (show (f a >>= fun b => pure (some b)) = .ok o' from h)
    exact ⟨a, b, rfl, (Except.ok.inj h).symm, hb⟩

theorem storedData_ok {data data' : Entries} (h : storedData data = .ok data') :
    (Value.map data).isPlain = true ∧ data' = data := by
  unfold storedData at h
  split at h
  . next hplain => exact ⟨hplain, (Except.ok.inj h).symm⟩
  . exact absurd h (by simp)

section Keyed

variable {α : Type} (key : α → String)

def putKeyed (a : α) (as : List α) : List α :=
  if as.any (key · == key a) then as.map fun b => if key b == key a then a else b else as ++ [a]

theorem mem_putKeyed (a b : α) (as : List α) :
    b ∈ putKeyed key a as ↔ b = a ∨ (b ∈ as ∧ key b ≠ key a) := by
  unfold putKeyed
  split
  . next h =>
    obtain ⟨c, hc, hkey⟩ := List.any_eq_true.mp h
    rw [List.mem_map]
    constructor
    . rintro ⟨d, hd, rfl⟩
      by_cases hdk : key d = key a
      . simp [hdk]
      . simp [hdk, hd]
    . rintro (rfl | ⟨hb, hne⟩)
      . exact ⟨c, hc, by simp_all⟩
      . exact ⟨b, hb, by simp [hne]⟩
  . next h =>
    have hne : ∀ c ∈ as, key c ≠ key a := by
      simpa using h
    rw [List.mem_append, List.mem_singleton]
    constructor
    . rintro (hb | rfl)
      . exact .inr ⟨hb, hne b hb⟩
      . exact .inl rfl
    . rintro (rfl | ⟨hb, -⟩)
      . exact .inr rfl
      . exact .inl hb

theorem find?_replaceKeyed (a : α) (as : List α) (k : String) :
    (as.map fun b => if key b == key a then a else b).find? (key · == k) =
      if k = key a ∧ as.any (key · == key a) then some a else as.find? (key · == k) := by
  induction as with
  | nil => simp
  | cons b as ih =>
    rw [List.map_cons, List.find?_cons, List.find?_cons, List.any_cons, ih]
    by_cases hb : key b = key a
    . by_cases hk : k = key a
      . simp [hb, hk]
      . simp [hb, hk, beq_false_of_ne (Ne.symm hk)]
    . by_cases hk : k = key a
      . simp [hk, beq_false_of_ne hb]
      . simp [hb, hk]

theorem find?_putKeyed (a : α) (as : List α) (k : String) :
    (putKeyed key a as).find? (key · == k) =
      if k = key a then some a else as.find? (key · == k) := by
  unfold putKeyed
  split
  . next h =>
    rw [find?_replaceKeyed, h]
    simp
  . next h =>
    have hne : ∀ b ∈ as, key b ≠ key a := by
      simpa using h
    rw [List.find?_append, List.find?_singleton]
    by_cases hk : k = key a
    . have hnone : as.find? (key · == k) = none := by
        simpa [hk] using hne
      rw [hnone, hk]
      simp
    . rw [if_neg hk, beq_false_of_ne (Ne.symm hk)]
      simp

theorem find?_of_mem {a : α} {as : List α} (h : (as.map key).Nodup) (ha : a ∈ as) :
    as.find? (key · == key a) = some a := by
  induction as with
  | nil => contradiction
  | cons b as ih =>
    rw [List.map_cons, List.nodup_cons] at h
    rcases List.mem_cons.mp ha with rfl | ha
    . exact List.find?_cons_of_pos (beq_self_eq_true _)
    . have hne : key b ≠ key a := by
        intro heq
        exact h.1 (heq ▸ List.mem_map_of_mem ha)
      rw [List.find?_cons_of_neg (by simpa using hne)]
      exact ih h.2 ha

theorem putKeyed_of_forall_ne (a : α) (as : List α) (h : ∀ b ∈ as, key b ≠ key a) :
    putKeyed key a as = as ++ [a] := by
  unfold putKeyed
  rw [if_neg]
  simpa using h

theorem map_putKeyed {β : Type} (g : α → β) (a : α) (as : List α) (hmem : ∃ b ∈ as, key b = key a)
    (h : ∀ b ∈ as, key b = key a → g b = g a) : (putKeyed key a as).map g = as.map g := by
  unfold putKeyed
  rw [if_pos (by simpa using hmem), List.map_map]
  apply List.map_congr_left
  intro b hb
  by_cases hkey : key b = key a
  . simp [hkey, h b hb hkey]
  . simp [hkey]

theorem filter_putKeyed {p : α → Bool} (a : α) (as : List α) (h : ∀ b, key b = key a → p b = true) :
    (putKeyed key a as).filter p = putKeyed key a (as.filter p) := by
  have hany : (as.filter p).any (key · == key a) = as.any (key · == key a) := by
    rw [List.any_filter]
    apply congrArg (List.any as)
    funext b
    by_cases hkey : key b = key a
    . simp [hkey, h b hkey]
    . simp [hkey]
  unfold putKeyed
  rw [hany]
  split
  . rw [List.filter_map]
    apply congrArg
    apply List.filter_congr
    intro b _
    by_cases hkey : key b = key a
    . simp [hkey, h b hkey, h a rfl]
    . simp [hkey]
  . rw [List.filter_append, List.filter_cons_of_pos (h a rfl), List.filter_nil]

theorem filter_putKeyed_of_not {p : α → Bool} {a : α} {as : List α}
    (ha : p a = false) (h : ∀ b ∈ as, key b = key a → p b = false) :
    (putKeyed key a as).filter p = as.filter p := by
  unfold putKeyed
  split
  . let put (b : α) : α := if key b == key a then a else b
    have hkept : as.filter (p ∘ put) = as.filter p := by
      apply List.filter_congr
      intro b hb
      by_cases hkey : key b = key a
      . simp [put, hkey, ha, h b hb hkey]
      . simp [put, hkey]
    rw [List.filter_map, hkept]
    refine (List.map_congr_left fun b hb => ?_).trans (List.map_id _)
    obtain ⟨hb, hpb⟩ := List.mem_filter.mp hb
    have hkey : key b ≠ key a := by
      intro hkey
      rw [h b hb hkey] at hpb
      contradiction
    simp [hkey]
  . simp [List.filter_append, ha]

theorem nodup_putKeyed (a : α) {as : List α} (h : (as.map key).Nodup) :
    ((putKeyed key a as).map key).Nodup := by
  by_cases hmem : ∃ b ∈ as, key b = key a
  . rw [map_putKeyed key key a as hmem fun _ _ hkey => hkey]
    exact h
  . have hne : ∀ b ∈ as, key b ≠ key a := fun b hb hkey => hmem ⟨b, hb, hkey⟩
    rw [putKeyed_of_forall_ne key a as hne, List.map_append, List.nodup_append]
    refine ⟨h, by simp, ?_⟩
    simpa using hne

end Keyed

namespace Record

variable {r old new : Record}

theorem stored_ok (h : r.stored = .ok new) :
    (Value.map r.data).isPlain = true ∧ ∃ created updated deleted,
      r.createdAt.stored = .ok created ∧ r.updatedAt.stored = .ok updated ∧
      r.deletedAt.mapM Moment.stored = .ok deleted ∧
      new = { r with createdAt := created, updatedAt := updated, deletedAt := deleted } := by
  unfold stored at h
  obtain ⟨data, hdata, h⟩ := Outcome.bind_eq_ok.mp h
  obtain ⟨created, hcreated, h⟩ := Outcome.bind_eq_ok.mp h
  obtain ⟨updated, hupdated, h⟩ := Outcome.bind_eq_ok.mp h
  obtain ⟨deleted, hdeleted, h⟩ := Outcome.bind_eq_ok.mp h
  obtain ⟨hplain, rfl⟩ := storedData_ok hdata
  exact ⟨hplain, created, updated, deleted, hcreated, hupdated, hdeleted, (Except.ok.inj h).symm⟩

theorem overwrite_ok (h : old.overwrite r = .ok new) :
    ∃ data updated deleted,
      (if (Value.map r.data).agrees (.map old.data) then data = old.data
        else (Value.map r.data).isPlain = true ∧ data = r.data) ∧
      r.updatedAt.stored = .ok updated ∧ r.deletedAt.mapM Moment.stored = .ok deleted ∧
      new = { old with data, updatedBy := r.updatedBy, updatedAt := updated, deletedAt := deleted } := by
  unfold overwrite at h
  dsimp only at h
  split at h
  . next hagrees =>
    rw [pure_bind] at h
    obtain ⟨updated, hupdated, h⟩ := Outcome.bind_eq_ok.mp h
    obtain ⟨deleted, hdeleted, h⟩ := Outcome.bind_eq_ok.mp h
    refine ⟨old.data, updated, deleted, ?_, hupdated, hdeleted, (Except.ok.inj h).symm⟩
    rw [if_pos hagrees]
  . next hagrees =>
    obtain ⟨data, hdata, h⟩ := Outcome.bind_eq_ok.mp h
    obtain ⟨updated, hupdated, h⟩ := Outcome.bind_eq_ok.mp h
    obtain ⟨deleted, hdeleted, h⟩ := Outcome.bind_eq_ok.mp h
    refine ⟨data, updated, deleted, ?_, hupdated, hdeleted, (Except.ok.inj h).symm⟩
    rw [if_neg hagrees]
    exact storedData_ok hdata

theorem isDeleted_of_mapM_ok {deleted deleted' : Option Moment}
    (h : deleted.mapM Moment.stored = .ok deleted') : deleted'.isSome = deleted.isSome := by
  rcases Outcome.option_mapM_eq_ok h with ⟨rfl, rfl⟩ | ⟨a, b, rfl, rfl, -⟩ <;> rfl

end Record

namespace Table

variable {t old new : Table}

theorem stored_ok (h : t.stored = .ok new) :
    ∃ created updated, t.createdAt.stored = .ok created ∧ t.updatedAt.stored = .ok updated ∧
      new = { t with
        fields := t.fields.map Field.exchange, createdAt := created, updatedAt := updated } := by
  unfold stored at h
  obtain ⟨created, hcreated, h⟩ := Outcome.bind_eq_ok.mp h
  obtain ⟨updated, hupdated, h⟩ := Outcome.bind_eq_ok.mp h
  exact ⟨created, updated, hcreated, hupdated, (Except.ok.inj h).symm⟩

theorem overwrite_ok (h : old.overwrite t = .ok new) :
    ∃ updated, t.updatedAt.stored = .ok updated ∧
      new = { old with
        displayName := t.displayName, description := t.description
        fields := if t.fieldsDocument.agrees old.fieldsDocument then old.fields
          else t.fields.map Field.exchange
        relations := t.relations, version := t.version, updatedAt := updated } := by
  unfold overwrite at h
  obtain ⟨updated, hupdated, h⟩ := Outcome.bind_eq_ok.mp h
  obtain ⟨-, h⟩ := Outcome.ite_throw_eq_ok.mp h
  exact ⟨updated, hupdated, (Except.ok.inj h).symm⟩

end Table

namespace Store

variable {s s' : Store}

theorem requireReady_ok (h : s.requireReady = .ok ()) : s.isReady = true := by
  unfold requireReady at h
  split at h
  . assumption
  . exact absurd h (by simp)

theorem record?_id {id : String} {r : Record} (h : s.record? id = some r) : r.id = id := by
  simpa using List.find?_some h

theorem record?_mem {id : String} {r : Record} (h : s.record? id = some r) : r ∈ s.records :=
  List.mem_of_find?_eq_some h

theorem table?_id {id : String} {t : Table} (h : s.table? id = some t) : t.id = id := by
  simpa using List.find?_some h

theorem table?_mem {id : String} {t : Table} (h : s.table? id = some t) : t ∈ s.tables :=
  List.mem_of_find?_eq_some h

theorem mem_live {tableId : String} {r : Record} :
    r ∈ s.live tableId ↔ r ∈ s.records ∧ r.tableId = tableId ∧ r.isDeleted = false := by
  simp [live]

def kept (s : Store) (r : Record) : Outcome Record :=
  match s.record? r.id with
  | none => r.stored
  | some old => old.overwrite r

def putRecord (s : Store) (r : Record) : Store :=
  { s with records := putKeyed Record.id r s.records }

def putTable (s : Store) (t : Table) : Store :=
  { s with tables := putKeyed Table.id t s.tables }

@[simp]
theorem tables_putRecord (r : Record) : (s.putRecord r).tables = s.tables := rfl

@[simp]
theorem isReady_putRecord (r : Record) : (s.putRecord r).isReady = s.isReady := rfl

@[simp]
theorem table?_putRecord (r : Record) (id : String) : (s.putRecord r).table? id = s.table? id := rfl

@[simp]
theorem records_putTable (t : Table) : (s.putTable t).records = s.records := rfl

@[simp]
theorem isReady_putTable (t : Table) : (s.putTable t).isReady = s.isReady := rfl

@[simp]
theorem record?_putTable (t : Table) (id : String) : (s.putTable t).record? id = s.record? id := rfl

@[simp]
theorem live_putTable (t : Table) (id : String) : (s.putTable t).live id = s.live id := rfl

theorem record?_putRecord (r : Record) (id : String) :
    (s.putRecord r).record? id = if id = r.id then some r else s.record? id :=
  find?_putKeyed Record.id r s.records id

theorem table?_putTable (t : Table) (id : String) :
    (s.putTable t).table? id = if id = t.id then some t else s.table? id :=
  find?_putKeyed Table.id t s.tables id

theorem mem_putRecord (r q : Record) :
    q ∈ (s.putRecord r).records ↔ q = r ∨ (q ∈ s.records ∧ q.id ≠ r.id) :=
  mem_putKeyed Record.id r q s.records

theorem mem_putTable (t u : Table) :
    u ∈ (s.putTable t).tables ↔ u = t ∨ (u ∈ s.tables ∧ u.id ≠ t.id) :=
  mem_putKeyed Table.id t u s.tables

theorem mem_live_putRecord (new r : Record) (tableId : String) : r ∈ (s.putRecord new).live tableId ↔
    (r = new ∧ new.tableId = tableId ∧ new.isDeleted = false) ∨
      (r ∈ s.live tableId ∧ r.id ≠ new.id) := by
  rw [mem_live, mem_live, mem_putRecord]
  constructor
  . rintro ⟨rfl | ⟨hmem, hne⟩, htable, halive⟩
    . exact .inl ⟨rfl, htable, halive⟩
    . exact .inr ⟨⟨hmem, htable, halive⟩, hne⟩
  . rintro (⟨rfl, htable, halive⟩ | ⟨⟨hmem, htable, halive⟩, hne⟩)
    . exact ⟨.inl rfl, htable, halive⟩
    . exact ⟨.inr ⟨hmem, hne⟩, htable, halive⟩

theorem kept_id {r new : Record} (h : s.kept r = .ok new) : new.id = r.id := by
  unfold kept at h
  split at h
  . obtain ⟨-, _, _, _, -, -, -, rfl⟩ := Record.stored_ok h
    rfl
  . next old hold =>
    obtain ⟨_, _, _, -, -, -, hshape⟩ := Record.overwrite_ok h
    rw [hshape]
    show old.id = r.id
    exact record?_id hold

theorem kept_of_none {r new : Record} (hnone : s.record? r.id = none) (h : s.kept r = .ok new) :
    new.tableId = r.tableId ∧ new.data = r.data ∧ new.isDeleted = r.isDeleted := by
  unfold kept at h
  rw [hnone] at h
  obtain ⟨-, _, _, _, -, -, hdeleted, rfl⟩ := Record.stored_ok h
  exact ⟨rfl, rfl, Record.isDeleted_of_mapM_ok hdeleted⟩

theorem kept_of_some {r old new : Record} (hsome : s.record? r.id = some old)
    (h : s.kept r = .ok new) :
    new.tableId = old.tableId ∧ (new.data = old.data ∨ new.data = r.data) ∧
      new.isDeleted = r.isDeleted := by
  unfold kept at h
  rw [hsome] at h
  obtain ⟨data, _, _, hdata, -, hdeleted, rfl⟩ := Record.overwrite_ok h
  refine ⟨rfl, ?_, Record.isDeleted_of_mapM_ok hdeleted⟩
  split at hdata
  . exact .inl hdata
  . exact .inr hdata.2

theorem any_id_eq_isSome_record? (s : Store) (id : String) :
    s.records.any (·.id == id) = (s.record? id).isSome := by
  rw [record?, Bool.eq_iff_iff, List.find?_isSome, List.any_eq_true]

theorem any_id_eq_isSome_table? (s : Store) (id : String) :
    s.tables.any (·.id == id) = (s.table? id).isSome := by
  rw [table?, Bool.eq_iff_iff, List.find?_isSome, List.any_eq_true]

theorem saveRecord_eq (s : Store) (r : Record) : s.saveRecord r = do
    s.requireReady
    let new ← s.kept r
    return s.putRecord new := by
  unfold saveRecord
  apply bind_congr
  intro _
  cases hnew : s.kept r with
  | error e =>
    unfold kept at hnew
    cases hold : s.record? r.id <;> simp only [hold] at hnew ⊢ <;> rw [hnew] <;> rfl
  | ok new =>
    have hid := kept_id hnew
    show _ = Except.ok (s.putRecord new)
    rw [putRecord, putKeyed, any_id_eq_isSome_record?, hid]
    unfold kept at hnew
    cases hold : s.record? r.id <;> simp only [hold] at hnew ⊢ <;> rw [hnew] <;> rfl

theorem saveRecord_ok {r : Record} (h : s.saveRecord r = .ok s') :
    s.isReady = true ∧ ∃ new, s.kept r = .ok new ∧ s' = s.putRecord new := by
  rw [saveRecord_eq] at h
  obtain ⟨_, hready, h⟩ := Outcome.bind_eq_ok.mp h
  obtain ⟨new, hnew, h⟩ := Outcome.bind_eq_ok.mp h
  exact ⟨requireReady_ok hready, new, hnew, (Except.ok.inj h).symm⟩

theorem exists_saveRecord {r : Record} {created updated : Moment} {deleted : Option Moment}
    (hready : s.isReady = true) (hplain : (Value.map r.data).isPlain = true)
    (hcreated : r.createdAt.stored = .ok created) (hupdated : r.updatedAt.stored = .ok updated)
    (hdeleted : r.deletedAt.mapM Moment.stored = .ok deleted) : ∃ s', s.saveRecord r = .ok s' := by
  have hdata : storedData r.data = .ok r.data := if_pos hplain
  have hkept : ∃ new, s.kept r = .ok new := by
    unfold kept
    cases s.record? r.id with
    | none =>
      rw [Record.stored, hdata, hcreated, hupdated, hdeleted]
      exact ⟨_, rfl⟩
    | some old =>
      unfold Record.overwrite
      dsimp only
      rw [hdata, hupdated, hdeleted]
      split <;> exact ⟨_, rfl⟩
  obtain ⟨new, hnew⟩ := hkept
  rw [saveRecord_eq, requireReady, if_pos hready, hnew]
  exact ⟨_, rfl⟩

theorem insertTable_ok {t : Table} (h : s.insertTable t = .ok s') :
    s.isReady = true ∧ s.table? t.id = none ∧ s.tableNamed? t.tenantId t.name = none ∧
      ∃ new, t.stored = .ok new ∧ s' = s.putTable new := by
  unfold insertTable at h
  obtain ⟨new, hnew, h⟩ := Outcome.bind_eq_ok.mp h
  obtain ⟨_, hready, h⟩ := Outcome.bind_eq_ok.mp h
  obtain ⟨-, h⟩ := Outcome.ite_throw_eq_ok.mp h
  obtain ⟨hfree, h⟩ := Outcome.ite_throw_eq_ok.mp h
  rw [Bool.or_eq_true, not_or, Bool.not_eq_true, Bool.not_eq_true] at hfree
  obtain ⟨_, _, -, -, hshape⟩ := Table.stored_ok hnew
  have hid : new.id = t.id := by rw [hshape]
  have htenant : new.tenantId = t.tenantId := by rw [hshape]
  have hname : new.name = t.name := by rw [hshape]
  refine ⟨requireReady_ok hready, ?_, ?_, new, hnew, ?_⟩
  . simpa [hid] using hfree.1
  . simpa [htenant, hname] using hfree.2
  . rw [← Except.ok.inj h, putTable, putKeyed, any_id_eq_isSome_table?, hfree.1]
    rfl

theorem saveTable_ok {t old : Table} (hold : s.table? t.id = some old) (h : s.saveTable t = .ok s') :
    s.isReady = true ∧ ∃ new, old.overwrite t = .ok new ∧ s' = s.putTable new := by
  unfold saveTable at h
  obtain ⟨_, hready, h⟩ := Outcome.bind_eq_ok.mp h
  simp only [hold] at h
  obtain ⟨new, hnew, h⟩ := Outcome.bind_eq_ok.mp h
  obtain ⟨_, -, hshape⟩ := Table.overwrite_ok hnew
  have hid : new.id = t.id := by rw [hshape, table?_id hold]
  refine ⟨requireReady_ok hready, new, hnew, ?_⟩
  rw [← Except.ok.inj h, putTable, putKeyed, any_id_eq_isSome_table?, hid, hold]
  rfl

end Store
end TenantTables
