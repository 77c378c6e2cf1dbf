import TenantTables.Proofs.Storage.Filter
import TenantTables.Proofs.Storage.Writes

/-!
This module contains the live records of a table: what putting a record does to them, and the ways in which
storage counts them, which all come to the same number.
-/

namespace TenantTables

theorem exists_putKeyed_eq {α : Type} (key : α → String) {a b : α} {as : List α} (h : (as.map key).Nodup)
    (hb : b ∈ as) (hkey : key b = key a) :
    ∃ before after, as = before ++ b :: after ∧ putKeyed key a as = before ++ a :: after := by
  obtain ⟨before, after, rfl⟩ := List.append_of_mem hb
  refine ⟨before, after, rfl, ?_⟩
  rw [List.map_append, List.map_cons, List.nodup_append] at h
  obtain ⟨-, hafter, hbefore⟩ := h
  have hsame (cs : List α) (hne : ∀ c ∈ cs, key c ≠ key a) :
      (cs.map fun c => if key c == key a then a else c) = cs := by
    refine (List.map_congr_left fun c hc => ?_).trans (List.map_id cs)
    simp [hne c hc]
  have hbefore' : ∀ c ∈ before, key c ≠ key a := by
    intro c hc
    rw [← hkey]
    exact hbefore (key c) (List.mem_map_of_mem hc) (key b) List.mem_cons_self
  have hafter' : ∀ c ∈ after, key c ≠ key a := by
    intro c hc heq
    rw [hkey, ← heq] at hafter
    exact (List.nodup_cons.mp hafter).1 (List.mem_map_of_mem hc)
  rw [putKeyed, if_pos (by simp [hkey]), List.map_append, List.map_cons, hsame before hbefore',
    hsame after hafter']
  simp [hkey]

def Record.isLiveIn (r : Record) (tableId : String) : Bool :=
  r.tableId == tableId && !r.isDeleted

namespace Store

variable {s : Store} {old new : Record} {tableId : String}

theorem live_eq_filter (s : Store) (tableId : String) :
    s.live tableId = s.records.filter (·.isLiveIn tableId) := rfl

theorem live_putRecord_of_none (hnone : s.record? new.id = none) (tableId : String) :
    (s.putRecord new).live tableId = s.live tableId ++ [new].filter (·.isLiveIn tableId) := by
  have hne : ∀ r ∈ s.records, r.id ≠ new.id := by simpa [record?] using hnone
  rw [live_eq_filter, putRecord, putKeyed_of_forall_ne Record.id new _ hne, List.filter_append]
  rfl

theorem live_putRecord_of_some (hnodup : (s.records.map (·.id)).Nodup) (hold : s.record? new.id = some old)
    (tableId : String) :
    ∃ before after : List Record,
      s.live tableId = before ++ [old].filter (·.isLiveIn tableId) ++ after ∧
      (s.putRecord new).live tableId = before ++ [new].filter (·.isLiveIn tableId) ++ after := by
  obtain ⟨before, after, hrecords, hput⟩ :=
    exists_putKeyed_eq Record.id hnodup (record?_mem hold) (record?_id hold)
  refine ⟨before.filter (·.isLiveIn tableId), after.filter (·.isLiveIn tableId), ?_, ?_⟩
  . rw [live_eq_filter, hrecords, List.append_cons, List.filter_append, List.filter_append]
  . rw [live_eq_filter, putRecord]
    dsimp only
    rw [hput, List.append_cons, List.filter_append, List.filter_append]

theorem length_live_putRecord_of_some (hnodup : (s.records.map (·.id)).Nodup)
    (hold : s.record? new.id = some old) (tableId : String) :
    ((s.putRecord new).live tableId).length + (old.isLiveIn tableId).toNat =
      (s.live tableId).length + (new.isLiveIn tableId).toNat := by
  obtain ⟨before, after, hlive, hput⟩ := live_putRecord_of_some hnodup hold tableId
  rw [hlive, hput]
  cases hold : old.isLiveIn tableId <;> cases hnew : new.isLiveIn tableId <;> simp [hold, hnew] <;> omega

theorem live_putRecord_of_not (hnodup : (s.records.map (·.id)).Nodup) (hnew : new.isLiveIn tableId = false)
    (hold : ∀ r, s.record? new.id = some r → r.isLiveIn tableId = false) :
    (s.putRecord new).live tableId = s.live tableId :=
  filter_putKeyed_of_not Record.id hnew fun r hr hid => hold r (hid ▸ find?_of_mem Record.id hnodup hr)

theorem mem_tablesOf {tenantId : String} {t : Table} :
    t ∈ s.tablesOf tenantId ↔ t ∈ s.tables ∧ t.tenantId = tenantId := by
  simp [tablesOf, List.mem_mergeSort]

theorem nodup_tablesOf (h : (s.tables.map (·.id)).Nodup) (tenantId : String) :
    ((s.tablesOf tenantId).map (·.id)).Nodup := by
  have hperm := (List.mergeSort_perm (s.tables.filter (·.tenantId == tenantId))
    fun a b => b.createdAt.instant ≤ a.createdAt.instant).map Table.id
  exact hperm.nodup_iff.mpr (h.sublist (List.filter_sublist.map _))

theorem count_nil (hready : s.isReady = true) (tableId : String) :
    s.count tableId [] = .ok (s.live tableId).length := by
  rw [count, matching, requireReady, if_pos hready]
  rfl

theorem select_all (hready : s.isReady = true) (tableId : String) (column : TimestampColumn) (descending : Bool) :
    ∃ rs, s.select { tableId, column, descending } = .ok rs ∧ rs.Perm (s.live tableId) := by
  refine ⟨_, select_of_filterAll hready rfl rfl rfl rfl (by simp) rfl, ?_⟩
  have hall : (s.live tableId).filter (fun r => (none : Option String) != some r.id) = s.live tableId := by
    simp
  rw [hall]
  exact Selection.perm_arrange { tableId, column, descending } (s.live tableId)

theorem liveCounts_eq (hready : s.isReady = true) (tableIds : List String) :
    s.liveCounts tableIds =
      .ok ((tableIds.map fun id => (id, (s.live id).length)).filter fun e => e.2 ≠ 0) := by
  unfold liveCounts
  split
  . next hempty =>
    rw [List.isEmpty_iff.mp hempty]
    rfl
  . rw [requireReady, if_pos hready]
    rfl

theorem lookup_liveCounts (hready : s.isReady = true) {tableIds : List String} (hmem : tableId ∈ tableIds) :
    ∃ counts, s.liveCounts tableIds = .ok counts ∧
      (counts.lookup tableId).getD 0 = (s.live tableId).length := by
  refine ⟨_, liveCounts_eq hready tableIds, ?_⟩
  have hlookup (ids : List String) :
      (((ids.map fun id => (id, (s.live id).length)).filter fun e => e.2 ≠ 0).lookup tableId).getD 0 =
        if tableId ∈ ids then (s.live tableId).length else 0 := by
    induction ids with
    | nil => rfl
    | cons id ids ih =>
      by_cases hid : tableId = id
      . subst hid
        by_cases hzero : (s.live tableId).length = 0
        . simp_all
        . simp [hzero]
      . by_cases hzero : (s.live id).length = 0
        . simp_all
        . simp_all [List.lookup_cons, beq_false_of_ne hid]
  rw [hlookup, if_pos hmem]

end Store
end TenantTables
