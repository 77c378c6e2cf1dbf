import TenantTables.Proofs.Operation.Activity
import TenantTables.Proofs.Query.Order

namespace TenantTables

open Program

structure Record.SharesOrigin (r q : Record) : Prop where
  id : q.id = r.id
  tableId : q.tableId = r.tableId
  createdBy : q.createdBy = r.createdBy
  createdAt : q.createdAt = r.createdAt

theorem Record.SharesOrigin.overwrite {r q edit new : Record} (h : r.SharesOrigin q)
    (hnew : q.overwrite edit = .ok new) : r.SharesOrigin new := by
  obtain ⟨_, _, _, -, -, -, rfl⟩ := Record.overwrite_ok hnew
  exact ⟨h.id, h.tableId, h.createdBy, h.createdAt⟩

theorem Store.mem_live_of_select_ok {s : Store} {q : Selection} {rs : List Record}
    (h : s.select q = .ok rs) {r : Record} (hr : r ∈ rs) : r ∈ s.live q.tableId := by
  obtain ⟨found, hfound, hrs⟩ := sublist_arrange_of_select_ok h
  exact hfound.subset ((q.perm_arrange found).mem_iff.mp (hrs.subset hr))

namespace World

variable {source : Source} {w w' : World} {r : Record}

structure IsSound (source : Source) (w : World) : Prop where
  ready : w.store.records ≠ [] → w.store.isReady = true
  distinct : (w.store.records.map (·.id)).Nodup
  fresh : w.IsFresh source

theorem isSound_change {may : String → Work → Prop} (hle : w.identifiers ≤ w'.identifiers)
    (hchange : Change source may w w') (h : w.IsSound source) : w'.IsSound source := by
  have hfresh := isFresh_change hle hchange h.fresh
  obtain ⟨hready, hsame | ⟨new, hputs⟩⟩ := puts_of_change hchange
  . refine ⟨?_, ?_, hfresh⟩
    . rw [hsame, hready]
      exact h.ready
    . rw [hsame]
      exact h.distinct
  . refine ⟨fun _ => hready.trans hputs.ready, ?_, hfresh⟩
    rw [hputs.records]
    exact nodup_putKeyed Record.id new h.distinct

theorem record?_of_mem (h : w.IsSound source) (hr : r ∈ w.store.records) :
    w.store.record? r.id = some r :=
  find?_of_mem Record.id h.distinct hr

def Keeps (w : World) (r : Record) : Prop :=
  ∃ q, w.store.record? r.id = some q ∧ r.SharesOrigin q ∧ (r.isDeleted = true → q = r)

theorem keeps_change {may : String → Work → Prop} (hchange : Change source may w w')
    (h : w.IsSound source) (hr : w.Keeps r) : w'.Keeps r := by
  obtain ⟨q, hq, horigin, hdeleted⟩ := hr
  rcases (puts_of_change hchange).2 with hsame | ⟨new, hputs⟩
  . refine ⟨q, ?_, horigin, hdeleted⟩
    rw [Store.record?, hsame]
    exact hq
  . by_cases hid : r.id = new.id
    . rcases hputs.place with ⟨hnew, -⟩ | ⟨old, hold, halive⟩
      . -- the identifier of a stored record is not handed out again
        have hnone := (h.fresh w.identifiers (Nat.le_refl _)).1
        rw [← hnew, ← hid, hq] at hnone
        contradiction
      . rw [← hid, hq, Option.some.injEq] at hold
        subst hold
        obtain ⟨edit, hkept⟩ := hputs.kept
        have heditid := Store.kept_id hkept
        rw [Store.kept, ← heditid, ← hid, hq] at hkept
        refine ⟨new, ?_, horigin.overwrite hkept, ?_⟩
        . rw [hputs.record?, if_pos hid]
        . intro hdead
          rw [hdeleted hdead, hdead] at halive
          contradiction
    . refine ⟨q, ?_, horigin, hdeleted⟩
      rw [hputs.record?, if_neg hid]
      exact hq

/--
A deleted record is not found by any operation on it, whichever table it is sought in. No search of storage
lists it, and every activity that does not ask for it goes as if it were not stored, and leaves the same behind.
-/
structure IsGone (source : Source) (w : World) (r : Record) : Prop where
  get : ∀ tableId, ((Records.get tableId r.id).run source w).1 = .error (.notFound "Record")
  softDelete : ∀ tableId,
    ((Records.softDelete tableId r.id).run source w).1 = .error (.notFound "Record")
  update : ∀ tableId payload actor,
    ((Records.update tableId r.id payload actor).run source w).1 =
      .error (.notFound (if (w.store.table? tableId).isSome then "Record" else "Table"))
  unlisted : ∀ s rs, w.store.select s = .ok rs → ∀ q ∈ rs, q.id ≠ r.id
  overlooked : ∀ {α : Type} (a : Activity α), a.asksFor r.id = false →
    a.program.Overlooks source r.id w

theorem hasBuried_of_isDeleted (h : w.IsSound source) (hr : w.store.record? r.id = some r)
    (hdeleted : r.isDeleted = true) : w.HasBuried source r.id where
  buried q hq hid := by
    have hq' := record?_of_mem h hq
    rw [hid, hr, Option.some.injEq] at hq'
    rw [← hq']
    exact hdeleted
  passed n hn heq := by
    have hnone := (h.fresh n hn).1
    rw [heq, hr] at hnone
    contradiction

theorem run_requireRecord_of_isDeleted (h : w.IsSound source) (hr : w.store.record? r.id = some r)
    (hdeleted : r.isDeleted = true) (tableId : String) :
    (requireRecord tableId r.id).run source w = (.error (.notFound "Record"), w) := by
  have hready := h.ready (List.ne_nil_of_mem (Store.record?_mem hr))
  have hask : (ask (.record r.id)).run source w = (.ok (some r), w) := run_record_ok.mpr ⟨hready, hr, rfl⟩
  rw [requireRecord, run_bind, hask]
  dsimp only
  rw [if_pos hdeleted]
  rfl

theorem isGone_of_isDeleted (h : w.IsSound source) (hr : w.store.record? r.id = some r)
    (hdeleted : r.isDeleted = true) : w.IsGone source r where
  get tableId := by
    rw [Records.get, run_requireRecord_of_isDeleted h hr hdeleted]
  softDelete tableId := by
    rw [Records.softDelete, run_locked, run_bind, run_requireRecord_of_isDeleted h hr hdeleted]
  update tableId payload actor := by
    have hready := h.ready (List.ne_nil_of_mem (Store.record?_mem hr))
    have hask : (ask (.table tableId)).run source w = (.ok (w.store.table? tableId), w) :=
      run_table_ok.mpr ⟨hready, rfl, rfl⟩
    rw [Records.update, run_locked, run_bind, requireTable, run_bind, hask]
    cases w.store.table? tableId with
    | none => rfl
    | some table =>
      dsimp only
      rw [run_pure]
      dsimp only
      rw [run_bind, run_requireRecord_of_isDeleted h hr hdeleted]
      rfl
  unlisted s rs hrs q hq hid := by
    obtain ⟨hmem, -, halive⟩ := Store.mem_live.mp (Store.mem_live_of_select_ok hrs hq)
    have hdead := (hasBuried_of_isDeleted h hr hdeleted).buried q hmem hid
    rw [halive] at hdead
    contradiction
  overlooked a ha := a.overlooks_program (hasBuried_of_isDeleted h hr hdeleted) ha

/--
A stored record stays stored along all activities, under its identifier and with its origin. Once it is deleted
it stays as it is, and it is gone for all of them.
-/
theorem record_along (h : w.IsSound source) (past later : List ((α : Type) × Activity α))
    (hr : r ∈ (w.along source past).store.records) :
    let v := w.along source (past ++ later)
    ∃ q, v.store.record? r.id = some q ∧ r.SharesOrigin q ∧
      (r.isDeleted = true → q = r ∧ v.IsGone source r) := by
  intro v
  have hsound : (w.along source past).IsSound source :=
    along_keeps (fun _ _ _ => isSound_change) h past
  have hstart : (w.along source past).Keeps r :=
    ⟨r, record?_of_mem hsound hr, ⟨rfl, rfl, rfl, rfl⟩, fun _ => rfl⟩
  obtain ⟨hsound', q, hq, horigin, hsame⟩ : v.IsSound source ∧ v.Keeps r := by
    have hkeep := along_keeps (P := fun w => w.IsSound source ∧ w.Keeps r)
      (fun _ _ _ hle hchange hw => ⟨isSound_change hle hchange hw.1, keeps_change hchange hw.1 hw.2⟩)
      ⟨hsound, hstart⟩ later
    rw [← along_append] at hkeep
    exact hkeep
  refine ⟨q, hq, horigin, fun hdeleted => ⟨hsame hdeleted, ?_⟩⟩
  rw [hsame hdeleted] at hq
  exact isGone_of_isDeleted hsound' hq hdeleted

theorem record_along_of_deletion :
    let create : Operation := .createTable
      { tenantId := .text "x", name := .text "users", displayName := .text "Users" } true
    let name : Request FieldSpec :=
      .ready { name := "name", displayName := "Name", type := .text, unique := some true }
    let insert : Work := .insert (.map [("name", .text "Ada")]) .null
    let does (job : Work) : (α : Type) × Activity α := ⟨Answer, .operation (.work "i" job)⟩
    let past := [⟨Answer, .operation create⟩, does (.addField name), does insert, does (.softDelete "iii")]
    let later := [does insert, does (.softDelete "iii"), ⟨Record, .getRecord "i" "iiii"⟩]
    let w : World := { store := { isReady := true } }
    let v := w.along .sample (past ++ later)
    w.IsSound .sample ∧ (v.store.live "i").map (·.data) = [[("name", .text "Ada")]] ∧
      ∃ r ∈ (w.along .sample past).store.records, r.isDeleted = true ∧
        v.store.record? r.id = some r ∧ v.IsGone .sample r := by
  intro create name insert does past later w v
  have hsound : w.IsSound .sample := by
    refine ⟨fun h => absurd rfl h, List.nodup_nil, ?_⟩
    intro n _
    exact ⟨rfl, fun m _ h => Source.sample_injective h⟩
  have hdeleted : ((w.along .sample past).store.record? "iii").map (·.isDeleted) = some true := by
    decide +kernel
  obtain ⟨r, hr, hdead⟩ := Option.map_eq_some_iff.mp hdeleted
  obtain ⟨q, hq, -, hgone⟩ := record_along hsound past later (Store.record?_mem hr)
  obtain ⟨rfl, hgone⟩ := hgone hdead
  exact ⟨hsound, by decide +kernel, q, Store.record?_mem hr, hdead, hq, hgone⟩

end World
end TenantTables
