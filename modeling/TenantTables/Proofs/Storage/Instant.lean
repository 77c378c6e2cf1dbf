import Mathlib.Data.List.Perm.Basic
import TenantTables.Proofs.Calendar.Date
import TenantTables.Proofs.Query.Order
import TenantTables.Proofs.Storage.Live
import TenantTables.Proofs.Storage.Runs

namespace TenantTables

def Moment.HasUtc (m : Moment) : Prop :=
  ∃ u : Moment, u.offset = some 0 ∧ u.instant = m.instant

namespace Moment

variable {m u : Moment} {o o' : Option Moment}

theorem stored_eq_ok : m.stored = .ok u ↔ u.offset = some 0 ∧ u.instant = m.instant := by
  rw [← toUtc?_eq_some, stored]
  cases m.toUtc? <;> simp

theorem exists_stored_iff : (∃ u, m.stored = .ok u) ↔ m.HasUtc :=
  exists_congr fun _ => stored_eq_ok

theorem exists_mapM_stored_iff : (∃ o', o.mapM stored = .ok o') ↔ ∀ m, o = some m → m.HasUtc := by
  constructor
  . rintro ⟨o', h⟩ m rfl
    rcases Outcome.option_mapM_eq_ok h with ⟨hnone, -⟩ | ⟨m', u, hm, -, hu⟩
    . contradiction
    . obtain rfl := Option.some.inj hm
      exact exists_stored_iff.mp ⟨u, hu⟩
  . intro h
    cases o with
    | none => exact ⟨none, rfl⟩
    | some m =>
      obtain ⟨u, hu⟩ := exists_stored_iff.mpr (h m rfl)
      refine ⟨some u, ?_⟩
      show (stored m >>= fun u => pure (some u)) = .ok (some u)
      rw [hu]
      rfl

end Moment

namespace Record

structure IsSavable (r : Record) : Prop where
  data : (Value.map r.data).isPlain = true
  created : r.createdAt.HasUtc
  updated : r.updatedAt.HasUtc
  deleted : ∀ m, r.deletedAt = some m → m.HasUtc

structure KeepsInstants (r q : Record) : Prop where
  same : q = { r with createdAt := q.createdAt, updatedAt := q.updatedAt, deletedAt := q.deletedAt }
  created : q.createdAt.instant = r.createdAt.instant
  updated : q.updatedAt.instant = r.updatedAt.instant
  deleted : q.deletedAt.map Moment.instant = r.deletedAt.map Moment.instant

variable {r q : Record} {rs qs : List Record} {column : TimestampColumn} {descending : Bool}

namespace KeepsInstants

theorem refl (r : Record) : r.KeepsInstants r := ⟨rfl, rfl, rfl, rfl⟩

theorem id (h : r.KeepsInstants q) : q.id = r.id := by
  rw [h.same]

theorem isLiveIn (h : r.KeepsInstants q) (tableId : String) : q.isLiveIn tableId = r.isLiveIn tableId := by
  have hdeleted : q.isDeleted = r.isDeleted := by
    have hsome := congrArg Option.isSome h.deleted
    rwa [Option.isSome_map, Option.isSome_map] at hsome
  rw [Record.isLiveIn, Record.isLiveIn, hdeleted, h.same]

end KeepsInstants

theorem exists_stored_iff : (∃ q, r.stored = .ok q) ↔ r.IsSavable := by
  constructor
  . rintro ⟨q, h⟩
    obtain ⟨hdata, created, updated, deleted, hcreated, hupdated, hdeleted, -⟩ := stored_ok h
    exact ⟨hdata, Moment.exists_stored_iff.mp ⟨_, hcreated⟩, Moment.exists_stored_iff.mp ⟨_, hupdated⟩,
      Moment.exists_mapM_stored_iff.mp ⟨_, hdeleted⟩⟩
  . rintro ⟨hdata, hcreated, hupdated, hdeleted⟩
    obtain ⟨created, hcreated⟩ := Moment.exists_stored_iff.mpr hcreated
    obtain ⟨updated, hupdated⟩ := Moment.exists_stored_iff.mpr hupdated
    obtain ⟨deleted, hdeleted⟩ := Moment.exists_mapM_stored_iff.mpr hdeleted
    rw [stored, storedData, if_pos hdata, hcreated, hupdated, hdeleted]
    exact ⟨_, rfl⟩

end Record

namespace Store

variable {s s' : Store} {r : Record} {rs : List Record}

def extend (s : Store) (rs : List Record) : Store :=
  { s with records := s.records ++ rs }

@[simp]
theorem extend_nil (s : Store) : s.extend [] = s := by
  rw [extend, List.append_nil]

@[simp]
theorem extend_extend (s : Store) (rs qs : List Record) : (s.extend rs).extend qs = s.extend (rs ++ qs) := by
  rw [extend, extend, extend, List.append_assoc]

end Store

namespace World

open Program

variable {source : Source} {w w' : World} {r : Record} {rs : List Record}

end World
end TenantTables
