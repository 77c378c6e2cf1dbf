import TenantTables.Proofs.Operation.Fresh
import TenantTables.Proofs.Record.Data
import TenantTables.Proofs.Storage.Live

namespace TenantTables

open Program

section Data

variable {fields : List Field} {names : List String} {data : Entries} {raw normal : String → Value}

namespace Records

end Records
end Data

def Source.IsTimed (source : Source) : Prop :=
  ∀ n, (source.clock n).isAware = true ∧ (source.clock n).toUtc?.isSome = true

def Value.isActor : Value → Bool
  | .null => true
  | .text _ => true
  | _ => false

namespace Records

variable {source : Source} {w w' : World} {table : Table} {data : Entries} {actor : Value}

theorem newRecord_of_aware (id tableId : String) (data : Entries) {now : Moment} (haware : now.isAware = true)
    (hactor : actor.isActor = true) :
    ∃ author, (newRecord id tableId data actor now).toOutcome = .ok
      { id, tableId, data, createdBy := author, updatedBy := author, createdAt := now, updatedAt := now } := by
  have htime (key : String) : Document.required [(key, .moment now)] key (Document.Reader.moment key) =
      .value now := by
    rw [Document.required_eq_value]
    exact ⟨.moment now, by simp [Entries.get?], Document.Reader.moment_eq_value.mpr ⟨haware, rfl⟩⟩
  have hauthor : ∃ author, ∀ key, Document.required [(key, actor)] key
      (Document.Reader.nullable Document.Reader.text) = .value author := by
    unfold Value.isActor at hactor
    split at hactor
    . refine ⟨none, fun key => ?_⟩
      exact Document.required_eq_value.mpr ⟨.null, by simp [Entries.get?], rfl⟩
    . next s =>
      refine ⟨some s, fun key => ?_⟩
      exact Document.required_eq_value.mpr ⟨.text s, by simp [Entries.get?], rfl⟩
    . contradiction
  obtain ⟨author, hauthor⟩ := hauthor
  refine ⟨author, ?_⟩
  unfold newRecord
  dsimp only
  rw [hauthor, hauthor, htime, htime]
  rfl

end Records

namespace Records

variable {source : Source} {w w' : World} {table : Table} {es data : Entries} {actor : Value}

theorem live_of_inserted (hfresh : w.IsFresh source) {payload : Value} {r : Record}
    (h : Inserted source w w' table payload r) (tableId : String) :
    ∃ new, new.data = r.data ∧
      w'.store.live tableId = w.store.live tableId ++ if table.id = tableId then [new] else [] := by
  obtain ⟨-, new, hkept, hstore⟩ := h.store
  obtain ⟨_, _, hshape⟩ := h.shape
  have hnone := World.record?_of_inserted hfresh h
  obtain ⟨htable, hdata, hdeleted⟩ := Store.kept_of_none hnone hkept
  have hlive : new.isLiveIn tableId = (table.id == tableId) := by
    rw [Record.isLiveIn, htable, hdeleted, h.tableId, hshape]
    exact Bool.and_true _
  rw [← Store.kept_id hkept] at hnone
  refine ⟨new, hdata, ?_⟩
  rw [hstore, Store.live_putRecord_of_none hnone]
  by_cases hid : table.id = tableId <;> simp [hlive, hid]

end Records

end TenantTables
