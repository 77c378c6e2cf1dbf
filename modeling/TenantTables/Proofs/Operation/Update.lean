import TenantTables.Proofs.Operation.Conform
import TenantTables.Proofs.Operation.Schema
import TenantTables.Proofs.Operation.Settle
import TenantTables.Proofs.Storage.Live

namespace TenantTables

inductive Field.Replaces (target new : Field) : List Field → List Field → Prop where
  | intro (before after : List Field) (hothers : ∀ f ∈ before ++ after, f.id ≠ target.id) :
    Replaces target new (before ++ target :: after) (before ++ new :: after)

theorem Value.agrees_of_itemsAgree_append {as bs cs : List Value} {a b : Value}
    (h : itemsAgree (as ++ a :: bs) (as ++ b :: cs) = true) : agrees a b = true := by
  induction as with
  | nil => exact (Bool.and_eq_true_iff.mp h).1
  | cons _ as ih => exact ih (Bool.and_eq_true_iff.mp h).2

theorem Field.Replaces.overwrite {target new : Field} {old t : Table} (hold : old.IsExchanged)
    (h : Replaces target new old.fields t.fields) :
    ∃ kept, Replaces target kept old.fields
        (if t.fieldsDocument.agrees old.fieldsDocument then old.fields else t.fields.map Field.exchange) ∧
      (kept = new.exchange ∨
        kept = target ∧ new.exchange.toDocument.agrees target.exchange.toDocument = true) := by
  rw [Table.fieldsDocument, Table.fieldsDocument]
  unfold Table.IsExchanged at hold
  generalize old.fields = fs at h hold ⊢
  generalize t.fields = gs at h ⊢
  obtain ⟨before, after, hothers⟩ := h
  split
  . next hagrees =>
    refine ⟨target, .intro before after hothers, .inr ⟨rfl, ?_⟩⟩
    rw [Value.agrees, List.map_append, List.map_append] at hagrees
    exact Value.agrees_of_itemsAgree_append hagrees
  . refine ⟨new.exchange, ?_, .inl rfl⟩
    have hsame (hs : List Field) (h : hs ⊆ before ++ target :: after) : hs.map Field.exchange = hs :=
      (List.map_congr_left fun f hf => hold f (h hf)).trans (List.map_id hs)
    rw [List.map_append, List.map_cons, hsame before (by simp), hsame after (by simp)]
    exact .intro before after hothers

open Document Document.Reader Program

namespace Tables

variable {source : Source} {w w' : World} {tableId fieldId : String} {request : Request FieldUpdate} {es : Entries}

/--
The stored table `old` became `t` by an update of its field `target` to `new` that sets the given attributes. The
field is stored as `kept`, which is `target` still where storage does not tell the two apart.
-/
structure Updated (source : Source) (w w' : World) (tableId fieldId : String) (es : Entries) (old t : Table)
    (target new kept : Field) : Prop where
  found : w.store.table? tableId = some old
  id : target.id = fieldId
  updates : Field.Updates es target new
  fields : Field.Replaces target new old.fields t.fields
  table : t = { old with
    fields := t.fields, version := old.version + 1, updatedAt := source.clock w.readings }
  stored : ∃ u, w'.store.table? tableId = some u ∧ Field.Replaces target kept old.fields u.fields ∧
    u = { t with fields := u.fields, updatedAt := u.updatedAt } ∧ t.updatedAt.stored = .ok u.updatedAt
  stands : kept = new.exchange ∨
    kept = target ∧ new.exchange.toDocument.agrees target.exchange.toDocument = true
  others : ∀ id, id ≠ tableId → w'.store.table? id = w.store.table? id
  records : w'.store.records = w.store.records

end Tables

namespace World

end World
end TenantTables
