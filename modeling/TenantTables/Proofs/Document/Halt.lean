import Mathlib.Tactic.SplitIfs
import TenantTables.Proofs.Document.Reading
import TenantTables.Proofs.Pattern.Large
import TenantTables.Query.Request
import TenantTables.Schema.Field
import TenantTables.Schema.Relation

/-!
This module contains at which requests reading halts, rather than to tell what does not fit. A halt in one part
is a halt of the whole, whatever the other parts hold.
-/

namespace TenantTables

namespace Document

namespace Reading

def isHalted : Reading α → Bool
  | .halted _ => true
  | _ => false

theorem isHalted_map (f : α → β) (r : Reading α) : (f <$> r).isHalted = r.isHalted := by
  show (r.map f).isHalted = r.isHalted
  cases r <;> rfl

theorem isHalted_under (step : Step) (r : Reading α) : (r.under step).isHalted = r.isHalted := by
  cases r <;> rfl

end Reading

variable {es : Entries} {key : String} {r : Reader α}

theorem isHalted_required : (required es key r).isHalted = (es.get? key).any fun v => (r v).isHalted := by
  unfold required
  cases es.get? key with
  | none => rfl
  | some v => exact Reading.isHalted_under _ _

theorem isHalted_optional {default : α} :
    (optional es key default r).isHalted = (es.get? key).any fun v => (r v).isHalted := by
  unfold optional
  cases es.get? key with
  | none => rfl
  | some v => exact Reading.isHalted_under _ _

theorem isHalted_given : (given es key r).isHalted = (es.get? key).any fun v => (r v).isHalted := by
  unfold given
  cases es.get? key with
  | none => rfl
  | some v => exact (Reading.isHalted_under _ _).trans (Reading.isHalted_map _ _)

namespace Reader

def IsTotal (r : Reader α) : Prop :=
  ∀ v, (r v).isHalted = false

theorem isHalted_nullable (r : Reader α) (v : Value) :
    (nullable r v).isHalted = (!v.isNull && (r v).isHalted) := by
  cases v with
  | null => rfl
  | _ => exact Reading.isHalted_map _ _

theorem IsTotal.nullable (h : r.IsTotal) : (Reader.nullable r).IsTotal := by
  intro v
  rw [isHalted_nullable, h, Bool.and_false]

theorem IsTotal.required (h : r.IsTotal) : (required es key r).isHalted = false := by
  rw [isHalted_required]
  cases es.get? key with
  | none => rfl
  | some v => exact h v

theorem IsTotal.optional {default : α} (h : r.IsTotal) : (optional es key default r).isHalted = false := by
  rw [isHalted_optional]
  cases es.get? key with
  | none => rfl
  | some v => exact h v

theorem IsTotal.given (h : r.IsTotal) : (given es key r).isHalted = false := by
  rw [isHalted_given]
  cases es.get? key with
  | none => rfl
  | some v => exact h v

end Reader
end Document

open Document Document.Reader

namespace Value

end Value

namespace Document.Reader

section Requests

variable (es : Entries)

end Requests
end Document.Reader
end TenantTables
