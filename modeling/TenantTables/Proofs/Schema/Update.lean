import TenantTables.Operation.Tables
import TenantTables.Proofs.Schema.Exchange

namespace TenantTables

open Document Document.Reader

namespace Document

structure Sets (es : Entries) (key : String) (r : Reader α) (old new : α) : Prop where
  set : ∀ v, es.get? key = some v → r v = .value new
  kept : es.get? key = none → new = old

end Document

/--
The field `new` is the field `old` with the attributes replaced that a request sets. Constraints are replaced as a
whole.
-/
structure Field.Updates (es : Entries) (old new : Field) : Prop where
  id : new.id = old.id
  name : new.name = old.name
  displayName : Sets es "display_name" text old.displayName new.displayName
  type : Sets es "type" fieldType old.type new.type
  required : Sets es "required" boolean old.required new.required
  unique : Sets es "unique" (nullable boolean) old.unique new.unique
  defaultValue : Sets es "default_value" any old.defaultValue new.defaultValue
  validation : Sets es "validation" (nullable constraints) old.validation new.validation
  formula : Sets es "formula" (nullable text) old.formula new.formula

/--
Why a field with a request merged onto it would be no field: an attribute that is never null is set to null, the
display name is set to a blank one, or the result is computed and has no formula.
-/
inductive Field.Refuses (f : Field) (es : Entries) : Prop where
  | null (hkey : key ∈ ["display_name", "type", "required"]) (h : es.get? key = some .null)
  | blank (h : es.get? "display_name" = some (.text s)) (hs : Text.isBlank s = true)
  | formula (h : Field.Updates es f new) (htype : new.type = .computed)
    (hformula : ∀ s, new.formula = some s → Text.isBlank s = true)

namespace Document

variable {es fs : Entries} {key : String} {r : Reader α} {old new : α}

theorem sets_iff_of_none (h : es.get? key = none) : Sets es key r old new ↔ new = old := by
  refine ⟨fun hsets => hsets.kept h, fun hnew => ⟨fun v hv => ?_, fun _ => hnew⟩⟩
  rw [h] at hv
  cases hv

theorem sets_iff_of_some {v : Value} (h : es.get? key = some v) : Sets es key r old new ↔ r v = .value new := by
  refine ⟨fun hsets => hsets.set v h, fun hv => ⟨fun v' hv' => ?_, fun hnone => ?_⟩⟩
  . rw [h, Option.some.injEq] at hv'
    rwa [← hv']
  . rw [h] at hnone
    cases hnone

theorem optional_iff_sets : optional es key old r = .value new ↔ Sets es key r old new := by
  rw [optional_eq_value]
  cases h : es.get? key with
  | none => simp [sets_iff_of_none h, eq_comm]
  | some v => simp [sets_iff_of_some h]

theorem Sets.eq {new' : α} (h : Sets es key r old new) (h' : Sets es key r old new') : new = new' := by
  cases hget : es.get? key with
  | none => rw [h.kept hget, h'.kept hget]
  | some v => exact Reading.value.inj ((h.set v hget).symm.trans (h'.set v hget))

end Document

namespace FieldUpdate

theorem get?_toEntries (u : FieldUpdate) :
    u.toEntries.get? "display_name" = u.displayName.map (.ofOption .text) ∧
    u.toEntries.get? "type" = u.type.map (.ofOption fun t => .text t.name) ∧
    u.toEntries.get? "required" = u.required.map (.ofOption .bool) ∧
    u.toEntries.get? "unique" = u.unique.map (.ofOption .bool) ∧
    u.toEntries.get? "default_value" = u.defaultValue ∧
    u.toEntries.get? "validation" = u.validation.map (.ofOption (·.toDocument)) ∧
    u.toEntries.get? "formula" = u.formula.map (.ofOption .text) := by
  simp only [toEntries, Entries.get?_append, Entries.get?_toList]
  simp

end FieldUpdate

namespace Document.Reader

end Document.Reader

namespace Field

variable {es : Entries} {u : FieldUpdate} {f new : Field}

theorem Updates.eq {new' : Field} (h : Updates es f new) (h' : Updates es f new') : new = new' := by
  cases new
  cases new'
  rw [mk.injEq]
  exact ⟨h.id.trans h'.id.symm, h.name.trans h'.name.symm, h.displayName.eq h'.displayName, h.type.eq h'.type,
    h.required.eq h'.required, h.unique.eq h'.unique, h.defaultValue.eq h'.defaultValue,
    h.validation.eq h'.validation, h.formula.eq h'.formula⟩

end Field

theorem Document.Reader.displayName_eq_value {v : Value} {s : String} :
    displayName v = .value s ↔ text v = .value s ∧ Text.isBlank s = false := by
  rw [displayName, textWith, Reading.andThen_eq_value]
  simp only [Reading.require_eq_value]
  constructor
  . rintro ⟨_, ht, hrule⟩
    obtain ⟨hblank, rfl⟩ := Ruling.nonBlank_ok hrule
    exact ⟨ht, hblank⟩
  . rintro ⟨ht, hblank⟩
    exact ⟨s, ht, nonBlank_of_not_isBlank hblank⟩

theorem Document.sets_displayName_iff {es : Entries} {key old new : String} : Sets es key displayName old new ↔
    Sets es key text old new ∧ (es.get? key = none ∨ Text.isBlank new = false) := by
  cases h : es.get? key with
  | none => simp [sets_iff_of_none h]
  | some v => simp [sets_iff_of_some h, displayName_eq_value]

namespace Tables

variable {es : Entries} {u : FieldUpdate} {request : Request FieldUpdate} {f new : Field}

theorem merge_eq_value_iff : merge f u = .value new ↔ Field.Updates u.toEntries f new ∧
    (u.toEntries.get? "display_name" = none ∨ Text.isBlank new.displayName = false) ∧
    formulaRule new.type new.formula = .ok () := by
  constructor
  . intro h
    simp only [merge, Reading.andThen_eq_value, Reading.seq_eq_value, Reading.map_eq_value] at h
    obtain ⟨field, ⟨_, formula, ⟨_, validation, ⟨_, defaultValue, ⟨_, unique, ⟨_, required, ⟨_, type,
      ⟨displayName, hdisplay, rfl⟩, htype, rfl⟩, hrequired, rfl⟩, hunique, rfl⟩, hdefault, rfl⟩, hvalidation, rfl⟩,
      hformula, rfl⟩, h⟩ := h
    obtain ⟨_, hrule, rfl⟩ := Reading.map_eq_value.mp h
    simp only [optional_iff_sets] at hdisplay htype hrequired hunique hdefault hvalidation hformula
    obtain ⟨hdisplay, hblank⟩ := sets_displayName_iff.mp hdisplay
    exact ⟨⟨rfl, rfl, hdisplay, htype, hrequired, hunique, hdefault, hvalidation, hformula⟩, hblank,
      Reading.require_eq_value.mp hrule⟩
  . rintro ⟨h, hblank, hrule⟩
    have hdisplay := optional_iff_sets.mpr (sets_displayName_iff.mpr ⟨h.displayName, hblank⟩)
    unfold merge
    dsimp only
    rw [hdisplay, optional_iff_sets.mpr h.type, optional_iff_sets.mpr h.required, optional_iff_sets.mpr h.unique,
      optional_iff_sets.mpr h.defaultValue, optional_iff_sets.mpr h.validation, optional_iff_sets.mpr h.formula,
      ← h.id, ← h.name]
    refine Reading.andThen_eq_value.mpr ⟨new, rfl, ?_⟩
    rw [hrule]
    rfl

end Tables

end TenantTables
