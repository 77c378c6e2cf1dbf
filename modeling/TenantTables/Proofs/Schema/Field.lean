import TenantTables.Proofs.Document.Reading
import TenantTables.Schema.Field

namespace TenantTables

open Document

theorem FieldType.lookup_name (t : FieldType) : names.lookup t.name = some t := by
  cases t <;> rfl

namespace Document.Reader

theorem fieldParts_eq_value {nameReader : Reader String} {es : Entries} {others : List String}
    {spec : FieldSpec} (h : fieldParts nameReader es others = .value spec) :
    required es "name" nameReader = .value spec.name ∧
      required es "display_name" displayName = .value spec.displayName ∧
      required es "type" fieldType = .value spec.type ∧
      optional es "required" false boolean = .value spec.required ∧
      optional es "unique" none (nullable boolean) = .value spec.unique ∧
      optional es "default_value" .null any = .value spec.defaultValue ∧
      optional es "validation" none (nullable constraints) = .value spec.validation ∧
      optional es "formula" none (nullable text) = .value spec.formula := by
  simp only [fieldParts, Reading.seq_eq_value, Reading.map_eq_value] at h
  obtain ⟨_, _, ⟨_, formula, ⟨_, validation, ⟨_, defaultValue, ⟨_, unique, ⟨_, required, ⟨_, type,
    ⟨_, displayName, ⟨name, hname, rfl⟩, hdisplay, rfl⟩, htype, rfl⟩, hrequired, rfl⟩, hunique, rfl⟩,
    hdefault, rfl⟩, hvalidation, rfl⟩, hformula, rfl⟩, -, rfl⟩ := h
  exact ⟨hname, hdisplay, htype, hrequired, hunique, hdefault, hvalidation, hformula⟩

theorem formulaRule_eq_ok {type : FieldType} {formula : Option String} :
    formulaRule (some type) formula = .ok () ↔
      (type = .computed → ∃ s, formula = some s ∧ Text.isBlank s = false) := by
  unfold formulaRule
  split
  . next h =>
    obtain ⟨htype, hblank⟩ := h
    cases formula <;> simp_all
  . next h =>
    cases formula <;> simp_all

theorem fieldSpec_eq_value {v : Value} {spec : FieldSpec} (h : fieldSpec v = .value spec) :
    formulaRule spec.type spec.formula = .ok () ∧
      ∃ es, v = .map es ∧ Entries.get? es "name" = some (.text spec.name) := by
  obtain ⟨spec', hparts, h⟩ := Reading.andThen_eq_value.mp h
  obtain ⟨_, hrule, rfl⟩ := Reading.map_eq_value.mp h
  refine ⟨Reading.require_eq_value.mp hrule, ?_⟩
  cases v with
  | map es =>
    obtain ⟨hname, -⟩ := fieldParts_eq_value hparts
    obtain ⟨x, hx, hname⟩ := required_eq_value.mp hname
    refine ⟨es, rfl, ?_⟩
    rw [hx]
    cases x <;> simp_all [text, Reading.mismatch]
  | _ => simp [document, Reading.mismatch] at hparts

theorem pattern_text {s s' : String} (h : pattern (.text s) = .value s') : s' = s := by
  unfold pattern at h
  obtain ⟨t, ht, h⟩ := Reading.andThen_eq_value.mp h
  obtain rfl := Reading.value.inj ht
  unfold ruled at h
  cases hread : Pattern.read s with
  | ok p => simpa [hread, eq_comm] using h
  | error fault =>
    simp only [hread] at h
    split at h <;> simp_all [Reading.mismatch]

theorem fieldType_text {t t' : FieldType} (h : fieldType (.text t.name) = .value t') : t' = t := by
  simp only [fieldType, choice, FieldType.lookup_name] at h
  exact (Reading.value.inj h).symm

theorem constraints_toDocument {c c' : Constraints} (h : constraints c.toDocument = .value c') :
    c' = c := by
  obtain ⟨u, hu, rfl⟩ := Reading.map_eq_value.mp h
  simp only [Constraints.toDocument, constraintsUpdate, document, Reading.seq_eq_value,
    Reading.map_eq_value] at hu
  obtain ⟨_, _, ⟨_, pattern, ⟨_, max, ⟨min, hmin, rfl⟩, hmax, rfl⟩, hpattern, rfl⟩, -, rfl⟩ := hu
  have hreal {o o' : Option Binary64} (h : nullable number (.ofOption .real o) = .value o') :
      o' = o := by
    apply nullable_ofOption (fun _ => rfl) _ h
    intro x x' hx
    exact (Reading.value.inj hx).symm
  obtain ⟨low, hlow, rfl⟩ := given_of_get? (v := .ofOption .real c.min) rfl hmin
  obtain ⟨high, hhigh, rfl⟩ := given_of_get? (v := .ofOption .real c.max) rfl hmax
  obtain ⟨text, htext, rfl⟩ := given_of_get? (v := .ofOption .text c.pattern) rfl hpattern
  rw [hreal hlow, hreal hhigh, nullable_ofOption (fun _ => rfl) (fun _ _ => pattern_text) htext]
  rfl

end Document.Reader

end TenantTables
