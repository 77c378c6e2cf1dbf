import Mathlib.Data.List.Nodup
import TenantTables.Proofs.Operation.Frame

namespace TenantTables

namespace Table

def labels (t : Table) : List (String × String) :=
  t.fields.map fun f => (f.id, f.name)

structure IsWellFormed (t : Table) : Prop where
  ids : (t.fields.map (·.id)).Nodup
  names : (t.fields.map (·.name)).Nodup
  formulas : ∀ f ∈ t.fields, f.type = .computed → ∃ s, f.formula = some s ∧ Text.isBlank s = false

variable {t : Table}

theorem ids_eq_labels : t.fields.map (·.id) = t.labels.map (·.1) := by
  simp [labels, Function.comp_def]

theorem names_eq_labels : t.fields.map (·.name) = t.labels.map (·.2) := by
  simp [labels, Function.comp_def]

theorem mem_labels {label : String × String} :
    label ∈ t.labels ↔ ∃ f ∈ t.fields, f.id = label.1 ∧ f.name = label.2 := by
  simp [labels, Prod.ext_iff]

theorem eq_of_id_eq (h : t.IsWellFormed) {f g : Field} (hf : f ∈ t.fields) (hg : g ∈ t.fields)
    (hid : f.id = g.id) : f = g :=
  List.inj_on_of_nodup_map h.ids hf hg hid

end Table

theorem Field.formula_of_rule {f : Field}
    (h : Document.Reader.formulaRule f.type f.formula = .ok ()) (hcomputed : f.type = .computed) :
    ∃ s, f.formula = some s ∧ Text.isBlank s = false :=
  Document.Reader.formulaRule_eq_ok.mp h hcomputed

namespace Tables

theorem name_of_request {request : Request FieldSpec} {spec : FieldSpec} {name : String}
    (hname : requestedName request = .ok (.text name))
    (hspec : request.read Document.Reader.fieldSpec = .ok spec) : spec.name = name := by
  cases request with
  | ready spec' =>
    obtain rfl : spec' = spec := Except.ok.inj hspec
    simpa [requestedName] using hname
  | document v =>
    rw [Request.read, Document.Reading.toRequest_eq_ok] at hspec
    obtain ⟨-, es, rfl, hget⟩ := Document.Reader.fieldSpec_eq_value hspec
    simpa [requestedName, Entries.get, hget] using hname

theorem merge_eq_value {f merged : Field} {u : FieldUpdate} (h : merge f u = .value merged) :
    merged.id = f.id ∧ merged.name = f.name ∧
      Document.Reader.formulaRule merged.type merged.formula = .ok () := by
  obtain ⟨hnew, -, hrule⟩ := merge_eq_value_iff.mp h
  exact ⟨hnew.id, hnew.name, hrule⟩

end Tables

namespace Work

inductive Relabels (source : Source) (w : World) (labels : List (String × String)) :
    Work → List (String × String) → Prop where
  | kept {job : Work} : Relabels source w labels job labels
  | added {request : Request FieldSpec} {name : String} : name ∉ labels.map (·.2) →
    Relabels source w labels (.addField request) (labels ++ [(source.identifiers w.identifiers, name)])
  | removed {fieldId : String} :
    Relabels source w labels (.deleteField fieldId) (labels.filter (·.1 != fieldId))

variable {source : Source} {w w' : World} {tableId : String} {job : Work}

theorem labels_of_edits {old edit : Table} (h : Edits source w old job edit)
    (hold : old.IsWellFormed) : Relabels source w old.labels job edit.labels := by
  cases h with
  | updateTable => exact .kept
  | @addField request spec name hname hfree hspec _ =>
    have hlabels : ({ old with
        fields := old.fields ++ [spec.toField (source.identifiers w.identifiers)] } : Table).labels =
        old.labels ++ [(source.identifiers w.identifiers, name)] := by
      simp [Table.labels, FieldSpec.toField, Tables.name_of_request hname hspec]
    rw [hlabels]
    apply Relabels.added
    rw [← Table.names_eq_labels]
    simpa [Table.fieldByName?] using hfree
  | @updateField fieldId request existing merged u hexisting _ hmerged =>
    obtain ⟨hid, hname, -⟩ := Tables.merge_eq_value hmerged
    have hmem := List.mem_of_find?_eq_some hexisting
    have hexistingId : existing.id = fieldId := by simpa using List.find?_some hexisting
    have hlabels : ({ old with
        fields := old.fields.map fun f => if f.id == fieldId then merged else f } : Table).labels =
        old.labels := by
      rw [Table.labels, Table.labels, List.map_map]
      apply List.map_congr_left
      intro f hf
      by_cases hf' : f.id = fieldId
      . have hsame := Table.eq_of_id_eq hold hf hmem (hf'.trans hexistingId.symm)
        simp [hid, hname, hexistingId, hsame]
      . simp [hf']
    rw [hlabels]
    exact .kept
  | @deleteField fieldId _ =>
    have hlabels : ({ old with fields := old.fields.filter (·.id != fieldId) } : Table).labels =
        old.labels.filter (·.1 != fieldId) := by
      rw [Table.labels, Table.labels, List.filter_map]
      rfl
    rw [hlabels]
    exact .removed
  | createRelation => exact .kept

theorem formulas_of_edits {old edit : Table} (h : Edits source w old job edit)
    (hold : old.IsWellFormed) :
    ∀ f ∈ edit.fields, f.type = .computed → ∃ s, f.formula = some s ∧ Text.isBlank s = false := by
  cases h with
  | updateTable => exact hold.formulas
  | addField _ _ _ hrule =>
    intro f hf
    rcases List.mem_append.mp hf with hf | hf
    . exact hold.formulas f hf
    . rw [List.mem_singleton.mp hf]
      exact Field.formula_of_rule hrule
  | updateField _ _ hmerged =>
    intro f hf
    obtain ⟨g, hg, rfl⟩ := List.mem_map.mp hf
    split
    . exact Field.formula_of_rule (Tables.merge_eq_value hmerged).2.2
    . exact hold.formulas g hg
  | deleteField =>
    intro f hf
    exact hold.formulas f (List.mem_filter.mp hf).1
  | createRelation => exact hold.formulas

structure Revises (source : Source) (w w' : World) (job : Work) (old new : Table) : Prop where
  revises : job.revises = true
  store : w'.store = w.store.putTable new
  identifiers : w'.identifiers = w.identifiers + job.issued
  id : new.id = old.id
  tenantId : new.tenantId = old.tenantId
  name : new.name = old.name
  createdAt : new.createdAt = old.createdAt
  version : new.version = old.version + 1
  labels : old.IsWellFormed → Relabels source w old.labels job new.labels
  formulas : old.IsWellFormed →
    ∀ f ∈ new.fields, f.type = .computed → ∃ s, f.formula = some s ∧ Text.isBlank s = false

theorem tables_of_done {answer : Answer} (h : Done source w w' tableId job answer) :
    (job.revises = false ∧ w'.store.tables = w.store.tables ∧ w'.store.isReady = w.store.isReady) ∨
      ∃ old new, w.store.table? tableId = some old ∧ Revises source w w' job old new := by
  cases h with
  | unchanged hname hdescription _ _ hsame =>
    left
    simp [revises, hname, hdescription, hsame]
  | edited hedit hedited hnext =>
    next old edit t =>
    right
    obtain ⟨new, hnew, -, hstore⟩ := hedited.store
    obtain ⟨_, _, hshape⟩ := hedited.shape
    obtain ⟨_, -, hkept⟩ := Table.overwrite_ok hnew
    refine ⟨old, new, hedited.found, ?_⟩
    -- storage may keep the old fields, or it keeps those of the edit in their form of exchange
    have hfields : new.fields = old.fields ∨ new.fields = edit.fields.map Field.exchange := by
      rw [hkept, hshape]
      dsimp only
      split
      . exact .inl rfl
      . exact .inr rfl
    have hlabels : new.labels = old.labels ∨ new.labels = edit.labels := by
      rcases hfields with hfields | hfields
      . exact .inl (by rw [Table.labels, Table.labels, hfields])
      . right
        rw [Table.labels, Table.labels, hfields, List.map_map]
        rfl
    refine ⟨?_, hstore, hnext, by rw [hkept], by rw [hkept], by rw [hkept], by rw [hkept], ?_, ?_, ?_⟩
    . cases hedit with
      | @updateTable displayName description hsome =>
        cases hname : displayName.isNull <;> cases hdescription : description.isNull <;>
          simp_all [revises]
      | _ => rfl
    . rw [hkept, hshape]
    . intro hold
      rcases hlabels with hsame | hsame
      . exact hsame ▸ .kept
      . exact hsame ▸ labels_of_edits hedit hold
    . intro hold
      rcases hfields with hsame | hsame
      . exact hsame ▸ hold.formulas
      . rw [hsame]
        intro f hf
        obtain ⟨g, hg, rfl⟩ := List.mem_map.mp hf
        exact formulas_of_edits hedit hold g hg
  | inserted _ hinserted =>
    obtain ⟨-, new, -, hstore⟩ := hinserted.store
    left
    simp [revises, hstore]
  | updated _ hupdated =>
    obtain ⟨-, new, -, hstore⟩ := hupdated.store
    left
    simp [revises, hstore]
  | deleted hdeleted =>
    obtain ⟨-, new, -, hstore⟩ := hdeleted.store
    left
    simp [revises, hstore]

end Work
end TenantTables
