import TenantTables.Proofs.Operation.Fresh
import TenantTables.Proofs.Value.Alike

/-!
This module contains what work leaves as it was: the table, but for one edit that counts its version up,
the fields and records that it does not name, and the freshness of identifiers.
-/

namespace TenantTables

open Program

namespace Work

variable {source : Source} {w w' : World} {tableId : String}

def revises : Work → Bool
  | .updateTable displayName description => !(displayName.isNull && description.isNull)
  | .insert .. | .update .. | .softDelete .. => false
  | _ => true

def touches (source : Source) (w : World) (fieldId : String) : Work → Bool
  | .addField _ => source.identifiers w.identifiers == fieldId
  | .updateField id _ => id == fieldId
  | .deleteField id => id == fieldId
  | _ => false

def rewrites (recordId : String) : Work → Bool
  | .update id _ _ => id == recordId
  | .softDelete id => id == recordId
  | _ => false

theorem table?_of_run (source : Source) (job : Work) {t : Table} (ht : w.store.table? tableId = some t) :
    (∃ answer edit u kept, job.revises = true ∧
      ((job.program tableId).run source w).1 = .ok answer ∧ answer = .table u ∧
      Edits source w t job edit ∧ u.fields = edit.fields ∧ u.version = t.version + 1 ∧
      t.overwrite u = .ok kept ∧
      ((job.program tableId).run source w).2.store.table? tableId = some kept) ∨
    ((job.revises = true → ∃ e, ((job.program tableId).run source w).1 = .error e) ∧
      ((job.program tableId).run source w).2.store.table? tableId = some t) := by
  rcases hrun : (job.program tableId).run source w with ⟨e | answer, w'⟩
  . right
    refine ⟨fun _ => ⟨e, rfl⟩, ?_⟩
    rw [store_of_error hrun]
    exact ht
  . have hdone := done_of_run hrun
    cases hdone with
    | unchanged hname hdescription _ _ hsame =>
      right
      refine ⟨?_, hsame ▸ ht⟩
      simp [revises, hname, hdescription]
    | edited hedit hedited _ =>
      next old edit u _ =>
      left
      have hold := hedited.found
      rw [ht] at hold
      obtain rfl := Option.some.inj hold
      obtain ⟨kept, hkept, hid, hstore⟩ := hedited.store
      obtain ⟨_, _, hshape⟩ := hedited.shape
      refine ⟨_, edit, u, kept, ?_, rfl, rfl, hedit, by rw [hshape], by rw [hshape], hkept, ?_⟩
      . cases hedit with
        | @updateTable displayName description hsome =>
          cases hname : displayName.isNull <;> cases hdescription : description.isNull <;>
            simp_all [revises]
        | _ => rfl
      . rw [hstore, Store.table?_putTable, if_pos hid.symm]
    | inserted _ hinserted =>
      right
      obtain ⟨-, new, -, hstore⟩ := hinserted.store
      refine ⟨by simp [revises], ?_⟩
      rw [hstore]
      exact ht
    | updated _ hupdated =>
      right
      obtain ⟨-, new, -, hstore⟩ := hupdated.store
      refine ⟨by simp [revises], ?_⟩
      rw [hstore]
      exact ht
    | deleted hdeleted =>
      right
      obtain ⟨-, new, -, hstore⟩ := hdeleted.store
      refine ⟨by simp [revises], ?_⟩
      rw [hstore]
      exact ht

theorem exists_table?_of_revises {job : Work} {answer : Answer} (hrevises : job.revises = true)
    (h : ((job.program tableId).run source w).1 = .ok answer) :
    ∃ t, w.store.table? tableId = some t := by
  have hrun : (job.program tableId).run source w = (.ok answer, _) := Prod.ext h rfl
  have hdone := done_of_run hrun
  cases hdone with
  | unchanged _ _ _ ht _ => exact ⟨_, ht⟩
  | edited _ hedited => exact ⟨_, hedited.found⟩
  | inserted ht _ => exact ⟨_, ht⟩
  | updated ht _ => exact ⟨_, ht⟩
  | deleted _ => simp [revises] at hrevises

theorem fieldById?_of_edits {job : Work} {old edit : Table} {fieldId : String}
    (h : Edits source w old job edit) (htouches : job.touches source w fieldId = false) :
    edit.fieldById? fieldId = old.fieldById? fieldId := by
  cases h with
  | updateTable => rfl
  | addField =>
    unfold Table.fieldById?
    rw [List.find?_append]
    simp only [touches, beq_eq_false_iff_ne] at htouches
    simp [FieldSpec.toField, htouches]
  | @updateField id request existing merged u hexisting _ hmerged =>
    have hid : merged.id = id := by
      obtain ⟨hnew, -⟩ := Tables.merge_eq_value_iff.mp hmerged
      rw [hnew.id]
      simpa using List.find?_some hexisting
    have hne : (id == fieldId) = false := htouches
    unfold Table.fieldById?
    dsimp only
    induction old.fields with
    | nil => rfl
    | cons f fields ih =>
      rw [List.map_cons, List.find?_cons, List.find?_cons, ih]
      by_cases hf : f.id = id
      . simp [hf, hid, hne]
      . simp [hf]
  | @deleteField id _ =>
    have hne : (id == fieldId) = false := htouches
    unfold Table.fieldById?
    dsimp only
    induction old.fields with
    | nil => rfl
    | cons f fields ih =>
      rw [List.filter_cons, List.find?_cons]
      by_cases hf : f.id = id
      . simp [hf, hne, ih]
      . simp only [bne_iff_ne, ne_eq, hf, not_false_eq_true, ↓reduceIte, List.find?_cons, ih]
  | createRelation => rfl

theorem fieldById?_map_exchange (fields : List Field) (fieldId : String) :
    ((fields.map Field.exchange).find? (·.id == fieldId)).map Field.exchange =
      (fields.find? (·.id == fieldId)).map Field.exchange := by
  induction fields with
  | nil => rfl
  | cons f fields ih =>
    have hid : f.exchange.id = f.id := rfl
    rw [List.map_cons, List.find?_cons, List.find?_cons, hid]
    by_cases hf : f.id = fieldId
    . simp [hf]
    . rw [beq_false_of_ne hf]
      exact ih

theorem fieldById?_of_run (source : Source) (job : Work) {t : Table} (ht : w.store.table? tableId = some t) :
    ∃ u, ((job.program tableId).run source w).2.store.table? tableId = some u ∧
      ∀ fieldId, job.touches source w fieldId = false →
        (u.fieldById? fieldId).map Field.exchange = (t.fieldById? fieldId).map Field.exchange := by
  rcases table?_of_run source job ht with
    ⟨answer, edit, u, kept, -, -, -, hedit, hfields, -, hkept, hstore⟩ | ⟨-, hstore⟩
  . refine ⟨kept, hstore, ?_⟩
    intro fieldId htouches
    obtain ⟨_, -, rfl⟩ := Table.overwrite_ok hkept
    unfold Table.fieldById?
    dsimp only
    split
    . rfl
    . rw [fieldById?_map_exchange, hfields]
      exact congrArg (Option.map Field.exchange) (fieldById?_of_edits hedit htouches)
  . exact ⟨t, hstore, fun _ _ => rfl⟩

theorem mem_live_of_run (job : Work) (hfresh : w.IsFresh source) {q : Record}
    (hrewrites : job.rewrites q.id = false) {id : String} (hq : q ∈ w.store.live id) :
    q ∈ ((job.program tableId).run source w).2.store.live id := by
  rcases hrun : (job.program tableId).run source w with ⟨e | answer, w'⟩
  . rw [store_of_error hrun]
    exact hq
  . have hkeep {new : Record} (hstore : w'.store = w.store.putRecord new) (hne : q.id ≠ new.id) :
        q ∈ w'.store.live id := by
      rw [hstore, Store.mem_live_putRecord]
      exact .inr ⟨hq, hne⟩
    have hdone := done_of_run hrun
    cases hdone with
    | unchanged _ _ _ _ hsame => exact hsame ▸ hq
    | edited _ hedited _ =>
      obtain ⟨new, -, -, hstore⟩ := hedited.store
      rw [hstore]
      exact hq
    | inserted _ hinserted =>
      obtain ⟨-, new, hkept, hstore⟩ := hinserted.store
      apply hkeep hstore
      rw [Store.kept_id hkept]
      intro heq
      have hnone := World.record?_of_inserted hfresh hinserted
      rw [← heq, Store.record?, List.find?_eq_none] at hnone
      exact hnone q (Store.mem_live.mp hq).1 (beq_self_eq_true q.id)
    | updated _ hupdated =>
      obtain ⟨-, new, hkept, hstore⟩ := hupdated.store
      apply hkeep hstore
      rw [Store.kept_id hkept, hupdated.id]
      exact (ne_of_beq_false hrewrites).symm
    | deleted hdeleted =>
      obtain ⟨-, new, hkept, hstore⟩ := hdeleted.store
      apply hkeep hstore
      rw [Store.kept_id hkept, hdeleted.id]
      exact (ne_of_beq_false hrewrites).symm

theorem isFresh_of_run (job : Work) (h : w.IsFresh source) :
    ((job.program tableId).run source w).2.IsFresh source := by
  have hchanges : (job.program tableId).Changes source fun _ _ => True := changes_work trivial
  exact hchanges (World.IsFresh source) (fun _ _ => World.isFresh_change) w h

theorem mem_live_of_insert {payload actor : Value} {r : Record} (hfresh : w.IsFresh source)
    (h : ((insert payload actor).program tableId).run source w = (.ok (.record r), w')) :
    ∃ q ∈ w'.store.live tableId, q.id = source.identifiers w.identifiers ∧ q.data = r.data := by
  have hdone := done_of_run h
  cases hdone with
  | inserted htable hinserted =>
    obtain ⟨-, new, hkept, hstore⟩ := hinserted.store
    obtain ⟨_, _, hshape⟩ := hinserted.shape
    have hnone := World.record?_of_inserted hfresh hinserted
    obtain ⟨hnewtable, hnewdata, hnewdeleted⟩ := Store.kept_of_none hnone hkept
    refine ⟨new, ?_, (Store.kept_id hkept).trans hinserted.id, hnewdata⟩
    rw [hstore, Store.mem_live_putRecord]
    left
    refine ⟨rfl, ?_, ?_⟩
    . rw [hnewtable, hinserted.tableId, Store.table?_id htable]
    . rw [hnewdeleted, hshape]
      rfl

theorem equals_eq_false_of_insert {payload actor : Value} {r : Record} {t : Table}
    (h : ((insert payload actor).program tableId).run source w = (.ok (.record r), w'))
    (ht : w.store.table? tableId = some t) {f : Field} (hf : f ∈ t.fields)
    (hunique : f.unique = some true) (hnull : (r.data.get f.name).isNull = false) {q : Record}
    (hq : q ∈ w.store.live tableId) (hqnull : (q.data.get f.name).isNull = false) :
    (q.data.get f.name).equals (r.data.get f.name) = false := by
  have hdone := done_of_run h
  cases hdone with
  | inserted htable hinserted =>
    rw [ht] at htable
    obtain rfl := Option.some.inj htable
    rw [← Store.table?_id ht] at hq
    exact Records.equals_eq_false_of_admits hinserted.admits hf hunique hnull hq (by simp) hqnull

end Work
end TenantTables
