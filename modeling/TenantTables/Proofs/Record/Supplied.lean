import Mathlib.Data.List.Perm.Basic
import TenantTables.Proofs.Record.Overlay

namespace TenantTables

namespace Entries

structure Reorders (es es' : Entries) : Prop where
  perm : es.Perm es'
  agree : es.Agree es'

variable {es es' top top' : Entries} {k : String}

theorem reorders_refl (es : Entries) : es.Reorders es :=
  ⟨List.Perm.refl es, fun _ => rfl⟩

theorem Reorders.contains (h : es.Reorders es') (k : String) : es.contains k = es'.contains k :=
  contains_congr (h.agree k)

theorem Reorders.put (h : es.Reorders es') (k : String) (v : Value) : (es.put k v).Reorders (es'.put k v) := by
  refine ⟨?_, h.agree.put k v⟩
  unfold Entries.put
  rw [h.contains k]
  split
  . exact h.perm.map _
  . exact h.perm.append_right _

theorem reorders_of_agree (hes : es.keys.Nodup) (hes' : es'.keys.Nodup) (h : es.Agree es') : es.Reorders es' := by
  refine ⟨?_, h⟩
  rw [List.perm_ext_iff_of_nodup hes.of_map hes'.of_map]
  rintro ⟨k, v⟩
  constructor
  . intro hmem
    exact mem_of_get? ((h k).symm.trans (get?_of_mem hes hmem))
  . intro hmem
    exact mem_of_get? ((h k).trans (get?_of_mem hes' hmem))

theorem contains_put (es : Entries) (k : String) (v : Value) (l : String) :
    (es.put k v).contains l = (es.contains l || l == k) := by
  rw [Bool.eq_iff_iff, contains_iff_mem_keys, mem_keys_put, Bool.or_eq_true, contains_iff_mem_keys, beq_iff_eq]

theorem overlay_eq (htop : top.keys.Nodup) : es.overlay top =
    es.map (fun e => (e.1, (top.get? e.1).getD e.2)) ++ top.filter fun e => !es.contains e.1 := by
  induction top generalizing es with
  | nil =>
    show es = es.map id ++ []
    rw [List.map_id, List.append_nil]
  | cons e top ih =>
    obtain ⟨k, v⟩ := e
    obtain ⟨hk, htop⟩ := List.nodup_cons.mp htop
    have hnone : get? top k = none := (get?_eq_none_iff top k).mpr hk
    have hkeys : ∀ e ∈ top, (es.put k v).contains e.1 = es.contains e.1 := by
      intro e he
      have hne : e.1 ≠ k := by
        rintro rfl
        exact hk (List.mem_map_of_mem (f := (·.1)) he)
      rw [contains_put, beq_false_of_ne hne, Bool.or_false]
    show (es.put k v).overlay top = _
    rw [ih htop, List.filter_congr fun e he => by rw [hkeys e he]]
    by_cases hcontains : es.contains k = true
    . rw [List.filter_cons_of_neg (by simp [hcontains]), Entries.put, if_pos hcontains, List.map_map]
      congr 1
      apply List.map_congr_left
      intro e _
      by_cases he : e.1 = k
      . simp [he, hnone, get?_cons]
      . simp [he, Ne.symm he, get?_cons]
    . have hbase : ∀ e ∈ es, e.1 ≠ k := by
        rintro e he rfl
        exact hcontains ((contains_iff_mem_keys es e.1).mpr (List.mem_map_of_mem he))
      rw [List.filter_cons_of_pos (by simpa using hcontains), Entries.put, if_neg hcontains, List.map_append,
        List.append_assoc]
      congr 1
      . apply List.map_congr_left
        intro e he
        rw [get?_cons, if_neg (hbase e he).symm]
      . simp [hnone]

theorem Reorders.overlay (htop : top.keys.Nodup) (htop' : top'.keys.Nodup) (h : top.Reorders top')
    (es : Entries) : (es.overlay top).Reorders (es.overlay top') := by
  constructor
  . rw [overlay_eq htop, overlay_eq htop']
    simp only [h.agree _]
    exact (h.perm.filter _).append_left _
  . intro k
    rw [get?_overlay htop, get?_overlay htop', h.agree k]

end Entries

section Inputs

variable {fields : List Field} {es es' old p q : Entries} {k : String}

theorem reorders_inputs_put (h : (inputs fields es).Reorders (inputs fields es')) (k : String) (v : Value) :
    (inputs fields (es.put k v)).Reorders (inputs fields (es'.put k v)) := by
  rcases ne_or_exists_isComputed fields k with hk | ⟨f, hf, hcomputed, rfl⟩
  . rw [inputs_put_of_ne hk, inputs_put_of_ne hk]
    exact h.put k v
  . rw [inputs_put hf hcomputed, inputs_put hf hcomputed]
    exact h

theorem inputs_overlay (fields : List Field) (es top : Entries) :
    inputs fields (es.overlay top) = (inputs fields es).overlay (inputs fields top) := by
  induction top generalizing es with
  | nil => rfl
  | cons e top ih =>
    obtain ⟨k, v⟩ := e
    show inputs fields ((es.put k v).overlay top) = _
    rw [ih]
    rcases ne_or_exists_isComputed fields k with hk | ⟨f, hf, hcomputed, rfl⟩
    . have hcons : inputs fields ((k, v) :: top) = (k, v) :: inputs fields top := by
        apply List.filter_cons_of_pos
        simpa using hk
      rw [hcons, inputs_put_of_ne hk]
      rfl
    . have hcons : inputs fields ((f.name, v) :: top) = inputs fields top := by
        apply List.filter_cons_of_neg
        simpa using ⟨f, hf, hcomputed, rfl⟩
      rw [hcons, inputs_put hf hcomputed]

theorem nodup_keys_inputs (h : es.keys.Nodup) : (inputs fields es).keys.Nodup :=
  h.sublist (List.filter_sublist.map _)

theorem reorders_inputs (hp : p.keys.Nodup) (hq : q.keys.Nodup)
    (h : ∀ k, (∀ f ∈ fields, f.isComputed = true → f.name ≠ k) → p.get? k = q.get? k) :
    (inputs fields p).Reorders (inputs fields q) :=
  Entries.reorders_of_agree (nodup_keys_inputs hp) (nodup_keys_inputs hq) (agree_inputs h)

theorem reorders_inputs_overlay (hp : p.keys.Nodup) (hq : q.keys.Nodup)
    (h : ∀ k, (∀ f ∈ fields, f.isComputed = true → f.name ≠ k) → p.get? k = q.get? k) (old : Entries) :
    (inputs fields (old.overlay p)).Reorders (inputs fields (old.overlay q)) := by
  rw [inputs_overlay, inputs_overlay]
  exact (reorders_inputs hp hq h).overlay (nodup_keys_inputs hp) (nodup_keys_inputs hq) _

end Inputs

def Entries.PassAlike (fields : List Field) (es es' : Entries) : Prop :=
  ∀ f ∈ fields, es.get f.name = es'.get f.name ∨
    (f.isComputed = true ∧
      (f.required = true → (es.get f.name).isBlank = false ∧ (es'.get f.name).isBlank = false))

section Fields

variable {fields : List Field} {es es' old p q : Entries} {f : Field}

theorem accept_of_isComputed (hcomputed : f.isComputed = true)
    (hblank : f.required = true → (es.get f.name).isBlank = false) : ∃ o, f.accept es = .ok o := by
  have htype : f.type = .computed := by simpa [Field.isComputed] using hcomputed
  have hasked : ¬ (f.required && (es.get f.name).isBlank) = true := by simpa using hblank
  unfold Field.accept
  dsimp only
  rw [if_neg hasked, Field.check, htype]
  split
  . exact ⟨none, rfl⟩
  . exact ⟨some (es.get f.name), rfl⟩

theorem same_validate (halike : es.PassAlike fields es')
    (hinputs : (inputs fields es).Reorders (inputs fields es')) :
    Outcome.Same (fun a b => (inputs fields a).Reorders (inputs fields b)) (validate fields es)
      (validate fields es') := by
  refine Outcome.same_foldlM ?_ hinputs
  intro f hf accepted accepted' haccepted
  rcases halike f hf with hsame | ⟨hcomputed, hblank⟩
  . rw [f.accept_congr hsame]
    apply Outcome.same_bind
    intro o
    cases o with
    | none => exact .ok haccepted
    | some v => exact .ok (reorders_inputs_put haccepted f.name v)
  . -- both values go through, and neither is among the inputs
    obtain ⟨o, ho⟩ := accept_of_isComputed hcomputed fun hrequired => (hblank hrequired).1
    obtain ⟨o', ho'⟩ := accept_of_isComputed hcomputed fun hrequired => (hblank hrequired).2
    have hput (es : Entries) (v : Value) : inputs fields (es.put f.name v) = inputs fields es :=
      inputs_put hf hcomputed es v
    rw [ho, ho', Outcome.ok_bind, Outcome.ok_bind]
    cases o <;> cases o' <;> exact .ok (by simpa only [hput] using haccepted)

theorem reorders_withDefaults (gs : List Field) (h : (inputs fields es).Reorders (inputs fields es')) :
    (inputs fields (Records.withDefaults gs es)).Reorders (inputs fields (Records.withDefaults gs es')) := by
  induction gs generalizing es es' with
  | nil => exact h
  | cons f gs ih =>
    apply ih
    dsimp only
    rcases ne_or_exists_isComputed fields f.name with hname | ⟨g, hg, hcomputed, hname⟩
    . have hcontains : es.contains f.name = es'.contains f.name := by
        apply Entries.contains_congr
        rw [← get?_inputs hname, h.agree f.name, get?_inputs hname]
      rw [hcontains]
      split
      . exact reorders_inputs_put h f.name f.defaultValue
      . exact h
    . have hput (es : Entries) (v : Value) : inputs fields (es.put f.name v) = inputs fields es :=
        hname ▸ inputs_put hg hcomputed es v
      split <;> split <;> simpa only [hput] using h

theorem same_computeFields_of_reorders (h : (inputs fields es).Reorders (inputs fields es')) :
    Outcome.Same Entries.Reorders (computeFields fields es) (computeFields fields es') :=
  same_computeFields (fun _ _ h => h.agree.seenAlike _) (fun _ _ k v h => h.put k v) h

namespace Records

theorem same_newData (halike : p.PassAlike fields q) (hinputs : (inputs fields p).Reorders (inputs fields q)) :
    Outcome.Same Entries.Reorders (newData fields p) (newData fields q) :=
  (same_validate halike hinputs).bind fun _ _ h =>
    same_computeFields_of_reorders (reorders_withDefaults fields h)

theorem same_mergedData (halike : (old.overlay p).PassAlike fields (old.overlay q))
    (hinputs : (inputs fields (old.overlay p)).Reorders (inputs fields (old.overlay q))) :
    Outcome.Same Entries.Reorders (mergedData fields old p) (mergedData fields old q) :=
  (same_validate halike hinputs).bind fun _ _ h => same_computeFields_of_reorders h

end Records

end Fields
end TenantTables
