import Mathlib.Data.List.Nodup
import TenantTables.Proofs.Record.Keyed
import TenantTables.Proofs.Value.Alike

namespace TenantTables

namespace Entries

variable {es top : Entries} {k : String} {v : Value}

theorem mem_overlay {e : String × Value} (h : e ∈ es.overlay top) : e ∈ es ∨ e ∈ top := by
  induction top generalizing es with
  | nil => exact .inl h
  | cons f top ih =>
    rcases ih h with h | h
    . rcases mem_put h with h | rfl
      . exact .inl h
      . exact .inr List.mem_cons_self
    . exact .inr (List.mem_cons_of_mem _ h)

theorem get_eq_null_or_mem (es : Entries) (k : String) : es.get k = .null ∨ (k, es.get k) ∈ es := by
  unfold get
  cases h : es.get? k with
  | none => exact .inl rfl
  | some v => exact .inr (mem_of_get? h)

theorem get_of_get? {es' : Entries} (h : es.get? k = es'.get? k) : es.get k = es'.get k := by
  rw [get, get, h]

theorem get?_filter {p : String × Value → Bool} (h : ∀ v, p (k, v) = true) :
    get? (es.filter p) k = es.get? k := by
  induction es with
  | nil => rfl
  | cons e es ih =>
    obtain ⟨l, w⟩ := e
    rw [List.filter_cons, get?_cons]
    by_cases hk : l = k
    . subst hk
      rw [if_pos (h w), get?_cons, if_pos rfl, if_pos rfl]
    . rw [if_neg hk, ← ih]
      split
      . rw [get?_cons, if_neg hk]
      . rfl

theorem get?_eraseP_of_ne (es : Entries) {l : String} (h : l ≠ k) :
    get? (es.eraseP (·.1 == l)) k = es.get? k := by
  induction es with
  | nil => rfl
  | cons e es ih =>
    rw [List.eraseP_cons]
    by_cases hl : e.1 = l
    . simp [hl, get?_cons, h]
    . rw [beq_false_of_ne hl, cond_false, get?_cons, get?_cons, ih]

end Entries

def Entries.AreTimely (es : Entries) : Prop :=
  ∀ e ∈ es, e.2.IsTimely

namespace Entries

variable {es top : Entries}

theorem isTimely_get (h : es.AreTimely) (k : String) : (es.get k).IsTimely := by
  rcases es.get_eq_null_or_mem k with hnull | hmem
  . rw [hnull]
    simp [Value.IsTimely]
  . exact h _ hmem

theorem areTimely_overlay (h : es.AreTimely) (htop : top.AreTimely) : (es.overlay top).AreTimely := by
  intro e he
  rcases mem_overlay he with he | he
  . exact h e he
  . exact htop e he

theorem areTimely_of_isPlain (h : (Value.map es).isPlain = true) : es.AreTimely := by
  intro e he m o hclock
  have hplain := Value.isPlain_of_mem h he
  rw [hclock] at hplain
  simp [Value.isPlain] at hplain

end Entries

def inputs (fields : List Field) (data : Entries) : Entries :=
  data.filter fun e => !(fields.filter Field.isComputed).any (·.name == e.1)

def computeNext (known : List String) (values : Entries) (f : Field) : Outcome Entries := do
  return values.put f.name (← f.compute values known)

section Fields

variable {fields : List Field} {data data' : Entries} {f : Field}

theorem accept_ok {o : Option Value} (h : f.accept data = .ok o) :
    (o = none ∧ (data.get f.name).isNull = true) ∨
      ∃ u, o = some u ∧ f.check (data.get f.name) = .ok u := by
  unfold Field.accept at h
  dsimp only at h
  split at h
  . simp [reject] at h
  . split at h
    . next hnull => exact .inl ⟨(Except.ok.inj h).symm, hnull⟩
    . cases hcheck : f.check (data.get f.name) with
      | error e => simp [hcheck, Except.map] at h
      | ok u =>
        rw [hcheck] at h
        exact .inr ⟨u, (Except.ok.inj h).symm, rfl⟩

theorem get?_validate_of_ne {start : Entries} {k : String} (hk : ∀ f ∈ fields, f.name ≠ k)
    (h : fields.foldlM (fun accepted f => do
      match ← f.accept data with
      | some v => return accepted.put f.name v
      | none => return accepted) start = .ok data') : data'.get? k = start.get? k := by
  refine Outcome.foldlM_keeps (P := fun es : Entries => es.get? k = start.get? k) ?_ rfl h
  intro es f hf es' hes h
  obtain ⟨o, -, h⟩ := Outcome.bind_eq_ok.mp h
  cases o with
  | none => exact Except.ok.inj h ▸ hes
  | some v =>
    rw [← Except.ok.inj h, Entries.get?_put, if_neg (hk f hf).symm]
    exact hes

theorem get?_validate (hnames : (fields.map (·.name)).Nodup) (h : validate fields data = .ok data')
    (hf : f ∈ fields) : ∃ o, f.accept data = .ok o ∧ data'.get? f.name = o.or (data.get? f.name) := by
  obtain ⟨before, after, rfl⟩ := List.append_of_mem hf
  rw [List.map_append, List.map_cons, List.nodup_append] at hnames
  obtain ⟨-, hafter, hbefore⟩ := hnames
  have hbefore' : ∀ g ∈ before, g.name ≠ f.name := by
    intro g hg
    exact hbefore g.name (List.mem_map_of_mem hg) f.name List.mem_cons_self
  have hafter' : ∀ g ∈ after, g.name ≠ f.name := by
    intro g hg heq
    exact (List.nodup_cons.mp hafter).1 (heq ▸ List.mem_map_of_mem hg)
  rw [validate, List.foldlM_append] at h
  obtain ⟨first, hfirst, h⟩ := Outcome.bind_eq_ok.mp h
  rw [List.foldlM_cons] at h
  obtain ⟨second, hsecond, h⟩ := Outcome.bind_eq_ok.mp h
  obtain ⟨o, ho, hsecond⟩ := Outcome.bind_eq_ok.mp hsecond
  refine ⟨o, ho, ?_⟩
  rw [get?_validate_of_ne hafter' h]
  cases o with
  | none =>
    rw [← Except.ok.inj hsecond, get?_validate_of_ne hbefore' hfirst]
    rfl
  | some u =>
    rw [← Except.ok.inj hsecond, Entries.get?_put, if_pos rfl]
    rfl

theorem validate_ok (hnames : (fields.map (·.name)).Nodup) (h : validate fields data = .ok data')
    (hf : f ∈ fields) :
    ((data.get f.name).isNull = true ∧ data'.get? f.name = data.get? f.name) ∨
      ∃ u, f.check (data.get f.name) = .ok u ∧ data'.get? f.name = some u := by
  obtain ⟨o, ho, hget⟩ := get?_validate hnames h hf
  rcases accept_ok ho with ⟨rfl, hnull⟩ | ⟨u, rfl, hcheck⟩
  . exact .inl ⟨hnull, hget⟩
  . exact .inr ⟨u, hcheck, hget⟩

theorem Records.get?_withDefaults (hnames : (fields.map (·.name)).Nodup) (hf : f ∈ fields) :
    (withDefaults fields data).get? f.name = data.get? f.name ∨
      (withDefaults fields data).get? f.name = some f.defaultValue := by
  have hkeep (gs : List Field) (hsub : ∀ g ∈ gs, g ∈ fields) (es : Entries)
      (hes : es.get? f.name = data.get? f.name ∨ es.get? f.name = some f.defaultValue) :
      (withDefaults gs es).get? f.name = data.get? f.name ∨
        (withDefaults gs es).get? f.name = some f.defaultValue := by
    induction gs generalizing es with
    | nil => exact hes
    | cons g rest ih =>
      apply ih fun g hg => hsub g (List.mem_cons_of_mem _ hg)
      dsimp only
      split
      . rw [Entries.get?_put]
        split
        . next heq =>
          right
          rw [List.inj_on_of_nodup_map hnames hf (hsub g List.mem_cons_self) heq]
        . exact hes
      . exact hes
  exact hkeep fields (fun _ hg => hg) data (.inl rfl)

theorem computeFields_eq (fields : List Field) (data : Entries) :
    computeFields fields data =
      (fields.filter Field.isComputed).foldlM (computeNext (fields.map (·.name))) (inputs fields data) := rfl

theorem get?_inputs {k : String} (hk : ∀ f ∈ fields, f.isComputed = true → f.name ≠ k) :
    (inputs fields data).get? k = data.get? k := by
  apply Entries.get?_filter
  intro v
  simpa using hk

theorem ne_or_exists_isComputed (fields : List Field) (k : String) :
    (∀ f ∈ fields, f.isComputed = true → f.name ≠ k) ∨ ∃ f ∈ fields, f.isComputed = true ∧ f.name = k := by
  by_cases h : ∃ f ∈ fields, f.isComputed = true ∧ f.name = k
  . exact .inr h
  . left
    simpa using h

theorem get?_of_foldlM_computeNext {k : String} {known : List String} {start : Entries}
    (hk : ∀ f ∈ fields, f.isComputed = true → f.name ≠ k)
    (h : (fields.filter Field.isComputed).foldlM (computeNext known) start = .ok data') :
    data'.get? k = start.get? k := by
  refine Outcome.foldlM_keeps (P := fun es : Entries => es.get? k = start.get? k) ?_ rfl h
  intro es f hf es' hes h
  obtain ⟨hmem, hcomputed⟩ := List.mem_filter.mp hf
  obtain ⟨v, -, h⟩ := Outcome.bind_eq_ok.mp h
  rw [← Except.ok.inj h, Entries.get?_put, if_neg (hk f hmem hcomputed).symm]
  exact hes

theorem get?_computeFields_of_ne {k : String} (hk : ∀ g ∈ fields, g.isComputed = true → g.name ≠ k)
    (h : computeFields fields data = .ok data') : data'.get? k = data.get? k := by
  rw [computeFields_eq] at h
  rw [get?_of_foldlM_computeNext hk h, get?_inputs hk]

theorem get?_computeFields (hnames : (fields.map (·.name)).Nodup) (hf : f ∈ fields)
    (hcomputed : f.isComputed = false) (h : computeFields fields data = .ok data') :
    data'.get? f.name = data.get? f.name := by
  apply get?_computeFields_of_ne _ h
  intro g hg hgcomputed heq
  rw [List.inj_on_of_nodup_map hnames hg hf heq, hcomputed] at hgcomputed
  simp at hgcomputed

theorem admits_of_validate (hnames : (fields.map (·.name)).Nodup) (hdata : data.AreTimely)
    (h : validate fields data = .ok data') (hf : f ∈ fields) : f.Admits (data'.get f.name) := by
  rcases validate_ok hnames h hf with ⟨hnull, hsame⟩ | ⟨u, hcheck, hget⟩
  . left
    rw [Entries.get_of_get? hsame]
    exact hnull
  . have hu : data'.get f.name = u := by
      rw [Entries.get, hget]
      rfl
    rw [hu]
    exact Field.admits_of_check (Entries.isTimely_get hdata f.name) hcheck

theorem Field.isComputed_of_isChecked (h : f.isChecked = true) : f.isComputed = false := by
  unfold isChecked at h
  unfold isComputed
  cases htype : f.type <;> simp [htype] at h ⊢

theorem Records.admits_newData (hnames : (fields.map (·.name)).Nodup) (hdata : data.AreTimely)
    (h : newData fields data = .ok data') (hf : f ∈ fields) (hchecked : f.isChecked = true) :
    f.Admits (data'.get f.name) ∨ data'.get f.name = f.defaultValue := by
  obtain ⟨accepted, haccepted, h⟩ := Outcome.bind_eq_ok.mp h
  rw [Entries.get_of_get? (get?_computeFields hnames hf (Field.isComputed_of_isChecked hchecked) h)]
  rcases get?_withDefaults hnames hf with hsame | hdefault
  . left
    rw [Entries.get_of_get? hsame]
    exact admits_of_validate hnames hdata haccepted hf
  . right
    rw [Entries.get, hdefault]
    rfl

theorem Records.admits_mergedData (hnames : (fields.map (·.name)).Nodup) {old payload : Entries}
    (hold : old.AreTimely) (hpayload : payload.AreTimely)
    (h : mergedData fields old payload = .ok data') (hf : f ∈ fields) (hchecked : f.isChecked = true) :
    f.Admits (data'.get f.name) := by
  obtain ⟨accepted, haccepted, h⟩ := Outcome.bind_eq_ok.mp h
  rw [Entries.get_of_get? (get?_computeFields hnames hf (Field.isComputed_of_isChecked hchecked) h)]
  exact admits_of_validate hnames (Entries.areTimely_overlay hold hpayload) haccepted hf

end Fields

namespace Value

theorem alike_get_of_entriesAlike {as bs : Entries} (h : entriesAlike as bs = true) (k : String) :
    (as.get k).alike (bs.get k) = true := by
  induction as generalizing bs with
  | nil =>
    obtain rfl : bs = [] := by simpa [entriesAlike] using h
    exact alike_refl _
  | cons e as ih =>
    obtain ⟨l, a⟩ := e
    rw [entriesAlike, Bool.and_eq_true] at h
    obtain ⟨hhead, htail⟩ := h
    by_cases hk : l = k
    . subst hk
      cases hb : bs.get? l with
      | none => simp [hb] at hhead
      | some b => simpa [Entries.get, Entries.get?_cons, hb] using hhead
    . have herase := Entries.get?_eraseP_of_ne bs hk
      have hrest := ih htail
      rw [Entries.get, Entries.get, herase] at hrest
      rw [Entries.get, Entries.get, Entries.get?_cons, if_neg hk]
      exact hrest

theorem eq_or_real_of_alike {v u : Value} (h : v.alike u = true) (hlist : ∀ items, u ≠ .list items)
    (hmap : ∀ es, u ≠ .map es) :
    v = u ∨ ∃ y x, v = .real y ∧ u = .real x ∧ y.place? = x.place? := by
  cases u with
  | list items => exact absurd rfl (hlist items)
  | map es => exact absurd rfl (hmap es)
  | real x =>
    cases v with
    | real y => exact .inr ⟨y, x, rfl, rfl, by simpa [alike] using h⟩
    | _ => simp [alike] at h
  | _ =>
    left
    cases v <;> simp_all [alike]

end Value

namespace Field

variable {f : Field} {v u : Value}

theorem isNan_iff_place? (x : Binary64) : x.isNan = true ↔ x.place? = none := by
  cases x with
  | infinite negative => cases negative <;> simp [Binary64.isNan, Binary64.place?]
  | _ => simp [Binary64.isNan, Binary64.place?]

theorem admits_of_alike (hchecked : f.isChecked = true) (h : v.alike u = true) (hu : f.Admits u) :
    f.Admits v := by
  have hlist : ∀ items, u ≠ .list items := by
    rintro items rfl
    rcases hu with hnull | ⟨-, hnormal⟩
    . simp [Value.isNull] at hnull
    . cases htype : f.type <;> simp [isNormal, isChecked, htype] at hnormal hchecked
  have hmap : ∀ es, u ≠ .map es := by
    rintro es rfl
    rcases hu with hnull | ⟨-, hnormal⟩
    . simp [Value.isNull] at hnull
    . cases htype : f.type <;> simp [isNormal, isChecked, htype] at hnormal hchecked
  rcases Value.eq_or_real_of_alike h hlist hmap with rfl | ⟨y, x, rfl, rfl, hplace⟩
  . exact hu
  . rcases hu with hnull | ⟨hcheck, hnormal⟩
    . simp [Value.isNull] at hnull
    . have htype : f.type = .number := by
        cases htype : f.type <;> simp [isNormal, isChecked, htype] at hnormal hchecked ⊢
      have hnan : x.isNan = false := by simpa [isNormal, htype] using hnormal
      have hnan' : y.isNan = false := by
        rw [Bool.eq_false_iff, ne_eq, isNan_iff_place?, hplace, ← isNan_iff_place?, hnan]
        decide
      right
      constructor
      . rw [check, htype] at hcheck ⊢
        apply checkNumber_of_number? hcheck
        . simp [number?, hnan']
        . simp [Value.place?, hplace]
      . simp [isNormal, htype, hnan']

end Field
end TenantTables
