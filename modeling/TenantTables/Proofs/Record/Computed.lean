import Mathlib.Data.List.Forall2
import TenantTables.Proofs.Formula.Evaluation
import TenantTables.Proofs.Record.Keys

/-!
This module contains what the computed fields of a record depend on. They see the values of the other fields
and of the computed fields before them, and a formula that has no value leaves its field null and the rest
alone.
-/

namespace TenantTables

namespace Outcome

inductive Same (R : α → β → Prop) : Outcome α → Outcome β → Prop where
  | ok {a : α} {b : β} : R a b → Same R (.ok a) (.ok b)
  | error (e : Failure) : Same R (.error e) (.error e)

section Same

variable {R : α → β → Prop} {r : Outcome α} {s : Outcome β}

theorem Same.exists_ok {a : α} (h : Same R r s) (hr : r = .ok a) : ∃ b, s = .ok b ∧ R a b := by
  cases h with
  | @ok a' b hab => exact ⟨b, rfl, Except.ok.inj hr ▸ hab⟩
  | error e => contradiction

theorem Same.bind {S : γ → δ → Prop} {f : α → Outcome γ} {g : β → Outcome δ} (h : Same R r s)
    (hnext : ∀ a b, R a b → Same S (f a) (g b)) : Same S (r >>= f) (s >>= g) := by
  cases h with
  | ok hab => exact hnext _ _ hab
  | error e => exact .error e

theorem same_bind {S : γ → δ → Prop} {f : α → Outcome γ} {g : α → Outcome δ} (hnext : ∀ a, Same S (f a) (g a)) :
    Same S (r >>= f) (r >>= g) := by
  cases r with
  | ok a => exact hnext a
  | error e => exact .error e

theorem same_foldlM {R : β → β → Prop} {f g : β → α → Outcome β} {as : List α} {b b' : β}
    (hstep : ∀ a ∈ as, ∀ b b', R b b' → Same R (f b a) (g b' a)) (hb : R b b') :
    Same R (as.foldlM f b) (as.foldlM g b') := by
  induction as generalizing b b' with
  | nil => exact .ok hb
  | cons a as ih =>
    rw [List.forall_mem_cons] at hstep
    rw [List.foldlM_cons, List.foldlM_cons]
    exact (hstep.1 b b' hb).bind fun c c' hc => ih hstep.2 hc

end Same

theorem exists_foldlM {P : β → Prop} {f : β → α → Outcome β} {as : List α} {b : β}
    (hstep : ∀ a ∈ as, ∀ b, P b → ∃ c, f b a = .ok c ∧ P c) (hb : P b) :
    ∃ c, as.foldlM f b = .ok c ∧ P c := by
  induction as generalizing b with
  | nil => exact ⟨b, rfl, hb⟩
  | cons a as ih =>
    rw [List.forall_mem_cons] at hstep
    obtain ⟨c, hc, hP⟩ := hstep.1 b hb
    rw [List.foldlM_cons, hc]
    exact ih hstep.2 hP

end Outcome

section Fields

variable {fields before after : List Field} {data data' p q r values values' : Entries} {known : List String}
  {f : Field}

theorem Field.compute_congr (h : values.SeenAlike known values') (f : Field) :
    f.compute values known = f.compute values' known := by
  have hevaluate : Formula.evaluate values known = Formula.evaluate values' known :=
    funext fun formula => Formula.evaluate_congr h formula
  unfold compute
  rw [hevaluate]

theorem same_computeFields {R : Entries → Entries → Prop}
    (hseen : ∀ es es', R es es' → es.SeenAlike (fields.map (·.name)) es')
    (hput : ∀ es es' k v, R es es' → R (es.put k v) (es'.put k v))
    (hinputs : R (inputs fields data) (inputs fields data')) :
    Outcome.Same R (computeFields fields data) (computeFields fields data') := by
  rw [computeFields_eq, computeFields_eq]
  refine Outcome.same_foldlM ?_ hinputs
  intro f _ es es' hes
  rw [computeNext, computeNext, f.compute_congr (hseen es es' hes)]
  exact Outcome.same_bind fun v => .ok (hput es es' f.name v hes)

theorem inputs_inputs (fields : List Field) (data : Entries) :
    inputs fields (inputs fields data) = inputs fields data := by
  simp only [inputs, List.filter_filter, Bool.and_self]

theorem inputs_put (hf : f ∈ fields) (hcomputed : f.isComputed = true) (data : Entries) (v : Value) :
    inputs fields (data.put f.name v) = inputs fields data := by
  have hdropped : ∀ e : String × Value, e.1 = f.name →
      (!(fields.filter Field.isComputed).any (·.name == e.1)) = false := by
    intro e he
    simpa [he] using ⟨f, hf, hcomputed, rfl⟩
  exact filter_putKeyed_of_not Prod.fst (hdropped (f.name, v) rfl) fun e _ he => hdropped e he

theorem inputs_put_of_ne {k : String} (hk : ∀ f ∈ fields, f.isComputed = true → f.name ≠ k) (data : Entries)
    (v : Value) : inputs fields (data.put k v) = (inputs fields data).put k v := by
  apply filter_putKeyed Prod.fst (k, v) data
  intro e he
  simpa [he] using hk

theorem inputs_computeFields (h : computeFields fields data = .ok r) : inputs fields r = inputs fields data := by
  rw [computeFields_eq] at h
  refine Outcome.foldlM_keeps (P := fun es => inputs fields es = inputs fields data) ?_ (inputs_inputs fields data) h
  intro es f hf es' hes h
  obtain ⟨hmem, hcomputed⟩ := List.mem_filter.mp hf
  obtain ⟨v, -, h⟩ := Outcome.bind_eq_ok.mp h
  rw [← Except.ok.inj h, inputs_put hmem hcomputed, hes]

end Fields

def Field.SameButFormula (f f' : Field) : Prop :=
  f' = { f with formula := f'.formula }

section Formulas

variable {fields before after after' : List Field} {data p q r s t values : Entries} {known : List String}
  {f : Field}

theorem names_of_sameButFormula (h : List.Forall₂ Field.SameButFormula after after') :
    after'.map (·.name) = after.map (·.name) ∧
      (after'.filter Field.isComputed).map (·.name) = (after.filter Field.isComputed).map (·.name) := by
  induction h with
  | nil => exact ⟨rfl, rfl⟩
  | @cons f f' after after' hf _ ih =>
    rw [hf, List.map_cons, List.map_cons, ih.1, List.filter_cons, List.filter_cons]
    refine ⟨rfl, ?_⟩
    show List.map _ (if f.isComputed = true then _ else _) = _
    split
    . rw [List.map_cons, List.map_cons, ih.2]
    . exact ih.2

theorem computeFields_append (h : List.Forall₂ Field.SameButFormula after after') (data : Entries) :
    computeFields (before ++ after') data =
      (before.filter Field.isComputed).foldlM (computeNext ((before ++ after).map (·.name)))
        (inputs (before ++ after) data) >>=
      (after'.filter Field.isComputed).foldlM (computeNext ((before ++ after).map (·.name))) := by
  obtain ⟨hnames, hcomputed⟩ := names_of_sameButFormula h
  have hinputs : inputs (before ++ after') data = inputs (before ++ after) data := by
    have hany (fields : List Field) (k : String) :
        fields.any (·.name == k) = (fields.map (·.name)).any (· == k) := by
      rw [List.any_map]
      rfl
    simp only [inputs, hany, List.filter_append, List.map_append, hcomputed]
  rw [computeFields_eq, hinputs, List.map_append, hnames, ← List.map_append, List.filter_append, List.foldlM_append]

theorem sameButFormula_refl (fields : List Field) : List.Forall₂ Field.SameButFormula fields fields :=
  List.forall₂_same.mpr fun _ _ => rfl

theorem exists_get?_computeFields (hf : f ∈ fields) (hcomputed : f.isComputed = true)
    (h : computeFields fields data = .ok r) : ∃ v, r.get? f.name = some v := by
  rw [← Option.isSome_iff_exists, Entries.isSome_get?, Entries.contains_iff_mem_keys]
  exact mem_keys_of_foldlM h (.inr ⟨f, List.mem_filter.mpr ⟨hf, hcomputed⟩, rfl⟩)

theorem Entries.SeenAlike.put (h : p.SeenAlike known q) (key : String) (v : Value) :
    (p.put key v).SeenAlike known (q.put key v) := by
  intro k
  rw [get, get, get?_put, get?_put]
  split
  . exact ⟨rfl, fun _ => rfl⟩
  . exact h k

def Entries.SameInputs (fields : List Field) (p q : Entries) : Prop :=
  ∀ k, (∀ f ∈ fields, f.isComputed = true → f.name ≠ k) →
    p.get? k = q.get? k ∨ ((∃ f ∈ fields, f.name = k) ∧ p.get k = .null ∧ q.get k = .null)

theorem get?_inputs_of_isComputed (hf : f ∈ fields) (hcomputed : f.isComputed = true) :
    (inputs fields data).get? f.name = none := by
  rw [Entries.get?_eq_none_iff]
  intro hk
  obtain ⟨e, he, heq⟩ := List.mem_map.mp hk
  have hne : ∀ g ∈ fields, g.isComputed = true → g.name ≠ e.1 := by simpa using (List.mem_filter.mp he).2
  exact hne f hf hcomputed heq.symm

theorem Entries.SameInputs.seenAlike (h : p.SameInputs fields q) :
    (inputs fields p).SeenAlike (fields.map (·.name)) (inputs fields q) := by
  intro k
  rcases ne_or_exists_isComputed fields k with hk | ⟨f, hf, hcomputed, rfl⟩
  . rw [get, get, get?_inputs hk, get?_inputs hk]
    rcases h k hk with hsame | ⟨⟨f, hf, rfl⟩, hp, hq⟩
    . rw [hsame]
      exact ⟨rfl, fun _ => rfl⟩
    . exact ⟨hp.trans hq.symm, fun hunknown => absurd (List.mem_map_of_mem hf) hunknown⟩
  . rw [get, get, get?_inputs_of_isComputed hf hcomputed, get?_inputs_of_isComputed hf hcomputed]
    exact ⟨rfl, fun _ => rfl⟩

/--
Computed fields are computed from the inputs, leave them as they are, and do not depend on the formulas of later
ones.
-/
theorem computeFields_of_inputs (hnames : (fields.map (·.name)).Nodup) (hinputs : p.SameInputs fields q)
    (h : computeFields fields p = .ok r) :
    (∃ s, computeFields fields q = .ok s ∧
      ∀ f ∈ fields, f.isComputed = true → ∃ v, r.get? f.name = some v ∧ s.get? f.name = some v) ∧
    inputs fields r = inputs fields p ∧
    ∀ before after after' t, fields = before ++ after → List.Forall₂ Field.SameButFormula after after' →
      computeFields (before ++ after') p = .ok t →
        ∀ f ∈ before, f.isComputed = true → t.get? f.name = r.get? f.name := by
  refine ⟨?_, inputs_computeFields h, ?_⟩
  . obtain ⟨s, hs, hrs⟩ := (same_computeFields (fun _ _ h => h) (fun _ _ k v h => h.put k v)
      hinputs.seenAlike).exists_ok h
    refine ⟨s, hs, ?_⟩
    intro f hf hcomputed
    obtain ⟨v, hv⟩ := exists_get?_computeFields hf hcomputed h
    obtain ⟨w, hw⟩ := exists_get?_computeFields hf hcomputed hs
    have hvalue := (hrs f.name).1
    rw [Entries.get, Entries.get, hv, hw] at hvalue
    exact ⟨v, hv, hw.trans (congrArg some hvalue.symm)⟩
  . rintro before after after' t rfl hafter ht f hf hcomputed
    rw [List.map_append, List.nodup_append] at hnames
    have hne : ∀ g ∈ after, g.name ≠ f.name := by
      intro g hg heq
      exact hnames.2.2 f.name (List.mem_map_of_mem hf) g.name (List.mem_map_of_mem hg) heq.symm
    have hne' : ∀ g ∈ after', g.name ≠ f.name := by
      intro g hg heq
      have hmem := List.mem_map_of_mem (f := (·.name)) hg
      rw [(names_of_sameButFormula hafter).1] at hmem
      obtain ⟨g', hg', hname⟩ := List.mem_map.mp hmem
      exact hne g' hg' (hname.trans heq)
    rw [computeFields_append (sameButFormula_refl after)] at h
    rw [computeFields_append hafter] at ht
    -- both computations reach the same values before the fields that differ
    obtain ⟨values, hvalues, h⟩ := Outcome.bind_eq_ok.mp h
    obtain ⟨values', hvalues', ht⟩ := Outcome.bind_eq_ok.mp ht
    obtain rfl := Except.ok.inj (hvalues'.symm.trans hvalues)
    rw [get?_of_foldlM_computeNext (fun g hg _ => hne g hg) h,
      get?_of_foldlM_computeNext (fun g hg _ => hne' g hg) ht]

theorem computeFields_of_inputs_of_null :
    let a : Field := { id := "i", name := "a", displayName := "A", type := .text }
    let c : Field := { id := "ii", name := "c", displayName := "C", type := .computed, formula := some "'<' + a + n" }
    let d : Field := { id := "iii", name := "d", displayName := "D", type := .computed, formula := some "c + c" }
    let p : Entries := [("a", .null), ("n", .int 1), ("c", .text "-")]
    let r : Entries := [("a", .null), ("n", .int 1), ("c", .text "<1"), ("d", .text "<1<1")]
    ([a, c, d].map (·.name)).Nodup ∧ p.SameInputs [a, c, d] [("n", .int 1)] ∧
    computeFields [a, c, d] p = .ok r ∧
    (∃ s, computeFields [a, c, d] [("n", .int 1)] = .ok s ∧ ∃ v, r.get? "d" = some v ∧ s.get? "d" = some v) ∧
    ∃ t, computeFields [a, c, { d with formula := some "n" }] p = .ok t ∧ t.get? "c" = r.get? "c" := by
  intro a c d p r
  have hnames : ([a, c, d].map (·.name)).Nodup := by decide
  have hinputs : p.SameInputs [a, c, d] [("n", .int 1)] := by
    intro k hk
    by_cases ha : k = "a"
    . exact .inr ⟨⟨a, by decide, ha.symm⟩, by rw [ha]; decide, by rw [ha]; decide⟩
    . left
      have hc : "c" ≠ k := hk c (by decide) rfl
      have ha' : "a" ≠ k := Ne.symm ha
      simp [p, Entries.get?_cons, hc, ha']
  have hr : computeFields [a, c, d] p = .ok r := by decide +kernel
  obtain ⟨⟨s, hs, hvalues⟩, -, hlater⟩ := computeFields_of_inputs hnames hinputs hr
  obtain ⟨t, ht⟩ : ∃ t, computeFields [a, c, { d with formula := some "n" }] p = .ok t :=
    ⟨[("a", .null), ("n", .int 1), ("c", .text "<1"), ("d", .int 1)], by decide +kernel⟩
  refine ⟨hnames, hinputs, hr, ⟨s, hs, hvalues d (by decide) rfl⟩, t, ht, ?_⟩
  exact hlater [a, c] [d] [{ d with formula := some "n" }] t rfl (.cons rfl .nil) ht c (by decide) rfl

end Formulas

namespace Field

/--
No integer has more digits than are read where it is in the formula of a field, or than are printed where it is
in a value that the formula names.
-/
structure IsSafe (values : Entries) (f : Field) : Prop where
  readable : ∀ formula, f.formula = some formula → Formula.IsReadable formula
  short : ∀ formula tree, f.formula = some formula → Formula.read formula = .ok tree →
    ∀ name, .field name ∈ tree.terms → (values.get name).isLong = false

def IsBroken (known : List String) (values : Entries) (f : Field) : Prop :=
  ∃ formula e, f.formula = some formula ∧ (Formula.read formula >>= Formula.evaluate values known) = .error e

variable {f : Field} {values values' : Entries} {known : List String}

theorem IsSafe.put (h : f.IsSafe values) {v : Value} (hv : v.isLong = false) (key : String) :
    f.IsSafe (values.put key v) := by
  refine ⟨h.readable, ?_⟩
  intro formula tree hformula hread name hname
  rw [Entries.get, Entries.get?_put]
  split
  . exact hv
  . exact h.short formula tree hformula hread name hname

theorem compute_of_ok {formula : String} {v : Value} (hformula : f.formula = some formula)
    (h : (Formula.read formula >>= Formula.evaluate values known) = .ok v) : f.compute values known = .ok v := by
  have hne : formula.isEmpty = false := by
    rw [Bool.eq_false_iff, ne_eq, String.isEmpty_iff]
    rintro rfl
    exact nomatch h
  simp only [compute, hformula, hne, h]
  rfl

theorem compute_of_error {formula : String} {e : Formula.Fault} (hformula : f.formula = some formula)
    (h : (Formula.read formula >>= Formula.evaluate values known) = .error e) (he : e.isLong = false) :
    f.compute values known = .ok .null := by
  simp only [compute, hformula, h]
  split
  . rfl
  . cases e <;> first | rfl | contradiction

theorem IsSafe.compute (h : f.IsSafe values) (known : List String) :
    ∃ v, f.compute values known = .ok v ∧ v.isLong = false ∧ (f.IsBroken known values → v = .null) := by
  cases hformula : f.formula with
  | none =>
    refine ⟨.null, by rw [Field.compute, hformula], rfl, ?_⟩
    rintro ⟨formula, e, hsome, -⟩
    simp [hformula] at hsome
  | some formula =>
    cases hread : Formula.read formula with
    | error e =>
      have herror : (Formula.read formula >>= Formula.evaluate values known) = .error e := by rw [hread]; rfl
      have hfault : e.isLong = false := (h.readable formula hformula).isLong_fault hread
      exact ⟨.null, compute_of_error hformula herror hfault, rfl, fun _ => rfl⟩
    | ok tree =>
      have hshort := Formula.isLong_denote_of_read hread (h.short formula tree hformula hread)
      have hvalue : (Formula.read formula >>= Formula.evaluate values known) = tree.evaluate values known := by
        rw [hread]
        rfl
      rw [Formula.evaluate_terms known hshort] at hvalue
      cases hfind : tree.terms.findSome? (·.unknown? values known) with
      | some name =>
        rw [hfind] at hvalue
        exact ⟨.null, compute_of_error hformula hvalue rfl, rfl, fun _ => rfl⟩
      | none =>
        rw [hfind] at hvalue
        refine ⟨Formula.concat values tree.terms, compute_of_ok hformula hvalue, Formula.isLong_concat hshort, ?_⟩
        rintro ⟨formula', e, hsome, herror⟩
        obtain rfl := Option.some.inj (hformula.symm.trans hsome)
        rw [hvalue] at herror
        contradiction

theorem IsBroken.congr (hsafe : f.IsSafe values) (hsafe' : f.IsSafe values')
    (hcontains : ∀ k, k ∉ known → values.contains k = values'.contains k) (h : f.IsBroken known values) :
    f.IsBroken known values' := by
  obtain ⟨formula, e, hformula, herror⟩ := h
  cases hread : Formula.read formula with
  | error e' => exact ⟨formula, e', hformula, by rw [hread]; rfl⟩
  | ok tree =>
    rw [hread] at herror
    replace herror : ∃ e, tree.evaluate values known = .error e := ⟨e, herror⟩
    rw [Formula.exists_evaluate_error_iff
      (Formula.isLong_denote_of_read hread (hsafe.short formula tree hformula hread))] at herror
    obtain ⟨t, ht, hunknown⟩ := herror
    rw [t.unknown?_congr hcontains] at hunknown
    obtain ⟨e', he'⟩ := (Formula.exists_evaluate_error_iff
      (Formula.isLong_denote_of_read hread (hsafe'.short formula tree hformula hread))).mpr ⟨t, ht, hunknown⟩
    exact ⟨formula, e', hformula, by rw [hread]; exact he'⟩

end Field

section Safe

variable {fields before after : List Field} {data start values r : Entries} {f : Field}

def IsUnderway (fields : List Field) (start values : Entries) : Prop :=
  (∀ f ∈ fields, f.isComputed = true → f.IsSafe values) ∧
    ∀ k, k ∉ fields.map (·.name) → start.contains k = values.contains k

theorem exists_computeNext (hf : f ∈ fields) (hcomputed : f.isComputed = true) (h : IsUnderway fields start values) :
    ∃ values', computeNext (fields.map (·.name)) values f = .ok values' ∧ IsUnderway fields start values' := by
  obtain ⟨v, hv, hshort, -⟩ := (h.1 f hf hcomputed).compute (fields.map (·.name))
  refine ⟨values.put f.name v, by rw [computeNext, hv]; rfl, ?_, ?_⟩
  . intro g hg hgcomputed
    exact (h.1 g hg hgcomputed).put hshort f.name
  . intro k hk
    have hne : k ≠ f.name := by
      rintro rfl
      exact hk (List.mem_map_of_mem hf)
    rw [h.2 k hk, ← Entries.isSome_get?, ← Entries.isSome_get?, Entries.get?_put, if_neg hne]

theorem exists_foldlM_computeNext {gs : List Field} (hgs : ∀ f ∈ gs, f ∈ fields)
    (h : IsUnderway fields start values) :
    ∃ values', (gs.filter Field.isComputed).foldlM (computeNext (fields.map (·.name))) values = .ok values' ∧
      IsUnderway fields start values' := by
  refine Outcome.exists_foldlM ?_ h
  intro f hf values hvalues
  obtain ⟨hmem, hcomputed⟩ := List.mem_filter.mp hf
  exact exists_computeNext (hgs f hmem) hcomputed hvalues

/--
The computation of the fields succeeds, and a computed field with a broken formula is like one without a formula:
it is null, and changes nothing else.
-/
theorem computeFields_of_isSafe
    (hsafe : ∀ f ∈ fields, f.isComputed = true → f.IsSafe (inputs fields data)) :
    ∃ r, computeFields fields data = .ok r ∧
      ∀ before f after, fields = before ++ f :: after → f.isComputed = true →
        f.IsBroken (fields.map (·.name)) (inputs fields data) →
          ((∀ g ∈ after, g.isComputed = true → g.name ≠ f.name) → r.get? f.name = some .null) ∧
          computeFields (before ++ { f with formula := none } :: after) data = .ok r := by
  have hstart : IsUnderway fields (inputs fields data) (inputs fields data) := ⟨hsafe, fun _ _ => rfl⟩
  obtain ⟨r, hr, -⟩ := exists_foldlM_computeNext (fun _ h => h) hstart
  refine ⟨r, hr, ?_⟩
  rintro before f after rfl hcomputed hbroken
  have hf : f ∈ before ++ f :: after := List.mem_append_right before List.mem_cons_self
  obtain ⟨values, hvalues, hunderway⟩ :=
    exists_foldlM_computeNext (fun _ h => List.mem_append_left (f :: after) h) hstart
  obtain ⟨v, hv, -, hnull⟩ := (hunderway.1 f hf hcomputed).compute ((before ++ f :: after).map (·.name))
  obtain rfl := hnull (hbroken.congr (hsafe f hf hcomputed) (hunderway.1 f hf hcomputed) hunderway.2)
  have hafter : List.Forall₂ Field.SameButFormula (f :: after) ({ f with formula := none } :: after) :=
    .cons rfl (sameButFormula_refl after)
  have hcomputed' : Field.isComputed { f with formula := none } = true := hcomputed
  -- the field and the one without a formula lead to the same values
  have hrest : (after.filter Field.isComputed).foldlM (computeNext ((before ++ f :: after).map (·.name)))
      (values.put f.name .null) = .ok r := by
    rw [← computeFields_eq, computeFields_append (sameButFormula_refl (f :: after)), hvalues, Outcome.ok_bind,
      List.filter_cons, if_pos hcomputed, List.foldlM_cons, computeNext, hv] at hr
    exact hr
  constructor
  . intro hlater
    rw [get?_of_foldlM_computeNext hlater hrest, Entries.get?_put, if_pos rfl]
  . rw [computeFields_append hafter, hvalues, Outcome.ok_bind, List.filter_cons, if_pos hcomputed', List.foldlM_cons]
    exact hrest

theorem computeFields_of_isSafe_of_missing :
    let n : Field := { id := "i", name := "n", displayName := "N", type := .number }
    let a : Field := { id := "ii", name := "a", displayName := "A", type := .computed, formula := some "n + missing" }
    let b : Field := { id := "iii", name := "b", displayName := "B", type := .computed, formula := some "n +" }
    let c : Field := { id := "iv", name := "c", displayName := "C", type := .computed, formula := some "a + n" }
    let data : Entries := [("n", .int 7), ("b", .int 1)]
    (∀ f ∈ [n, a, b, c], f.isComputed = true → f.IsSafe (inputs [n, a, b, c] data)) ∧
    ∃ r, computeFields [n, a, b, c] data = .ok r ∧ r.get? "a" = some .null ∧ r.get? "b" = some .null ∧
      computeFields [n, { a with formula := none }, b, c] data = .ok r := by
  intro n a b c data
  have hshort : ∀ name, ((inputs [n, a, b, c] data).get name).isLong = false := by
    intro name
    rcases Entries.get_eq_null_or_mem (inputs [n, a, b, c] data) name with hnull | hmem
    . rw [hnull]
      rfl
    . have hinputs : inputs [n, a, b, c] data = [("n", .int 7)] := by decide +kernel
      rw [hinputs, List.mem_singleton, Prod.mk.injEq] at hmem
      rw [hinputs, hmem.2]
      decide
  have hsafe : ∀ f ∈ [n, a, b, c], f.isComputed = true → f.IsSafe (inputs [n, a, b, c] data) := by
    intro f hf _
    refine ⟨?_, fun _ _ _ _ name _ => hshort name⟩
    intro formula hformula
    apply Formula.isReadable_of_length_le
    simp only [List.mem_cons, List.not_mem_nil, or_false] at hf
    rcases hf with rfl | rfl | rfl | rfl
    . contradiction
    all_goals
      obtain rfl := Option.some.inj hformula
      decide
  refine ⟨hsafe, ?_⟩
  obtain ⟨r, hr, hbroken⟩ := computeFields_of_isSafe hsafe
  obtain ⟨hnull, hnone⟩ := hbroken [n] a [b, c] rfl rfl
    ⟨"n + missing", .unknownField "missing", rfl, by decide +kernel⟩
  obtain ⟨hnull', -⟩ := hbroken [n, a] b [c] rfl rfl ⟨"n +", .unfinished, rfl, by decide +kernel⟩
  exact ⟨r, hr, hnull (by decide), hnull' (by decide), hnone⟩

theorem Field.compute_of_integerDigitLimit_lt {ds : List Char} (hds : ∀ d ∈ ds, Text.isDigit d = true)
    (hlong : integerDigitLimit < ds.length) (hformula : f.formula = some (String.ofList ds)) (known : List String) :
    f.compute values known = .error (.digitLimit ds.length) := by
  have hread := Formula.read_of_integerDigitLimit_lt hds hlong
  have hne : (String.ofList ds).isEmpty = false := by
    rw [Bool.eq_false_iff, ne_eq, String.isEmpty_iff, String.ofList_eq_empty_iff]
    exact List.ne_nil_of_length_pos (Nat.zero_lt_of_lt hlong)
  generalize String.ofList ds = formula at hread hne hformula
  simp only [compute, hformula, hne, hread]
  rfl

theorem computeFields_singleton (hcomputed : f.isComputed = true) (data : Entries) :
    computeFields [f] data = computeNext [f.name] (inputs [f] data) f := by
  rw [computeFields_eq, List.filter_cons_of_pos hcomputed, List.filter_nil]
  exact bind_pure _

theorem computeFields_of_digits :
    let c : Field := { id := "i", name := "c", displayName := "C", type := .computed }
    computeFields [{ c with formula := some (String.ofList (List.replicate 4301 '9')) }] [] =
      .error (.digitLimit 4301) ∧
    computeFields [{ c with formula := some "n + ''" }] [("n", .int (10 ^ integerDigitLimit : Nat))] =
      .error (.formula .longInteger) := by
  intro c
  constructor
  . have hdigits : ∀ d ∈ List.replicate 4301 '9', Text.isDigit d = true := by
      intro d hd
      rw [List.eq_of_mem_replicate hd]
      decide
    have hlength : (List.replicate 4301 '9').length = 4301 := List.length_replicate
    generalize List.replicate 4301 '9' = ds at hdigits hlength
    rw [computeFields_singleton rfl, computeNext, Field.compute_of_integerDigitLimit_lt hdigits
      (by rw [hlength]; decide) rfl, hlength]
    rfl
  . have hlong : (Value.int (10 ^ integerDigitLimit : Nat)).isLong = true := by
      rw [Value.isLong, decide_eq_true_iff, Int.natAbs_natCast, ← not_le,
        Nat.length_toDigits_le_iff (by decide) (by decide)]
      exact Nat.lt_irrefl _
    generalize Value.int (10 ^ integerDigitLimit : Nat) = v at hlong
    have hread : Formula.read "n + ''" = .ok (.add (.term (.field "n")) (.term (.text ""))) := by decide +kernel
    have htext : Formula.textOf v = .error .longInteger := by rw [Formula.textOf, if_pos hlong]
    have hevaluate : (Formula.read "n + ''" >>= Formula.evaluate [("n", v)] ["c"]) = .error .longInteger := by
      rw [hread]
      show (Formula.textOf v >>= _) = _
      rw [htext]
      rfl
    rw [computeFields_singleton rfl]
    show (Field.compute { c with formula := some "n + ''" } [("n", v)] ["c"] >>= _) = _
    rw [Field.compute]
    dsimp only
    rw [if_neg (by decide), hevaluate]
    rfl

end Safe
end TenantTables
