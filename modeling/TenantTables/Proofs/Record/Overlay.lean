import TenantTables.Proofs.Record.Computed
import TenantTables.Proofs.Record.Denote

namespace TenantTables

namespace Entries

variable {es es' top top' : Entries} {k : String}

def Agree (es es' : Entries) : Prop :=
  ∀ k, es.get? k = es'.get? k

theorem Agree.put (h : es.Agree es') (key : String) (v : Value) : (es.put key v).Agree (es'.put key v) := by
  intro k
  rw [get?_put, get?_put, h k]

theorem Agree.seenAlike (h : es.Agree es') (known : List String) : es.SeenAlike known es' :=
  fun k => ⟨get_of_get? (h k), fun _ => h k⟩

theorem get?_overlay (htop : top.keys.Nodup) : (es.overlay top).get? k = (top.get? k).or (es.get? k) := by
  induction top generalizing es with
  | nil => rfl
  | cons e top ih =>
    obtain ⟨hhead, htail⟩ := List.nodup_cons.mp htop
    show (overlay (es.put e.1 e.2) top).get? k = _
    rw [ih htail, get?_put, get?_cons]
    by_cases hk : e.1 = k
    . subst hk
      have hnone : get? top e.1 = none := (get?_eq_none_iff top e.1).mpr hhead
      rw [hnone, if_pos rfl, if_pos rfl]
      rfl
    . rw [if_neg (Ne.symm hk), if_neg hk]

end Entries

namespace Outcome

theorem isOk_foldlM_iff {P : α → Prop} {f : β → α → Outcome β} {as : List α}
    (hstep : ∀ a b, (∃ c, f b a = .ok c) ↔ P a) {b : β} :
    (∃ c, as.foldlM f b = .ok c) ↔ ∀ a ∈ as, P a := by
  induction as generalizing b with
  | nil => exact ⟨nofun, fun _ => ⟨b, rfl⟩⟩
  | cons a as ih =>
    rw [List.forall_mem_cons, ← hstep a b, List.foldlM_cons]
    constructor
    . rintro ⟨d, h⟩
      obtain ⟨c, hc, h⟩ := bind_eq_ok.mp h
      exact ⟨⟨c, hc⟩, ih.mp ⟨d, h⟩⟩
    . rintro ⟨⟨c, hc⟩, has⟩
      rw [hc]
      exact ih.mpr has

end Outcome

namespace Field

variable {f : Field} {v u u' : Value}

theorem trim_of_checkDate (h : f.checkDate v = .ok u) : ∃ s, u = .text s ∧ Text.trim s = s := by
  unfold checkDate at h
  split at h
  . next d =>
    have hprinted : ∀ c ∈ d.print.toList, IsoReader.isPrinted c = true :=
      fun _ => IsoReader.isPrinted_of_mem_print_date
    exact ⟨d.print, (Except.ok.inj h).symm, IsoReader.trim_of_isPrinted hprinted⟩
  . next m =>
    have hprinted : ∀ c ∈ m.print.toList, IsoReader.isPrinted c = true :=
      fun _ => IsoReader.isPrinted_of_mem_print
    exact ⟨m.print, (Except.ok.inj h).symm, IsoReader.trim_of_isPrinted hprinted⟩
  . next s =>
    split at h
    . exact ⟨Text.trim s, (Except.ok.inj h).symm, Text.trim_trim s⟩
    . simp [reject] at h
  . simp [reject] at h

theorem checkDate_text {s : String} (h : f.checkDate (.text s) = .ok u) : u = .text (Text.trim s) := by
  unfold checkDate at h
  dsimp only at h
  split at h
  . exact (Except.ok.inj h).symm
  . simp [reject] at h

theorem eq_of_check_of_check (h : f.check v = .ok u) (h' : f.check u = .ok u') : u' = u := by
  unfold check at h h'
  cases htype : f.type with
  | text =>
    rw [htype] at h'
    exact (checkText_ok h').1
  | number =>
    rw [htype] at h h'
    have hu := number?_of_ok (number?_of_checkNumber h)
    rw [number?_of_checkNumber h'] at hu
    exact Option.some.inj (Except.ok.inj hu)
  | boolean =>
    rw [htype] at h h'
    obtain ⟨b, rfl⟩ := checkBoolean_ok h
    exact (Except.ok.inj h').symm
  | date =>
    rw [htype] at h h'
    obtain ⟨s, rfl, htrim⟩ := trim_of_checkDate h
    exact htrim ▸ checkDate_text h'
  | relation =>
    rw [htype] at h'
    exact (Except.ok.inj h').symm
  | computed =>
    rw [htype] at h'
    exact (Except.ok.inj h').symm

theorem accept_congr {data data' : Entries} (h : data.get f.name = data'.get f.name) :
    f.accept data = f.accept data' := by
  unfold accept
  rw [h]

theorem or_of_accept_of_accept {data data' : Entries} {o o' : Option Value} (h : f.accept data = .ok o)
    (hdata : data'.get? f.name = o.or (data.get? f.name)) (h' : f.accept data' = .ok o') :
    o'.or (data'.get? f.name) = data'.get? f.name := by
  rcases accept_ok h with ⟨rfl, -⟩ | ⟨u, rfl, hcheck⟩
  . rw [accept_congr (Entries.get_of_get? hdata), h] at h'
    obtain rfl := Except.ok.inj h'
    rfl
  . rcases accept_ok h' with ⟨rfl, -⟩ | ⟨u', rfl, hcheck'⟩
    . rfl
    . have hu : data'.get f.name = u := by
        rw [Entries.get, hdata]
        rfl
      rw [hu] at hcheck'
      rw [hdata, eq_of_check_of_check hcheck hcheck']
      rfl

/--
A field accepts what is laid over the data below at once, if it accepts the data below, and what is laid over the
value that it left there. The value that it leaves is the same.
-/
theorem accept_over {lower upper both : Entries} {w v : Option Value} {o o' : Option Value}
    (h : f.accept lower = .ok o) (hupper : upper.get? f.name = w.or v) (h' : f.accept upper = .ok o')
    (hboth : both.get? f.name = w.or (lower.get? f.name)) :
    ∃ o'', f.accept both = .ok o'' ∧
      (v = o.or (lower.get? f.name) → o''.or (both.get? f.name) = o'.or (upper.get? f.name)) := by
  cases w with
  | none =>
    refine ⟨o, by rw [accept_congr (Entries.get_of_get? hboth)]; exact h, ?_⟩
    intro hv
    rw [or_of_accept_of_accept h (hupper.trans hv) h', hupper, hboth]
    exact hv.symm
  | some w =>
    have hsame : both.get? f.name = upper.get? f.name := hboth.trans hupper.symm
    refine ⟨o', by rw [accept_congr (Entries.get_of_get? hsame)]; exact h', ?_⟩
    intro _
    rw [hsame]

end Field

section Fields

variable {fields : List Field} {data data' normal : Entries}

theorem agree_inputs
    (h : ∀ k, (∀ f ∈ fields, f.isComputed = true → f.name ≠ k) → data.get? k = data'.get? k) :
    (inputs fields data).Agree (inputs fields data') := by
  intro k
  rcases ne_or_exists_isComputed fields k with hk | ⟨f, hf, hcomputed, rfl⟩
  . rw [get?_inputs hk, get?_inputs hk, h k hk]
  . rw [get?_inputs_of_isComputed hf hcomputed, get?_inputs_of_isComputed hf hcomputed]

theorem computeFields_congr (h : ∀ k, (∀ f ∈ fields, f.isComputed = true → f.name ≠ k) → data.get? k = data'.get? k)
    {computed : Entries} (hcomputed : computeFields fields data' = .ok computed) :
    ∃ computed', computeFields fields data = .ok computed' ∧ computed'.Agree computed := by
  have hinputs : (inputs fields data').Agree (inputs fields data) := agree_inputs fun k hk => (h k hk).symm
  obtain ⟨computed', hcomputed', hagree⟩ := (same_computeFields (fun _ _ h => h.seenAlike _)
    (fun _ _ k v h => h.put k v) hinputs).exists_ok hcomputed
  exact ⟨computed', hcomputed', fun k => (hagree k).symm⟩

theorem isOk_validate_iff :
    (∃ normal, validate fields data = .ok normal) ↔ ∀ f ∈ fields, ∃ o, f.accept data = .ok o := by
  apply Outcome.isOk_foldlM_iff
  intro f accepted
  constructor
  . rintro ⟨_, h⟩
    obtain ⟨o, ho, -⟩ := Outcome.bind_eq_ok.mp h
    exact ⟨o, ho⟩
  . rintro ⟨o, ho⟩
    rw [ho]
    cases o with
    | none => exact ⟨accepted, rfl⟩
    | some v => exact ⟨accepted.put f.name v, rfl⟩

namespace Records

variable {old first second data₁ data₂ : Entries}

/--
An update with a second payload after one with a first payload gives the data of one update with both.
-/
theorem mergedData_overlay (hnames : (fields.map (·.name)).Nodup) (hfirst : first.keys.Nodup)
    (hsecond : second.keys.Nodup) (h₁ : mergedData fields old first = .ok data₁)
    (h₂ : mergedData fields data₁ second = .ok data₂) :
    ∃ data, mergedData fields old (first.overlay second) = .ok data ∧ data.Agree data₂ := by
  obtain ⟨normal₁, hnormal₁, h₁⟩ := Outcome.bind_eq_ok.mp h₁
  obtain ⟨normal₂, hnormal₂, h₂⟩ := Outcome.bind_eq_ok.mp h₂
  have hover (k : String) : (data₁.overlay second).get? k = (second.get? k).or (data₁.get? k) :=
    Entries.get?_overlay hsecond
  have hboth (k : String) : (old.overlay (first.overlay second)).get? k =
      (second.get? k).or ((old.overlay first).get? k) := by
    rw [Entries.get?_overlay (Entries.nodup_keys_overlay first second hfirst), Entries.get?_overlay hsecond,
      Entries.get?_overlay hfirst, Option.or_assoc]
  obtain ⟨normal, hnormal⟩ : ∃ normal, validate fields (old.overlay (first.overlay second)) = .ok normal := by
    rw [isOk_validate_iff]
    intro f hf
    obtain ⟨o, ho, -⟩ := get?_validate hnames hnormal₁ hf
    obtain ⟨o', ho', -⟩ := get?_validate hnames hnormal₂ hf
    obtain ⟨o'', ho'', -⟩ := Field.accept_over ho (hover f.name) ho' (hboth f.name)
    exact ⟨o'', ho''⟩
  -- a formula sees the fields that are not computed only, and these are left the same
  have hsame (k : String) (hk : ∀ f ∈ fields, f.isComputed = true → f.name ≠ k) :
      normal.get? k = normal₂.get? k := by
    have hdata₁ : data₁.get? k = normal₁.get? k := get?_computeFields_of_ne hk h₁
    by_cases hfield : ∃ f ∈ fields, f.name = k
    . obtain ⟨f, hf, rfl⟩ := hfield
      obtain ⟨o, ho, hleft⟩ := get?_validate hnames hnormal₁ hf
      obtain ⟨o', ho', hleft'⟩ := get?_validate hnames hnormal₂ hf
      obtain ⟨o'', ho'', hvalue⟩ := Field.accept_over ho (hover f.name) ho' (hboth f.name)
      obtain ⟨_, haccept, hleft''⟩ := get?_validate hnames hnormal hf
      obtain rfl := Except.ok.inj (haccept.symm.trans ho'')
      rw [hleft'', hleft', hvalue (hdata₁.trans hleft)]
    . have hne : ∀ f ∈ fields, f.name ≠ k := by simpa using hfield
      rw [get?_validate_of_ne hne hnormal, get?_validate_of_ne hne hnormal₂, hover, hboth, hdata₁,
        get?_validate_of_ne hne hnormal₁]
  obtain ⟨data, hdata, hagree⟩ := computeFields_congr hsame h₂
  refine ⟨data, ?_, hagree⟩
  rw [mergedData, hnormal]
  exact hdata

theorem mergedData_overlay_of_number :
    let fields : List Field :=
      [{ id := "i", name := "n", displayName := "N", type := .number },
       { id := "ii", name := "d", displayName := "D", type := .date },
       { id := "iii", name := "c", displayName := "C", type := .computed, formula := some "n + d" }]
    let first : Entries := [("n", .text "7"), ("d", .text " 2024-01-02 ")]
    let data₁ : Entries := [("n", .int 7), ("d", .text "2024-01-02"), ("c", .text "72024-01-02")]
    let data₂ : Entries := [("n", .int 8), ("d", .text "2024-01-02"), ("c", .text "82024-01-02")]
    mergedData fields [] first = .ok data₁ ∧ mergedData fields data₁ [("n", .text "8")] = .ok data₂ ∧
      ∃ data, mergedData fields [] (first.overlay [("n", .text "8")]) = .ok data ∧ data.Agree data₂ := by
  intro fields first data₁ data₂
  have h₁ : mergedData fields [] first = .ok data₁ := by decide +kernel
  have h₂ : mergedData fields data₁ [("n", .text "8")] = .ok data₂ := by decide +kernel
  exact ⟨h₁, h₂, mergedData_overlay (by decide) (by decide) (by decide) h₁ h₂⟩

end Records

end Fields

end TenantTables
