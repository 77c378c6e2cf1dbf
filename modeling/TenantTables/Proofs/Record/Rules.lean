import TenantTables.Proofs.Record.Denote
import TenantTables.Proofs.Record.Keys

namespace TenantTables

def Value.IsUnder (v : Value) (bound : Binary64) : Prop :=
  ∃ p q, v.place? = some (some p) ∧ bound.place? = some q ∧ p.lt q = true

def Value.IsOver (v : Value) (bound : Binary64) : Prop :=
  ∃ p q, v.place? = some (some p) ∧ bound.place? = some q ∧ q.lt p = true

def Value.lengthOf (s : String) : Value := .int s.length

/--
What a rule for the values of a field asks of a value. Null meets all of them but that there is a value, and a
rule about numbers or texts leaves other values to the rule of their type.
-/
def Rule.IsMet (v : Value) : Rule → Prop
  | .required _ => v ≠ .null ∧ v ≠ .text ""
  | .number _ => v = .null ∨ ∃ u, FieldType.number.Denotes v u
  | .boolean _ => v = .null ∨ ∃ u, FieldType.boolean.Denotes v u
  | .date _ => v = .null ∨ ∃ u, FieldType.date.Denotes v u
  | .text _ => v = .null ∨ ∃ u, FieldType.text.Denotes v u
  | .atLeast _ bound => ∀ u, FieldType.number.Denotes v u → ¬ u.IsUnder bound
  | .atMost _ bound => ∀ u, FieldType.number.Denotes v u → ¬ u.IsOver bound
  | .longEnough _ bound => ∀ s, v = .text s → ¬ (Value.lengthOf s).IsUnder bound
  | .shortEnough _ bound => ∀ s, v = .text s → ¬ (Value.lengthOf s).IsOver bound
  | .pattern _ p => ∀ s, v = .text s → ∃ c, Pattern.read p = .ok c ∧ c.found s = true
  | _ => True

def Violation.IsAvoided (d : Violation) : Prop :=
  d.rule.IsMet d.value

/--
An outcome that tells the first violation of a list that is not avoided. If all of them are, it is a result as
described.
-/
inductive Heeds (P : α → Prop) : List Violation → Outcome α → Prop
  | done {a : α} (h : P a) : Heeds P [] (.ok a)
  | avoided {d : Violation} {ds : List Violation} {r : Outcome α} (h : d.IsAvoided) (rest : Heeds P ds r) :
    Heeds P (d :: ds) r
  | told {d : Violation} {ds : List Violation} (h : ¬ d.IsAvoided) : Heeds P (d :: ds) (.error (.violation d))

namespace Heeds

variable {P : α → Prop} {Q : β → Prop} {ds es : List Violation} {r : Outcome α}

theorem bind {k : α → Outcome β} (h : Heeds P ds r) (hk : ∀ a, P a → Heeds Q es (k a)) :
    Heeds Q (ds ++ es) (r >>= k) := by
  induction h with
  | done h => exact hk _ h
  | avoided h _ ih => exact .avoided h ih
  | told h => exact .told h

theorem of_forall {a : α} (hds : ∀ d ∈ ds, d.IsAvoided) (h : P a) : Heeds P ds (.ok a) := by
  induction ds with
  | nil => exact .done h
  | cons d ds ih =>
    rw [List.forall_mem_cons] at hds
    exact .avoided hds.1 (ih hds.2)

theorem of_ok {a : α} (h : Heeds P ds (.ok a)) : P a := by
  generalize hr : (Except.ok a : Outcome α) = r at h
  induction h with
  | done h => exact Except.ok.inj hr ▸ h
  | avoided _ _ ih => exact ih hr
  | told => cases hr

theorem isOk_iff (h : Heeds P ds r) : (∃ a, r = .ok a) ↔ ∀ d ∈ ds, d.IsAvoided := by
  induction h with
  | done => simp
  | avoided h _ ih => rw [ih, List.forall_mem_cons, and_iff_right h]
  | told h => simp [h]

theorem of_error {e : Failure} (h : Heeds P ds (.error e)) :
    ∃ before d after, ds = before ++ d :: after ∧ (∀ b ∈ before, b.IsAvoided) ∧ ¬ d.IsAvoided ∧
      e = .violation d := by
  generalize hr : (Except.error e : Outcome α) = r at h
  induction h with
  | done => cases hr
  | @avoided d ds r h _ ih =>
    obtain ⟨before, d', after, rfl, hbefore, hd', he⟩ := ih hr
    exact ⟨d :: before, d', after, rfl, List.forall_mem_cons.mpr ⟨h, hbefore⟩, hd', he⟩
  | @told d ds h => exact ⟨[], d, ds, rfl, nofun, h, Except.error.inj hr⟩

theorem of_test {rule : Rule} {field : String} {v : Value} {b : Bool} {next : Outcome α}
    (hb : b = false ↔ rule.IsMet v) (h : b = false → Heeds P ds next) :
    Heeds P (⟨rule, some field, v⟩ :: ds) (if b then reject rule field v else next) := by
  cases b with
  | true => exact .told fun hmet => absurd (hb.mpr hmet) (by decide)
  | false => exact .avoided (hb.mp rfl) (h rfl)

theorem foldlM {f : β → α → Outcome β} {as : List α} {violations : α → List Violation}
    (hstep : ∀ a ∈ as, ∀ b, Heeds (fun _ => True) (violations a) (f b a)) (b : β) :
    Heeds (fun _ => True) (as.flatMap violations) (as.foldlM f b) := by
  induction as generalizing b with
  | nil => exact .done trivial
  | cons a as ih =>
    rw [List.forall_mem_cons] at hstep
    rw [List.flatMap_cons, List.foldlM_cons]
    exact (hstep.1 b).bind fun b' _ => ih hstep.2 b'

end Heeds

namespace Field

def boundRules (f : Field) (low high : String → Binary64 → Rule) : List Rule :=
  let constraints := f.validation.getD {}
  constraints.min.toList.map (low f.displayName) ++ constraints.max.toList.map (high f.displayName)

def patternRules (f : Field) : List Rule :=
  let constraints := f.validation.getD {}
  (constraints.pattern.toList.filter fun p => !p.isEmpty).map (.pattern f.displayName)

def valueRules (f : Field) : List Rule :=
  match f.type with
  | .number => .number f.displayName :: f.boundRules .atLeast .atMost
  | .boolean => [.boolean f.displayName]
  | .date => [.date f.displayName]
  | .text => .text f.displayName :: (f.patternRules ++ f.boundRules .longEnough .shortEnough)
  | .relation => []
  | .computed => []

def rules (f : Field) : List Rule :=
  (if f.required then [.required f.displayName] else []) ++ f.valueRules

def violation (f : Field) (v : Value) (rule : Rule) : Violation :=
  { rule, field := some f.name, value := v }

variable {f : Field} {v : Value}

theorem isUnder_iff {place : Binary64.Place} {bound : Binary64} (h : v.place? = some (some place)) :
    place.isUnder bound = false ↔ ¬ v.IsUnder bound := by
  unfold Binary64.Place.isUnder Value.IsUnder
  cases bound.place? <;> simp [h]

theorem isOver_iff {place : Binary64.Place} {bound : Binary64} (h : v.place? = some (some place)) :
    place.isOver bound = false ↔ ¬ v.IsOver bound := by
  unfold Binary64.Place.isOver Value.IsOver
  cases bound.place? <;> simp [h]

theorem heeds_checkBounds {place : Binary64.Place} {low high : String → Binary64 → Rule}
    (hlow : ∀ bound, place.isUnder bound = false ↔ (low f.displayName bound).IsMet v)
    (hhigh : ∀ bound, place.isOver bound = false ↔ (high f.displayName bound).IsMet v) :
    Heeds (fun _ => True) ((f.boundRules low high).map (f.violation v)) (f.checkBounds v place low high) := by
  have hmax (bound : Binary64) : Heeds (fun _ => True) [f.violation v (high f.displayName bound)]
      (if place.isOver bound then reject (high f.displayName bound) f.name v else .ok () : Outcome Unit) :=
    .of_test (hhigh bound) fun _ => .done trivial
  unfold checkBounds boundRules
  dsimp only
  cases (f.validation.getD {}).min with
  | none =>
    cases (f.validation.getD {}).max with
    | none => exact .done trivial
    | some top => exact hmax top
  | some bottom =>
    refine .of_test (hlow bottom) fun _ => ?_
    cases (f.validation.getD {}).max with
    | none => exact .done trivial
    | some top => exact hmax top

theorem heeds_checkNumber (hv : v.IsMeasured) (hnull : v ≠ .null) :
    Heeds (FieldType.number.Denotes v)
      ((.number f.displayName :: f.boundRules .atLeast .atMost).map (f.violation v)) (f.checkNumber v) := by
  unfold checkNumber
  rcases number?_spec hv with ⟨n, hn, hdenotes⟩ | ⟨hn, hnone⟩
  . obtain ⟨place, hplace⟩ := place?_of_number? hn
    have hlow (bound : Binary64) : place.isUnder bound = false ↔ (Rule.atLeast f.displayName bound).IsMet v := by
      simp [isUnder_iff hplace, Rule.IsMet, hdenotes]
    have hhigh (bound : Binary64) : place.isOver bound = false ↔ (Rule.atMost f.displayName bound).IsMet v := by
      simp [isOver_iff hplace, Rule.IsMet, hdenotes]
    rw [hn]
    refine .avoided (.inr ⟨n, (hdenotes n).mpr rfl⟩) ?_
    rw [← List.append_nil (List.map _ _)]
    rw [Outcome.ok_bind]
    dsimp only
    rw [hplace]
    exact (heeds_checkBounds hlow hhigh).bind fun _ _ => .done ((hdenotes n).mpr rfl)
  . rw [hn]
    refine .told ?_
    rintro (h | ⟨u, hu⟩)
    . exact hnull h
    . exact hnone u hu

theorem heeds_checkBoolean (hnull : v ≠ .null) :
    Heeds (FieldType.boolean.Denotes v) [f.violation v (.boolean f.displayName)] (f.checkBoolean v) := by
  unfold checkBoolean
  split
  . next b => exact .avoided (.inr ⟨_, .bool b⟩) (.done (.bool b))
  . exact .avoided (.inr ⟨_, .isTrue⟩) (.done .isTrue)
  . exact .avoided (.inr ⟨_, .isFalse⟩) (.done .isFalse)
  . next hbool htrue hfalse =>
    refine .told ?_
    rintro (h | ⟨u, hu⟩)
    . exact hnull h
    . cases hu with
      | bool b => exact hbool b rfl
      | isTrue => exact htrue rfl
      | isFalse => exact hfalse rfl

theorem heeds_checkDate (hnull : v ≠ .null) :
    Heeds (FieldType.date.Denotes v) [f.violation v (.date f.displayName)] (f.checkDate v) := by
  unfold checkDate
  split
  . next d => exact .avoided (.inr ⟨_, .date d⟩) (.done (.date d))
  . next m => exact .avoided (.inr ⟨_, .moment m⟩) (.done (.moment m))
  . next s =>
    split
    . next m hread => exact .avoided (.inr ⟨_, .iso hread⟩) (.done (.iso hread))
    . next e hread =>
      refine .told ?_
      rintro (h | ⟨u, hu⟩)
      . exact hnull h
      . cases hu with
        | iso hread' => simp [hread] at hread'
  . next hdate hmoment htext =>
    refine .told ?_
    rintro (h | ⟨u, hu⟩)
    . exact hnull h
    . cases hu with
      | date d => exact hdate d rfl
      | moment m => exact hmoment m rfl
      | @iso s => exact htext s rfl

theorem patternFound_iff {p s : String} (hp : p.isEmpty = false) :
    (!patternFound p s) = false ↔ (Rule.pattern f.displayName p).IsMet (.text s) := by
  have hmet : (Rule.pattern f.displayName p).IsMet (.text s) ↔
      ∃ c, Pattern.read p = .ok c ∧ c.found s = true := by simp [Rule.IsMet]
  rw [hmet, patternFound, hp]
  cases Pattern.read p <;> simp

theorem heeds_checkText (hnull : v ≠ .null) :
    Heeds (FieldType.text.Denotes v)
      ((.text f.displayName :: (f.patternRules ++ f.boundRules .longEnough .shortEnough)).map (f.violation v))
      (f.checkText v) := by
  unfold checkText
  split
  . next s =>
    refine .avoided (.inr ⟨_, .text s⟩) ?_
    have hlow (bound : Binary64) : (Binary64.Place.ofInt s.length).isUnder bound = false ↔
        (Rule.longEnough f.displayName bound).IsMet (.text s) := by
      simp [isUnder_iff (v := Value.lengthOf s) rfl, Rule.IsMet]
    have hhigh (bound : Binary64) : (Binary64.Place.ofInt s.length).isOver bound = false ↔
        (Rule.shortEnough f.displayName bound).IsMet (.text s) := by
      simp [isOver_iff (v := Value.lengthOf s) rfl, Rule.IsMet]
    have hbounds : Heeds (FieldType.text.Denotes (.text s))
        ((f.boundRules .longEnough .shortEnough).map (f.violation (.text s)))
        (f.checkBounds (.text s) (.ofInt s.length) .longEnough .shortEnough >>= fun _ => .ok (.text s)) := by
      rw [← List.append_nil (List.map _ _)]
      exact (heeds_checkBounds hlow hhigh).bind fun _ _ => .done (.text s)
    unfold patternRules
    rw [List.map_append]
    dsimp only
    cases (f.validation.getD {}).pattern with
    | none => exact hbounds
    | some p =>
      cases hp : p.isEmpty with
      | true =>
        simp only [hp, patternFound, Option.toList, List.filter_cons, List.filter_nil, Bool.not_true, Bool.true_or,
          Bool.false_eq_true, if_false]
        exact hbounds
      | false =>
        simp only [hp, Option.toList, List.filter_cons, List.filter_nil, Bool.not_false, if_true]
        exact .of_test (patternFound_iff hp) fun _ => hbounds
  . next htext =>
    refine .told ?_
    rintro (h | ⟨u, hu⟩)
    . exact hnull h
    . cases hu with
      | text s => exact htext s rfl

theorem heeds_check (hv : f.type = .number → v.IsMeasured) (hnull : v ≠ .null) :
    Heeds (f.type.Denotes v) (f.valueRules.map (f.violation v)) (f.check v) := by
  unfold check valueRules
  cases htype : f.type with
  | number => exact heeds_checkNumber (hv htype) hnull
  | boolean => exact heeds_checkBoolean hnull
  | date => exact heeds_checkDate hnull
  | text => exact heeds_checkText hnull
  | relation => exact .done (.relation v)
  | computed => exact .done (.computed v)

theorem denotes_of_check {u : Value} (hv : f.type = .number → v.IsMeasured) (h : f.check v = .ok u) :
    f.type.Denotes v u := by
  by_cases hnull : v = .null
  . subst hnull
    unfold check at h
    cases htype : f.type with
    | relation =>
      rw [htype] at h
      exact Except.ok.inj h ▸ .relation _
    | computed =>
      rw [htype] at h
      exact Except.ok.inj h ▸ .computed _
    | _ =>
      rw [htype] at h
      cases h
  . have hheeds := heeds_check hv hnull
    rw [h] at hheeds
    exact hheeds.of_ok

theorem isMet_null {rule : Rule} (h : rule ∈ f.valueRules) : rule.IsMet .null := by
  have hbounds {low high : String → Binary64 → Rule} (hlow : ∀ bound, (low f.displayName bound).IsMet .null)
      (hhigh : ∀ bound, (high f.displayName bound).IsMet .null) {rule : Rule}
      (hrule : rule ∈ f.boundRules low high) : rule.IsMet .null := by
    unfold boundRules at hrule
    rcases List.mem_append.mp hrule with hrule | hrule
    . obtain ⟨bound, -, rfl⟩ := List.mem_map.mp hrule
      exact hlow bound
    . obtain ⟨bound, -, rfl⟩ := List.mem_map.mp hrule
      exact hhigh bound
  unfold valueRules at h
  split at h
  . rcases List.mem_cons.mp h with rfl | h
    . exact .inl rfl
    . exact @hbounds .atLeast .atMost (fun _ _ hu => nomatch hu) (fun _ _ hu => nomatch hu) rule h
  . rw [List.mem_singleton.mp h]
    exact .inl rfl
  . rw [List.mem_singleton.mp h]
    exact .inl rfl
  . rcases List.mem_cons.mp h with rfl | h
    . exact .inl rfl
    . rcases List.mem_append.mp h with h | h
      . obtain ⟨p, -, rfl⟩ := List.mem_map.mp h
        exact fun s hs => nomatch hs
      . exact @hbounds .longEnough .shortEnough (fun _ _ hs => nomatch hs) (fun _ _ hs => nomatch hs) rule h
  . simp at h
  . simp at h

theorem isBlank_iff : v.isBlank = false ↔ (Rule.required f.displayName).IsMet v := by
  simp only [Rule.IsMet]
  cases v <;> simp [Value.isBlank]

theorem heeds_accept {data : Entries} (hv : f.type = .number → (data.get f.name).IsMeasured) :
    Heeds (fun _ => True) (f.rules.map (f.violation (data.get f.name))) (f.accept data) := by
  have hvalue : Heeds (fun _ => True) (f.valueRules.map (f.violation (data.get f.name)))
      (if (data.get f.name).isNull then .ok none else (f.check (data.get f.name)).map some) := by
    cases hnull : (data.get f.name).isNull with
    | true =>
      have hget : data.get f.name = .null := Value.isNull_iff.mp hnull
      refine .of_forall ?_ trivial
      simp only [List.forall_mem_map, hget]
      exact fun rule => isMet_null
    | false =>
      have hget : data.get f.name ≠ .null := by
        intro hget
        simp [hget, Value.isNull] at hnull
      rw [← List.append_nil (List.map _ _)]
      exact @Heeds.bind _ _ _ _ _ _ _ (fun u => .ok (some u)) (heeds_check hv hget) fun _ _ => .done trivial
  unfold accept rules
  dsimp only
  cases f.required with
  | false => exact hvalue
  | true => exact .of_test isBlank_iff fun _ => hvalue

end Field

section Fields

def violations (fields : List Field) (data : Entries) : List Violation :=
  fields.flatMap fun f => f.rules.map (f.violation (data.get f.name))

structure Entries.IsNormalized (fields : List Field) (data normal : Entries) : Prop where
  keys : normal.keys = data.keys
  others : ∀ k ∉ fields.map (·.name), normal.get? k = data.get? k
  values : ∀ f ∈ fields, (data.get f.name = .null ∧ normal.get? f.name = data.get? f.name) ∨
    ∃ u, f.type.Denotes (data.get f.name) u ∧ normal.get? f.name = some u

def Entries.IsMeasured (fields : List Field) (data : Entries) : Prop :=
  ∀ f ∈ fields, f.type = .number → (data.get f.name).IsMeasured

variable {fields : List Field} {data normal : Entries}

theorem contains_of_accept {f : Field} {v : Value} (h : f.accept data = .ok (some v)) :
    data.contains f.name = true := by
  rw [← Entries.isSome_get?]
  cases hget : data.get? f.name with
  | some w => rfl
  | none =>
    have hnull : data.get f.name = .null := by rw [Entries.get, hget]; rfl
    unfold Field.accept at h
    dsimp only at h
    rw [hnull] at h
    split at h <;> simp [reject, Value.isNull] at h

theorem keys_validate (h : validate fields data = .ok normal) : normal.keys = data.keys := by
  refine Outcome.foldlM_keeps (P := fun es : Entries => es.keys = data.keys) ?_ rfl h
  intro es f _ es' hes h
  obtain ⟨o, ho, h⟩ := Outcome.bind_eq_ok.mp h
  cases o with
  | none => exact Except.ok.inj h ▸ hes
  | some v =>
    have hmem := (Entries.contains_iff_mem_keys data f.name).mp (contains_of_accept ho)
    rw [← Except.ok.inj h, Entries.keys_put, if_pos ((Entries.contains_iff_mem_keys es f.name).mpr (hes ▸ hmem))]
    exact hes

theorem isNormalized_validate (hnames : (fields.map (·.name)).Nodup) (hdata : data.IsMeasured fields)
    (h : validate fields data = .ok normal) : data.IsNormalized fields normal where
  keys := keys_validate h
  others k hk := get?_validate_of_ne (by simpa using hk) h
  values f hf := by
    rcases validate_ok hnames h hf with ⟨hnull, hsame⟩ | ⟨u, hcheck, hget⟩
    . exact .inl ⟨Value.isNull_iff.mp hnull, hsame⟩
    . exact .inr ⟨u, Field.denotes_of_check (hdata f hf) hcheck, hget⟩

theorem heeds_validate (hdata : data.IsMeasured fields) :
    Heeds (fun _ => True) (violations fields data) (validate fields data) := by
  refine .foldlM ?_ data
  intro f hf accepted
  rw [← List.append_nil (List.map _ _)]
  refine (Field.heeds_accept (hdata f hf)).bind fun o _ => ?_
  cases o with
  | none => exact .done trivial
  | some v => exact .done trivial

/--
Validation accepts data that meets every rule of every field, and only that. What it accepts is normalized, and
what it tells otherwise is the first rule that is not met.
-/
theorem validate_exact (hnames : (fields.map (·.name)).Nodup) (hdata : data.IsMeasured fields) :
    ((∃ normal, validate fields data = .ok normal) ↔
      ∀ f ∈ fields, ∀ rule ∈ f.rules, rule.IsMet (data.get f.name)) ∧
    (∀ normal, validate fields data = .ok normal → data.IsNormalized fields normal) ∧
    ∀ e, validate fields data = .error e →
      ∃ before d after, violations fields data = before ++ d :: after ∧ (∀ b ∈ before, b.IsAvoided) ∧
        ¬ d.IsAvoided ∧ e = .violation d := by
  have hheeds := heeds_validate hdata
  refine ⟨?_, ?_, ?_⟩
  . rw [hheeds.isOk_iff]
    simp only [violations, List.forall_mem_flatMap, List.forall_mem_map]
    rfl
  . exact fun _ => isNormalized_validate hnames hdata
  . intro e he
    rw [he] at hheeds
    exact hheeds.of_error

theorem validate_exact_of_number :
    let f : Field :=
      { id := "i", name := "n", displayName := "N", type := .number, required := true
        validation := some { min := some (.ofInt 1), max := some (.ofInt 10) } }
    validate [f] [("n", .text "7")] = .ok [("n", .int 7)] ∧
      (∀ rule ∈ f.rules, rule.IsMet (.text "7")) ∧
      Entries.IsNormalized [f] [("n", .text "7")] [("n", .int 7)] ∧
      ∃ before d after, violations [f] [("n", .text "12")] = before ++ d :: after ∧
        (∀ b ∈ before, b.IsAvoided) ∧ ¬ d.IsAvoided ∧ d = f.violation (.text "12") (.atMost "N" (.ofInt 10)) := by
  intro f
  have hnames : ([f].map (·.name)).Nodup := by decide
  have hmeasured {s : String} (hs : s.toList.length ≤ integerDigitLimit) :
      Entries.IsMeasured [f] [("n", .text s)] := by
    intro g hg _
    rw [List.mem_singleton.mp hg]
    exact Value.isMeasured_text hs
  obtain ⟨hmet, hnormal, -⟩ := validate_exact hnames (hmeasured (s := "7") (by decide))
  have hvalid : validate [f] [("n", .text "7")] = .ok [("n", .int 7)] := by decide +kernel
  obtain ⟨-, -, htold⟩ := validate_exact hnames (hmeasured (s := "12") (by decide))
  have hover : validate [f] [("n", .text "12")] =
      .error (.violation (f.violation (.text "12") (.atMost "N" (.ofInt 10)))) := by
    decide +kernel
  refine ⟨hvalid, hmet.mp ⟨_, hvalid⟩ f (List.mem_singleton_self f), hnormal _ hvalid, ?_⟩
  obtain ⟨before, d, after, hviolations, hbefore, hd, heq⟩ := htold _ hover
  exact ⟨before, d, after, hviolations, hbefore, hd, (Failure.violation.inj heq).symm⟩

end Fields

end TenantTables
