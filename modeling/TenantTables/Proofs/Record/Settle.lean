import TenantTables.Proofs.Operation.Settle
import TenantTables.Proofs.Record.Computed
import TenantTables.Proofs.Record.Denote

namespace TenantTables

def Value.isStorable (v : Value) : Bool :=
  v.isPlain && !v.isLong

def Entries.AreStorable (es : Entries) : Prop :=
  ∀ e ∈ es, e.2.isStorable = true

namespace Entries

variable {es : Entries} {v : Value}

theorem areStorable_put (h : es.AreStorable) (key : String) (hv : v.isStorable = true) :
    (es.put key v).AreStorable := by
  intro e he
  rcases mem_put he with he | rfl
  . exact h e he
  . exact hv

theorem areStorable_filter (h : es.AreStorable) (p : String × Value → Bool) : AreStorable (es.filter p) :=
  fun e he => h e (List.mem_filter.mp he).1

theorem isStorable_get (h : es.AreStorable) (key : String) : (es.get key).isStorable = true := by
  rcases get_eq_null_or_mem es key with hnull | hmem
  . rw [hnull]
    rfl
  . exact h _ hmem

theorem isLong_get (h : es.AreStorable) (key : String) : (es.get key).isLong = false := by
  have hget := isStorable_get h key
  rw [Value.isStorable, Bool.and_eq_true, Bool.not_eq_true'] at hget
  exact hget.2

theorem isPlain_of_areStorable (h : es.AreStorable) : (Value.map es).isPlain = true := by
  rw [Value.isPlain_map_iff]
  intro e he
  have hvalue := h e he
  rw [Value.isStorable, Bool.and_eq_true] at hvalue
  exact hvalue.1

end Entries

namespace Outcome

theorem isSettled_map {r : Outcome α} (h : r.isSettled = true) (f : α → β) :
    Outcome.isSettled (r.map f) = true := by
  cases r <;> exact h

theorem isSettled_foldlM {f : β → α → Outcome β} {as : List α} (b : β)
    (h : ∀ a ∈ as, ∀ b, (f b a).isSettled = true) : Outcome.isSettled (as.foldlM f b) = true := by
  induction as generalizing b with
  | nil => rfl
  | cons a as ih =>
    rw [List.forall_mem_cons] at h
    rw [List.foldlM_cons, isSettled_bind]
    exact ⟨h.1 b, fun c _ => ih c h.2⟩

theorem isSettled_ite {c : Prop} [Decidable c] {r s : Outcome α} (hr : r.isSettled = true)
    (hs : s.isSettled = true) : Outcome.isSettled (if c then r else s) = true := by
  split
  . exact hr
  . exact hs

theorem isSettled_forM {f : α → Outcome Unit} {as : List α} (h : ∀ a ∈ as, (f a).isSettled = true) :
    Outcome.isSettled (as.forM f) = true := by
  induction as with
  | nil => rfl
  | cons a as ih =>
    rw [List.forall_mem_cons] at h
    exact isSettled_bind.mpr ⟨h.1, fun _ _ => ih h.2⟩

end Outcome

namespace Field

variable {f : Field} {v u : Value} {data : Entries}

theorem isStorable_number? (hv : v.isStorable = true) (h : number? v = .ok (some u)) : u.isStorable = true := by
  unfold number? at h
  split at h
  . obtain rfl := Option.some.inj (Except.ok.inj h)
    exact hv
  . have h := Except.ok.inj h
    split at h
    . contradiction
    . obtain rfl := Option.some.inj h
      rfl
  . split at h
    . simp at h
    . next whole _ =>
      split at h
      . simp at h
      . next hlimit =>
        obtain rfl := Option.some.inj (Except.ok.inj h)
        rw [Value.isStorable, Formula.isLong_of_length_le]
        . rfl
        . calc Text.natOfDigits whole
            _ < 10 ^ whole.length := Text.natOfDigits_lt whole
            _ ≤ 10 ^ integerDigitLimit := Nat.pow_le_pow_right (by decide) (Nat.not_lt.mp hlimit)
    . obtain rfl := Option.some.inj (Except.ok.inj h)
      rfl
  . simp at h

theorem isStorable_check (hv : v.isStorable = true) (h : f.check v = .ok u) : u.isStorable = true := by
  unfold check at h
  split at h
  . exact isStorable_number? hv (number?_of_checkNumber h)
  . obtain ⟨b, rfl⟩ := checkBoolean_ok h
    rfl
  . unfold checkDate at h
    split at h
    . exact Except.ok.inj h ▸ rfl
    . exact Except.ok.inj h ▸ rfl
    . split at h
      . exact Except.ok.inj h ▸ rfl
      . simp [reject] at h
    . simp [reject] at h
  . obtain ⟨rfl, -⟩ := checkText_ok h
    exact hv
  . exact Except.ok.inj h ▸ hv
  . exact Except.ok.inj h ▸ hv

theorem isSettled_checkBounds (f : Field) (v : Value) (place : Binary64.Place)
    (low high : String → Binary64 → Rule) : Outcome.isSettled (f.checkBounds v place low high) = true := by
  unfold checkBounds
  dsimp only
  cases (f.validation.getD {}).min <;> cases (f.validation.getD {}).max
  . rfl
  . exact Outcome.isSettled_ite rfl rfl
  . exact Outcome.isSettled_ite rfl rfl
  . exact Outcome.isSettled_ite rfl (Outcome.isSettled_ite rfl rfl)

theorem isSettled_checkNumber (f : Field) (hv : v.IsMeasured) : Outcome.isSettled (f.checkNumber v) = true := by
  rcases number?_spec hv with ⟨n, hn, -⟩ | ⟨hn, -⟩
  . obtain ⟨place, hplace⟩ := place?_of_number? hn
    simp only [checkNumber, hn, hplace, Outcome.ok_bind]
    exact Outcome.isSettled_bind.mpr ⟨isSettled_checkBounds _ _ _ _ _, fun _ _ => rfl⟩
  . rw [checkNumber, hn]
    rfl

theorem isSettled_checkText (f : Field) (v : Value) : Outcome.isSettled (f.checkText v) = true := by
  unfold checkText
  split
  . next s =>
    have hbounds : Outcome.isSettled (do
        f.checkBounds (.text s) (.ofInt s.length) .longEnough .shortEnough
        return Value.text s) = true :=
      Outcome.isSettled_bind.mpr ⟨isSettled_checkBounds _ _ _ _ _, fun _ _ => rfl⟩
    dsimp only
    split
    . exact Outcome.isSettled_ite rfl hbounds
    . exact hbounds
  . rfl

theorem isSettled_check (hv : f.type = .number → v.IsMeasured) : Outcome.isSettled (f.check v) = true := by
  unfold check
  split
  . next hnumber => exact isSettled_checkNumber f (hv hnumber)
  . unfold checkBoolean
    split <;> rfl
  . unfold checkDate
    split
    . rfl
    . rfl
    . split <;> rfl
    . rfl
  . exact isSettled_checkText f v
  . rfl
  . rfl

theorem isSettled_accept (hdata : f.type = .number → (data.get f.name).IsMeasured) :
    Outcome.isSettled (f.accept data) = true :=
  Outcome.isSettled_ite rfl (Outcome.isSettled_ite rfl (Outcome.isSettled_map (isSettled_check hdata) some))

theorem isSettled_ensureUnique (f : Field) (v : Value) (records : List Record) :
    Outcome.isSettled (f.ensureUnique v records) = true := by
  unfold ensureUnique
  split <;> rfl

end Field

section Data

variable {fields : List Field} {data data' : Entries}

theorem isSettled_validate (h : ∀ f ∈ fields, f.type = .number → (data.get f.name).IsMeasured) :
    Outcome.isSettled (validate fields data) = true := by
  refine Outcome.isSettled_foldlM data fun f hf accepted => ?_
  refine Outcome.isSettled_bind.mpr ⟨Field.isSettled_accept (h f hf), fun o _ => ?_⟩
  cases o <;> rfl

theorem areStorable_validate (hdata : data.AreStorable) (h : validate fields data = .ok data') :
    data'.AreStorable := by
  refine Outcome.foldlM_keeps (P := Entries.AreStorable) ?_ hdata h
  intro es f _ es' hes h
  obtain ⟨o, ho, h⟩ := Outcome.bind_eq_ok.mp h
  rcases accept_ok ho with ⟨rfl, -⟩ | ⟨u, rfl, hcheck⟩
  . exact Except.ok.inj h ▸ hes
  . exact Except.ok.inj h ▸
      Entries.areStorable_put hes f.name (Field.isStorable_check (Entries.isStorable_get hdata f.name) hcheck)

theorem isPlain_computeFields (hdata : (Value.map data).isPlain = true) (h : computeFields fields data = .ok data') :
    (Value.map data').isPlain = true := by
  rw [Value.isPlain_map_iff] at hdata ⊢
  rw [computeFields_eq] at h
  refine Outcome.foldlM_keeps (P := fun es : Entries => ∀ e ∈ es, e.2.isPlain = true) ?_ ?_ h
  . intro es f _ es' hes h
    obtain ⟨v, hv, h⟩ := Outcome.bind_eq_ok.mp h
    obtain rfl := Except.ok.inj h
    intro e he
    rcases Entries.mem_put he with he | rfl
    . exact hes e he
    . cases Formula.gives_of_compute hv with
      | value hget =>
        have hplain := hes _ (Entries.mem_of_get? hget)
        exact hplain
      | _ => rfl
  . exact fun e he => hdata e (List.mem_filter.mp he).1

def Field.IsLegible (f : Field) : Prop :=
  f.isComputed = true → ∀ formula, f.formula = some formula → Formula.IsReadable formula

theorem exists_computeFields (hfields : ∀ f ∈ fields, f.IsLegible) (hdata : data.AreStorable) :
    ∃ data', computeFields fields data = .ok data' ∧ (Value.map data').isPlain = true := by
  have hinputs : (inputs fields data).AreStorable := Entries.areStorable_filter hdata _
  have hsafe : ∀ f ∈ fields, f.isComputed = true → f.IsSafe (inputs fields data) :=
    fun f hf hcomputed => ⟨hfields f hf hcomputed, fun _ _ _ _ name _ => Entries.isLong_get hinputs name⟩
  obtain ⟨data', hdata', -⟩ := computeFields_of_isSafe hsafe
  exact ⟨data', hdata', isPlain_computeFields (Entries.isPlain_of_areStorable hdata) hdata'⟩

end Data

namespace Records

variable {fields : List Field} {payload data : Entries}

theorem areStorable_withDefaults (hfields : ∀ f ∈ fields, f.defaultValue.isStorable = true)
    (hdata : data.AreStorable) : (withDefaults fields data).AreStorable := by
  unfold withDefaults
  induction fields generalizing data with
  | nil => exact hdata
  | cons f fields ih =>
    rw [List.forall_mem_cons] at hfields
    rw [List.foldl_cons]
    apply ih hfields.2
    split
    . exact Entries.areStorable_put hdata f.name hfields.1
    . exact hdata

theorem isSettled_newData (hdefaults : ∀ f ∈ fields, f.defaultValue.isStorable = true)
    (hfields : ∀ f ∈ fields, f.IsLegible) (hpayload : payload.AreStorable)
    (hmeasured : ∀ f ∈ fields, f.type = .number → (payload.get f.name).IsMeasured) :
    Outcome.isSettled (newData fields payload) = true ∧
      ∀ data, newData fields payload = .ok data → (Value.map data).isPlain = true := by
  have haccepted : ∀ accepted, validate fields payload = .ok accepted →
      ∃ data, computeFields fields (withDefaults fields accepted) = .ok data ∧ (Value.map data).isPlain = true :=
    fun accepted h =>
      exists_computeFields hfields (areStorable_withDefaults hdefaults (areStorable_validate hpayload h))
  constructor
  . refine Outcome.isSettled_bind.mpr ⟨isSettled_validate hmeasured, fun accepted h => ?_⟩
    obtain ⟨data, hdata, -⟩ := haccepted accepted h
    rw [hdata]
    rfl
  . intro data hdata
    obtain ⟨accepted, h, hdata⟩ := Outcome.bind_eq_ok.mp hdata
    obtain ⟨data', hdata', hplain⟩ := haccepted accepted h
    obtain rfl := Except.ok.inj (hdata'.symm.trans hdata)
    exact hplain

end Records
end TenantTables
