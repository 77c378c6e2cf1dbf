import TenantTables.Proofs.Calendar.Iso
import TenantTables.Proofs.Storage.Writes
import TenantTables.Validation

namespace TenantTables

open Calendar

namespace Binary64

theorem isNan_ofParts (negative : Bool) (mantissa shift : Nat) :
    (ofParts negative mantissa shift).isNan = false := by
  unfold ofParts
  split <;> split <;> rfl

theorem isNan_ofDecimal (negative : Bool) (digits : Nat) (exponent : Int) :
    (ofDecimal negative digits exponent).isNan = false := by
  unfold ofDecimal
  dsimp only
  repeat' split
  all_goals first | rfl | apply isNan_ofParts

end Binary64

def Value.IsTimely (v : Value) : Prop :=
  ∀ m o, v = .moment m → m.offset = some o → o.natAbs < dayLength

namespace Field

variable {f : Field} {v v' u : Value}

def isChecked (f : Field) : Bool :=
  f.type ≠ .relation ∧ f.type ≠ .computed

def isNormal (f : Field) (v : Value) : Bool :=
  match f.type, v with
  | .text, .text _ => true
  | .number, .int _ => true
  | .number, .real x => !x.isNan
  | .boolean, .bool _ => true
  | .date, .text s => (IsoReader.read s).isOk
  | .relation, _ => true
  | .computed, _ => true
  | _, _ => false

theorem number?_ok {n : Value} (h : number? v = .ok (some n)) :
    (∃ i, n = .int i) ∨ ∃ x, n = .real x ∧ x.isNan = false := by
  unfold number? at h
  split at h
  . next i =>
    obtain rfl := Option.some.inj (Except.ok.inj h)
    exact .inl ⟨i, rfl⟩
  . next x =>
    have h := Except.ok.inj h
    split at h
    . simp at h
    . next hnan =>
      obtain rfl := Option.some.inj h
      exact .inr ⟨x, rfl, by simpa using hnan⟩
  . split at h
    . simp at h
    . split at h
      . simp at h
      . obtain rfl := Option.some.inj (Except.ok.inj h)
        exact .inl ⟨_, rfl⟩
    . obtain rfl := Option.some.inj (Except.ok.inj h)
      exact .inr ⟨_, rfl, Binary64.isNan_ofDecimal _ _ _⟩
  . simp at h

theorem number?_of_ok {n : Value} (h : number? v = .ok (some n)) : number? n = .ok (some n) := by
  rcases number?_ok h with ⟨i, rfl⟩ | ⟨x, rfl, hnan⟩
  . rfl
  . rw [number?, hnan]
    rfl

theorem place?_of_number? {n : Value} (h : number? v = .ok (some n)) :
    ∃ place, n.place? = some (some place) := by
  rcases number?_ok h with ⟨i, rfl⟩ | ⟨x, rfl, hnan⟩
  . exact ⟨.ofInt i, rfl⟩
  . cases x with
    | nan => simp [Binary64.isNan] at hnan
    | infinite negative => cases negative <;> exact ⟨_, rfl⟩
    | finite => exact ⟨_, rfl⟩

theorem checkBounds_eq_ok {place : Binary64.Place} {low high : String → Binary64 → Rule} :
    f.checkBounds v place low high = .ok () ↔
      (∀ bound, (f.validation.getD {}).min = some bound → place.isUnder bound = false) ∧
        ∀ bound, (f.validation.getD {}).max = some bound → place.isOver bound = false := by
  unfold checkBounds
  dsimp only
  cases (f.validation.getD {}).min with
  | none =>
    cases (f.validation.getD {}).max with
    | none => simp [pure, Except.pure]
    | some high => cases hover : place.isOver high <;> simp [hover, reject, pure, Except.pure]
  | some low =>
    cases hunder : place.isUnder low with
    | true => simp [hunder, reject, Bind.bind, Except.bind]
    | false =>
      cases (f.validation.getD {}).max with
      | none => simp [hunder, pure, Except.pure]
      | some high => cases hover : place.isOver high <;> simp [hunder, hover, reject, pure, Except.pure]

theorem checkNumber_eq_ok {n : Value} {place : Binary64.Place} (hn : number? v = .ok (some n))
    (hplace : n.place? = some (some place)) :
    f.checkNumber v = .ok u ↔ f.checkBounds v place .atLeast .atMost = .ok () ∧ u = n := by
  have hcheck : f.checkNumber v = (f.checkBounds v place .atLeast .atMost >>= fun _ => .ok n) := by
    simp [checkNumber, hn, hplace, Bind.bind, Except.bind, pure, Except.pure]
  rw [hcheck, Outcome.bind_eq_ok]
  constructor
  . rintro ⟨_, hbounds, h⟩
    exact ⟨hbounds, (Except.ok.inj h).symm⟩
  . rintro ⟨hbounds, rfl⟩
    exact ⟨(), hbounds, rfl⟩

theorem number?_of_checkNumber (h : f.checkNumber v = .ok u) : number? v = .ok (some u) := by
  have h' := h
  unfold checkNumber at h'
  obtain ⟨o, ho, h'⟩ := Outcome.bind_eq_ok.mp h'
  cases o with
  | none => simp [reject] at h'
  | some n =>
    obtain ⟨place, hplace⟩ := place?_of_number? ho
    obtain ⟨-, rfl⟩ := (checkNumber_eq_ok ho hplace).mp h
    exact ho

theorem checkNumber_of_number? {w n : Value} (h : f.checkNumber v = .ok u) (hw : number? w = .ok (some n))
    (hplace : n.place? = u.place?) : f.checkNumber w = .ok n := by
  have hu := number?_of_checkNumber h
  obtain ⟨place, hplaceU⟩ := place?_of_number? hu
  have hbounds := ((checkNumber_eq_ok hu hplaceU).mp h).1
  rw [checkNumber_eq_ok hw (hplace.trans hplaceU)]
  exact ⟨checkBounds_eq_ok.mpr (checkBounds_eq_ok.mp hbounds), rfl⟩

theorem checkText_ok (h : f.checkText v = .ok v') : v' = v ∧ ∃ s, v = .text s := by
  unfold checkText at h
  split at h
  . next s =>
    have hrest {rest : Outcome Unit} (hr : (do rest; return .text s) = Except.ok v') :
        v' = .text s ∧ ∃ s', Value.text s = .text s' := by
      obtain ⟨_, -, hr⟩ := Outcome.bind_eq_ok.mp hr
      exact ⟨(Except.ok.inj hr).symm, s, rfl⟩
    dsimp only at h
    split at h
    . split at h
      . simp [reject, Bind.bind, Except.bind] at h
      . exact hrest h
    . exact hrest h
  . simp [reject] at h

theorem checkBoolean_ok (h : f.checkBoolean v = .ok u) : ∃ b, u = .bool b := by
  unfold checkBoolean at h
  split at h
  . next b => exact ⟨b, (Except.ok.inj h).symm⟩
  . exact ⟨true, (Except.ok.inj h).symm⟩
  . exact ⟨false, (Except.ok.inj h).symm⟩
  . simp [reject] at h

theorem checkDate_ok (htimely : v.IsTimely) (h : f.checkDate v = .ok u) :
    ∃ s m, u = .text s ∧ Text.trim s = s ∧ IsoReader.read s = .ok m := by
  unfold checkDate at h
  split at h
  . next d =>
    have hprinted : ∀ c ∈ d.print.toList, IsoReader.isPrinted c = true :=
      fun _ => IsoReader.isPrinted_of_mem_print_date
    exact ⟨d.print, _, (Except.ok.inj h).symm, IsoReader.trim_of_isPrinted hprinted, IsoReader.read_print_date d⟩
  . next m =>
    have hprinted : ∀ c ∈ m.print.toList, IsoReader.isPrinted c = true :=
      fun _ => IsoReader.isPrinted_of_mem_print
    have hread := IsoReader.read_print_moment m fun o => htimely m o rfl
    exact ⟨m.print, _, (Except.ok.inj h).symm, IsoReader.trim_of_isPrinted hprinted, hread⟩
  . next s =>
    split at h
    . next m hread => exact ⟨Text.trim s, m, (Except.ok.inj h).symm, Text.trim_trim s, hread⟩
    . simp [reject] at h
  . simp [reject] at h

theorem check_of_check (htimely : v.IsTimely) (h : f.check v = .ok u) : f.check u = .ok u := by
  unfold check at h ⊢
  cases htype : f.type with
  | text =>
    rw [htype] at h
    obtain ⟨rfl, -⟩ := checkText_ok h
    exact h
  | number =>
    rw [htype] at h
    exact checkNumber_of_number? h (number?_of_ok (number?_of_checkNumber h)) rfl
  | boolean =>
    rw [htype] at h
    obtain ⟨b, rfl⟩ := checkBoolean_ok h
    rfl
  | date =>
    rw [htype] at h
    obtain ⟨s, m, rfl, htrim, hread⟩ := checkDate_ok htimely h
    simp only [checkDate, htrim, hread]
  | relation => rfl
  | computed => rfl

theorem isNormal_of_check (htimely : v.IsTimely) (h : f.check v = .ok u) : f.isNormal u = true := by
  unfold check at h
  unfold isNormal
  cases htype : f.type with
  | text =>
    rw [htype] at h
    obtain ⟨rfl, s, rfl⟩ := checkText_ok h
    rfl
  | number =>
    rw [htype] at h
    rcases number?_ok (number?_of_checkNumber h) with ⟨i, rfl⟩ | ⟨x, rfl, hnan⟩
    . rfl
    . simp [hnan]
  | boolean =>
    rw [htype] at h
    obtain ⟨b, rfl⟩ := checkBoolean_ok h
    rfl
  | date =>
    rw [htype] at h
    obtain ⟨s, m, rfl, -, hread⟩ := checkDate_ok htimely h
    simp [hread, Except.isOk, Except.toBool]
  | relation => rfl
  | computed => rfl

def Admits (f : Field) (v : Value) : Prop :=
  v.isNull = true ∨ (f.check v = .ok v ∧ f.isNormal v = true)

instance (f : Field) (v : Value) : Decidable (f.Admits v) :=
  inferInstanceAs (Decidable (v.isNull = true ∨ (f.check v = .ok v ∧ f.isNormal v = true)))

theorem admits_of_check (htimely : v.IsTimely) (h : f.check v = .ok u) : f.Admits u :=
  .inr ⟨check_of_check htimely h, isNormal_of_check htimely h⟩

end Field
end TenantTables
