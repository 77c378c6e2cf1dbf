import TenantTables.Document.Rules
import TenantTables.Failure

namespace TenantTables.Document

namespace Reading

theorem map_eq_value {f : α → β} {r : Reading α} {b : β} :
    f <$> r = .value b ↔ ∃ a, r = .value a ∧ f a = b := by
  show r.map f = .value b ↔ _
  cases r <;> simp [map]

theorem map_map (g : β → γ) (f : α → β) (r : Reading α) : g <$> f <$> r = (g ∘ f) <$> r := by
  cases r <;> rfl

theorem map_seq (g : β → γ) (f : Reading (α → β)) (r : Reading α) :
    g <$> (f <*> r) = ((g ∘ ·) <$> f) <*> r := by
  cases f <;> cases r <;> rfl

theorem seq_eq_value {f : Reading (α → β)} {r : Reading α} {b : β} :
    f <*> r = .value b ↔ ∃ g a, f = .value g ∧ r = .value a ∧ g a = b := by
  show f.seq (fun _ => r) = .value b ↔ _
  cases f <;> cases r <;> simp [seq, map]

theorem andThen_eq_value {r : Reading α} {f : α → Reading β} {b : β} :
    r.andThen f = .value b ↔ ∃ a, r = .value a ∧ f a = .value b := by
  cases r <;> simp [andThen]

theorem under_eq_value {step : Step} {r : Reading α} {a : α} :
    r.under step = .value a ↔ r = .value a := by
  cases r <;> simp [under]

theorem toOutcome_eq_ok {r : Reading α} {a : α} : r.toOutcome = .ok a ↔ r = .value a := by
  cases r <;> simp [toOutcome]

theorem toRequest_eq_ok {r : Reading α} {a : α} : r.toRequest = .ok a ↔ r = .value a := by
  cases r <;> simp [toRequest]

theorem require_eq_value {rule : Except String α} {input : Value} {a : α} :
    require rule input = .value a ↔ rule = .ok a := by
  cases rule <;> simp [require, mismatch]

end Reading

variable {es : Entries} {key : String} {r : Reader α} {a : α}

theorem required_eq_value :
    required es key r = .value a ↔ ∃ v, es.get? key = some v ∧ r v = .value a := by
  unfold required
  cases es.get? key <;> simp [Reading.under_eq_value, Reading.mismatch]

theorem optional_eq_value {default : α} :
    optional es key default r = .value a ↔
      (es.get? key = none ∧ default = a) ∨ ∃ v, es.get? key = some v ∧ r v = .value a := by
  unfold optional
  cases es.get? key <;> simp [Reading.under_eq_value]

theorem given_eq_value {o : Option α} :
    given es key r = .value o ↔
      (es.get? key = none ∧ o = none) ∨ ∃ v a, es.get? key = some v ∧ r v = .value a ∧ o = some a := by
  unfold given
  cases es.get? key with
  | none => simp [eq_comm]
  | some v => cases hr : r v <;> simp [hr, Reading.map, Reading.under, eq_comm]

theorem required_of_get? {v : Value} (hv : es.get? key = some v) (h : required es key r = .value a) :
    r v = .value a := by
  obtain ⟨v', hv', h⟩ := required_eq_value.mp h
  rw [hv] at hv'
  exact Option.some.inj hv' ▸ h

theorem optional_of_get? {v : Value} {default : α} (hv : es.get? key = some v)
    (h : optional es key default r = .value a) : r v = .value a := by
  rcases optional_eq_value.mp h with ⟨hnone, -⟩ | ⟨v', hv', h⟩
  . rw [hv] at hnone
    simp at hnone
  . rw [hv] at hv'
    exact Option.some.inj hv' ▸ h

theorem given_of_get? {v : Value} {o : Option α} (hv : es.get? key = some v)
    (h : given es key r = .value o) : ∃ a, r v = .value a ∧ o = some a := by
  rcases given_eq_value.mp h with ⟨hnone, -⟩ | ⟨v', a, hv', ha, ho⟩
  . rw [hv] at hnone
    simp at hnone
  . rw [hv] at hv'
    exact ⟨a, Option.some.inj hv' ▸ ha, ho⟩

namespace Ruling

theorem snakeCase_ok {label s s' : String} (h : snakeCase label s = .ok s') :
    Text.isSnakeCase s = true ∧ s' = s := by
  unfold snakeCase at h
  split at h
  . next hsnake => exact ⟨hsnake, (Except.ok.inj h).symm⟩
  . simp at h

theorem nonBlank_ok {label s s' : String} (h : nonBlank label s = .ok s') :
    Text.isBlank s = false ∧ s' = s := by
  unfold nonBlank at h
  split at h
  . simp at h
  . next hblank => exact ⟨by simpa using hblank, (Except.ok.inj h).symm⟩

end Ruling

namespace Reader

theorem nullable_ofOption {f : α → Value} {o o' : Option α} (hnull : ∀ a, (f a).isNull = false)
    (hread : ∀ a a', r (f a) = .value a' → a' = a) (h : nullable r (.ofOption f o) = .value o') :
    o' = o := by
  cases o with
  | none => exact (Reading.value.inj h).symm
  | some a =>
    have hmap : nullable r (f a) = (r (f a)).map some := by
      have := hnull a
      cases hf : f a <;> simp_all [nullable, Value.isNull]
    rw [Value.ofOption, hmap] at h
    cases hr : r (f a) with
    | value a' =>
      rw [hr] at h
      rw [← hread a a' hr]
      exact (Reading.value.inj h).symm
    | _ => simp [hr, Reading.map] at h

theorem of_nullable {v : Value} (h : nullable r v = .value (some a)) : r v = .value a := by
  unfold nullable at h
  split at h
  . cases h
  . obtain ⟨a', ha, hsome⟩ := Reading.map_eq_value.mp h
    rwa [← Option.some.inj hsome]

theorem exists_of_optional (h : optional es key none (nullable r) = .value (some a)) :
    ∃ v, r v = .value a := by
  rcases optional_eq_value.mp h with ⟨-, hnone⟩ | ⟨v, -, h⟩
  . cases hnone
  . exact ⟨v, of_nullable h⟩

theorem exists_of_given {o : Option (Option α)} (h : given es key (nullable r) = .value o) (ho : o.join = some a) :
    ∃ v, r v = .value a := by
  rcases given_eq_value.mp h with ⟨-, rfl⟩ | ⟨v, part, -, hread, rfl⟩
  . cases ho
  . obtain rfl : part = some a := ho
    exact ⟨v, of_nullable hread⟩

theorem exists_of_mem_list {v : Value} {as : List α} (h : list r v = .value as) :
    ∀ a ∈ as, ∃ v, r v = .value a := by
  have hgo (i : Nat) (vs : List Value) (as : List α) (h : items.go r i vs = .value as) :
      ∀ a ∈ as, ∃ v, r v = .value a := by
    induction vs generalizing i as with
    | nil =>
      obtain rfl := Reading.value.inj h
      nofun
    | cons v vs ih =>
      rw [items.go, Reading.seq_eq_value] at h
      obtain ⟨_, rest, hhead, hrest, rfl⟩ := h
      obtain ⟨a, ha, rfl⟩ := Reading.map_eq_value.mp hhead
      rw [List.forall_mem_cons]
      exact ⟨⟨v, Reading.under_eq_value.mp ha⟩, ih (i + 1) rest hrest⟩
  cases v with
  | list vs => exact hgo 0 vs as h
  | _ => simp [list, Reading.mismatch] at h

theorem identifier_eq_value {v : Value} {s : String} (h : identifier v = .value s) :
    ∃ n, s = Identifier.print n := by
  unfold identifier ruled at h
  split at h
  . next s' hs =>
    obtain rfl := Reading.value.inj h
    unfold Ruling.identifier at hs
    split at hs
    . next n => exact ⟨n, (Except.ok.inj hs).symm⟩
    . next s =>
      split at hs
      . next s'' hnormal =>
        obtain rfl := Except.ok.inj hs
        unfold Identifier.normalize at hnormal
        cases hread : Identifier.read s with
        | ok n =>
          rw [hread] at hnormal
          exact ⟨n, (Except.ok.inj hnormal).symm⟩
        | error e => simp [hread, Except.map] at hnormal
      . simp at hs
    . simp at hs
  . simp [Reading.mismatch] at h
  . simp at h

theorem textWith_eq_value {rule : String → Except String String} {s s' : String}
    (h : textWith rule (.text s) = .value s') : rule s = .ok s' := by
  obtain ⟨t, ht, h⟩ := Reading.andThen_eq_value.mp h
  obtain rfl := Reading.value.inj ht
  exact Reading.require_eq_value.mp h

theorem any_eq_value {v v' : Value} : any v = .value v' ↔ v = v' := by
  rw [any, Reading.value.injEq]

theorem moment_eq_value {label : String} {m m' : Moment} :
    moment label (.moment m) = .value m' ↔ m.isAware = true ∧ m = m' := by
  cases haware : m.isAware with
  | true =>
    have hrule : Ruling.moment label (.moment m) = .ok m := by
      show (Ruling.aware m).mapError Refusal.reason = .ok m
      rw [Ruling.aware, if_pos haware]
      rfl
    rw [moment, ruled, hrule, Reading.value.injEq]
    simp
  | false =>
    have hrule : Ruling.moment label (.moment m) =
        .error (.reason "datetime must be timezone-aware") := by
      show (Ruling.aware m).mapError Refusal.reason = _
      rw [Ruling.aware, if_neg (by simp [haware])]
      rfl
    rw [moment, ruled, hrule]
    simp [Reading.mismatch]

end Reader
end TenantTables.Document
