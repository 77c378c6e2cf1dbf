import TenantTables.Operation.Records
import TenantTables.Proofs.Record.Check
import TenantTables.Proofs.Value.Keyed

namespace TenantTables

namespace Outcome

theorem foldlM_keeps {P : β → Prop} {f : β → α → Outcome β} {as : List α} {b b' : β}
    (hkeep : ∀ b, ∀ a ∈ as, ∀ b', P b → f b a = .ok b' → P b') (hb : P b)
    (h : as.foldlM f b = .ok b') : P b' := by
  induction as generalizing b with
  | nil => exact Except.ok.inj h ▸ hb
  | cons a as ih =>
    rw [List.foldlM_cons] at h
    obtain ⟨c, hc, h⟩ := bind_eq_ok.mp h
    apply ih _ (hkeep b a List.mem_cons_self c hb hc) h
    intro b a ha
    exact hkeep b a (List.mem_cons_of_mem _ ha)

end Outcome

namespace Field

variable {f : Field} {v v' : Value}

end Field

inductive Formula.Gives (values : Entries) : Value → Prop where
  | null : Gives values .null
  | text (s : String) : Gives values (.text s)
  | int (n : Nat) : Gives values (.int n)
  | real (x : Binary64) : Gives values (.real x)
  | value {name : String} {v : Value} (h : values.get? name = some v) : Gives values v

namespace Formula

variable {values : Entries} {known : List String} {v : Value}

theorem gives_of_term {t : Term} (h : t.evaluate values known = .ok v) : Gives values v := by
  unfold Term.evaluate at h
  split at h
  . exact Except.ok.inj h ▸ .text _
  . exact Except.ok.inj h ▸ .int _
  . exact Except.ok.inj h ▸ .real _
  . split at h
    . next hget => exact Except.ok.inj h ▸ .value hget
    . split at h
      . exact Except.ok.inj h ▸ .null
      . simp at h

theorem gives_of_evaluate {formula : Formula} (h : formula.evaluate values known = .ok v) : Gives values v := by
  cases formula with
  | term t => exact gives_of_term h
  | add left right =>
    obtain ⟨_, -, h⟩ := Outcome.bind_eq_ok.mp h
    obtain ⟨_, -, h⟩ := Outcome.bind_eq_ok.mp h
    obtain ⟨_, -, h⟩ := Outcome.bind_eq_ok.mp h
    obtain ⟨_, -, h⟩ := Outcome.bind_eq_ok.mp h
    exact Except.ok.inj h ▸ .text _

theorem gives_of_compute {f : Field} (h : f.compute values known = .ok v) : Gives values v := by
  unfold Field.compute at h
  split at h
  . exact Except.ok.inj h ▸ .null
  . next formula _ =>
    split at h
    . exact Except.ok.inj h ▸ .null
    . split at h
      . next v' hv' =>
        cases hread : Formula.read formula with
        | error e => simp [hread, Bind.bind, Except.bind] at hv'
        | ok tree =>
          rw [hread] at hv'
          exact Except.ok.inj h ▸ gives_of_evaluate hv'
      . simp at h
      . simp at h
      . exact Except.ok.inj h ▸ .null

end Formula

namespace Records

end Records
end TenantTables
