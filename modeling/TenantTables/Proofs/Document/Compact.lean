import TenantTables.Proofs.Calendar.Exchange
import TenantTables.Proofs.Document.Reading
import TenantTables.Proofs.Identifier

/-!
This module contains the reading of documents whose absent parts are left out: each part is read as if it were
there.
-/

namespace TenantTables

namespace Entries

variable {es : Entries} {k : String} {v : Value}

theorem get?_present (h : es.keys.Nodup) : es.present.get? k = (es.get? k).filter fun v => !v.isNull := by
  induction es with
  | nil => rfl
  | cons e es ih =>
    obtain ⟨hhead, htail⟩ := List.nodup_cons.mp h
    have hrest := ih htail
    rw [present, List.filter_cons, get?_cons]
    by_cases hk : e.1 = k
    . subst hk
      have hnone : get? es e.1 = none := (get?_eq_none_iff es e.1).mpr hhead
      rw [if_pos rfl]
      cases hnull : e.2.isNull with
      | true =>
        rw [hnone] at hrest
        rw [Option.filter_some, hnull]
        exact hrest
      | false =>
        rw [Option.filter_some, hnull]
        exact (get?_cons e _ e.1).trans (if_pos rfl)
    . rw [if_neg hk]
      split
      . rw [get?_cons, if_neg hk]
        exact hrest
      . exact hrest

theorem get?_present_of_some (h : es.keys.Nodup) (hv : es.get? k = some v) (hnull : v.isNull = false) :
    es.present.get? k = some v := by
  rw [get?_present h, hv, Option.filter_some, hnull]
  rfl

theorem get?_present_of_null (h : es.keys.Nodup) (hv : es.get? k = some .null) : es.present.get? k = none := by
  rw [get?_present h, hv]
  rfl

theorem keys_present_subset (es : Entries) : es.present.keys ⊆ es.keys := by
  intro k hk
  obtain ⟨e, he, rfl⟩ := List.mem_map.mp hk
  exact List.mem_map_of_mem (List.mem_of_mem_filter he)

end Entries

namespace Document

variable {es : Entries} {key : String} {r : Reader α}

theorem noOthers_of_subset {keys : List String} (h : es.keys ⊆ keys) : noOthers es keys = .value () := by
  have hnone : es.filter (fun e => !keys.contains e.1) = [] := by
    refine List.filter_eq_nil_iff.mpr fun e he => ?_
    simpa using h (List.mem_map_of_mem he)
  rw [noOthers, hnone]
  rfl

section Present

variable {a : α} {o : Option α} {f : α → Value} {v : Value}

theorem required_present (h : es.keys.Nodup) (hv : es.get? key = some v) (hnull : v.isNull = false)
    (hr : r v = .value a) : required es.present key r = .value a :=
  required_eq_value.mpr ⟨v, Entries.get?_present_of_some h hv hnull, hr⟩

theorem optional_present {default : α} (h : es.keys.Nodup) (hv : es.get? key = some v) (hnull : v.isNull = false)
    (hr : r v = .value a) : optional es.present key default r = .value a :=
  optional_eq_value.mpr (.inr ⟨v, Entries.get?_present_of_some h hv hnull, hr⟩)

theorem nullable_of_not_isNull (hnull : v.isNull = false) (hr : r v = .value a) :
    Reader.nullable r v = .value (some a) := by
  have hmap : Reader.nullable r v = (r v).map some := by
    cases v <;> first | rfl | cases hnull
  rw [hmap, hr]
  rfl

theorem optional_present_ofOption (h : es.keys.Nodup) (hv : es.get? key = some (.ofOption f o))
    (hr : ∀ a, o = some a → (f a).isNull = false ∧ r (f a) = .value a) :
    optional es.present key none (Reader.nullable r) = .value o := by
  cases o with
  | none => exact optional_eq_value.mpr (.inl ⟨Entries.get?_present_of_null h hv, rfl⟩)
  | some a =>
    obtain ⟨hnull, hr⟩ := hr a rfl
    exact optional_present h hv hnull (nullable_of_not_isNull hnull hr)

theorem given_present_ofOption (h : es.keys.Nodup) (hv : es.get? key = some (.ofOption f o))
    (hr : ∀ a, o = some a → (f a).isNull = false ∧ r (f a) = .value a) :
    given es.present key (Reader.nullable r) = .value (o.map some) := by
  cases o with
  | none => exact given_eq_value.mpr (.inl ⟨Entries.get?_present_of_null h hv, rfl⟩)
  | some a =>
    obtain ⟨hnull, hr⟩ := hr a rfl
    refine given_eq_value.mpr (.inr ⟨f a, some a, Entries.get?_present_of_some h hv hnull, ?_, rfl⟩)
    exact nullable_of_not_isNull hnull hr

end Present

namespace Reader

theorem list_map {f : α → Value} {as : List α} (h : ∀ a ∈ as, r (f a) = .value a) :
    list r (.list (as.map f)) = .value as := by
  have hgo (i : Nat) : items.go r i (as.map f) = .value as := by
    induction as generalizing i with
    | nil => rfl
    | cons a as ih =>
      rw [List.forall_mem_cons] at h
      rw [List.map_cons, items.go, h.1, ih h.2]
      rfl
  exact hgo 0

theorem choice_of_lookup {names : List (String × α)} {s : String} {a : α} (h : names.lookup s = some a) :
    choice names (.text s) = .value a := by
  simp only [choice, h]

theorem identifier_print (n : Nat) : identifier (.text (Identifier.print n)) = .value (Identifier.print n) := by
  unfold identifier ruled Ruling.identifier
  dsimp only
  rw [Identifier.normalize_print]

theorem moment_printExchange {label : String} {m : Moment} (h : m.IsOnMinute) :
    moment label (.text m.printExchange) = .value m := by
  have haware : m.isAware = true := by
    obtain ⟨o, ho, -⟩ := h
    rw [Moment.isAware, ho]
    rfl
  have hrule : Ruling.moment label (.text m.printExchange) = .ok m := by
    unfold Ruling.moment
    dsimp only
    rw [IsoReader.read_printExchange h]
    dsimp only
    rw [Ruling.aware, if_pos haware]
    rfl
  rw [moment, ruled, hrule]

end Reader
end Document
end TenantTables
