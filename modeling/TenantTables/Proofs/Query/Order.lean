import Mathlib.Data.List.Perm.Basic
import TenantTables.Proofs.Storage.Writes

/-!
This module contains the order in which storage lists records: by a timestamp, and by identifier at the same
instant. Records with different identifiers never tie, so each direction lists them in one order only, which
is the other one reversed. Whatever is selected is listed in that order.
-/

namespace TenantTables

namespace Record

def Precedes (column : TimestampColumn) (a b : Record) : Prop :=
  (a.stamp column).instant < (b.stamp column).instant ∨
    ((a.stamp column).instant = (b.stamp column).instant ∧ a.id < b.id)

variable {column : TimestampColumn} {a b c : Record}

theorem notAfter_iff : a.notAfter column b = true ↔
    (a.stamp column).instant < (b.stamp column).instant ∨
      ((a.stamp column).instant = (b.stamp column).instant ∧ a.id ≤ b.id) := by
  simp [notAfter]

theorem notAfter_trans (hab : a.notAfter column b = true) (hbc : b.notAfter column c = true) :
    a.notAfter column c = true := by
  rw [notAfter_iff] at hab hbc ⊢
  rcases hab with hab | ⟨hab, hid⟩
  . rcases hbc with hbc | ⟨hbc, -⟩
    . left
      omega
    . left
      omega
  . rcases hbc with hbc | ⟨hbc, hid'⟩
    . left
      omega
    . right
      exact ⟨by omega, String.le_trans hid hid'⟩

theorem notAfter_total (column : TimestampColumn) (a b : Record) :
    (a.notAfter column b || b.notAfter column a) = true := by
  rw [Bool.or_eq_true, notAfter_iff, notAfter_iff]
  rcases Int.lt_trichotomy (a.stamp column).instant (b.stamp column).instant with hlt | heq | hlt
  . exact .inl (.inl hlt)
  . rcases String.le_total a.id b.id with hid | hid
    . exact .inl (.inr ⟨heq, hid⟩)
    . exact .inr (.inr ⟨heq.symm, hid⟩)
  . exact .inr (.inl hlt)

theorem precedes_of_notAfter (h : a.notAfter column b = true) (hne : a.id ≠ b.id) :
    a.Precedes column b := by
  rcases notAfter_iff.mp h with hlt | ⟨heq, hid⟩
  . exact .inl hlt
  . right
    refine ⟨heq, String.not_le.mp ?_⟩
    intro hid'
    exact hne (String.le_antisymm hid hid')

theorem not_precedes_of_precedes (h : a.Precedes column b) : ¬b.Precedes column a := by
  rintro (hlt | ⟨heq, hid⟩)
  . rcases h with hlt' | ⟨heq', -⟩ <;> omega
  . rcases h with hlt' | ⟨-, hid'⟩
    . omega
    . exact String.lt_asymm hid hid'

end Record

def Record.AreOrdered (column : TimestampColumn) (descending : Bool) (rs : List Record) : Prop :=
  rs.Pairwise fun a b => if descending then b.Precedes column a else a.Precedes column b

namespace Selection

theorem pairwise_ne_of_nodup {rs : List Record} (h : (rs.map (·.id)).Nodup) :
    rs.Pairwise fun a b => a.id ≠ b.id :=
  List.pairwise_map.mp h

theorem perm_arrange (q : Selection) (rs : List Record) : (q.arrange rs).Perm rs := by
  unfold arrange
  split <;> apply List.mergeSort_perm

theorem page_sublist (q : Selection) (rs : List Record) : (q.page rs).Sublist rs := by
  have hdrop := List.drop_sublist q.offset.toNat rs
  unfold page
  dsimp only
  split
  . split
    . exact hdrop
    . exact (List.take_sublist _ _).trans hdrop
  . exact hdrop

theorem pairwise_arrange (q : Selection) (rs : List Record) :
    (q.arrange rs).Pairwise fun a b =>
      if q.descending then b.notAfter q.column a = true else a.notAfter q.column b = true := by
  cases hdescending : q.descending with
  | true =>
    rw [arrange, if_pos hdescending]
    apply List.pairwise_mergeSort
    . intro a b c hba hcb
      exact Record.notAfter_trans hcb hba
    . intro a b
      exact Record.notAfter_total q.column b a
  | false =>
    rw [arrange, if_neg (by simp [hdescending])]
    apply List.pairwise_mergeSort
    . intro a b c
      exact Record.notAfter_trans
    . exact Record.notAfter_total q.column

theorem areOrdered_arrange (q : Selection) {rs : List Record} (h : (rs.map (·.id)).Nodup) :
    Record.AreOrdered q.column q.descending (q.arrange rs) := by
  have hne := pairwise_ne_of_nodup (((perm_arrange q rs).map _).nodup_iff.mpr h)
  apply ((pairwise_arrange q rs).and hne).imp
  rintro a b ⟨hab, hid⟩
  split at hab <;> simp only [*, reduceIte]
  . exact Record.precedes_of_notAfter hab (Ne.symm hid)
  . exact Record.precedes_of_notAfter hab hid

end Selection

theorem Record.sublist_of_filterAll_ok {filters : List Filter} {records found : List Record}
    (h : filterAll filters records = .ok found) : found.Sublist records := by
  unfold filterAll at h
  split at h
  . obtain rfl := Except.ok.inj h
    exact List.Sublist.refl _
  . split at h
    . contradiction
    . rw [← Except.ok.inj h]
      exact List.filter_sublist

theorem Store.sublist_arrange_of_select_ok {s : Store} {q : Selection} {rs : List Record}
    (h : s.select q = .ok rs) :
    ∃ found : List Record, found.Sublist (s.live q.tableId) ∧ rs.Sublist (q.arrange found) := by
  unfold select at h
  obtain ⟨_, -, h⟩ := Outcome.bind_eq_ok.mp h
  obtain ⟨_, -, h⟩ := Outcome.bind_eq_ok.mp h
  obtain ⟨filters, -, h⟩ := Outcome.bind_eq_ok.mp h
  obtain ⟨-, h⟩ := Outcome.ite_throw_eq_ok.mp h
  split at h
  . rw [← Except.ok.inj h]
    exact ⟨[], List.nil_sublist _, List.nil_sublist _⟩
  . obtain ⟨found, hfound, h⟩ := Outcome.bind_eq_ok.mp h
    rw [← Except.ok.inj h]
    exact ⟨_, List.filter_sublist.trans (Record.sublist_of_filterAll_ok hfound), q.page_sublist _⟩

theorem Record.eq_of_areOrdered {column : TimestampColumn} {descending : Bool} {rs qs : List Record}
    (hperm : rs.Perm qs) (hrs : AreOrdered column descending rs) (hqs : AreOrdered column descending qs) :
    rs = qs := by
  apply List.Perm.eq_of_pairwise _ hrs hqs hperm
  intro a b _ _ hab hba
  split at hab
  . exact absurd hba (by simpa [*] using not_precedes_of_precedes hab)
  . exact absurd hba (by simpa [*] using not_precedes_of_precedes hab)

theorem Record.areOrdered_reverse {column : TimestampColumn} {descending : Bool} {rs : List Record}
    (h : AreOrdered column descending rs) : AreOrdered column (!descending) rs.reverse := by
  rw [AreOrdered, List.pairwise_reverse]
  apply h.imp
  intro a b hab
  cases descending <;> exact hab

end TenantTables
