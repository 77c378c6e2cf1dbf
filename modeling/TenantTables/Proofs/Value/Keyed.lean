import Mathlib.Data.List.Perm.Subperm
import TenantTables.Value.Exchange
import TenantTables.Value.Equality

/-!
This module contains the values whose maps hold each key once, at every depth. Between such values it
does not matter which one is compared with which.
-/

namespace TenantTables

namespace Value

mutual

def isKeyed : Value → Bool
  | .list items => itemsKeyed items
  | .map entries => decide (entries.map (·.1)).Nodup && entriesKeyed entries
  | _ => true

def itemsKeyed : List Value → Bool
  | [] => true
  | v :: vs => isKeyed v && itemsKeyed vs

def entriesKeyed : List (String × Value) → Bool
  | [] => true
  | (_, v) :: es => isKeyed v && entriesKeyed es

end

theorem entriesKeyed_iff (es : List (String × Value)) :
    entriesKeyed es = true ↔ ∀ e ∈ es, e.2.isKeyed = true := by
  induction es with
  | nil => simp [entriesKeyed]
  | cons e es ih =>
    obtain ⟨k, v⟩ := e
    simp [entriesKeyed, ih]

theorem isKeyed_map (es : Entries) :
    (map es).isKeyed = true ↔ es.keys.Nodup ∧ ∀ e ∈ es, e.2.isKeyed = true := by
  rw [isKeyed, Bool.and_eq_true, decide_eq_true_eq, entriesKeyed_iff]
  rfl

end Value

namespace Entries

def isKeyed (es : Entries) : Bool :=
  (Value.map es).isKeyed

theorem mem_of_get? {es : Entries} {k : String} {v : Value} (h : es.get? k = some v) :
    (k, v) ∈ es := by
  induction es with
  | nil => simp at h
  | cons e es ih =>
    rw [get?_cons] at h
    split at h
    . next hk =>
      rw [← hk, ← Option.some.inj h]
      exact List.mem_cons_self
    . exact List.mem_cons_of_mem _ (ih h)

theorem get?_of_mem {es : Entries} (h : es.keys.Nodup) {k : String} {v : Value} (hmem : (k, v) ∈ es) :
    es.get? k = some v := by
  induction es with
  | nil => simp at hmem
  | cons e es ih =>
    rw [keys, List.map_cons, List.nodup_cons] at h
    rw [get?_cons]
    rcases List.mem_cons.mp hmem with heq | hmem
    . rw [← heq, if_pos rfl]
    . rw [if_neg, ih h.2 hmem]
      intro hk
      exact h.1 (List.mem_map.mpr ⟨(k, v), hmem, hk.symm⟩)

theorem mem_put {es : Entries} {k : String} {v : Value} {e : String × Value} (h : e ∈ es.put k v) :
    e ∈ es ∨ e = (k, v) := by
  unfold put at h
  split at h
  . obtain ⟨f, hf, hfe⟩ := List.mem_map.mp h
    split at hfe
    . exact .inr hfe.symm
    . exact .inl (hfe ▸ hf)
  . simpa using h

theorem put_of_notMem {es : Entries} {k : String} (h : k ∉ es.keys) (v : Value) :
    es.put k v = es ++ [(k, v)] := by
  rw [put, if_neg (mt (contains_iff_mem_keys es k).mp h)]

theorem overlay_of_nodup {es top : Entries} (h : keys (es ++ top) |>.Nodup) : es.overlay top = es ++ top := by
  induction top generalizing es with
  | nil => rw [List.append_nil]; rfl
  | cons e top ih =>
    have hnew : e.1 ∉ es.keys := by
      rw [keys, List.map_append, List.nodup_append] at h
      intro hmem
      exact h.2.2 _ hmem _ (List.mem_map_of_mem List.mem_cons_self) rfl
    show (es.put e.1 e.2).overlay top = _
    rw [put_of_notMem hnew, ih (by rwa [List.append_assoc]), List.append_assoc]
    rfl

theorem ofList_of_nodup {es : List (String × Value)} (h : keys es |>.Nodup) : ofList es = es :=
  overlay_of_nodup h

def tabulate (keys : List String) (f : String → Value) : Entries :=
  keys.map fun k => (k, f k)

@[simp]
theorem keys_tabulate (keys : List String) (f : String → Value) : (tabulate keys f).keys = keys := by
  rw [Entries.keys, tabulate, List.map_map]
  exact List.map_id _

theorem tabulate_congr {keys : List String} {f g : String → Value} (h : ∀ k ∈ keys, f k = g k) :
    tabulate keys f = tabulate keys g :=
  List.map_congr_left fun k hk => by rw [h k hk]

theorem ofList_tabulate {keys : List String} (h : keys.Nodup) (f : String → Value) :
    ofList (tabulate keys f) = tabulate keys f :=
  ofList_of_nodup (by rwa [keys_tabulate])

end Entries

namespace Value

theorem numbersAgree_comm (a b : Value) : numbersAgree a b = numbersAgree b a := by
  unfold numbersAgree
  rcases a.place? with _ | _ | p <;> rcases b.place? with _ | _ | q <;> try rfl
  exact Bool.beq_comm

theorem entriesAgree_iff (as bs : Entries) : entriesAgree as bs = true ↔
    ∀ e ∈ as, ∃ b, bs.get? e.1 = some b ∧ agrees e.2 b = true := by
  induction as with
  | nil => simp [entriesAgree]
  | cons e as ih =>
    obtain ⟨k, a⟩ := e
    rw [entriesAgree, Bool.and_eq_true, ih, List.forall_mem_cons]
    cases bs.get? k with
    | none => simp
    | some b => simp

theorem keys_subset_of_entriesAgree {as bs : Entries} (has : as.keys.Nodup)
    (hlength : as.length = bs.length) (h : entriesAgree as bs = true) : bs.keys ⊆ as.keys := by
  have hsubset : as.keys ⊆ bs.keys := by
    intro k hk
    obtain ⟨e, he, rfl⟩ := List.mem_map.mp hk
    obtain ⟨b, hb, -⟩ := (entriesAgree_iff as bs).mp h e he
    exact List.mem_map.mpr ⟨_, Entries.mem_of_get? hb, rfl⟩
  have hle : bs.keys.length ≤ as.keys.length := by
    simp [Entries.keys, hlength]
  exact ((has.subperm hsubset).perm_of_length_le hle).symm.subset

mutual

theorem agrees_symm : ∀ a b : Value, a.isKeyed = true → b.isKeyed = true → agrees a b = true →
    agrees b a = true
  | .list as, b => by
    intro ha hb h
    cases b with
    | list bs =>
      rw [isKeyed] at ha hb
      rw [agrees] at h ⊢
      exact itemsAgree_symm as bs ha hb h
    | _ => simp [agrees, numbersAgree, place?] at h
  | .map as, b => by
    intro ha hb h
    cases b with
    | map bs =>
      have hbs := ((isKeyed_map bs).mp hb).1
      rw [isKeyed_map] at ha
      rw [agrees, Bool.and_eq_true, beq_iff_eq] at h ⊢
      refine ⟨h.1.symm, ?_⟩
      rw [entriesAgree_iff]
      rintro ⟨k, b⟩ hb'
      have hk := keys_subset_of_entriesAgree ha.1 h.1 h.2 (List.mem_map.mpr ⟨_, hb', rfl⟩)
      obtain ⟨⟨k', a⟩, ha', rfl⟩ := List.mem_map.mp hk
      refine ⟨a, Entries.get?_of_mem ha.1 ha', ?_⟩
      obtain ⟨c, hc, hac⟩ := (entriesAgree_iff as bs).mp h.2 _ ha'
      rw [Entries.get?_of_mem hbs hb', Option.some.injEq] at hc
      rw [hc]
      exact agrees_symm_of_mem as _ ha' c (ha.2 _ ha') (hc ▸ ((isKeyed_map bs).mp hb).2 _ hb') hac
    | _ => simp [agrees, numbersAgree, place?] at h
  | .null, b => by cases b <;> simp [agrees, numbersAgree, place?]
  | .bool a, b => by
    intro _ _ h
    cases b <;> simp only [agrees] at h ⊢ <;> rw [numbersAgree_comm] <;> exact h
  | .int a, b => by
    intro _ _ h
    cases b <;> simp only [agrees] at h ⊢ <;> rw [numbersAgree_comm] <;> exact h
  | .real a, b => by
    intro _ _ h
    cases b <;> simp only [agrees] at h ⊢ <;> rw [numbersAgree_comm] <;> exact h
  | .text _, b => by
    cases b <;> simp [isKeyed, agrees, numbersAgree, place?]
    exact Eq.symm
  | .date _, b => by
    cases b <;> simp [isKeyed, agrees, numbersAgree, place?]
    exact Eq.symm
  | .moment _, b => by
    cases b <;> simp [isKeyed, agrees, numbersAgree, place?, Moment.agrees]
    intro hclock hinstant
    exact ⟨hclock.symm, hinstant.symm⟩
  | .uuid _, b => by
    cases b <;> simp [isKeyed, agrees, numbersAgree, place?]
    exact Eq.symm

theorem itemsAgree_symm : ∀ as bs : List Value, itemsKeyed as = true → itemsKeyed bs = true →
    itemsAgree as bs = true → itemsAgree bs as = true
  | [], bs => by cases bs <;> simp [itemsAgree]
  | a :: as, bs => by
    intro ha hb h
    cases bs with
    | nil => simp [itemsAgree] at h
    | cons b bs =>
      simp only [itemsKeyed, itemsAgree, Bool.and_eq_true] at ha hb h ⊢
      exact ⟨agrees_symm a b ha.1 hb.1 h.1, itemsAgree_symm as bs ha.2 hb.2 h.2⟩

theorem agrees_symm_of_mem : ∀ (as : List (String × Value)), ∀ e ∈ as, ∀ b : Value,
    e.2.isKeyed = true → b.isKeyed = true → agrees e.2 b = true → agrees b e.2 = true
  | [] => by simp
  | (k, a) :: as => by
    intro e he b
    rcases List.mem_cons.mp he with rfl | he
    . exact agrees_symm a b
    . exact agrees_symm_of_mem as e he b

end

end Value
end TenantTables
