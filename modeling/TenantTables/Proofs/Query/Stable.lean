import TenantTables.Proofs.Query.Sort

namespace TenantTables

namespace Sorting

variable {α : Type} {before : α → α → Bool}

/--
Among some elements, none is before one that is before it, and whatever comes third is after the first or before the
last of two that are in order.
-/
structure IsWeakOrder (before : α → α → Bool) (xs : List α) : Prop where
  asymm : ∀ a ∈ xs, ∀ b ∈ xs, before a b = true → before b a = false
  split : ∀ a ∈ xs, ∀ b ∈ xs, ∀ c ∈ xs, before a c = true → before a b = true ∨ before b c = true

def IsRising (before : α → α → Bool) (xs : List α) : Prop :=
  xs.Pairwise fun a b => before b a = false

namespace IsWeakOrder

variable {xs ys : List α} {a b c : α}

theorem of_subset (h : IsWeakOrder before xs) (hsub : ys ⊆ xs) : IsWeakOrder before ys :=
  ⟨fun a ha b hb => h.asymm a (hsub ha) b (hsub hb),
    fun a ha b hb c hc => h.split a (hsub ha) b (hsub hb) c (hsub hc)⟩

theorem of_key {κ : Type} (key : α → κ → Prop) (lt : κ → κ → Bool) (descending : Bool)
    (hasymm : ∀ k l, lt k l = true → lt l k = false)
    (hsplit : ∀ k l m, lt k m = true → lt k l = true ∨ lt l m = true)
    (hkey : ∀ a ∈ xs, ∃ k, key a k)
    (hbefore : ∀ a b k l, key a k → key b l → before a b = if descending then lt l k else lt k l) :
    IsWeakOrder before xs := by
  constructor
  . intro a ha b hb
    obtain ⟨k, hk⟩ := hkey a ha
    obtain ⟨l, hl⟩ := hkey b hb
    rw [hbefore a b k l hk hl, hbefore b a l k hl hk]
    cases descending
    . exact hasymm k l
    . exact hasymm l k
  . intro a ha b hb c hc
    obtain ⟨k, hk⟩ := hkey a ha
    obtain ⟨l, hl⟩ := hkey b hb
    obtain ⟨m, hm⟩ := hkey c hc
    rw [hbefore a b k l hk hl, hbefore b c l m hl hm, hbefore a c k m hk hm]
    cases descending
    . exact hsplit k l m
    . exact fun h => (hsplit m l k h).symm

theorem not_before_trans (h : IsWeakOrder before xs) (ha : a ∈ xs) (hb : b ∈ xs) (hc : c ∈ xs)
    (hba : before b a = false) (hcb : before c b = false) : before c a = false := by
  rw [Bool.eq_false_iff]
  intro hca
  rcases h.split c hc b hb a ha hca with hbefore | hbefore <;> simp_all

theorem before_trans (h : IsWeakOrder before xs) (ha : a ∈ xs) (hb : b ∈ xs) (hc : c ∈ xs)
    (hba : before b a = true) (hcb : before c b = true) : before c a = true := by
  rcases h.split c hc a ha b hb hcb with hca | hab
  . exact hca
  . rw [h.asymm b hb a ha hba] at hab
    contradiction

end IsWeakOrder

section Runs

variable {last : α} {xs : List α}

theorem risingRun_subset (before : α → α → Bool) (last : α) (xs : List α) : (risingRun before last xs).1 ⊆ xs := by
  intro x hx
  rw [← risingRun_append before last xs]
  exact List.mem_append_left _ hx

theorem fallingRun_subset (before : α → α → Bool) (last : α) (xs : List α) :
    (fallingRun before last xs).1 ⊆ xs := by
  intro x hx
  rw [← fallingRun_append before last xs]
  exact List.mem_append_left _ hx

theorem isRising_risingRun (h : IsWeakOrder before (last :: xs)) :
    IsRising before (last :: (risingRun before last xs).1) := by
  induction xs generalizing last with
  | nil => exact List.pairwise_singleton _ _
  | cons x xs ih =>
    unfold risingRun
    split
    . exact List.pairwise_singleton _ _
    . next hx =>
      have hrest := ih (h.of_subset (List.subset_cons_self _ _))
      refine List.pairwise_cons.mpr ⟨?_, hrest⟩
      rw [List.forall_mem_cons]
      refine ⟨by simpa using hx, fun y hy => ?_⟩
      have hy' : y ∈ last :: x :: xs := by simp [risingRun_subset before x xs hy]
      exact h.not_before_trans (by simp) (by simp) hy' (by simpa using hx) ((List.pairwise_cons.mp hrest).1 y hy)

theorem pairwise_fallingRun (h : IsWeakOrder before (last :: xs)) :
    (last :: (fallingRun before last xs).1).Pairwise fun a b => before b a = true := by
  induction xs generalizing last with
  | nil => exact List.pairwise_singleton _ _
  | cons x xs ih =>
    unfold fallingRun
    split
    . next hx =>
      have hrest := ih (h.of_subset (List.subset_cons_self _ _))
      refine List.pairwise_cons.mpr ⟨?_, hrest⟩
      rw [List.forall_mem_cons]
      refine ⟨hx, fun y hy => ?_⟩
      have hy' : y ∈ last :: x :: xs := by simp [fallingRun_subset before x xs hy]
      exact h.before_trans (by simp) (by simp) hy' hx ((List.pairwise_cons.mp hrest).1 y hy)
    . exact List.pairwise_singleton _ _

theorem isRising_firstRun (h : IsWeakOrder before xs) : IsRising before (firstRun before xs).1 := by
  unfold firstRun
  split
  . exact List.Pairwise.nil
  . exact List.pairwise_singleton _ _
  . next x y rest =>
    split
    . next hyx =>
      have hfalling : (x :: (fallingRun before x (y :: rest)).1).Pairwise fun a b => before b a = true :=
        pairwise_fallingRun h
      rw [fallingRun, if_pos hyx] at hfalling
      refine List.pairwise_reverse.mpr (hfalling.imp_of_mem fun ha hb hba => ?_)
      have hsub : x :: y :: (fallingRun before y rest).1 ⊆ x :: y :: rest :=
        List.cons_subset_cons x (List.cons_subset_cons y (fallingRun_subset before y rest))
      exact h.asymm _ (hsub hb) _ (hsub ha) hba
    . next hyx =>
      have hrising : IsRising before (x :: (risingRun before x (y :: rest)).1) := isRising_risingRun h
      rwa [risingRun, if_neg hyx] at hrising

end Runs

section Ties

variable {xs : List α} {same : α → Bool}

def Ties (before : α → α → Bool) (same : α → Bool) (xs : List α) : Prop :=
  ∀ a ∈ xs, ∀ b ∈ xs, same a = true → same b = true → before a b = false

theorem filter_reverse_of_falling (hties : Ties before same xs)
    (h : xs.Pairwise fun a b => before b a = true) : xs.reverse.filter same = xs.filter same := by
  rw [List.filter_reverse]
  have hfalling := h.filter same
  have hmem : ∀ a ∈ xs.filter same, a ∈ xs ∧ same a = true := fun a => List.mem_filter.mp
  generalize xs.filter same = kept at hfalling hmem
  match kept with
  | [] => rfl
  | [a] => rfl
  | a :: b :: kept =>
    obtain ⟨ha, hsameA⟩ := hmem a (by simp)
    obtain ⟨hb, hsameB⟩ := hmem b (by simp)
    have hba := (List.pairwise_cons.mp hfalling).1 b (by simp)
    rw [hties b hb a ha hsameB hsameA] at hba
    contradiction

theorem filter_parts {p : α → Bool} {part : Bool} (h : ∀ x ∈ xs, same x = true → p x = part) :
    (xs.filter (!p ·)).filter same ++ (xs.filter p).filter same = xs.filter same := by
  rw [List.filter_filter, List.filter_filter]
  cases part with
  | true =>
    have hnone : xs.filter (fun x => same x && !p x) = [] :=
      List.filter_eq_nil_iff.mpr fun x hx => by cases hsame : same x <;> simp_all
    rw [hnone, List.nil_append]
    exact List.filter_congr fun x hx => by cases hsame : same x <;> simp_all
  | false =>
    have hnone : xs.filter (fun x => same x && p x) = [] :=
      List.filter_eq_nil_iff.mpr fun x hx => by cases hsame : same x <;> simp_all
    rw [hnone, List.append_nil]
    exact List.filter_congr fun x hx => by cases hsame : same x <;> simp_all

theorem filter_firstRun (h : IsWeakOrder before xs) (hties : Ties before same xs) :
    ((firstRun before xs).1 ++ (firstRun before xs).2).filter same = xs.filter same := by
  unfold firstRun
  split
  . rfl
  . rfl
  . next x y rest =>
    split
    . next hyx =>
      have hfalling : (x :: (fallingRun before x (y :: rest)).1).Pairwise fun a b => before b a = true :=
        pairwise_fallingRun h
      rw [fallingRun, if_pos hyx] at hfalling
      have hsub : x :: y :: (fallingRun before y rest).1 ⊆ x :: y :: rest :=
        List.cons_subset_cons x (List.cons_subset_cons y (fallingRun_subset before y rest))
      have hreverse := filter_reverse_of_falling
        (fun a ha b hb => hties a (hsub ha) b (hsub hb)) hfalling
      rw [List.filter_append, hreverse, ← List.filter_append, List.cons_append, List.cons_append,
        fallingRun_append]
    . show (x :: y :: (risingRun before y rest).1 ++ (risingRun before y rest).2).filter same = _
      rw [List.cons_append, List.cons_append, risingRun_append]

end Ties

section Insertion

variable {sorted rest : List α} {x : α} {same : α → Bool}

theorem place_spec (h : IsWeakOrder before (x :: sorted)) (hsorted : IsRising before sorted) (low high : Nat)
    (hhigh : high ≤ sorted.length) (hlow : ∀ y ∈ sorted.take low, before x y = false)
    (hup : ∀ y ∈ sorted.drop high, before x y = true) (hle : low ≤ high) :
    (∀ y ∈ sorted.take (place before sorted x low high), before x y = false) ∧
      ∀ y ∈ sorted.drop (place before sorted x low high), before x y = true := by
  fun_induction place before sorted x low high with
  | case1 low high hlt middle y hy hxy ih =>
    have hmiddle : middle = low + (high - low) / 2 := rfl
    refine ih (by omega) hlow ?_ (by omega)
    obtain ⟨hlt, rfl⟩ := List.getElem?_eq_some_iff.mp hy
    have hparts := List.take_append_drop middle sorted
    rw [List.drop_eq_getElem_cons hlt] at hparts ⊢
    rw [IsRising, ← hparts, List.pairwise_append, List.pairwise_cons] at hsorted
    rw [List.forall_mem_cons]
    refine ⟨hxy, fun z hz => ?_⟩
    have hz' : z ∈ sorted := List.mem_of_mem_drop hz
    rcases h.split x (by simp) z (by simp [hz']) sorted[middle] (by simp) hxy with hxz | hzy
    . exact hxz
    . rw [hsorted.2.1.1 z hz] at hzy
      contradiction
  | case2 low high hlt middle y hy hxy ih =>
    have hmiddle : middle = low + (high - low) / 2 := rfl
    refine ih hhigh ?_ hup (by omega)
    obtain ⟨hlt, rfl⟩ := List.getElem?_eq_some_iff.mp hy
    have hparts := List.take_append_drop middle sorted
    rw [List.drop_eq_getElem_cons hlt] at hparts
    rw [IsRising, ← hparts, List.pairwise_append] at hsorted
    rw [List.take_succ_eq_append_getElem hlt]
    intro z hz
    rcases List.mem_append.mp hz with hz | hz
    . have hz' : z ∈ sorted := List.mem_of_mem_take hz
      have hyz := hsorted.2.2 z hz sorted[middle] List.mem_cons_self
      exact h.not_before_trans (by simp [hz']) (by simp) (by simp) hyz (by simpa using hxy)
    . rw [List.mem_singleton.mp hz]
      simpa using hxy
  | case3 low high hlt middle hnone =>
    have hmiddle : middle = low + (high - low) / 2 := rfl
    have hout := List.getElem?_eq_none_iff.mp hnone
    omega
  | case4 low high hnot =>
    obtain rfl : low = high := by omega
    exact ⟨hlow, hup⟩

theorem insert_spec (h : IsWeakOrder before (x :: sorted)) (hsorted : IsRising before sorted) :
    ∃ front back, sorted = front ++ back ∧ insert before sorted x = front ++ x :: back ∧
      (∀ y ∈ front, before x y = false) ∧ ∀ y ∈ back, before x y = true := by
  obtain ⟨hfront, hback⟩ := place_spec h hsorted 0 sorted.length (Nat.le_refl _) (by simp) (by simp) (Nat.zero_le _)
  exact ⟨_, _, (List.take_append_drop _ sorted).symm, rfl, hfront, hback⟩

theorem isRising_insert (h : IsWeakOrder before (x :: sorted)) (hsorted : IsRising before sorted) :
    IsRising before (insert before sorted x) := by
  obtain ⟨front, back, rfl, hinsert, hfront, hback⟩ := insert_spec h hsorted
  rw [hinsert]
  obtain ⟨hrising, hrising', hacross⟩ := List.pairwise_append.mp hsorted
  refine List.pairwise_append.mpr ⟨hrising, List.pairwise_cons.mpr ⟨fun y hy => ?_, hrising'⟩, fun y hy z hz => ?_⟩
  . exact h.asymm x (by simp) y (by simp [hy]) (hback y hy)
  . rcases List.mem_cons.mp hz with rfl | hz
    . exact hfront y hy
    . exact hacross y hy z hz

theorem filter_insert (h : IsWeakOrder before (x :: sorted)) (hties : Ties before same (x :: sorted))
    (hsorted : IsRising before sorted) : (insert before sorted x).filter same = (sorted ++ [x]).filter same := by
  obtain ⟨front, back, rfl, hinsert, -, hback⟩ := insert_spec h hsorted
  rw [hinsert, List.filter_append, List.filter_append, List.filter_append, List.append_assoc]
  congr 1
  cases hx : same x with
  | false => simp [hx]
  | true =>
    have hnone : back.filter same = [] := by
      rw [List.filter_eq_nil_iff]
      intro y hy hsame
      have hxy := hback y hy
      rw [hties x (by simp) y (by simp [hy]) hx hsame] at hxy
      contradiction
    simp [hx, hnone]

theorem foldl_insert_spec (h : IsWeakOrder before (sorted ++ rest)) (hsorted : IsRising before sorted) :
    IsRising before (rest.foldl (insert before) sorted) ∧
      ∀ same, Ties before same (sorted ++ rest) →
        (rest.foldl (insert before) sorted).filter same = (sorted ++ rest).filter same := by
  induction rest generalizing sorted with
  | nil => exact ⟨hsorted, fun same _ => by simp⟩
  | cons x rest ih =>
    have hfirst : x :: sorted ⊆ sorted ++ x :: rest := by
      intro y hy
      rcases List.mem_cons.mp hy with rfl | hy
      . simp
      . simp [hy]
    have hnext : insert before sorted x ++ rest ⊆ sorted ++ x :: rest := by
      intro y hy
      rw [List.mem_append, (perm_insert before sorted x).mem_iff] at hy
      rcases hy with hy | hy
      . exact hfirst hy
      . simp [hy]
    have hweak := h.of_subset hfirst
    obtain ⟨hrising, hfilter⟩ := ih (h.of_subset hnext) (isRising_insert hweak hsorted)
    refine ⟨hrising, fun same hties => ?_⟩
    rw [List.foldl_cons, hfilter same fun a ha b hb => hties a (hnext ha) b (hnext hb), List.filter_append,
      filter_insert hweak (fun a ha b hb => hties a (hfirst ha) b (hfirst hb)) hsorted, ← List.filter_append,
      List.append_assoc]
    rfl

end Insertion

theorem sort_spec {xs : List α} (h : IsWeakOrder before xs) :
    IsRising before (sort before xs) ∧
      ∀ same, Ties before same xs → (sort before xs).filter same = xs.filter same := by
  have hsub : (firstRun before xs).1 ++ (firstRun before xs).2 ⊆ xs := (perm_firstRun before xs).subset
  obtain ⟨hrising, hfilter⟩ := foldl_insert_spec (h.of_subset hsub) (isRising_firstRun h)
  refine ⟨hrising, fun same hties => ?_⟩
  exact (hfilter same fun a ha b hb => hties a (hsub ha) b (hsub hb)).trans (filter_firstRun h hties)

end Sorting

theorem Binary64.Place.lt_or_lt {p q r : Place} (h : p.lt r = true) : p.lt q = true ∨ q.lt r = true := by
  cases p <;> cases q <;> cases r <;> simp_all [lt]
  omega

namespace Value

def isNumber : Value → Bool
  | .bool _ => true
  | .int _ => true
  | .real x => !x.isNan
  | _ => false

def isText : Value → Bool
  | .text _ => true
  | _ => false

inductive AtMost : Value → Value → Prop where
  | number {a b : Value} {p q : Binary64.Place} (ha : a.place? = some (some p)) (hb : b.place? = some (some q))
    (h : q.lt p = false) : AtMost a b
  | text {t u : String} (h : t ≤ u) : AtMost (.text t) (.text u)

variable {a b v : Value} {p q : Binary64.Place} {t : String}

theorem exists_place (h : a.isNumber = true) : ∃ p, a.place? = some (some p) := by
  cases a with
  | bool b => exact ⟨_, rfl⟩
  | int i => exact ⟨_, rfl⟩
  | real x =>
    cases x with
    | nan => contradiction
    | infinite negative => cases negative <;> exact ⟨_, rfl⟩
    | finite negative mantissa shift canonical => exact ⟨_, rfl⟩
  | _ => contradiction

theorem exists_text (h : a.isText = true) : ∃ t, a = .text t := by
  cases a <;> first | contradiction | exact ⟨_, rfl⟩

theorem before?_of_place (ha : a.place? = some (some p)) (hb : b.place? = some (some q)) :
    a.before? b = some (p.lt q) := by
  cases a <;> cases b <;> simp_all [before?, place?]

theorem place?_of_agrees (ha : a.place? = some (some p)) (h : a.agrees v = true) : v.place? = some (some p) := by
  have hsame : a.numbersAgree v = true := by
    cases a <;> first | contradiction | cases v <;> simp_all [agrees, numbersAgree, place?]
  unfold numbersAgree at hsame
  rw [ha] at hsame
  split at hsame
  . next p' q hp hq =>
    obtain rfl : p = p' := by simpa using hp
    obtain rfl : p = q := by simpa using hsame
    exact hq
  . contradiction

theorem eq_text_of_agrees (h : (Value.text t).agrees v = true) : v = .text t := by
  cases v <;> simp_all [agrees, numbersAgree, place?]

theorem isNull_of_agrees (h : a.agrees v = true) : a.isNull = v.isNull := by
  cases a <;> cases v <;> simp_all [agrees, numbersAgree, place?, isNull]

end Value

namespace SortSpec

open Sorting

variable {s : SortSpec} {rows : List Entries}

def misses (s : SortSpec) (row : Entries) : Bool :=
  (row.get s.field).isNull

def beforeRow (s : SortSpec) (a b : Entries) : Bool :=
  s.before (a.get s.field) (b.get s.field)

def InOrder (s : SortSpec) (a b : Entries) : Prop :=
  if s.descending then (b.get s.field).AtMost (a.get s.field) else (a.get s.field).AtMost (b.get s.field)

theorem sortRows_eq (s : SortSpec) (rows : List Entries) :
    s.sortRows rows = sort s.beforeRow (rows.filter (!s.misses ·)) ++ rows.filter s.misses := rfl

theorem before_of_place {a b : Value} {p q : Binary64.Place} (ha : a.place? = some (some p))
    (hb : b.place? = some (some q)) : s.before a b = if s.descending then q.lt p else p.lt q := by
  have hasymm : p.lt q = true → q.lt p = false := Binary64.Place.lt_asymm
  rw [before, Value.before?_of_place ha hb, Value.before?_of_place hb ha]
  cases hpq : p.lt q <;> cases s.descending <;> simp_all

theorem before_text (s : SortSpec) (t u : String) :
    s.before (.text t) (.text u) = if s.descending then decide (u < t) else decide (t < u) := by
  have hasymm : t < u → ¬u < t := String.lt_asymm
  have htu : (Value.text t).before? (.text u) = some (decide (t < u)) := by rw [Value.before?]
  have hut : (Value.text u).before? (.text t) = some (decide (u < t)) := by rw [Value.before?]
  rw [before, htu, hut]
  cases hlt : decide (t < u) <;> cases s.descending <;> simp_all

section Numbers

variable (h : ∀ row ∈ rows, (row.get s.field).isNumber = true)
include h

theorem isWeakOrder_of_numbers : IsWeakOrder s.beforeRow rows := by
  refine .of_key (fun row p => (row.get s.field).place? = some (some p)) Binary64.Place.lt s.descending
    (fun _ _ => Binary64.Place.lt_asymm) (fun _ _ _ => Binary64.Place.lt_or_lt) ?_ ?_
  . exact fun row hrow => Value.exists_place (h row hrow)
  . exact fun a b p q hp hq => before_of_place hp hq

theorem inOrder_of_numbers {a b : Entries} (ha : a ∈ rows) (hb : b ∈ rows) (hba : s.beforeRow b a = false) :
    s.InOrder a b := by
  obtain ⟨p, hp⟩ := Value.exists_place (h a ha)
  obtain ⟨q, hq⟩ := Value.exists_place (h b hb)
  rw [beforeRow, before_of_place hq hp] at hba
  unfold InOrder
  split at hba
  . rw [if_pos ‹_›]
    exact .number hq hp hba
  . rw [if_neg ‹_›]
    exact .number hp hq hba

theorem ties_of_numbers (v : Value) : Ties s.beforeRow (fun row => (row.get s.field).agrees v) rows := by
  intro a ha b hb hav hbv
  obtain ⟨p, hp⟩ := Value.exists_place (h a ha)
  obtain ⟨q, hq⟩ := Value.exists_place (h b hb)
  have hsame := Value.place?_of_agrees hq hbv
  rw [Value.place?_of_agrees hp hav] at hsame
  cases hsame
  rw [beforeRow, before_of_place hp hq, Binary64.Place.lt_irrefl, ite_self]

end Numbers

section Texts

variable (h : ∀ row ∈ rows, (row.get s.field).isText = true)
include h

theorem isWeakOrder_of_texts : IsWeakOrder s.beforeRow rows := by
  refine .of_key (fun row t => row.get s.field = .text t) (fun t u => decide (t < u)) s.descending ?_ ?_ ?_ ?_
  . intro t u htu
    exact decide_eq_false (String.lt_asymm (of_decide_eq_true htu))
  . intro t u v htv
    rw [decide_eq_true_iff] at htv ⊢
    rw [decide_eq_true_iff]
    by_cases htu : t < u
    . exact .inl htu
    . right
      rw [String.not_lt] at htu
      exact String.not_le.mp fun hvu => String.not_le.mpr htv (String.le_trans hvu htu)
  . exact fun row hrow => Value.exists_text (h row hrow)
  . intro a b t u ht hu
    rw [beforeRow, ht, hu, before_text]

theorem inOrder_of_texts {a b : Entries} (ha : a ∈ rows) (hb : b ∈ rows) (hba : s.beforeRow b a = false) :
    s.InOrder a b := by
  obtain ⟨t, ht⟩ := Value.exists_text (h a ha)
  obtain ⟨u, hu⟩ := Value.exists_text (h b hb)
  rw [beforeRow, ht, hu, before_text] at hba
  unfold InOrder
  rw [ht, hu]
  split at hba
  . rw [if_pos ‹_›]
    exact .text (String.not_lt.mp (of_decide_eq_false hba))
  . rw [if_neg ‹_›]
    exact .text (String.not_lt.mp (of_decide_eq_false hba))

theorem ties_of_texts (v : Value) : Ties s.beforeRow (fun row => (row.get s.field).agrees v) rows := by
  intro a ha b hb hav hbv
  obtain ⟨t, ht⟩ := Value.exists_text (h a ha)
  obtain ⟨u, hu⟩ := Value.exists_text (h b hb)
  dsimp only at hav hbv
  rw [ht] at hav
  rw [hu] at hbv
  have hsame := Value.eq_text_of_agrees hav
  rw [Value.eq_text_of_agrees hbv] at hsame
  cases hsame
  rw [beforeRow, ht, hu, before_text]
  simp

end Texts

theorem sortRows_of_isWeakOrder (hweak : IsWeakOrder s.beforeRow (rows.filter (!s.misses ·)))
    (horder : ∀ a ∈ rows.filter (!s.misses ·), ∀ b ∈ rows.filter (!s.misses ·),
      s.beforeRow b a = false → s.InOrder a b)
    (hties : ∀ v : Value, Ties s.beforeRow (fun row => (row.get s.field).agrees v) (rows.filter (!s.misses ·))) :
    (sort s.beforeRow (rows.filter (!s.misses ·))).Pairwise s.InOrder ∧
      ∀ v, (s.sortRows rows).filter (fun row => (row.get s.field).agrees v) =
        rows.filter fun row => (row.get s.field).agrees v := by
  obtain ⟨hrising, hfilter⟩ := sort_spec hweak
  have hmem := fun a => (perm_sort s.beforeRow (rows.filter (!s.misses ·))).mem_iff (a := a)
  constructor
  . exact hrising.imp_of_mem fun ha hb => horder _ ((hmem _).mp ha) _ ((hmem _).mp hb)
  . intro v
    rw [sortRows_eq, List.filter_append, hfilter _ (hties v)]
    exact filter_parts fun row _ => Value.isNull_of_agrees

/--
Sorting loses no row, and rows without a value come last in their order, also where values do not order. Where all
values are numbers or all are texts they are in the order of the direction, and rows whose values agree keep theirs.
-/
theorem stable_sortRows (s : SortSpec) (rows : List Entries) :
    (s.sortRows rows).Perm rows ∧ ∃ sorted,
      s.sortRows rows = sorted ++ rows.filter s.misses ∧ sorted.Perm (rows.filter (!s.misses ·)) ∧
      ((∀ row ∈ rows, s.misses row = false → (row.get s.field).isNumber = true) ∨
          (∀ row ∈ rows, s.misses row = false → (row.get s.field).isText = true) →
        sorted.Pairwise s.InOrder ∧
          ∀ v, (s.sortRows rows).filter (fun row => (row.get s.field).agrees v) =
            rows.filter fun row => (row.get s.field).agrees v) := by
  refine ⟨s.perm_sortRows rows, _, sortRows_eq s rows, perm_sort _ _, fun hkinds => ?_⟩
  have hpresent : ∀ {kind : Value → Bool}, (∀ row ∈ rows, s.misses row = false → kind (row.get s.field) = true) →
      ∀ row ∈ rows.filter (!s.misses ·), kind (row.get s.field) = true := by
    intro kind h row hrow
    obtain ⟨hrow, hvalue⟩ := List.mem_filter.mp hrow
    exact h row hrow (by simpa using hvalue)
  rcases hkinds with hnumbers | htexts
  . have h := hpresent hnumbers
    exact sortRows_of_isWeakOrder (isWeakOrder_of_numbers h) (fun _ ha _ hb => inOrder_of_numbers h ha hb)
      (ties_of_numbers h)
  . have h := hpresent htexts
    exact sortRows_of_isWeakOrder (isWeakOrder_of_texts h) (fun _ ha _ hb => inOrder_of_texts h ha hb)
      (ties_of_texts h)

theorem stable_sortRows_of_ties :
    let s : SortSpec := { field := "n", order := .desc }
    let rows : List Entries := [[("n", .int 1)], [("m", .int 5)], [("n", .bool true)], [("n", .int 2)], [("n", .null)]]
    (∀ row ∈ rows, s.misses row = false → (row.get s.field).isNumber = true) ∧
      (s.sortRows rows).filter (fun row => (row.get s.field).agrees (.int 1)) =
        [[("n", .int 1)], [("n", .bool true)]] := by
  intro s rows
  have hnumbers : ∀ row ∈ rows, s.misses row = false → (row.get s.field).isNumber = true := by decide
  obtain ⟨-, _, -, -, hsorted⟩ := stable_sortRows s rows
  refine ⟨hnumbers, ?_⟩
  rw [(hsorted (.inl hnumbers)).2]
  rfl

end SortSpec
end TenantTables
