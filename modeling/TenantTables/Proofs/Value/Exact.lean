import Mathlib.Data.Option.Basic
import TenantTables.Document.Mismatch
import TenantTables.Proofs.Value.Keyed
import TenantTables.Validation

namespace TenantTables

open Document (Step)

namespace Value

def part? : Value → List Step → Option Value
  | v, [] => some v
  | .list items, .index i :: path => items[i]?.bind (part? · path)
  | .map entries, .key k :: path => (Entries.get? entries k).bind (part? · path)
  | _, _ :: _ => none

def quantity? : Value → Option Binary64.Place
  | .int i => some (.ofInt i)
  | .real x => x.place?
  | _ => none

def Matches : Value → Value → Prop
  | .null, .null => True
  | .bool a, .bool b => a = b
  | .text s, .text t => s = t
  | .list _, .list _ => True
  | .map _, .map _ => True
  | a, b => ∃ p, a.quantity? = some p ∧ b.quantity? = some p

/--
Whether what two values have at the same path is related, where no path leads to a part of only one of them.
-/
def Corresponds (R : Value → Value → Prop) (a b : Value) : Prop :=
  ∀ path, Option.Rel R (a.part? path) (b.part? path)

def Coincides (a b : Value) : Prop :=
  a.Corresponds Matches b

def CountsAs (a b : Value) : Prop :=
  ∃ c : Bool, a = .bool c ∧ b.quantity? = some (.ofInt (if c then 1 else 0))

def IsConfused (a b : Value) : Prop :=
  a.CountsAs b ∨ b.CountsAs a

/--
Nowhere below the top a truth value faces the number that it counts as.
-/
def IsApart (a b : Value) : Prop :=
  ∀ path, path ≠ [] → ∀ u v, a.part? path = some u → b.part? path = some v → ¬u.IsConfused v

def IsNode : Value → Prop
  | .real x => x.isNan = false
  | .map entries => (entries.map (·.1)).Nodup
  | .date _ | .moment _ | .uuid _ => False
  | _ => True

def IsComparable (v : Value) : Prop :=
  ∀ path u, v.part? path = some u → u.IsNode

theorem part?_nil (v : Value) : v.part? [] = some v := by
  cases v <;> rfl

section Corresponds

variable {R S : Value → Value → Prop} {o o' : Option Value} {a b : Value} {as bs : List Value} {es fs : Entries}

theorem eq_none_iff_of_rel (h : Option.Rel R o o') : o = none ↔ o' = none := by
  cases h <;> simp

theorem of_rel (h : Option.Rel R o o') (ha : o = some a) (hb : o' = some b) : R a b := by
  subst ha hb
  cases h with
  | some hab => exact hab

theorem rel_imp (h : Option.Rel R o o') (himp : ∀ a b, o = some a → o' = some b → R a b → S a b) :
    Option.Rel S o o' := by
  cases h with
  | some hab => exact .some (himp _ _ rfl rfl hab)
  | none => exact .none

theorem Corresponds.top (h : a.Corresponds R b) : R a b :=
  of_rel (h []) (part?_nil a) (part?_nil b)

theorem rel_corresponds_iff : Option.Rel (Corresponds R) o o' ↔
    ∀ path, Option.Rel R (o.bind (part? · path)) (o'.bind (part? · path)) := by
  constructor
  . intro h path
    cases h with
    | some hab => exact hab path
    | none => exact .none
  . intro h
    have htop : Option.Rel R o o' := by simpa [part?_nil] using h []
    cases htop with
    | some _ => exact .some h
    | none => exact .none

theorem corresponds_list : (list as).Corresponds R (list bs) ↔
    R (list as) (list bs) ∧ ∀ i : Nat, Option.Rel (Corresponds R) as[i]? bs[i]? := by
  simp only [rel_corresponds_iff]
  constructor
  . intro h
    exact ⟨h.top, fun i path => h (.index i :: path)⟩
  . rintro ⟨htop, hitems⟩ path
    match path with
    | [] => exact .some htop
    | .index i :: path => exact hitems i path
    | .key _ :: _ => exact .none

theorem corresponds_map : (map es).Corresponds R (map fs) ↔
    R (map es) (map fs) ∧ ∀ k, Option.Rel (Corresponds R) (es.get? k) (fs.get? k) := by
  simp only [rel_corresponds_iff]
  constructor
  . intro h
    exact ⟨h.top, fun k path => h (.key k :: path)⟩
  . rintro ⟨htop, hentries⟩ path
    match path with
    | [] => exact .some htop
    | .key k :: path => exact hentries k path
    | .index _ :: _ => exact .none

def IsLeaf : Value → Prop
  | .list _ | .map _ => False
  | _ => True

theorem part?_of_isLeaf (ha : a.IsLeaf) {path : List Step} (hpath : path ≠ []) :
    a.part? path = none := by
  obtain ⟨step, path, rfl⟩ := List.exists_cons_of_ne_nil hpath
  cases a with
  | list _ | map _ => exact ha.elim
  | _ => cases step <;> rfl

theorem corresponds_of_isLeaf (hleaf : R a b → a.IsLeaf ∧ b.IsLeaf) : a.Corresponds R b ↔ R a b := by
  refine ⟨Corresponds.top, fun h path => ?_⟩
  by_cases hpath : path = []
  . rw [hpath, part?_nil, part?_nil]
    exact .some h
  . rw [part?_of_isLeaf (hleaf h).1 hpath, part?_of_isLeaf (hleaf h).2 hpath]
    exact .none

end Corresponds

section Comparable

variable {v : Value} {vs : List Value} {es : Entries}

theorem IsComparable.node (h : v.IsComparable) : v.IsNode :=
  h [] v (part?_nil v)

theorem isComparable_of_isLeaf (hleaf : v.IsLeaf) (h : v.IsNode) : v.IsComparable := by
  intro path u hu
  by_cases hpath : path = []
  . rw [hpath, part?_nil, Option.some.injEq] at hu
    rwa [← hu]
  . rw [part?_of_isLeaf hleaf hpath] at hu
    cases hu

theorem isComparable_list : (list vs).IsComparable ↔ ∀ v ∈ vs, v.IsComparable := by
  constructor
  . intro h v hv path u hu
    obtain ⟨i, hi⟩ := List.mem_iff_getElem?.mp hv
    refine h (.index i :: path) u ?_
    rw [part?, hi]
    exact hu
  . rintro h (_ | ⟨_ | i, path⟩) u hu
    . rw [part?_nil, Option.some.injEq] at hu
      rw [← hu]
      trivial
    . cases hu
    . obtain ⟨v, hv, hvu⟩ := Option.bind_eq_some_iff.mp hu
      exact h v (List.mem_of_getElem? hv) path u hvu

theorem isComparable_map : (map es).IsComparable ↔ es.keys.Nodup ∧ ∀ e ∈ es, e.2.IsComparable := by
  constructor
  . intro h
    refine ⟨h.node, fun e he path u hu => h (.key e.1 :: path) u ?_⟩
    rw [part?, Entries.get?_of_mem h.node he]
    exact hu
  . rintro ⟨hkeys, h⟩ (_ | ⟨k | _, path⟩) u hu
    . rw [part?_nil, Option.some.injEq] at hu
      rw [← hu]
      exact hkeys
    . obtain ⟨v, hv, hvu⟩ := Option.bind_eq_some_iff.mp hu
      exact h _ (Entries.mem_of_get? hv) path u hvu
    . cases hu

theorem IsNode.matches_refl (h : v.IsNode) : v.Matches v := by
  cases v with
  | real x =>
    cases x with
    | infinite negative => cases negative <;> simp [Matches, quantity?, Binary64.place?]
    | _ => simp_all [IsNode, Matches, quantity?, Binary64.isNan, Binary64.place?]
  | _ => simp_all [IsNode, Matches, quantity?]

theorem IsComparable.coincides_refl (h : v.IsComparable) : v.Coincides v := by
  intro path
  cases hu : v.part? path with
  | none => exact .none
  | some u => exact .some (h path u hu).matches_refl

end Comparable

def IsLoose (a b : Value) : Prop :=
  a.Matches b ∨ a.IsConfused b

theorem numbersAgree_iff (a b : Value) :
    numbersAgree a b = true ↔ ∃ p, a.place? = some (some p) ∧ b.place? = some (some p) := by
  constructor
  . intro h
    unfold numbersAgree at h
    split at h
    . next p q hp hq => exact ⟨p, hp, by rw [hq, eq_of_beq h]⟩
    . cases h
  . rintro ⟨p, hp, hq⟩
    rw [numbersAgree, hp, hq]
    exact beq_self_eq_true p

theorem ofInt_inj {i j : Int} : Binary64.Place.ofInt i = .ofInt j ↔ i = j := by
  have hone : (Binary64.one : Int) ≠ 0 := Int.natCast_ne_zero.mpr (Nat.ne_of_gt Binary64.one_pos)
  rw [Binary64.Place.ofInt, Binary64.Place.ofInt, Binary64.Place.at.injEq, Int.mul_eq_mul_right_iff hone]

theorem IsLoose.isLeaf {a b : Value} (h : a.IsLoose b) (hleaf : a.IsLeaf ∨ b.IsLeaf) : a.IsLeaf ∧ b.IsLeaf := by
  cases a <;> cases b <;> simp_all [IsLeaf, IsLoose, Matches, IsConfused, CountsAs, quantity?]

theorem agrees_iff_isLoose {a b : Value} (hleaf : a.IsLeaf ∨ b.IsLeaf) (ha : a.IsNode) (hb : b.IsNode) :
    agrees a b = true ↔ a.IsLoose b := by
  cases a <;> cases b
  case bool.bool c d =>
    cases c <;> cases d <;>
      simp [agrees, numbersAgree_iff, place?, IsLoose, Matches, IsConfused, CountsAs, quantity?, ofInt_inj]
  case int.bool i c =>
    simp [agrees, numbersAgree_iff, place?, IsLoose, Matches, IsConfused, CountsAs, quantity?]
    exact eq_comm
  all_goals
    simp_all [agrees, numbersAgree_iff, place?, IsLoose, Matches, IsConfused, CountsAs, quantity?, IsNode, IsLeaf]

theorem agrees_iff_of_isLeaf {a b : Value} (hleaf : a.IsLeaf ∨ b.IsLeaf) (ha : a.IsComparable)
    (hb : b.IsComparable) : agrees a b = true ↔ a.Corresponds IsLoose b := by
  rw [agrees_iff_isLoose hleaf ha.node hb.node, corresponds_of_isLeaf fun h => h.isLeaf hleaf]

theorem not_isLoose_list_map {vs : List Value} {es : Entries} : ¬(list vs).IsLoose (map es) := by
  simp [IsLoose, Matches, IsConfused, CountsAs, quantity?]

theorem not_isLoose_map_list {vs : List Value} {es : Entries} : ¬(map es).IsLoose (list vs) := by
  simp [IsLoose, Matches, IsConfused, CountsAs, quantity?]

theorem mapsAgree_iff {R : Value → Value → Prop} {es fs : Entries} (hes : es.keys.Nodup) (hfs : fs.keys.Nodup)
    (hentry : ∀ e ∈ es, ∀ b, fs.get? e.1 = some b → (agrees e.2 b = true ↔ R e.2 b)) :
    agrees (map es) (map fs) = true ↔ ∀ k, Option.Rel R (es.get? k) (fs.get? k) := by
  rw [agrees, Bool.and_eq_true, beq_iff_eq, entriesAgree_iff]
  constructor
  . rintro ⟨hlength, h⟩ k
    cases hk : es.get? k with
    | some a =>
      obtain ⟨b, hb, hab⟩ := h _ (Entries.mem_of_get? hk)
      rw [hb]
      exact .some ((hentry _ (Entries.mem_of_get? hk) b hb).mp hab)
    | none =>
      -- as many keys on both sides leave no room for one that only the second map has
      have hsubset := keys_subset_of_entriesAgree hes hlength ((entriesAgree_iff es fs).mpr h)
      rw [(Entries.get?_eq_none_iff fs k).mpr fun hmem => (Entries.get?_eq_none_iff es k).mp hk (hsubset hmem)]
      exact .none
  . intro h
    have hkeys : ∀ k, k ∈ es.keys ↔ k ∈ fs.keys := by
      intro k
      rw [← not_iff_not, ← Entries.get?_eq_none_iff, ← Entries.get?_eq_none_iff]
      exact eq_none_iff_of_rel (h k)
    constructor
    . simpa [Entries.keys] using ((List.perm_ext_iff_of_nodup hes hfs).mpr hkeys).length_eq
    . intro e he
      have hk := h e.1
      rw [Entries.get?_of_mem hes he] at hk
      cases hb : fs.get? e.1 with
      | none => rw [hb] at hk; cases hk
      | some b =>
        rw [hb] at hk
        cases hk with
        | some hab => exact ⟨b, rfl, (hentry e he b hb).mpr hab⟩

mutual

theorem agrees_iff_corresponds : ∀ a b : Value, a.IsComparable → b.IsComparable →
    (agrees a b = true ↔ a.Corresponds IsLoose b)
  | .list as, b => by
    intro ha hb
    cases b with
    | list bs =>
      rw [agrees, corresponds_list, and_iff_right (.inl trivial)]
      exact itemsAgree_iff_corresponds as bs (isComparable_list.mp ha) (isComparable_list.mp hb)
    | map _ => exact iff_of_false (by simp [agrees, numbersAgree, place?]) fun h => not_isLoose_list_map h.top
    | _ => exact agrees_iff_of_isLeaf (.inr trivial) ha hb
  | .map es, b => by
    intro ha hb
    cases b with
    | map fs =>
      obtain ⟨hes, hae⟩ := isComparable_map.mp ha
      obtain ⟨hfs, hbf⟩ := isComparable_map.mp hb
      rw [corresponds_map, and_iff_right (.inl trivial)]
      apply mapsAgree_iff hes hfs
      intro e he b hfb
      exact agrees_iff_of_mem es e he b (hae e he) (hbf _ (Entries.mem_of_get? hfb))
    | list _ => exact iff_of_false (by simp [agrees, numbersAgree, place?]) fun h => not_isLoose_map_list h.top
    | _ => exact agrees_iff_of_isLeaf (.inr trivial) ha hb
  | .null, _ | .bool _, _ | .int _, _ | .real _, _ | .text _, _ | .date _, _ | .moment _, _ | .uuid _, _ =>
    agrees_iff_of_isLeaf (.inl trivial)

theorem itemsAgree_iff_corresponds : ∀ as bs : List Value,
    (∀ v ∈ as, v.IsComparable) → (∀ v ∈ bs, v.IsComparable) →
    (itemsAgree as bs = true ↔ ∀ i : Nat, Option.Rel (Corresponds IsLoose) as[i]? bs[i]?)
  | [], bs => by
    intro _ _
    cases bs with
    | nil => exact iff_of_true rfl fun _ => .none
    | cons b bs => exact iff_of_false (by simp [itemsAgree]) fun h => nomatch h 0
  | a :: as, bs => by
    intro ha hb
    cases bs with
    | nil => exact iff_of_false (by simp [itemsAgree]) fun h => nomatch h 0
    | cons b bs =>
      rw [List.forall_mem_cons] at ha hb
      rw [itemsAgree, Bool.and_eq_true, agrees_iff_corresponds a b ha.1 hb.1,
        itemsAgree_iff_corresponds as bs ha.2 hb.2]
      constructor
      . rintro ⟨h, hs⟩ (_ | i)
        . exact .some h
        . exact hs i
      . intro h
        refine ⟨?_, fun i => h (i + 1)⟩
        cases h 0 with
        | some h => exact h

theorem agrees_iff_of_mem : ∀ es : List (String × Value), ∀ e ∈ es, ∀ b : Value, e.2.IsComparable →
    b.IsComparable → (agrees e.2 b = true ↔ e.2.Corresponds IsLoose b)
  | [] => by simp
  | (k, a) :: es => by
    intro e he b
    rcases List.mem_cons.mp he with rfl | he
    . exact agrees_iff_corresponds a b
    . exact agrees_iff_of_mem es e he b

end

theorem equals_iff_corresponds {a b : Value} (ha : a.IsComparable) (hb : b.IsComparable) :
    a.equals b = true ↔ a.Corresponds IsLoose b ∧ ¬a.IsConfused b := by
  by_cases hbool : (∃ c, a = .bool c) ∨ ∃ c, b = .bool c
  . have hleaf : a.IsLeaf ∨ b.IsLeaf := hbool.imp (by rintro ⟨c, rfl⟩; trivial) (by rintro ⟨c, rfl⟩; trivial)
    rw [corresponds_of_isLeaf fun h => h.isLeaf hleaf]
    rcases hbool with ⟨c, rfl⟩ | ⟨c, rfl⟩
    . cases b <;> simp [equals, IsLoose, Matches, IsConfused, CountsAs, quantity?]
    . cases a <;> simp [equals, IsLoose, Matches, IsConfused, CountsAs, quantity?]
  . rw [not_or, not_exists, not_exists] at hbool
    rw [equals.eq_4 _ _ (by simp_all) (by simp_all) (by simp_all), agrees_iff_corresponds a b ha hb,
      and_iff_left]
    rintro (⟨c, hc, -⟩ | ⟨c, hc, -⟩)
    . exact hbool.1 c hc
    . exact hbool.2 c hc

theorem Matches.not_isConfused {a b : Value} (h : a.Matches b) : ¬a.IsConfused b := by
  cases a <;> cases b <;> simp_all [Matches, IsConfused, CountsAs, quantity?]

theorem isApart_of_isLeaf {a b : Value} (h : a.IsLeaf) : a.IsApart b := by
  intro path hpath u v hu
  rw [part?_of_isLeaf h hpath] at hu
  cases hu

theorem coincides_iff {a b : Value} : a.Coincides b ↔ (a.Corresponds IsLoose b ∧ ¬a.IsConfused b) ∧ a.IsApart b := by
  constructor
  . intro h
    refine ⟨⟨fun path => rel_imp (h path) fun _ _ _ _ => .inl, h.top.not_isConfused⟩, ?_⟩
    intro path _ u v hu hv
    exact (of_rel (h path) hu hv).not_isConfused
  . rintro ⟨⟨h, htop⟩, hapart⟩ path
    refine rel_imp (h path) fun u v hu hv huv => huv.resolve_right ?_
    by_cases hpath : path = []
    . rw [hpath, part?_nil, Option.some.injEq] at hu hv
      rwa [← hu, ← hv]
    . exact hapart path hpath u v hu hv

end Value

def Field.IsHeldBy (f : Field) (v : Value) (r : Record) : Prop :=
  ∃ u, r.data.get? f.name = some u ∧ u.Coincides v

namespace Value

theorem coincides_iff_equals_and_isApart {a b : Value} (ha : a.IsComparable) (hb : b.IsComparable) :
    a.Coincides b ↔ a.equals b = true ∧ a.IsApart b := by
  rw [coincides_iff, equals_iff_corresponds ha hb]

end Value

namespace Field

variable {f : Field} {v : Value} {records : List Record}

theorem findDuplicate?_eq : f.findDuplicate? v records = records.find? fun r =>
    (r.data.get? f.name).any (·.equals v) := by
  rw [findDuplicate?]
  congr 1
  funext r
  cases r.data.get? f.name <;> rfl

theorem isHeldBy_iff {r : Record} (hv : v.IsComparable)
    (hr : ∀ u, r.data.get? f.name = some u → u.IsComparable ∧ u.IsApart v) :
    f.IsHeldBy v r ↔ (r.data.get? f.name).any (·.equals v) = true := by
  rw [IsHeldBy, Option.any_eq_true]
  apply exists_congr
  intro u
  rw [and_congr_right_iff]
  intro hu
  rw [Value.coincides_iff_equals_and_isApart (hr u hu).1 hv, and_iff_left (hr u hu).2]

end Field

namespace Value

/--
Values are exactly equal where they pass for equal and are apart. So a search finds the first record that holds
an exactly equal value, and none where no record does, if all that the records hold is apart from the value.
-/
theorem coincides_iff_equals (a b : Value) (ha : a.IsComparable) (hb : b.IsComparable) :
    (a.Coincides b ↔ a.equals b = true ∧ a.IsApart b) ∧
    ∀ (f : Field) (records : List Record),
      (∀ r ∈ records, ∀ u, r.data.get? f.name = some u → u.IsComparable ∧ u.IsApart b) →
      (∀ r, f.findDuplicate? b records = some r ↔
        ∃ before after, records = before ++ r :: after ∧ f.IsHeldBy b r ∧ ∀ q ∈ before, ¬f.IsHeldBy b q) ∧
      (f.findDuplicate? b records = none ↔ ∀ r ∈ records, ¬f.IsHeldBy b r) := by
  refine ⟨coincides_iff_equals_and_isApart ha hb, fun f records hrecords => ⟨fun r => ?_, ?_⟩⟩
  . have hheld := fun r hr => Field.isHeldBy_iff hb (hrecords r hr)
    rw [Field.findDuplicate?_eq, List.find?_eq_some_iff_append]
    constructor
    . rintro ⟨hr, before, after, rfl, hbefore⟩
      refine ⟨before, after, rfl, (hheld r (by simp)).mpr hr, fun q hq => ?_⟩
      rw [hheld q (by simp [hq])]
      simpa using hbefore q hq
    . rintro ⟨before, after, rfl, hr, hbefore⟩
      refine ⟨(hheld r (by simp)).mp hr, before, after, rfl, fun q hq => ?_⟩
      simpa [hheld q (by simp [hq])] using hbefore q hq
  . rw [Field.findDuplicate?_eq, List.find?_eq_none]
    apply forall₂_congr
    intro r hr
    rw [Field.isHeldBy_iff hb (hrecords r hr)]

theorem findDuplicate?_of_reordered :
    let a : Value := .map [("k", .list [.int 1, .bool true]), ("l", .null)]
    let b : Value := .map [("l", .null), ("k", .list [.real (.ofInt 1), .bool true])]
    let f : Field := { id := "i", name := "n", displayName := "N", type := .relation }
    let q : Record := { id := "ii", tableId := "t", data := [("n", .text "x")], createdAt := default
                        updatedAt := default }
    let r : Record := { id := "iii", tableId := "t", data := [("n", a)], createdAt := default
                        updatedAt := default }
    a.equals b = true ∧ f.findDuplicate? b [q, r] = some r := by
  intro a b f q r
  have hbool : (bool true).IsComparable := isComparable_of_isLeaf trivial trivial
  have hnull : null.IsComparable := isComparable_of_isLeaf trivial trivial
  have hint : (int 1).IsComparable := isComparable_of_isLeaf trivial trivial
  have hreal : (real (.ofInt 1)).IsComparable :=
    isComparable_of_isLeaf trivial (by rw [IsNode]; decide +kernel)
  have ha : a.IsComparable := by
    simp [a, isComparable_map, isComparable_list, Entries.keys, hbool, hnull, hint]
  have hb : b.IsComparable := by
    simp [b, isComparable_map, isComparable_list, Entries.keys, hbool, hnull, hreal]
  have hnumber : (int 1).Coincides (real (.ofInt 1)) := by
    refine (corresponds_of_isLeaf ?_).mpr ⟨.ofInt 1, rfl, ?_⟩
    . exact fun _ => ⟨trivial, trivial⟩
    . rw [quantity?]
      decide +kernel
  have hlist : (list [.int 1, .bool true]).Coincides (list [.real (.ofInt 1), .bool true]) := by
    refine corresponds_list.mpr ⟨trivial, fun i => ?_⟩
    rcases i with _ | _ | i
    . exact .some hnumber
    . exact .some hbool.coincides_refl
    . exact .none
  have hab : a.Coincides b := by
    refine corresponds_map.mpr ⟨trivial, fun k => ?_⟩
    by_cases hk : k = "k"
    . rw [hk]
      exact .some hlist
    . by_cases hl : k = "l"
      . rw [hl]
        exact .some hnull.coincides_refl
      . simp [Entries.get?_cons, Ne.symm hk, Ne.symm hl]
  have hequals := coincides_iff_equals a b ha hb
  refine ⟨(hequals.1.mp hab).1, ((hequals.2 f [q, r] ?_).1 r).mpr ⟨[q], [], rfl, ⟨a, rfl, hab⟩, ?_⟩⟩
  . intro s hs u hu
    rcases List.mem_pair.mp hs with rfl | rfl
    . obtain rfl : .text "x" = u := Option.some.inj hu
      exact ⟨isComparable_of_isLeaf trivial trivial, isApart_of_isLeaf trivial⟩
    . obtain rfl : a = u := Option.some.inj hu
      exact ⟨ha, (hequals.1.mp hab).2⟩
  . intro s hs
    rw [List.mem_singleton.mp hs]
    rintro ⟨u, hu, h⟩
    obtain rfl : .text "x" = u := Option.some.inj hu
    obtain ⟨_, hp, -⟩ := h.top
    cases hp

theorem equals_of_nested_bool :
    let a : Value := .list [.bool true]
    let b : Value := .list [.int 1]
    let f : Field := { id := "i", name := "n", displayName := "N", type := .relation, unique := some true }
    let r : Record := { id := "ii", tableId := "t", data := [("n", a)], createdAt := default
                        updatedAt := default }
    a.IsComparable ∧ b.IsComparable ∧ a.equals b = true ∧ ¬a.Coincides b ∧
      f.findDuplicate? b [r] = some r ∧ ¬f.IsHeldBy b r := by
  intro a b f r
  have hab : ¬a.Coincides b := by
    intro h
    obtain ⟨_, hp, -⟩ := of_rel (h [.index 0]) rfl rfl
    cases hp
  refine ⟨?_, ?_, by decide, hab, by decide +kernel, ?_⟩
  . simpa [a, isComparable_list] using isComparable_of_isLeaf (v := .bool true) trivial trivial
  . simpa [b, isComparable_list] using isComparable_of_isLeaf (v := .int 1) trivial trivial
  . rintro ⟨u, hu, h⟩
    obtain rfl : a = u := Option.some.inj hu
    exact hab h

end Value
end TenantTables
