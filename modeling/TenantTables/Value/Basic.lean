import TenantTables.Calendar.Moment
import TenantTables.Number.Binary64

/-!
This module contains the values that callers hand in and that records hold. A map keeps its entries
in order of insertion and holds each key once.
-/

namespace TenantTables

inductive Value where
  | null
  | bool (b : Bool)
  | int (i : Int)
  | real (x : Binary64)
  | text (s : String)
  | date (d : Date)
  | moment (m : Moment)
  | uuid (n : Nat)
  | list (items : List Value)
  | map (entries : List (String × Value))

instance : Inhabited Value where
  default := .null

namespace Value

mutual

def same : Value → Value → Bool
  | .null, .null => true
  | .bool a, .bool b => a == b
  | .int a, .int b => a == b
  | .real a, .real b => a == b
  | .text a, .text b => a == b
  | .date a, .date b => a == b
  | .moment a, .moment b => a == b
  | .uuid a, .uuid b => a == b
  | .list a, .list b => sameItems a b
  | .map a, .map b => sameEntries a b
  | _, _ => false

def sameItems : List Value → List Value → Bool
  | [], [] => true
  | a :: as, b :: bs => same a b && sameItems as bs
  | _, _ => false

def sameEntries : List (String × Value) → List (String × Value) → Bool
  | [], [] => true
  | (k, a) :: as, (l, b) :: bs => k == l && same a b && sameEntries as bs
  | _, _ => false

end

mutual

theorem same_iff : ∀ a b : Value, same a b = true ↔ a = b
  | .list as, b => by
    cases b <;> simp [same, sameItems_iff as]
  | .map as, b => by
    cases b <;> simp [same, sameEntries_iff as]
  | .null, b => by cases b <;> simp [same]
  | .bool _, b => by cases b <;> simp [same]
  | .int _, b => by cases b <;> simp [same]
  | .real _, b => by cases b <;> simp [same]
  | .text _, b => by cases b <;> simp [same]
  | .date _, b => by cases b <;> simp [same]
  | .moment _, b => by cases b <;> simp [same]
  | .uuid _, b => by cases b <;> simp [same]

theorem sameItems_iff : ∀ as bs : List Value, sameItems as bs = true ↔ as = bs
  | [], bs => by cases bs <;> simp [sameItems]
  | a :: as, bs => by
    cases bs <;> simp [sameItems, same_iff a, sameItems_iff as]

theorem sameEntries_iff :
    ∀ as bs : List (String × Value), sameEntries as bs = true ↔ as = bs
  | [], bs => by cases bs <;> simp [sameEntries]
  | (k, a) :: as, bs => by
    cases bs <;> simp [sameEntries, same_iff a, sameEntries_iff as, Prod.ext_iff]

end

instance : DecidableEq Value := fun a b =>
  decidable_of_iff (same a b = true) (same_iff a b)

def isNull : Value → Bool
  | .null => true
  | _ => false

theorem isNull_iff {v : Value} : v.isNull = true ↔ v = .null := by
  cases v <;> simp [isNull]

def ofOption (f : α → Value) : Option α → Value
  | none => .null
  | some a => f a

end Value

abbrev Entries := List (String × Value)

namespace Entries

def get? (es : Entries) (key : String) : Option Value :=
  (es.find? (·.1 == key)).map (·.2)

def get (es : Entries) (key : String) : Value :=
  (es.get? key).getD .null

def contains (es : Entries) (key : String) : Bool :=
  es.any (·.1 == key)

def keys (es : Entries) : List String :=
  es.map (·.1)

def present (es : Entries) : Entries :=
  es.filter fun e => !e.2.isNull

def put (es : Entries) (key : String) (value : Value) : Entries :=
  if es.contains key then es.map fun e => if e.1 == key then (key, value) else e
  else es ++ [(key, value)]

def overlay (es top : Entries) : Entries :=
  top.foldl (fun es e => es.put e.1 e.2) es

def ofList (es : List (String × Value)) : Entries :=
  overlay [] es

@[simp]
theorem get?_nil (k : String) : get? [] k = none := rfl

theorem get?_cons (e : String × Value) (es : Entries) (k : String) :
    get? (e :: es) k = if e.1 = k then some e.2 else get? es k := by
  by_cases h : e.1 = k <;> simp [get?, h]

theorem contains_cons (e : String × Value) (es : Entries) (k : String) :
    contains (e :: es) k = (e.1 == k || es.contains k) := rfl

theorem isSome_get? (es : Entries) (k : String) : (es.get? k).isSome = es.contains k := by
  induction es with
  | nil => rfl
  | cons e es ih =>
    rw [get?_cons]
    by_cases h : e.1 = k <;> simp_all [contains]

theorem contains_iff_mem_keys (es : Entries) (k : String) : es.contains k = true ↔ k ∈ es.keys := by
  simp [contains, keys]

theorem contains_congr {es es' : Entries} {k : String} (h : es.get? k = es'.get? k) :
    es.contains k = es'.contains k := by
  rw [← isSome_get?, h, isSome_get?]

theorem get?_eq_none_iff (es : Entries) (k : String) : es.get? k = none ↔ k ∉ es.keys := by
  rw [← Option.not_isSome_iff_eq_none, isSome_get?, contains_iff_mem_keys]

theorem get?_append (es es' : Entries) (k : String) :
    get? (es ++ es') k = (es.get? k).or (get? es' k) := by
  rw [get?, get?, get?, List.find?_append]
  cases es.find? (·.1 == k) <;> rfl

theorem get?_toList (name k : String) (v : Option Value) :
    get? (v.map (name, ·)).toList k = if name = k then v else none := by
  cases v with
  | none => simp
  | some v => simp [get?_cons]

theorem get?_replace (es : Entries) (key : String) (value : Value) (k : String) :
    get? (es.map fun e => if e.1 == key then (key, value) else e) k =
      if k = key ∧ es.contains key = true then some value else es.get? k := by
  induction es with
  | nil => simp [contains]
  | cons e es ih =>
    rw [List.map_cons, get?_cons, get?_cons, ih, contains_cons]
    by_cases h : e.1 = key <;> grind

theorem get?_append_singleton (es : Entries) (key : String) (value : Value) (k : String) :
    get? (es ++ [(key, value)]) k =
      if k = key ∧ es.contains key = false then some value else es.get? k := by
  induction es with
  | nil =>
    rw [List.nil_append, get?_cons]
    grind [contains]
  | cons e es ih =>
    rw [List.cons_append, get?_cons, get?_cons, ih, contains_cons]
    grind

theorem get?_put (es : Entries) (key : String) (value : Value) (k : String) :
    (es.put key value).get? k = if k = key then some value else es.get? k := by
  unfold put
  split
  · rw [get?_replace]; simp_all
  · rw [get?_append_singleton]; simp_all

theorem keys_put (es : Entries) (key : String) (value : Value) :
    (es.put key value).keys = if es.contains key then es.keys else es.keys ++ [key] := by
  unfold put
  split
  · simp only [keys, List.map_map]
    apply List.map_congr_left
    intro e _
    by_cases h : e.1 = key <;> simp [h]
  · simp [keys]

theorem nodup_keys_put (es : Entries) (key : String) (value : Value) (h : es.keys.Nodup) :
    (es.put key value).keys.Nodup := by
  rw [keys_put]
  split
  · exact h
  · rename_i hk
    rw [contains_iff_mem_keys] at hk
    rw [List.nodup_append]
    refine ⟨h, by simp, ?_⟩
    intro a ha b hb hab
    simp_all

theorem nodup_keys_overlay (es top : Entries) (h : es.keys.Nodup) : (es.overlay top).keys.Nodup := by
  induction top generalizing es with
  | nil => exact h
  | cons e top ih => exact ih _ (nodup_keys_put es e.1 e.2 h)

end Entries
end TenantTables
