import TenantTables.Schema.Field
import TenantTables.Storage.Filter
import TenantTables.Value.Exchange

/-!
This module contains when two values are the same JSON value, which tells apart a truth value, an integer
and a number with a point at every depth, and which values their form of exchange leaves as they are.
-/

namespace TenantTables

namespace Value

mutual

def alike : Value → Value → Bool
  | .null, .null => true
  | .bool a, .bool b => a == b
  | .int a, .int b => a == b
  | .real a, .real b => a.place? == b.place?
  | .text a, .text b => a == b
  | .date a, .date b => a == b
  | .moment a, .moment b => a == b
  | .uuid a, .uuid b => a == b
  | .list a, .list b => itemsAlike a b
  | .map a, .map b => entriesAlike a b
  | _, _ => false

def itemsAlike : List Value → List Value → Bool
  | [], [] => true
  | a :: as, b :: bs => alike a b && itemsAlike as bs
  | _, _ => false

def entriesAlike : Entries → Entries → Bool
  | [], bs => bs.isEmpty
  | (k, a) :: as, bs =>
    (match bs.get? k with
      | some b => alike a b
      | none => false) && entriesAlike as (bs.eraseP (·.1 == k))

end

mutual

@[simp]
theorem alike_refl : ∀ v : Value, alike v v = true
  | .list items => by
    rw [alike]
    exact itemsAlike_refl items
  | .map entries => by
    rw [alike]
    exact entriesAlike_refl entries
  | .null => rfl
  | .bool _ | .int _ | .real _ | .text _ | .date _ | .moment _ | .uuid _ => by simp [alike]

theorem itemsAlike_refl : ∀ vs : List Value, itemsAlike vs vs = true
  | [] => rfl
  | v :: vs => by
    rw [itemsAlike, alike_refl v, itemsAlike_refl vs]
    rfl

theorem entriesAlike_refl : ∀ es : Entries, entriesAlike es es = true
  | [] => rfl
  | (k, v) :: es => by
    have hget : Entries.get? ((k, v) :: es) k = some v := by
      rw [Entries.get?_cons, if_pos rfl]
    have herase : List.eraseP (·.1 == k) ((k, v) :: es) = es := by
      simp
    rw [entriesAlike, hget, herase]
    simp only [alike_refl v, entriesAlike_refl es, Bool.and_self]

end

theorem entriesAlike_cons_cons (k : String) (a b : Value) (as bs : Entries) :
    entriesAlike ((k, a) :: as) ((k, b) :: bs) = (alike a b && entriesAlike as bs) := by
  have hget : Entries.get? ((k, b) :: bs) k = some b := by
    rw [Entries.get?_cons, if_pos rfl]
  have herase : List.eraseP (·.1 == k) ((k, b) :: bs) = bs := by
    simp
  rw [entriesAlike, hget, herase]

theorem alike_map (as bs : Entries) : alike (.map as) (.map bs) = entriesAlike as bs := by
  rw [alike]

theorem entriesAlike_nil_nil : entriesAlike [] [] = true := rfl

def isJson (v : Value) : Bool :=
  v.isPlain && v.isStrictJson

mutual

theorem exchange_of_json : ∀ v : Value, v.isPlain = true → v.isStrictJson = true → v.exchange = v
  | .list items => by
    intro hplain hstrict
    rw [isPlain] at hplain
    rw [isStrictJson] at hstrict
    rw [exchange, exchangeItems_of_json items hplain hstrict]
  | .map entries => by
    intro hplain hstrict
    rw [isPlain] at hplain
    rw [isStrictJson] at hstrict
    rw [exchange, exchangeEntries_of_json entries hplain hstrict]
  | .real x => by
    intro _ hstrict
    rw [isStrictJson] at hstrict
    rw [exchange, if_pos hstrict]
  | .null | .bool _ | .int _ | .text _ => by
    intro _ _
    rfl
  | .date _ | .moment _ | .uuid _ => by
    intro hplain
    simp [isPlain] at hplain

theorem exchangeItems_of_json : ∀ vs : List Value, itemsPlain vs = true → itemsStrict vs = true →
    exchangeItems vs = vs
  | [] => by
    intro _ _
    rfl
  | v :: vs => by
    intro hplain hstrict
    rw [itemsPlain, Bool.and_eq_true] at hplain
    rw [itemsStrict, Bool.and_eq_true] at hstrict
    rw [exchangeItems, exchange_of_json v hplain.1 hstrict.1,
      exchangeItems_of_json vs hplain.2 hstrict.2]

theorem exchangeEntries_of_json : ∀ es : List (String × Value), entriesPlain es = true →
    entriesStrict es = true → exchangeEntries es = es
  | [] => by
    intro _ _
    rfl
  | (k, v) :: es => by
    intro hplain hstrict
    rw [entriesPlain, Bool.and_eq_true] at hplain
    rw [entriesStrict, Bool.and_eq_true] at hstrict
    rw [exchangeEntries, exchange_of_json v hplain.1 hstrict.1,
      exchangeEntries_of_json es hplain.2 hstrict.2]

end

theorem exchange_of_isJson {v : Value} (h : v.isJson = true) : v.exchange = v := by
  rw [isJson, Bool.and_eq_true] at h
  exact exchange_of_json v h.1 h.2

mutual

theorem json_exchange : ∀ v : Value, v.exchange.isPlain = true ∧ v.exchange.isStrictJson = true
  | .list items => by
    rw [exchange, isPlain, isStrictJson]
    exact json_exchangeItems items
  | .map entries => by
    rw [exchange, isPlain, isStrictJson]
    exact json_exchangeEntries entries
  | .real x => by
    rw [exchange]
    split
    . next hfinite => exact ⟨rfl, hfinite⟩
    . exact ⟨rfl, rfl⟩
  | .null | .bool _ | .int _ | .text _ | .date _ | .moment _ | .uuid _ => ⟨rfl, rfl⟩

theorem json_exchangeItems : ∀ vs : List Value,
    itemsPlain (exchangeItems vs) = true ∧ itemsStrict (exchangeItems vs) = true
  | [] => ⟨rfl, rfl⟩
  | v :: vs => by
    rw [exchangeItems, itemsPlain, itemsStrict, Bool.and_eq_true, Bool.and_eq_true]
    obtain ⟨hplain, hstrict⟩ := json_exchange v
    obtain ⟨hplains, hstricts⟩ := json_exchangeItems vs
    exact ⟨⟨hplain, hplains⟩, ⟨hstrict, hstricts⟩⟩

theorem json_exchangeEntries : ∀ es : List (String × Value),
    entriesPlain (exchangeEntries es) = true ∧ entriesStrict (exchangeEntries es) = true
  | [] => ⟨rfl, rfl⟩
  | (k, v) :: es => by
    rw [exchangeEntries, entriesPlain, entriesStrict, Bool.and_eq_true, Bool.and_eq_true]
    obtain ⟨hplain, hstrict⟩ := json_exchange v
    obtain ⟨hplains, hstricts⟩ := json_exchangeEntries es
    exact ⟨⟨hplain, hplains⟩, ⟨hstrict, hstricts⟩⟩

end

@[simp]
theorem exchange_exchange (v : Value) : v.exchange.exchange = v.exchange :=
  exchange_of_json _ (json_exchange v).1 (json_exchange v).2

theorem isPlain_map_iff (es : Entries) : (map es).isPlain = true ↔ ∀ e ∈ es, e.2.isPlain = true := by
  rw [isPlain]
  induction es with
  | nil => simp [entriesPlain]
  | cons e es ih => rw [entriesPlain, Bool.and_eq_true, ih, List.forall_mem_cons]

theorem isPlain_of_mem {es : Entries} (h : (map es).isPlain = true) {e : String × Value}
    (he : e ∈ es) : e.2.isPlain = true :=
  (isPlain_map_iff es).mp h e he

end Value

theorem Entries.isPlain_get {es : Entries} (h : (Value.map es).isPlain = true) (key : String) :
    (es.get key).isPlain = true := by
  unfold get get?
  cases hfound : es.find? (·.1 == key) with
  | none => rfl
  | some e => exact Value.isPlain_of_mem h (List.mem_of_find?_eq_some hfound)

@[simp]
theorem Field.exchange_exchange (f : Field) : f.exchange.exchange = f.exchange := by
  simp [Field.exchange]

end TenantTables
