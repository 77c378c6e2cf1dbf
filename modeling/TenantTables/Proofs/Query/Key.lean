import TenantTables.Proofs.Query.Page

namespace TenantTables

namespace Outcome

def isViolation : Outcome α → Bool
  | .error (.violation _) => true
  | _ => false

theorem isViolation_bind {r : Outcome α} {f : α → Outcome β} (hr : isViolation r = false)
    (hf : ∀ a, isViolation (f a) = false) : isViolation (r >>= f) = false := by
  cases r with
  | error e => cases e <;> first | rfl | contradiction
  | ok a => exact hf a

end Outcome

section Storage

open Outcome

theorem Filter.isViolation_checkPaths (filters : Entries) : isViolation (checkPaths filters) = false := by
  induction filters with
  | nil => rfl
  | cons e filters ih =>
    show isViolation (discard (jsonPath e.1) >>= fun _ => checkPaths filters) = false
    apply isViolation_bind _ fun _ => ih
    unfold jsonPath
    split <;> rfl

theorem Filter.isViolation_readAll (filters : Entries) : isViolation (readAll filters) = false := by
  induction filters with
  | nil => rfl
  | cons e filters ih =>
    rw [readAll_cons]
    apply isViolation_bind
    . unfold Wanted.ofValue
      split <;> first | rfl | (split <;> rfl)
    . exact fun _ => isViolation_bind ih fun _ => rfl

theorem Record.isViolation_filterAll (filters : List Filter) (records : List Record) :
    isViolation (filterAll filters records) = false := by
  unfold filterAll
  split
  . rfl
  . split <;> rfl

namespace Store

variable (s : Store)

theorem isViolation_requireReady : isViolation s.requireReady = false := by
  unfold requireReady
  split <;> rfl

theorem isViolation_count (tableId : String) (filters : Entries) :
    isViolation (s.count tableId filters) = false := by
  apply isViolation_bind
  . apply isViolation_bind (Filter.isViolation_checkPaths filters)
    intro _
    apply isViolation_bind s.isViolation_requireReady
    intro _
    apply isViolation_bind (Filter.isViolation_readAll filters)
    exact fun fs => Record.isViolation_filterAll fs _
  . exact fun _ => rfl

theorem isViolation_select (q : Selection) : isViolation (s.select q) = false := by
  apply isViolation_bind (Filter.isViolation_checkPaths q.filters)
  intro _
  apply isViolation_bind s.isViolation_requireReady
  intro _
  apply isViolation_bind (Filter.isViolation_readAll q.filters)
  intro fs
  dsimp only
  split
  . rfl
  . split
    . rfl
    . exact isViolation_bind (Record.isViolation_filterAll fs _) fun _ => rfl

end Store

end Storage

namespace Query

/--
The check of filters stops at a key with its value: the key is not in snake case, and those before it are and
have single values.
-/
inductive Refuses (key : String) (v : Value) : Entries → Prop where
  | here {filters : Entries} : ¬Text.IsSnakeLine key → Refuses key v ((key, v) :: filters)
  | there {e : String × Value} {filters : Entries} : Text.IsSnakeLine e.1 → isScalar e.2 = true →
    Refuses key v filters → Refuses key v (e :: filters)

theorem checkFilters_eq_filterKey {key : String} {v : Value} {filters : Entries} :
    checkFilters filters = reject (.filterKey key) key v ↔ Refuses key v filters := by
  induction filters with
  | nil =>
    constructor
    . intro h
      contradiction
    . intro h
      cases h
  | cons e filters ih =>
    obtain ⟨k, u⟩ := e
    rw [checkFilters_cons]
    split
    . next h =>
      have hsnake := Text.isSnakeCase_iff.mp h
      split
      . next hscalar =>
        rw [ih]
        constructor
        . exact .there hsnake hscalar
        . intro h
          cases h with
          | here hnot => contradiction
          | there _ _ h => exact h
      . next hscalar =>
        constructor
        . intro h
          simp [reject] at h
        . intro h
          cases h with
          | here hnot => contradiction
          | there _ hs _ => contradiction
    . next h =>
      have hnot := mt Text.isSnakeCase_iff.mpr h
      constructor
      . intro h
        obtain ⟨rfl, -, rfl⟩ : k = key ∧ k = key ∧ u = v := by simpa [reject] using h
        exact .here hnot
      . intro h
        cases h with
        | here _ => rfl
        | there hs _ _ => contradiction

/--
A query that nothing but the keys of its filters keeps from an answer: its page is one that storage can cut
out of the records of a table that is there, and its filters ask for single values that storage can bind.
-/
structure IsAnswerable (settings : Settings) (s : Store) (tableId : String) (q : RecordQuery) (size : Int) :
    Prop where
  ready : s.isReady = true
  table : (s.table? tableId).isSome = true
  readable : IsReadable s tableId q
  resolved : pageSize settings q = .ok size
  pos : 1 ≤ size
  lt : size < 2 ^ 63
  page : 1 ≤ q.page
  offset : (q.page - 1) * size < 2 ^ 63
  values : ∀ e ∈ q.filters.getD [], isScalar e.2 = true
  fits : ∀ e ∈ q.filters.getD [], ∀ i, e.2 = .int i → fitsWord i = true

section Answer

variable (source : Source) {w : World} {settings : Settings} {tableId : String} {q : RecordQuery}
  {size : Int}

theorem answer_eq_filterKey (hresolved : pageSize settings q = .ok size) {key : String} {v : Value} :
    answer source w settings tableId q = reject (.filterKey key) key v ↔
      Refuses key v (q.filters.getD []) := by
  rw [← checkFilters_eq_filterKey, answer_of_pageSize source hresolved]
  cases checkFilters (q.filters.getD []) with
  | error e => exact ⟨fun h => congrArg _ (Except.error.inj h), fun h => congrArg _ (Except.error.inj h)⟩
  | ok _ =>
    constructor
    . -- nothing that comes after the check tells of a violation
      intro h
      apply absurd (congrArg Outcome.isViolation h)
      rw [show Outcome.isViolation (reject (.filterKey key) key v : Outcome QueryPage) = true from rfl,
        Bool.not_eq_true]
      apply Outcome.isViolation_bind rfl
      intro _
      apply Outcome.isViolation_bind w.store.isViolation_requireReady
      intro _
      dsimp only
      split
      . rfl
      . apply Outcome.isViolation_bind (w.store.isViolation_count tableId _)
        intro total
        exact Outcome.isViolation_bind (w.store.isViolation_select _) fun _ => rfl
    . intro h
      contradiction

theorem exists_page_iff (h : IsAnswerable settings w.store tableId q size) :
    (∃ page, answer source w settings tableId q = .ok page) ↔
      ∀ e ∈ q.filters.getD [], Text.IsSnakeLine e.1 := by
  have hcheck : checkFilters (q.filters.getD []) = .ok () ↔
      ∀ e ∈ q.filters.getD [], Text.IsSnakeLine e.1 := by
    rw [checkFilters_eq_ok]
    apply forall₂_congr
    intro e he
    rw [Text.isSnakeCase_iff, and_iff_left (h.values e he)]
  rw [← hcheck]
  constructor
  . rintro ⟨page, hpage⟩
    rw [answer_of_pageSize source h.resolved] at hpage
    obtain ⟨_, hchecked, -⟩ := Outcome.bind_eq_ok.mp hpage
    exact hchecked
  . intro hchecked
    have haccepts : Accepts settings q size := ⟨h.resolved, h.pos, h.lt, hchecked, h.fits⟩
    exact ⟨_, answer_of_isReadable source haccepts h.ready h.table h.readable h.page h.offset⟩

end Answer

end Query

end TenantTables
