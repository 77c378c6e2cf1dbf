import TenantTables.Proofs.Number.Quotient
import TenantTables.Proofs.Operation.ReadBack
import TenantTables.Proofs.Query.Order
import TenantTables.Proofs.Query.Sort
import TenantTables.Proofs.Storage.Filter
import TenantTables.Proofs.Text.SnakeCase

namespace TenantTables

def Filter.meets (filters data : Entries) : Bool :=
  match readAll filters with
  | .ok fs => fs.all fun f => f.accepts data
  | .error _ => false

namespace Query

open Program

def found (s : Store) (tableId : String) (q : RecordQuery) : List Record :=
  (s.live tableId).filter fun r => Filter.meets (q.filters.getD []) r.data

structure Accepts (settings : Settings) (q : RecordQuery) (size : Int) : Prop where
  resolved : pageSize settings q = .ok size
  pos : 1 ≤ size
  lt : size < 2 ^ 63
  filters : checkFilters (q.filters.getD []) = .ok ()
  fits : ∀ e ∈ q.filters.getD [], ∀ i, e.2 = .int i → fitsWord i = true

def IsReadable (s : Store) (tableId : String) (q : RecordQuery) : Prop :=
  q.filters.getD [] = [] ∨ ∀ r ∈ s.live tableId, (Value.map r.data).isStrictJson = true

theorem checkFilters_cons (key : String) (v : Value) (filters : Entries) :
    checkFilters ((key, v) :: filters) =
      if Text.isSnakeCase key = true then
        if isScalar v = true then checkFilters filters else reject (.filterScalar key) key v
      else reject (.filterKey key) key v := by
  show (_ >>= fun _ => checkFilters filters) = _
  dsimp only
  by_cases hsnake : Text.isSnakeCase key = true
  . by_cases hscalar : isScalar v = true
    . rw [if_pos hsnake, if_pos hscalar, if_neg (by simp [hsnake]), if_neg (by simp [hscalar])]
      rfl
    . rw [if_pos hsnake, if_neg hscalar, if_neg (by simp [hsnake]), if_pos (by simp [hscalar])]
      rfl
  . rw [if_neg hsnake, if_pos (by simp [hsnake])]
    rfl

theorem checkFilters_eq_ok {filters : Entries} :
    checkFilters filters = .ok () ↔
      ∀ e ∈ filters, Text.isSnakeCase e.1 = true ∧ isScalar e.2 = true := by
  induction filters with
  | nil => simp [checkFilters, pure, Except.pure]
  | cons e filters ih =>
    rw [checkFilters_cons, List.forall_mem_cons, ← ih]
    split
    . next hsnake =>
      split
      . next hscalar => simp [hsnake, hscalar]
      . next hscalar => simp [hscalar, reject]
    . next hsnake => simp [hsnake, reject]

theorem isClean_of_isSnakeCase {key : String} (h : Text.isSnakeCase key = true) : Filter.IsClean key := by
  intro c hc
  rcases Text.isSnakeChar_of_isSnakeLine (Text.isSnakeCase_iff.mp h) hc with hsnake | rfl
  . exact (Filter.plain_of_isSnakeChar hsnake).2
  . decide

section Filters

variable {filters : Entries}

theorem checkPaths_of_checkFilters (h : checkFilters filters = .ok ()) : Filter.checkPaths filters = .ok () :=
  Filter.checkPaths_of_isClean fun e he => isClean_of_isSnakeCase (checkFilters_eq_ok.mp h e he).1

theorem readAll_of_fits (h : checkFilters filters = .ok ())
    (hfits : ∀ e ∈ filters, ∀ i, e.2 = .int i → fitsWord i = true) :
    ∃ fs, Filter.readAll filters = .ok fs ∧ fs.isEmpty = filters.isEmpty ∧ ∀ f ∈ fs, f.isCut = false := by
  have hkeys := checkFilters_eq_ok.mp h
  clear h
  induction filters with
  | nil => exact ⟨[], rfl, rfl, by simp⟩
  | cons e filters ih =>
    obtain ⟨hsnake, hscalar⟩ := hkeys e List.mem_cons_self
    obtain ⟨wanted, hwanted⟩ : ∃ wanted, Wanted.ofValue e.2 = .ok wanted := by
      cases hv : e.2 with
      | int i =>
        have hi := hfits e List.mem_cons_self i hv
        exact ⟨.number (some (.ofInt i)), by rw [Wanted.ofValue, if_pos hi]⟩
      | null => exact ⟨_, rfl⟩
      | bool b => exact ⟨_, rfl⟩
      | real x => exact ⟨_, rfl⟩
      | text s => exact ⟨_, rfl⟩
      | _ => simp [hv, isScalar] at hscalar
    obtain ⟨fs, hfs, -, hcut⟩ := ih (fun e' he' => hfits e' (List.mem_cons_of_mem _ he'))
      fun e' he' => hkeys e' (List.mem_cons_of_mem _ he')
    refine ⟨⟨e.1, wanted⟩ :: fs, ?_, rfl, ?_⟩
    . rw [Filter.readAll_cons, hwanted, hfs]
      rfl
    . intro f hf
      rcases List.mem_cons.mp hf with rfl | hf
      . exact Filter.isCut_of_isClean (isClean_of_isSnakeCase hsnake)
      . exact hcut f hf

end Filters

namespace Accepts

variable {settings : Settings} {q : RecordQuery} {size : Int}

theorem of_eq (h : Accepts settings q size) {q' : RecordQuery} (hfilters : q'.filters = q.filters)
    (hlimit : q'.limit = q.limit) : Accepts settings q' size := by
  have hsize : pageSize settings q' = pageSize settings q := by rw [pageSize, pageSize, hlimit]
  refine ⟨hsize.trans h.resolved, h.pos, h.lt, ?_, ?_⟩
  . rw [hfilters]
    exact h.filters
  . rw [hfilters]
    exact h.fits

theorem checkPaths (h : Accepts settings q size) : Filter.checkPaths (q.filters.getD []) = .ok () :=
  checkPaths_of_checkFilters h.filters

theorem readAll (h : Accepts settings q size) :
    ∃ fs, Filter.readAll (q.filters.getD []) = .ok fs ∧ fs.isEmpty = (q.filters.getD []).isEmpty ∧
      ∀ f ∈ fs, f.isCut = false :=
  readAll_of_fits h.filters h.fits

end Accepts

theorem fitsWord_of_lt {i : Int} (hnonneg : 0 ≤ i) (hlt : i < 2 ^ 63) : fitsWord i = true := by
  have hlow : Document.Reader.wordRange.1 ≤ i := by
    show -9223372036854775808 ≤ i
    omega
  have hhigh : i ≤ Document.Reader.wordRange.2 := by
    show i ≤ 9223372036854775807
    omega
  simp [fitsWord, hlow, hhigh]

section Storage

variable {settings : Settings} {q : RecordQuery} {size : Int} {s : Store} {tableId : String}

theorem filterAll_of_isReadable {fs : List Filter}
    (hfs : Filter.readAll (q.filters.getD []) = .ok fs)
    (hempty : fs.isEmpty = (q.filters.getD []).isEmpty) (hcut : ∀ f ∈ fs, f.isCut = false)
    (h : IsReadable s tableId q) :
    Record.filterAll fs (s.live tableId) = .ok (found s tableId q) := by
  have hmeets (data : Entries) :
      Filter.meets (q.filters.getD []) data = fs.all fun f => f.accepts data := by
    rw [Filter.meets, hfs]
  unfold Record.filterAll found
  simp only [hmeets]
  split
  . next hnone =>
    obtain rfl : fs = [] := by simpa using hnone
    simp
  . next hsome =>
    rw [if_neg]
    rw [List.any_eq_true]
    rintro ⟨r, hr, hbad⟩
    have hnocut : fs.any Filter.isCut = false := by simpa using hcut
    rcases h with hnil | hstrict
    . rw [hempty, hnil] at hsome
      simp at hsome
    . simp [hstrict r hr, hnocut] at hbad

theorem filterAll_of_not_isReadable {fs : List Filter}
    (hempty : fs.isEmpty = (q.filters.getD []).isEmpty) (h : ¬IsReadable s tableId q) :
    Record.filterAll fs (s.live tableId) = .error (.storage .operational) := by
  rw [IsReadable, not_or] at h
  obtain ⟨hsome, hbad⟩ := h
  have hsome' : ¬fs.isEmpty = true := by
    rw [hempty]
    simpa using hsome
  simp only [not_forall] at hbad
  obtain ⟨r, hr, hbad⟩ := hbad
  unfold Record.filterAll
  rw [if_neg hsome', if_pos]
  rw [List.any_eq_true]
  exact ⟨r, hr, by simp [hbad]⟩

theorem selection_fields (tableId : String) (q : RecordQuery) (size : Int) :
    (selection tableId q size).tableId = tableId ∧
      (selection tableId q size).filters = q.filters.getD [] ∧
      (selection tableId q size).offset = (q.page - 1) * size ∧
      (selection tableId q size).limit = some size ∧
      (selection tableId q size).excludeId = none := by
  unfold selection
  dsimp only
  split <;> exact ⟨rfl, rfl, rfl, rfl, rfl⟩

def slice (s : Store) (tableId : String) (q : RecordQuery) (size : Int) : List Record :=
  (((selection tableId q size).arrange (found s tableId q)).drop ((q.page - 1) * size).toNat).take
    size.toNat

theorem count_of_isReadable (hready : s.isReady = true) (hfilters : checkFilters (q.filters.getD []) = .ok ())
    (hfits : ∀ e ∈ q.filters.getD [], ∀ i, e.2 = .int i → fitsWord i = true) (h : IsReadable s tableId q) :
    s.count tableId (q.filters.getD []) = .ok (found s tableId q).length := by
  obtain ⟨fs, hfs, hempty, hcut⟩ := readAll_of_fits hfilters hfits
  rw [Store.count, Store.matching, checkPaths_of_checkFilters hfilters, Store.requireReady, if_pos hready, hfs]
  simp [Bind.bind, Except.bind, pure, Except.pure, filterAll_of_isReadable hfs hempty hcut h]

theorem count_of_not_isReadable (hready : s.isReady = true) (haccepts : Accepts settings q size)
    (h : ¬IsReadable s tableId q) :
    s.count tableId (q.filters.getD []) = .error (.storage .operational) := by
  obtain ⟨fs, hfs, hempty, -⟩ := haccepts.readAll
  rw [Store.count, Store.matching, haccepts.checkPaths, Store.requireReady, if_pos hready, hfs]
  simp [Bind.bind, Except.bind, filterAll_of_not_isReadable hempty h]

theorem select_of_isReadable (hready : s.isReady = true) (haccepts : Accepts settings q size)
    (h : IsReadable s tableId q) (hpage : 1 ≤ q.page) (hoffset : (q.page - 1) * size < 2 ^ 63) :
    s.select (selection tableId q size) = .ok (slice s tableId q size) := by
  obtain ⟨fs, hfs, hempty, hcut⟩ := haccepts.readAll
  obtain ⟨htable, hfilters, hoff, hlimit, hexclude⟩ := selection_fields tableId q size
  have hpos := haccepts.pos
  have hlt := haccepts.lt
  have hnonneg : 0 ≤ (q.page - 1) * size := Int.mul_nonneg (by omega) (by omega)
  have hfound : Record.filterAll fs (s.live (selection tableId q size).tableId) = .ok (found s tableId q) := by
    rw [htable]
    exact filterAll_of_isReadable hfs hempty hcut h
  rw [← hfilters] at hfs
  rw [Store.select_of_filterAll hready _ hfs _ _ _ hfound]
  . have hall : (found s tableId q).filter (fun r => (none : Option String) != some r.id) =
        found s tableId q :=
      List.filter_eq_self.mpr fun _ _ => rfl
    have hsize : ¬size < 0 := by omega
    rw [hexclude, hall, Selection.page, hlimit, hoff, slice]
    dsimp only
    rw [if_neg hsize]
  . rw [hfilters]
    exact haccepts.checkPaths
  . rw [hlimit, Option.getD_some]
    exact fitsWord_of_lt (by omega) hlt
  . rw [hoff]
    exact fitsWord_of_lt hnonneg hoffset
  . rw [hlimit, ne_eq, Option.some.injEq]
    omega

end Storage

def answer (source : Source) (w : World) (settings : Settings) (tableId : String) (q : RecordQuery) :
    Outcome QueryPage :=
  ((page settings tableId (.ready q)).run source w).1

def listing (source : Source) (w : World) (settings : Settings) (tableId : String) (q : RecordQuery)
    (pages : Nat) : List Entries :=
  (List.range pages).flatMap fun (i : Nat) =>
    match answer source w settings tableId { q with page := (i : Int) + 1 } with
    | .ok page => page.records
    | .error _ => []

section Answer

variable (source : Source) {w : World} {settings : Settings} {tableId : String} {q : RecordQuery}
  {size : Int}

theorem page_of_readOptions {request : Request RecordQuery} (h : readOptions request = .ok q) :
    page settings tableId request = page settings tableId (.ready q) := by
  unfold page
  rw [h]
  rfl

theorem run_discard_requireTable :
    (discard (requireTable tableId) : Program PUnit).run source w =
      ((do
        w.store.requireReady
        if (w.store.table? tableId).isNone then throw (.notFound "Table")), w) := by
  show ((requireTable tableId) >>= fun _ => pure PUnit.unit).run source w = _
  unfold requireTable
  rw [run_bind, run_bind, run_ask]
  simp only [World.answer, World.answer.read]
  cases w.store.requireReady with
  | error e => rfl
  | ok _ => cases w.store.table? tableId <;> rfl

theorem run_count_select (tableId : String) (q : RecordQuery) (size : Int) :
    ((do
      let total ← ask (.count tableId (q.filters.getD []))
      let records ← ask (.select (selection tableId q size))
      return { records := rows q records, total, page := q.page, totalPages := pageCount total size } :
        Program QueryPage).run source w).1 = do
      let total ← w.store.count tableId (q.filters.getD [])
      let records ← w.store.select (selection tableId q size)
      return { records := rows q records, total, page := q.page, totalPages := pageCount total size } := by
  rw [run_bind, run_ask]
  simp only [World.answer, World.answer.read]
  cases w.store.count tableId (q.filters.getD []) with
  | error e => rfl
  | ok total =>
    dsimp only
    rw [run_bind, run_ask]
    simp only [World.answer, World.answer.read]
    cases w.store.select (selection tableId q size) <;> rfl

theorem answer_of_pageSize (h : pageSize settings q = .ok size) :
    answer source w settings tableId q = do
      checkFilters (q.filters.getD [])
      w.store.requireReady
      if (w.store.table? tableId).isNone then throw (.notFound "Table")
      let total ← w.store.count tableId (q.filters.getD [])
      let records ← w.store.select (selection tableId q size)
      return { records := rows q records, total, page := q.page, totalPages := pageCount total size } := by
  obtain ⟨-, hfilters, -, -, -⟩ := selection_fields tableId q size
  have hread : readOptions (.ready q) = .ok q := rfl
  unfold answer page
  rw [hread, run_bind, run_lift]
  dsimp only
  rw [h, run_bind, run_lift]
  dsimp only
  rw [run_bind, run_lift, hfilters]
  cases checkFilters (q.filters.getD []) with
  | error e => rfl
  | ok _ =>
    dsimp only
    rw [run_bind, run_discard_requireTable]
    cases w.store.requireReady with
    | error e => rfl
    | ok _ =>
      cases w.store.table? tableId with
      | none => rfl
      | some t => exact run_count_select source tableId q size

theorem answer_eq (haccepts : Accepts settings q size) (hready : w.store.isReady = true)
    (htable : (w.store.table? tableId).isSome = true) :
    answer source w settings tableId q = do
      let total ← w.store.count tableId (q.filters.getD [])
      let records ← w.store.select (selection tableId q size)
      return { records := rows q records, total, page := q.page, totalPages := pageCount total size } := by
  obtain ⟨t, ht⟩ := Option.isSome_iff_exists.mp htable
  rw [answer_of_pageSize source haccepts.resolved, haccepts.filters, Store.requireReady, if_pos hready, ht]
  rfl

theorem answer_of_isReadable (haccepts : Accepts settings q size) (hready : w.store.isReady = true)
    (htable : (w.store.table? tableId).isSome = true) (h : IsReadable w.store tableId q)
    (hpage : 1 ≤ q.page) (hoffset : (q.page - 1) * size < 2 ^ 63) :
    answer source w settings tableId q = .ok {
      records := rows q (slice w.store tableId q size), total := (found w.store tableId q).length
      page := q.page, totalPages := pageCount (found w.store tableId q).length size } := by
  rw [answer_eq source haccepts hready htable, count_of_isReadable hready haccepts.filters haccepts.fits h,
    select_of_isReadable hready haccepts h hpage hoffset]
  rfl

theorem answer_of_not_isReadable (haccepts : Accepts settings q size) (hready : w.store.isReady = true)
    (htable : (w.store.table? tableId).isSome = true) (h : ¬IsReadable w.store tableId q) :
    answer source w settings tableId q = .error (.storage .operational) := by
  rw [answer_eq source haccepts hready htable, count_of_not_isReadable hready haccepts h]
  rfl

end Answer

def sortsData (q : RecordQuery) : Bool :=
  match q.sort with
  | some s => s.timestampColumn?.isNone
  | none => false

def order (q : RecordQuery) : TimestampColumn × Bool :=
  match q.sort with
  | some s =>
    match s.timestampColumn? with
    | some column => (column, s.descending)
    | none => (.createdAt, true)
  | none => (.createdAt, true)

theorem order_selection (tableId : String) (q : RecordQuery) (size : Int) :
    ((selection tableId q size).column, (selection tableId q size).descending) = order q := by
  unfold selection order
  cases q.sort with
  | none => rfl
  | some s => cases hcolumn : s.timestampColumn? <;> simp [hcolumn]

theorem arrange_eq_of_order_eq {s s' : Selection} (h : (s.column, s.descending) = (s'.column, s'.descending))
    (rs : List Record) : s.arrange rs = s'.arrange rs := by
  obtain ⟨hcolumn, hdescending⟩ := Prod.mk.inj h
  rw [Selection.arrange, Selection.arrange, hcolumn, hdescending]

theorem perm_rows (q : RecordQuery) (rs : List Record) : (rows q rs).Perm (rs.map (·.toRow)) := by
  unfold rows
  dsimp only
  split
  . split
    . exact SortSpec.perm_sortRows _ _
    . exact List.Perm.refl _
  . exact List.Perm.refl _

theorem rows_of_not_sortsData {q : RecordQuery} (h : sortsData q = false) (rs : List Record) :
    rows q rs = rs.map (·.toRow) := by
  unfold rows
  unfold sortsData at h
  cases hsort : q.sort with
  | none => rfl
  | some s =>
    rw [hsort] at h
    dsimp only at h ⊢
    rw [h]
    rfl

theorem flatMap_slices (xs : List α) (size pages : Nat) :
    (List.range pages).flatMap (fun i => (xs.drop (i * size)).take size) = xs.take (pages * size) := by
  induction pages with
  | zero => simp
  | succ pages ih =>
    rw [Nat.succ_mul, List.take_add, ← ih, List.range_succ, List.flatMap_append]
    simp

section Pages

variable (source : Source) {w : World} {settings : Settings} {tableId : String} {q : RecordQuery}
  {size : Int}

theorem length_slice (hsize : 1 ≤ size) (hpage : 1 ≤ q.page) :
    ((slice w.store tableId q size).length : Int) =
      min size (max 0 ((found w.store tableId q).length - (q.page - 1) * size)) := by
  have hnonneg : 0 ≤ (q.page - 1) * size := Int.mul_nonneg (by omega) (by omega)
  rw [slice, List.length_take, List.length_drop,
    ((selection tableId q size).perm_arrange (found w.store tableId q)).length_eq]
  omega

theorem offset_lt {total pages i : Nat} (hpages : ∀ p : Int, total ≤ p * size ↔ pages ≤ p)
    (htotal : total < 2 ^ 53) (hi : i < pages) : (i : Int) * size < 2 ^ 63 := by
  have hlast : ¬(total : Int) ≤ ((i : Int)) * size := by
    rw [hpages]
    omega
  omega

theorem listing_eq (haccepts : Accepts settings q size) (hready : w.store.isReady = true)
    (htable : (w.store.table? tableId).isSome = true) (h : IsReadable w.store tableId q)
    (hcount : (found w.store tableId q).length < 2 ^ 53) {pages : Nat}
    (hpages : ∀ p : Int, (found w.store tableId q).length ≤ p * size ↔ pages ≤ p) :
    listing source w settings tableId q pages = (List.range pages).flatMap fun (i : Nat) =>
      rows q (slice w.store tableId { q with page := i + 1 } size) := by
  unfold listing
  rw [List.flatMap_def, List.flatMap_def]
  congr 1
  apply List.map_congr_left
  intro i hi
  have hoffset := offset_lt hpages hcount (List.mem_range.mp hi)
  have hanswer := answer_of_isReadable source (q := { q with page := i + 1 }) (haccepts.of_eq rfl rfl) hready
    htable h (by simp) (by simpa using hoffset)
  rw [hanswer]
  rfl

theorem flatMap_slice (hsize : 1 ≤ size) {pages : Nat}
    (hpages : ∀ p : Int, (found w.store tableId q).length ≤ p * size ↔ pages ≤ p) :
    ((List.range pages).flatMap fun (i : Nat) => slice w.store tableId { q with page := i + 1 } size) =
      (selection tableId q size).arrange (found w.store tableId q) := by
  obtain ⟨n, rfl⟩ := Int.eq_ofNat_of_zero_le (show 0 ≤ size by omega)
  have hslice (i : Nat) : slice w.store tableId { q with page := i + 1 } n =
      (((selection tableId q n).arrange (found w.store tableId q)).drop (i * n)).take n := by
    have hoffset : ((i + 1 - 1 : Int) * n).toNat = i * n := by
      have hcast : ((i + 1 - 1 : Int) * n) = ((i * n : Nat) : Int) := by
        rw [Int.add_sub_cancel, Int.natCast_mul]
      rw [hcast, Int.toNat_natCast]
    have horder : ((selection tableId { q with page := i + 1 } n).column,
        (selection tableId { q with page := i + 1 } n).descending) =
        ((selection tableId q n).column, (selection tableId q n).descending) := by
      rw [order_selection, order_selection]
      rfl
    rw [slice, arrange_eq_of_order_eq horder, Int.toNat_natCast]
    dsimp only
    rw [hoffset]
    rfl
  simp only [hslice]
  rw [flatMap_slices, List.take_of_length_le]
  rw [((selection tableId q n).perm_arrange (found w.store tableId q)).length_eq]
  have hall := (hpages pages).mpr (Int.le_refl _)
  exact_mod_cast hall

theorem exists_pageCount (hsize : 1 ≤ size) (hlt : size < 2 ^ 63) {total : Nat} (htotal : total < 2 ^ 53) :
    ∃ pages : Nat, pageCount total size = pages ∧ ∀ p : Int, total ≤ p * size ↔ pages ≤ p := by
  obtain ⟨n, rfl⟩ := Int.eq_ofNat_of_zero_le (show 0 ≤ size by omega)
  have hle (p : Int) : pageCount total n ≤ p ↔ (total : Int) ≤ p * n := by
    rw [pageCount, Int.toNat_natCast]
    exact Binary64.ceil_ofRatio_le_iff htotal (by omega) (by omega) p
  have hnonneg : 0 ≤ pageCount total n := by
    by_contra hneg
    have hminus := (hle (-1)).mp (by omega)
    omega
  obtain ⟨pages, hpages⟩ := Int.eq_ofNat_of_zero_le hnonneg
  refine ⟨pages, hpages, fun p => ?_⟩
  rw [← hle, hpages]

theorem perm_listing (haccepts : Accepts settings q size) (hready : w.store.isReady = true)
    (htable : (w.store.table? tableId).isSome = true) (h : IsReadable w.store tableId q)
    (hcount : (found w.store tableId q).length < 2 ^ 53) {pages : Nat}
    (hpages : ∀ p : Int, (found w.store tableId q).length ≤ p * size ↔ pages ≤ p) :
    (listing source w settings tableId q pages).Perm ((found w.store tableId q).map (·.toRow)) := by
  rw [listing_eq source haccepts hready htable h hcount hpages]
  refine (List.Perm.flatMap_left _ fun i _ => perm_rows q _).trans ?_
  rw [← List.map_flatMap, flatMap_slice haccepts.pos hpages]
  exact ((selection tableId q size).perm_arrange _).map _

theorem nodup_found (hnodup : (w.store.records.map (·.id)).Nodup) :
    ((found w.store tableId q).map (·.id)).Nodup := by
  have hsublist : (found w.store tableId q).Sublist w.store.records :=
    List.filter_sublist.trans List.filter_sublist
  exact List.Nodup.sublist (hsublist.map _) hnodup

theorem listing_of_not_sortsData (haccepts : Accepts settings q size) (hready : w.store.isReady = true)
    (htable : (w.store.table? tableId).isSome = true) (h : IsReadable w.store tableId q)
    (hnodup : (w.store.records.map (·.id)).Nodup) (hcount : (found w.store tableId q).length < 2 ^ 53)
    {pages : Nat} (hpages : ∀ p : Int, (found w.store tableId q).length ≤ p * size ↔ pages ≤ p)
    (hsorts : sortsData q = false) :
    ∃ rs, listing source w settings tableId q pages = rs.map (·.toRow) ∧
      rs.Perm (found w.store tableId q) ∧ Record.AreOrdered (order q).1 (order q).2 rs := by
  refine ⟨(selection tableId q size).arrange (found w.store tableId q), ?_, ?_, ?_⟩
  . rw [listing_eq source haccepts hready htable h hcount hpages, ← flatMap_slice haccepts.pos hpages,
      List.map_flatMap]
    congr 1
    funext i
    exact rows_of_not_sortsData hsorts _
  . exact (selection tableId q size).perm_arrange _
  . rw [← order_selection tableId q size]
    exact (selection tableId q size).areOrdered_arrange (nodup_found hnodup)

end Pages

structure ArePages (source : Source) (w : World) (settings : Settings) (tableId : String)
    (q : RecordQuery) (size : Int) (pages : Nat) : Prop where
  least : ∀ p : Int, (found w.store tableId q).length ≤ p * size ↔ pages ≤ p
  answers : ∀ k : Int, 1 ≤ k → (k - 1) * size < 2 ^ 63 → ∃ rows,
    answer source w settings tableId { q with page := k } = .ok
      { records := rows, total := (found w.store tableId q).length, page := k, totalPages := pages } ∧
    (rows.length : Int) = min size (max 0 ((found w.store tableId q).length - (k - 1) * size))
  once : (listing source w settings tableId q pages).Perm ((found w.store tableId q).map (·.toRow))
  ordered : sortsData q = false → ∃ rs, listing source w settings tableId q pages = rs.map (·.toRow) ∧
    rs.Perm (found w.store tableId q) ∧ Record.AreOrdered (order q).1 (order q).2 rs
  reversed : ∀ field, sortsData { q with sort := some { field } } = false →
    listing source w settings tableId { q with sort := some { field, order := .asc } } pages =
      (listing source w settings tableId { q with sort := some { field, order := .desc } } pages).reverse
  rearranged : sortsData q = true → ∀ k : Int, 1 ≤ k → (k - 1) * size < 2 ^ 63 → ∃ sorted unsorted,
    answer source w settings tableId { q with page := k } = .ok sorted ∧
    answer source w settings tableId { q with page := k, sort := none } = .ok unsorted ∧
    sorted.records.Perm unsorted.records

section Partition

variable (source : Source) {w : World} {settings : Settings} {tableId : String} {q : RecordQuery}
  {size : Int}

theorem reversed_of_isReadable (haccepts : Accepts settings q size) (hready : w.store.isReady = true)
    (htable : (w.store.table? tableId).isSome = true) (h : IsReadable w.store tableId q)
    (hnodup : (w.store.records.map (·.id)).Nodup) (hcount : (found w.store tableId q).length < 2 ^ 53)
    {pages : Nat} (hpages : ∀ p : Int, (found w.store tableId q).length ≤ p * size ↔ pages ≤ p)
    {field : String} (hsorts : sortsData { q with sort := some { field } } = false) :
    listing source w settings tableId { q with sort := some { field, order := .asc } } pages =
      (listing source w settings tableId { q with sort := some { field, order := .desc } }
        pages).reverse := by
  have hlisting (direction : SortOrder) :=
    listing_of_not_sortsData source (q := { q with sort := some { field, order := direction } })
      (haccepts.of_eq rfl rfl) hready htable h hnodup hcount hpages hsorts
  obtain ⟨column, hcolumn⟩ : ∃ column, (SortSpec.mk field .asc).timestampColumn? = some column := by
    rw [← Option.isSome_iff_exists]
    simpa [sortsData] using hsorts
  have horder (direction : SortOrder) : order { q with sort := some { field, order := direction } } =
      (column, decide (direction = .desc)) := by
    have hsame : (SortSpec.mk field direction).timestampColumn? = some column := hcolumn
    simp [order, hsame, SortSpec.descending]
  obtain ⟨up, hup, hupperm, huporder⟩ := hlisting .asc
  obtain ⟨down, hdown, hdownperm, hdownorder⟩ := hlisting .desc
  rw [horder] at huporder hdownorder
  rw [hup, hdown, ← List.map_reverse]
  congr 1
  have hperm : up.Perm down.reverse := hupperm.trans (hdownperm.symm.trans (List.reverse_perm down).symm)
  exact Record.eq_of_areOrdered hperm huporder (Record.areOrdered_reverse hdownorder)

theorem rearranged_of_isReadable (haccepts : Accepts settings q size) (hready : w.store.isReady = true)
    (htable : (w.store.table? tableId).isSome = true) (h : IsReadable w.store tableId q)
    (hsorts : sortsData q = true) (hpage : 1 ≤ q.page) (hoffset : (q.page - 1) * size < 2 ^ 63) :
    ∃ sorted unsorted, answer source w settings tableId q = .ok sorted ∧
      answer source w settings tableId { q with sort := none } = .ok unsorted ∧
      sorted.records.Perm unsorted.records := by
  refine ⟨_, _, answer_of_isReadable source haccepts hready htable h hpage hoffset,
    answer_of_isReadable source (q := { q with sort := none })
      (haccepts.of_eq rfl rfl) hready htable h hpage hoffset, ?_⟩
  have horder : order q = (.createdAt, true) := by
    unfold sortsData at hsorts
    unfold order
    cases hsort : q.sort with
    | none => rfl
    | some s =>
      rw [hsort, Option.isNone_iff_eq_none] at hsorts
      simp [hsorts]
  have hslice : slice w.store tableId q size = slice w.store tableId { q with sort := none } size := by
    unfold slice
    have hsame : ((selection tableId q size).column, (selection tableId q size).descending) =
        ((selection tableId { q with sort := none } size).column,
          (selection tableId { q with sort := none } size).descending) := by
      rw [order_selection, order_selection, horder]
      rfl
    rw [arrange_eq_of_order_eq hsame]
    rfl
  dsimp only
  rw [hslice, rows_of_not_sortsData (q := { q with sort := none }) rfl]
  exact perm_rows q _

/--
If storage is able to read the data it looks into, the pages of a query partition what it finds; else every
page fails.
-/
theorem pages_partition (hready : w.store.isReady = true)
    (htable : (w.store.table? tableId).isSome = true) (hnodup : (w.store.records.map (·.id)).Nodup)
    (haccepts : Accepts settings q size) (hcount : (found w.store tableId q).length < 2 ^ 53) :
    (∀ request, readOptions request = .ok q →
      ((page settings tableId request).run source w).1 = answer source w settings tableId q) ∧
    (IsReadable w.store tableId q → ∃ pages, ArePages source w settings tableId q size pages) ∧
    (¬IsReadable w.store tableId q → ∀ k : Int,
      answer source w settings tableId { q with page := k } = .error (.storage .operational)) := by
  have haccepts' (k : Int) : Accepts settings { q with page := k } size := haccepts.of_eq rfl rfl
  refine ⟨?_, ?_, ?_⟩
  . intro request hrequest
    rw [page_of_readOptions hrequest]
    rfl
  . intro h
    obtain ⟨pages, htotal, hpages⟩ := exists_pageCount haccepts.pos haccepts.lt hcount
    refine ⟨pages, hpages, ?_, perm_listing source haccepts hready htable h hcount hpages,
      listing_of_not_sortsData source haccepts hready htable h hnodup hcount hpages,
      fun field => reversed_of_isReadable source haccepts hready htable h hnodup hcount hpages, ?_⟩
    . intro k hk hoffset
      have hanswer := answer_of_isReadable source (q := { q with page := k }) (haccepts' k) hready
        htable h hk hoffset
      have hfound : found w.store tableId { q with page := k } = found w.store tableId q := rfl
      rw [hfound, htotal] at hanswer
      refine ⟨_, hanswer, ?_⟩
      rw [(perm_rows _ _).length_eq, List.length_map]
      exact length_slice (q := { q with page := k }) haccepts.pos hk
    . intro hsorts k hk hoffset
      exact rearranged_of_isReadable source (q := { q with page := k }) (haccepts' k) hready htable h hsorts hk
        hoffset
  . intro h k
    exact answer_of_not_isReadable source (q := { q with page := k }) (haccepts' k) hready htable h

end Partition

theorem pages_partition_of_three :
    let record (id : String) (n : Int) : Record :=
      { id, tableId := "t", data := [("n", .int n)], createdAt := default, updatedAt := default }
    let table : Table :=
      { id := "t", tenantId := "x", name := "points", displayName := "Points", createdAt := default
        updatedAt := default }
    let w : World := { store := {
      isReady := true, tables := [table]
      records := [record "a" 1, record "b" 1, record "c" 2, record "d" 1] } }
    let q : RecordQuery := { filters := some [("n", .int 1)], limit := some 2 }
    (found w.store "t" q).map (·.id) = ["a", "b", "d"] ∧
      ∃ pages, ArePages .sample w {} "t" q 2 pages := by
  intro record table w q
  have haccepts : Accepts {} q 2 := by
    refine ⟨rfl, by decide, by decide, by decide, ?_⟩
    intro e he i hi
    obtain rfl : e = ("n", .int 1) := by simpa [q] using he
    obtain rfl : 1 = i := by simpa using hi
    decide
  have hfound : (found w.store "t" q).map (·.id) = ["a", "b", "d"] := by decide +kernel
  have hcount : (found w.store "t" q).length < 2 ^ 53 := by
    rw [← List.length_map (·.id), hfound]
    decide
  have hreadable : IsReadable w.store "t" q := by
    right
    decide +kernel
  exact ⟨hfound, (pages_partition .sample rfl rfl (by decide) haccepts hcount).2.1 hreadable⟩

theorem pages_fail_of_infinity :
    let w := World.after .sample { store := { isReady := true } } [
      .createTable
        { tenantId := .text "x", name := .text "points", displayName := .text "Points" } true,
      .work "i" (.addField (.ready { name := "n", displayName := "N", type := .number })),
      .work "i" (.insert (.map [("n", .real (.infinite false))]) .null),
      .work "i" (.insert (.map [("m", .int 1)]) .null)]
    let q : RecordQuery := { filters := some [("m", .int 1)] }
    ((found w.store "i" q).map (·.data)) = [[("m", .int 1)]] ∧
      answer .sample w {} "i" q = .error (.storage .operational) := by
  decide +kernel

end Query
end TenantTables
