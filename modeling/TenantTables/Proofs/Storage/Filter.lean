import Mathlib.Data.List.TakeWhile
import TenantTables.Operation.Query
import TenantTables.Proofs.Query.Order
import TenantTables.Proofs.Storage.Writes
import TenantTables.Proofs.Value.Alike

namespace TenantTables

def Value.isSeen : Value → Bool
  | .int i => fitsWord i
  | .real x => x.isFinite
  | .text s => !s.toList.contains '\x00'
  | _ => true

theorem Binary64.place?_of_isFinite {x : Binary64} (h : x.isFinite = true) :
    x.place? = some (.at x.scaled) := by
  cases x <;> simp_all [isFinite, place?]

namespace Value

def isBool : Value → Bool
  | .bool _ => true
  | _ => false

theorem equals_of_number {x v : Value} {p : Option Binary64.Place} (hv : v.place? = some p)
    (hbool : v.isBool = false) : x.equals v = (!x.isBool && x.numbersAgree v) := by
  cases v with
  | int i => cases x <;> rfl
  | real y => cases x <;> rfl
  | bool b => simp [isBool] at hbool
  | _ => simp [place?] at hv

end Value

namespace Json

theorem extract_int {i : Int} (h : fitsWord i = true) : extract (.int i) = .number (.ofInt i) := by
  rw [extract, if_pos h]

theorem extract_real {x : Binary64} (h : x.isFinite = true) :
    extract (.real x) = .number (.at x.scaled) := by
  rw [extract, Binary64.place?_of_isFinite h, Column.ofPlace]

theorem extract_text {s : String} (h : s.toList.contains '\x00' = false) :
    extract (.text s) = .text s := by
  have hall : s.toList.takeWhile (fun c => decide (c ≠ '\x00')) = s.toList := by
    rw [List.takeWhile_eq_self_iff]
    intro c hc
    simp only [decide_eq_true_eq]
    rintro rfl
    simp [hc] at h
  rw [extract, hall, String.ofList_toList]

end Json

namespace Wanted

variable {x : Value}

theorem holds_nothing (hx : x.isSeen = true) :
    nothing.holds (some (Json.kindOf x)) (Json.extract x) = x.equals .null := by
  cases x with
  | int i =>
    rw [Json.extract_int hx]
    rfl
  | real y =>
    rw [Json.extract_real hx]
    simp [holds, Value.equals, Value.agrees, Value.numbersAgree, Value.place?]
  | _ => rfl

theorem holds_truth (b : Bool) (extracted : Column) :
    (truth b).holds (some (Json.kindOf x)) extracted = x.equals (.bool b) := by
  cases x with
  | bool c => cases b <;> cases c <;> rfl
  | _ => cases b <;> rfl

theorem holds_number {v : Value} {p : Binary64.Place} (hv : v.place? = some (some p))
    (hbool : v.isBool = false) (hx : x.isSeen = true) :
    (number (some p)).holds (some (Json.kindOf x)) (Json.extract x) = x.equals v := by
  rw [Value.equals_of_number hv hbool]
  cases x with
  | bool b => cases b <;> rfl
  | int i =>
    rw [Json.extract_int hx, Value.numbersAgree, hv]
    rfl
  | real y =>
    rw [Json.extract_real hx, Value.numbersAgree, hv, Value.place?, Binary64.place?_of_isFinite hx]
    rfl
  | _ => simp [holds, Json.kindOf, Value.isBool, Value.numbersAgree, Value.place?]

theorem holds_text {s : String} (hx : x.isSeen = true) (hplain : x.isPlain = true) :
    (text s).holds (some (Json.kindOf x)) (Json.extract x) = x.equals (.text s) := by
  cases x with
  | text t =>
    rw [Json.extract_text (by simpa [Value.isSeen] using hx)]
    rfl
  | bool b => cases b <;> rfl
  | date d => simp [Value.isPlain] at hplain
  | moment m => simp [Value.isPlain] at hplain
  | uuid n => simp [Value.isPlain] at hplain
  | _ => simp [holds, Json.kindOf, Value.equals, Value.agrees, Value.numbersAgree, Value.place?]

theorem holds_eq_equals {v : Value} (hscalar : Query.isScalar v = true) (hv : v.isSeen = true) :
    ∃ wanted, ofValue v = .ok wanted ∧ ∀ x : Value, x.isSeen = true → x.isPlain = true →
      wanted.holds (some (Json.kindOf x)) (Json.extract x) = x.equals v := by
  cases v with
  | null => exact ⟨nothing, rfl, fun x hx _ => holds_nothing hx⟩
  | bool b => exact ⟨truth b, rfl, fun x _ _ => holds_truth b _⟩
  | int i =>
    refine ⟨number (some (.ofInt i)), ?_, fun x hx _ => holds_number rfl rfl hx⟩
    have hfits : fitsWord i = true := hv
    rw [ofValue, if_pos hfits]
  | real y =>
    have hplace := Binary64.place?_of_isFinite hv
    refine ⟨number (some (.at y.scaled)), ?_, fun x hx _ => holds_number ?_ rfl hx⟩
    . rw [ofValue, hplace]
    . rw [Value.place?, hplace]
  | text s => exact ⟨text s, rfl, fun x hx hplain => holds_text hx hplain⟩
  | _ => simp [Query.isScalar] at hscalar

end Wanted

namespace Filter

def isName (key : String) : Bool :=
  match key.toList with
  | [] => false
  | c :: cs => Text.isSnakeStart c && cs.all Text.isSnakeChar

theorem isSnakeChar_of_isName {key : String} (h : isName key = true) {c : Char}
    (hc : c ∈ key.toList) : Text.isSnakeChar c = true := by
  unfold isName at h
  cases hkey : key.toList with
  | nil => simp [hkey] at hc
  | cons d cs =>
    rw [hkey] at h hc
    rw [Bool.and_eq_true, List.all_eq_true] at h
    rcases List.mem_cons.mp hc with rfl | hc
    . simp [Text.isSnakeChar, h.1]
    . exact h.2 c hc

theorem plain_of_isSnakeChar {c : Char} (h : Text.isSnakeChar c = true) :
    (' ' ≤ c ∧ c ≤ '~') ∧ c ≠ '"' ∧ c ≠ '\\' ∧ c ≠ '\x00' := by
  refine ⟨?_, ?_, ?_, ?_⟩
  . simp only [Text.isSnakeChar, Text.isSnakeStart, Char.le_def, UInt32.le_iff_toNat_le,
      Bool.or_eq_true, Bool.and_eq_true, decide_eq_true_eq] at h ⊢
    rcases h with (h | h) | rfl
    . simp at h ⊢
      omega
    . simp at h ⊢
      omega
    . decide
  . rintro rfl
    exact absurd h (by decide)
  . rintro rfl
    exact absurd h (by decide)
  . rintro rfl
    exact absurd h (by decide)

theorem isPlainKey_of_isName {key : String} (h : isName key = true) : isPlainKey key = true := by
  rw [isPlainKey, List.all_eq_true]
  intro c hc
  simpa using (plain_of_isSnakeChar (isSnakeChar_of_isName h hc)).1

def IsClean (key : String) : Prop :=
  ∀ c ∈ key.toList, c ≠ '"' ∧ c ≠ '\\' ∧ c ≠ '\x00'

theorem isClean_of_isName {key : String} (h : isName key = true) : IsClean key := by
  intro c hc
  exact (plain_of_isSnakeChar (isSnakeChar_of_isName h hc)).2

theorem jsonPath_of_isClean {key : String} (h : IsClean key) :
    jsonPath key = .ok ("$.\"" ++ key ++ "\"") := by
  rw [jsonPath, if_neg]
  rw [List.any_eq_true]
  rintro ⟨c, hc, heq⟩
  obtain ⟨hquote, hslash, -⟩ := h c hc
  simp [hquote, hslash] at heq

theorem isCut_of_isClean {f : Filter} (h : IsClean f.key) : f.isCut = false := by
  rw [isCut, Bool.eq_false_iff]
  intro hcut
  have hmem : '\x00' ∈ f.key.toList := by simpa using hcut
  exact (h _ hmem).2.2 rfl

theorem checkPaths_of_isClean {filters : Entries} (h : ∀ e ∈ filters, IsClean e.1) :
    checkPaths filters = .ok () := by
  induction filters with
  | nil => rfl
  | cons e filters ih =>
    have hpath := jsonPath_of_isClean (h e List.mem_cons_self)
    have hrest := ih fun e' he' => h e' (List.mem_cons_of_mem _ he')
    show (discard (jsonPath e.1) >>= fun _ => checkPaths filters) = .ok ()
    rw [hpath]
    exact hrest

theorem readAll_cons (e : String × Value) (es : Entries) : readAll (e :: es) = do
    let wanted ← Wanted.ofValue e.2
    let fs ← readAll es
    return ⟨e.1, wanted⟩ :: fs := by
  obtain ⟨key, v⟩ := e
  rw [readAll, List.mapM_cons]
  dsimp only
  cases Wanted.ofValue v <;> rfl

theorem accepts_eq_equals {key : String} {v : Value} (hname : isName key = true)
    (hscalar : Query.isScalar v = true) (hv : v.isSeen = true) :
    ∃ wanted, Wanted.ofValue v = .ok wanted ∧ ∀ data : Entries, (Value.map data).isPlain = true →
      (data.get key).isSeen = true →
      (⟨key, wanted⟩ : Filter).accepts data = (data.get key).equals v := by
  obtain ⟨wanted, hwanted, hholds⟩ := Wanted.holds_eq_equals hscalar hv
  refine ⟨wanted, hwanted, ?_⟩
  intro data hplain hseen
  rw [accepts, find?, if_pos (isPlainKey_of_isName hname)]
  cases hget : data.get? key with
  | some x =>
    have hx : data.get key = x := by rw [Entries.get, hget]; rfl
    rw [← hx]
    exact hholds _ hseen (Entries.isPlain_get hplain key)
  | none =>
    -- a key that is not there has no kind, and null has one that no filter asks for
    have hx : data.get key = .null := by rw [Entries.get, hget]; rfl
    rw [hx, ← hholds .null rfl rfl]
    cases wanted with
    | truth b => cases b <;> rfl
    | _ => rfl

end Filter

namespace Store

def AreSeen (filters : Entries) : Prop :=
  ∀ e ∈ filters, Filter.isName e.1 = true ∧ Query.isScalar e.2 = true ∧ e.2.isSeen = true

theorem checkPaths_of_areSeen {filters : Entries} (h : AreSeen filters) :
    Filter.checkPaths filters = .ok () :=
  Filter.checkPaths_of_isClean fun e he => Filter.isClean_of_isName (h e he).1

theorem readAll_of_areSeen {filters : Entries} (h : AreSeen filters) :
    ∃ fs, Filter.readAll filters = .ok fs ∧ fs.isEmpty = filters.isEmpty ∧
      (∀ f ∈ fs, f.isCut = false) ∧
      ∀ data : Entries, (Value.map data).isPlain = true →
        (∀ e ∈ filters, (data.get e.1).isSeen = true) →
        (fs.all fun f => f.accepts data) = filters.all fun e => (data.get e.1).equals e.2 := by
  induction filters with
  | nil => exact ⟨[], rfl, rfl, by simp, fun _ _ _ => rfl⟩
  | cons e filters ih =>
    obtain ⟨hname, hscalar, hseen⟩ := h e List.mem_cons_self
    obtain ⟨wanted, hwanted, haccepts⟩ := Filter.accepts_eq_equals hname hscalar hseen
    obtain ⟨fs, hfs, -, hcut, hall⟩ := ih fun e' he' => h e' (List.mem_cons_of_mem _ he')
    refine ⟨⟨e.1, wanted⟩ :: fs, ?_, rfl, ?_, ?_⟩
    . rw [Filter.readAll_cons, hwanted, hfs]
      rfl
    . intro f hf
      rcases List.mem_cons.mp hf with rfl | hf
      . exact Filter.isCut_of_isClean (Filter.isClean_of_isName hname)
      . exact hcut f hf
    . intro data hplain hdata
      rw [List.all_cons, List.all_cons, haccepts data hplain (hdata e List.mem_cons_self),
        hall data hplain fun e' he' => hdata e' (List.mem_cons_of_mem _ he')]

theorem select_of_filterAll {s : Store} {q : Selection} {fs : List Filter} {found : List Record}
    (hready : s.isReady = true) (hpaths : Filter.checkPaths q.filters = .ok ())
    (hfs : Filter.readAll q.filters = .ok fs) (hlimit : fitsWord (q.limit.getD 0) = true)
    (hoffset : fitsWord q.offset = true) (hzero : q.limit ≠ some 0)
    (hfound : Record.filterAll fs (s.live q.tableId) = .ok found) :
    s.select q = .ok (q.page (q.arrange (found.filter fun r => q.excludeId != some r.id))) := by
  rw [select, hpaths, requireReady, if_pos hready, hfs]
  simp [Bind.bind, Except.bind, pure, Except.pure, hlimit, hoffset, hzero, hfound]

theorem select_eq_equals (s : Store) (hready : s.isReady = true) (tableId : String) (filters : Entries)
    (hfilters : AreSeen filters)
    (hrecords : ∀ r ∈ s.live tableId, (Value.map r.data).isJson = true ∧
      ∀ e ∈ filters, (r.data.get e.1).isSeen = true)
    (column : TimestampColumn) (descending : Bool) :
    let found := (s.live tableId).filter fun r => filters.all fun e => (r.data.get e.1).equals e.2
    (∃ rs, s.select { tableId, filters, column, descending } = .ok rs ∧ rs.Perm found) ∧
      s.count tableId filters = .ok found.length := by
  intro found
  obtain ⟨fs, hfs, hempty, hcut, hall⟩ := readAll_of_areSeen hfilters
  have hfound : Record.filterAll fs (s.live tableId) = .ok found := by
    unfold Record.filterAll
    split
    . next hnone =>
      obtain rfl : filters = [] := by simpa [hnone] using hempty
      have hself : found = s.live tableId := List.filter_eq_self.mpr (by simp)
      rw [hself]
    . rw [if_neg]
      . congr 1
        apply List.filter_congr
        intro r hr
        obtain ⟨hjson, hseen⟩ := hrecords r hr
        rw [Value.isJson, Bool.and_eq_true] at hjson
        exact hall r.data hjson.1 hseen
      . rw [List.any_eq_true]
        rintro ⟨r, hr, hbad⟩
        obtain ⟨hjson, -⟩ := hrecords r hr
        rw [Value.isJson, Bool.and_eq_true] at hjson
        have hnocut : fs.any Filter.isCut = false := by simpa using hcut
        simp [hjson.2, hnocut] at hbad
  have hmatching : s.matching tableId filters = .ok found := by
    rw [matching, checkPaths_of_areSeen hfilters, requireReady, if_pos hready, hfs]
    exact hfound
  refine ⟨?_, by rw [count, hmatching]; rfl⟩
  refine ⟨_, select_of_filterAll hready (checkPaths_of_areSeen hfilters) hfs rfl rfl (by simp) hfound, ?_⟩
  have hall : found.filter (fun r => (none : Option String) != some r.id) = found := by
    simp
  rw [hall]
  exact Selection.perm_arrange _ found

theorem select_eq_equals_of_one :
    let record (id : String) (v : Value) : Record :=
      { id, tableId := "t", data := [("n", v)], createdAt := default, updatedAt := default }
    let s : Store :=
      { isReady := true
        records := [record "a" (.int 1), record "b" (.real (.ofInt 1)), record "c" (.bool true),
          record "d" (.text "1"), record "e" (.list [.int 1]), record "f" .null] }
    let filters : Entries := [("n", .int 1)]
    AreSeen filters ∧
    (∀ r ∈ s.live "t", (Value.map r.data).isJson = true ∧
      ∀ e ∈ filters, (r.data.get e.1).isSeen = true) ∧
    (∃ rs, s.select { tableId := "t", filters } = .ok rs ∧
      rs.Perm [record "a" (.int 1), record "b" (.real (.ofInt 1))]) ∧
    s.count "t" filters = .ok 2 := by
  intro record s filters
  have hfilters : AreSeen filters := by
    intro e he
    obtain rfl : e = ("n", .int 1) := by simpa [filters] using he
    decide
  have hrecords : ∀ r ∈ s.live "t", (Value.map r.data).isJson = true ∧
      ∀ e ∈ filters, (r.data.get e.1).isSeen = true := by
    decide +kernel
  have hselect := select_eq_equals s rfl "t" filters hfilters hrecords .createdAt true
  have hfound : ((s.live "t").filter fun r => filters.all fun e => (r.data.get e.1).equals e.2) =
      [record "a" (.int 1), record "b" (.real (.ofInt 1))] := by
    decide +kernel
  rw [hfound] at hselect
  exact ⟨hfilters, hrecords, hselect⟩

end Store
end TenantTables
