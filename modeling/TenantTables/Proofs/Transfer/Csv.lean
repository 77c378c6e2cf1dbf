import Mathlib.Data.List.Basic
import TenantTables.Text.Csv

/-!
This module contains that rows of cells are read back from their written form. The reader is followed from
character to character, across the lines that quoted cells go on over.
-/

namespace TenantTables.Csv

structure IsCell (cell : String) : Prop where
  noReturn : '\r' ∉ cell.toList
  fits : cell.length ≤ fieldLimit

instance (cell : String) : Decidable (IsCell cell) :=
  decidable_of_iff ('\r' ∉ cell.toList ∧ cell.length ≤ fieldLimit)
    ⟨fun h => ⟨h.1, h.2⟩, fun h => ⟨h.noReturn, h.fits⟩⟩

def readChars (s : State) (cs : List Char) : Except Fault (List (List String)) :=
  readLines s (lines cs)

section Chars

variable {s : State} {c : Char} {cs rest : List Char} {rows : List (List String)}

theorem lines_ne_nil (h : cs ≠ []) : lines cs ≠ [] := by
  obtain ⟨c, cs, rfl⟩ := List.exists_cons_of_ne_nil h
  rw [lines]
  split
  . exact List.cons_ne_nil _ _
  . split <;> exact List.cons_ne_nil _ _

theorem readChars_nil : readChars {} [] = .ok [] := rfl

theorem readChars_cons (hc : c ≠ '\n') (hcs : cs ≠ []) :
    readChars s (c :: cs) = s.step c >>= fun s => readChars s cs := by
  obtain ⟨line, later, hlines⟩ := List.exists_cons_of_ne_nil (lines_ne_nil hcs)
  unfold readChars
  rw [lines, if_neg hc, hlines]
  simp only [readLines, List.foldlM_cons, bind_assoc]

theorem readChars_newline {s' : State} (h : s.step '\n' = .ok s') : readChars s ('\n' :: cs) =
    if s'.endLine.place = .rowStart then (readChars {} cs).map (s'.endLine.row :: ·)
    else readChars s'.endLine cs := by
  unfold readChars
  rw [lines, if_pos rfl, readLines, List.foldlM_cons, h]
  rfl

end Chars

section Cell

variable {acc cs rest : List Char} {n : Nat} {done : List String}

theorem readChars_inCell (hcs : ∀ c ∈ cs, c ≠ ',' ∧ c ≠ '\n' ∧ c ≠ '\r') (hn : n + cs.length ≤ fieldLimit)
    (hrest : rest ≠ []) : readChars ⟨.inCell, acc, n, done⟩ (cs ++ rest) =
      readChars ⟨.inCell, cs.reverse ++ acc, n + cs.length, done⟩ rest := by
  induction cs generalizing acc n with
  | nil => rfl
  | cons c cs ih =>
    obtain ⟨hcomma, hnewline, hreturn⟩ := hcs c List.mem_cons_self
    rw [List.length_cons] at hn
    have hlt : n < fieldLimit := by omega
    have hstep : State.step ⟨.inCell, acc, n, done⟩ c = .ok ⟨.inCell, c :: acc, n + 1, done⟩ := by
      simp [State.step, State.add, hcomma, hnewline, hreturn, hlt]
    rw [List.cons_append, readChars_cons hnewline (List.append_ne_nil_of_right_ne_nil _ hrest), hstep]
    show readChars ⟨.inCell, c :: acc, n + 1, done⟩ (cs ++ rest) = _
    rw [ih (fun d hd => hcs d (List.mem_cons_of_mem _ hd)) (by omega), List.reverse_cons, List.append_assoc,
      List.length_cons, Nat.add_assoc, Nat.add_comm 1]
    rfl

theorem readChars_inQuotes (hn : n + cs.length ≤ fieldLimit) (hrest : rest ≠ []) :
    readChars ⟨.inQuotes, acc, n, done⟩
        (cs.flatMap (fun c => if c = '"' then ['"', '"'] else [c]) ++ '"' :: rest) =
      readChars ⟨.afterQuote, cs.reverse ++ acc, n + cs.length, done⟩ rest := by
  induction cs generalizing acc n with
  | nil =>
    rw [List.flatMap_nil, List.nil_append, readChars_cons (by decide) hrest]
    rfl
  | cons c cs ih =>
    rw [List.length_cons] at hn
    have hlt : n < fieldLimit := by omega
    have hnext := @ih (c :: acc) (n + 1) (by omega)
    rw [List.flatMap_cons, List.append_assoc, List.reverse_cons, List.append_assoc, List.length_cons,
      Nat.add_comm cs.length, ← Nat.add_assoc, List.singleton_append, ← hnext]
    have hmore : cs.flatMap (fun c => if c = '"' then ['"', '"'] else [c]) ++ '"' :: rest ≠ [] :=
      List.append_ne_nil_of_right_ne_nil _ (List.cons_ne_nil _ _)
    by_cases hmark : c = '"'
    . subst hmark
      have hstep : State.step ⟨.afterQuote, acc, n, done⟩ '"' = .ok ⟨.inQuotes, '"' :: acc, n + 1, done⟩ := by
        simp [State.step, State.add, hlt]
      rw [if_pos rfl, List.cons_append, List.singleton_append,
        readChars_cons (by decide) (List.cons_ne_nil _ _)]
      show readChars ⟨.afterQuote, acc, n, done⟩ _ = _
      rw [readChars_cons (by decide) hmore, hstep]
      rfl
    . have hstep : State.step ⟨.inQuotes, acc, n, done⟩ c = .ok ⟨.inQuotes, c :: acc, n + 1, done⟩ := by
        simp [State.step, State.add, hmark, hlt]
      rw [if_neg hmark, List.singleton_append]
      by_cases hnewline : c = '\n'
      . subst hnewline
        rw [readChars_newline hstep]
        rfl
      . rw [readChars_cons hnewline hmore, hstep]
        rfl

structure State.Holds (s : State) (cell : String) (done : List String) : Prop where
  cell : s.cell.reverse = cell.toList
  cells : s.cells = done
  place : s.place ≠ .inQuotes ∧ s.place ≠ .rowEnd

theorem State.Holds.save {s : State} {cell : String} (h : s.Holds cell done) (place : Place) :
    s.save place = ⟨place, [], 0, cell :: done⟩ := by
  rw [State.save, h.cell, h.cells, String.ofList_toList]

theorem State.Holds.step_comma {s : State} {cell : String} (h : s.Holds cell done) :
    s.step ',' = .ok ⟨.cellStart, [], 0, cell :: done⟩ := by
  rw [← h.save, State.step]
  cases hplace : s.place with
  | inQuotes => exact absurd hplace h.place.1
  | rowEnd => exact absurd hplace h.place.2
  | _ => rfl

theorem State.Holds.step_newline {s : State} {cell : String} (h : s.Holds cell done)
    (hplace : s.place ≠ .rowStart) : s.step '\n' = .ok ⟨.rowEnd, [], 0, cell :: done⟩ := by
  rw [← h.save, State.step]
  cases hs : s.place with
  | inQuotes => exact absurd hs h.place.1
  | rowEnd => exact absurd hs h.place.2
  | rowStart => exact absurd hs hplace
  | _ => rfl

theorem exists_holds {place : Place} (hplace : place = .rowStart ∨ place = .cellStart) {cell : String}
    (hcell : IsCell cell) (done : List String) :
    ∃ s : State, s.Holds cell done ∧ (s.place = .rowStart → place = .rowStart ∧ cell = "") ∧
      ∀ rest, rest ≠ [] → readChars ⟨place, [], 0, done⟩ (writeCell cell ++ rest) = readChars s rest := by
  have hfits : cell.toList.length ≤ fieldLimit := by
    rw [String.length_toList]
    exact hcell.fits
  unfold writeCell
  dsimp only
  split
  . refine ⟨⟨.afterQuote, cell.toList.reverse, cell.toList.length, done⟩, ⟨?_, rfl, by simp⟩, by simp, ?_⟩
    . exact List.reverse_reverse _
    . intro rest hrest
      have hstep : State.step ⟨place, [], 0, done⟩ '"' = .ok ⟨.inQuotes, [], 0, done⟩ := by
        rcases hplace with rfl | rfl <;> rfl
      have hquotes := @readChars_inQuotes [] cell.toList rest 0 done (by rwa [Nat.zero_add]) hrest
      rw [List.append_nil, Nat.zero_add] at hquotes
      rw [← hquotes, List.cons_append, List.cons_append, List.append_assoc, readChars_cons (by decide) (by simp),
        hstep]
      rfl
  . next hplain =>
    have hall : ∀ c ∈ cell.toList, c ≠ ',' ∧ c ≠ '"' ∧ c ≠ '\n' ∧ c ≠ '\r' := by
      intro c hc
      simp only [List.any_eq_true, not_exists, not_and, Bool.or_eq_true, decide_eq_true_eq, not_or] at hplain
      obtain ⟨⟨hcomma, hmark⟩, hnewline⟩ := hplain c hc
      exact ⟨hcomma, hmark, hnewline, fun hreturn => hcell.noReturn (hreturn ▸ hc)⟩
    cases hcs : cell.toList with
    | nil =>
      have hempty : cell = "" := String.toList_eq_nil_iff.mp hcs
      refine ⟨⟨place, [], 0, done⟩, ⟨hcs.symm, rfl, ?_⟩, fun h => ⟨h, hempty⟩, fun rest _ => rfl⟩
      rcases hplace with rfl | rfl <;> exact ⟨nofun, nofun⟩
    | cons c cs =>
      rw [hcs] at hall hfits
      rw [List.length_cons] at hfits
      obtain ⟨hcomma, hmark, hnewline, hreturn⟩ := hall c List.mem_cons_self
      refine ⟨⟨.inCell, cs.reverse ++ [c], 1 + cs.length, done⟩, ⟨?_, rfl, by simp⟩, by simp, ?_⟩
      . rw [hcs]
        simp
      . intro rest hrest
        have hstep : State.step ⟨place, [], 0, done⟩ c = .ok ⟨.inCell, [c], 1, done⟩ := by
          rcases hplace with rfl | rfl <;>
            simp [State.step, State.startCell, State.add, hcomma, hmark, hnewline, hreturn, fieldLimit]
        have hall' : ∀ d ∈ cs, d ≠ ',' ∧ d ≠ '\n' ∧ d ≠ '\r' := by
          intro d hd
          obtain ⟨hcomma, -, hothers⟩ := hall d (List.mem_cons_of_mem _ hd)
          exact ⟨hcomma, hothers⟩
        rw [← readChars_inCell hall' (by omega) hrest, List.cons_append,
          readChars_cons hnewline (List.append_ne_nil_of_right_ne_nil _ hrest), hstep]
        rfl

end Cell

section Row

variable {rest : List Char} {rows : List (List String)}

theorem readChars_cells {place : Place} {cell : String} {cells done : List String}
    (hplace : place = .cellStart ∨ place = .rowStart ∧ (cells ≠ [] ∨ cell ≠ ""))
    (hcells : ∀ c ∈ cell :: cells, IsCell c) (hrest : readChars {} rest = .ok rows) :
    readChars ⟨place, [], 0, done⟩
        ([','].intercalate ((cell :: cells).map writeCell) ++ '\n' :: rest) =
      .ok ((done.reverse ++ cell :: cells) :: rows) := by
  have hstart : place = .rowStart ∨ place = .cellStart := by
    rcases hplace with h | ⟨h, -⟩
    . exact .inr h
    . exact .inl h
  induction cells generalizing place cell done with
  | nil =>
    obtain ⟨s, hs, hsame, hread⟩ := exists_holds hstart (hcells cell List.mem_cons_self) done
    have hnot : s.place ≠ .rowStart := by
      intro h
      obtain ⟨rfl, hempty⟩ := hsame h
      rcases hplace with h | ⟨-, h | h⟩
      . contradiction
      . exact h rfl
      . exact h hempty
    rw [List.map_cons, List.map_nil, List.intercalate_singleton, hread _ (List.cons_ne_nil _ _),
      readChars_newline (hs.step_newline hnot), hrest]
    simp [State.row, State.endLine, Except.map]
  | cons next cells ih =>
    obtain ⟨s, hs, -, hread⟩ := exists_holds hstart (hcells cell List.mem_cons_self) done
    have hnext := @ih .cellStart next (cell :: done) (.inl rfl)
      (fun c hc => hcells c (List.mem_cons_of_mem _ hc)) (.inr rfl)
    rw [List.reverse_cons, List.append_assoc, List.singleton_append] at hnext
    rw [List.map_cons, List.intercalate_cons_of_ne_nil (by simp), List.append_assoc, List.append_assoc,
      hread _ (by simp), List.singleton_append, readChars_cons (by decide) (by simp), hs.step_comma]
    exact hnext

theorem readChars_writeRow {cells : List String} (hcells : ∀ c ∈ cells, IsCell c)
    (hrest : readChars {} rest = .ok rows) : readChars {} (writeRow cells ++ rest) = .ok (cells :: rows) := by
  unfold writeRow
  split
  . rw [List.cons_append, readChars_cons (by decide) (by simp)]
    show readChars ⟨.inQuotes, [], 0, []⟩ ('"' :: '\n' :: rest) = _
    rw [readChars_cons (by decide) (by simp)]
    show readChars ⟨.afterQuote, [], 0, []⟩ ('\n' :: rest) = _
    have hstep : State.step ⟨.afterQuote, [], 0, []⟩ '\n' = .ok ⟨.rowEnd, [], 0, [""]⟩ := rfl
    rw [readChars_newline hstep, hrest]
    rfl
  . next hsingle =>
    cases cells with
    | nil =>
      show readChars {} ('\n' :: rest) = _
      have hstep : State.step {} '\n' = .ok ⟨.rowEnd, [], 0, []⟩ := rfl
      rw [readChars_newline hstep, hrest]
      rfl
    | cons cell cells =>
      have hshown : cells ≠ [] ∨ cell ≠ "" := by
        by_contra! h
        obtain ⟨rfl, rfl⟩ := h
        exact hsingle rfl
      rw [List.append_assoc, List.singleton_append, readChars_cells (.inr ⟨rfl, hshown⟩) hcells hrest]
      rfl

theorem read_write {table : List (List String)} (h : ∀ cells ∈ table, ∀ c ∈ cells, IsCell c) :
    read (write table) = .ok table := by
  unfold read write
  rw [String.toList_ofList]
  show readChars {} (table.flatMap writeRow) = .ok table
  induction table with
  | nil => exact readChars_nil
  | cons cells table ih =>
    rw [List.flatMap_cons]
    exact readChars_writeRow (h cells List.mem_cons_self) (ih fun cs hcs => h cs (List.mem_cons_of_mem _ hcs))

end Row

end TenantTables.Csv
