import TenantTables.Proofs.Text.Space
import TenantTables.Proofs.Transfer.Csv
import TenantTables.Proofs.Value.Keyed
import TenantTables.Transfer.Sheet

namespace TenantTables.Sheet

structure IsCell (cell : String) : Prop extends Csv.IsCell cell where
  trimmed : Text.trim cell = cell

structure IsLegible (row : List String) : Prop where
  isCell : ∀ c ∈ row, IsCell c
  shown : ∃ c ∈ row, c ≠ ""

instance (cell : String) : Decidable (IsCell cell) :=
  decidable_of_iff (Csv.IsCell cell ∧ Text.trim cell = cell)
    ⟨fun h => ⟨h.1, h.2⟩, fun h => ⟨h.toIsCell, h.trimmed⟩⟩

instance (row : List String) : Decidable (IsLegible row) :=
  decidable_of_iff ((∀ c ∈ row, IsCell c) ∧ ∃ c ∈ row, c ≠ "")
    ⟨fun h => ⟨h.1, h.2⟩, fun h => ⟨h.isCell, h.shown⟩⟩

def cells (header : List String) (row : Entries) : List String :=
  header.map fun column => cell (row.get column)

theorem write_eq (e : ExportResult) : write e = Csv.write (e.header :: e.rows.map (cells e.header)) := rfl

theorem trimRows_of_isLegible {table : List (List String)} (h : ∀ row ∈ table, IsLegible row) :
    trimRows table = table := by
  have hmap : table.map (fun row => row.map Text.trim) = table := by
    have hrow : ∀ row ∈ table, row.map Text.trim = row := fun row hrow =>
      (List.map_congr_left fun c hc => ((h row hrow).isCell c hc).trimmed).trans (List.map_id _)
    exact (List.map_congr_left hrow).trans (List.map_id _)
  rw [trimRows, hmap, List.filter_eq_self]
  intro row hrow
  obtain ⟨c, hc, hne⟩ := (h row hrow).shown
  exact List.any_eq_true.mpr ⟨c, hc, by simpa using hne⟩

theorem zipRow_cells {header : List String} (h : header.Nodup) (row : Entries) :
    zipRow header (cells header row) = Entries.tabulate header fun column => .text (cell (row.get column)) := by
  have hzip : header.zip (cells header row) = header.map fun column => (column, cell (row.get column)) := by
    rw [← List.zip_map', List.map_id']
    rfl
  rw [zipRow, hzip, List.map_map]
  exact Entries.ofList_tabulate h _

theorem read_write_cells {e : ExportResult} (hdistinct : e.header.Nodup) (hheader : IsLegible e.header)
    (hrows : ∀ row ∈ e.rows, IsLegible (cells e.header row)) : read (write e) =
      .ok (e.rows.map fun row => .tabulate e.header fun column => .text (cell (row.get column))) := by
  have hall : ∀ row ∈ e.header :: e.rows.map (cells e.header), IsLegible row := by
    intro row hrow
    rcases List.mem_cons.mp hrow with rfl | hrow
    . exact hheader
    . obtain ⟨entries, hentries, rfl⟩ := List.mem_map.mp hrow
      exact hrows entries hentries
  have hread := Csv.read_write fun row hrow c hc => ((hall row hrow).isCell c hc).toIsCell
  have htrimmed := trimRows_of_isLegible hall
  rw [read, write_eq, hread]
  simp only [Bind.bind, Except.bind, htrimmed]
  show Except.ok ((e.rows.map (cells e.header)).map (zipRow e.header)) = _
  rw [List.map_map]
  congr 1
  exact List.map_congr_left fun row _ => zipRow_cells hdistinct row

/--
Rows that have a text in every column of the header come back as they were, in order and by the columns of
the header.
-/
theorem read_write_texts {e : ExportResult} (hdistinct : e.header.Nodup) (hheader : IsLegible e.header)
    (htexts : ∀ row ∈ e.rows, ∀ column ∈ e.header, ∃ s, row.get? column = some (.text s))
    (hrows : ∀ row ∈ e.rows, IsLegible (cells e.header row)) : read (write e) =
      .ok (e.rows.map fun row => .tabulate e.header row.get) := by
  rw [read_write_cells hdistinct hheader hrows]
  congr 1
  apply List.map_congr_left
  intro row hrow
  apply Entries.tabulate_congr
  intro column hcolumn
  obtain ⟨s, hs⟩ := htexts row hrow column hcolumn
  rw [Entries.get, hs]
  rfl

def scribbled : ExportResult where
  header := ["name", "", "a,b \"c\""]
  rows := [
    [("name", .text "\"\"hi\",\nthere\n\n\""), ("", .text "a\tb"), ("a,b \"c\"", .text ",")],
    [("name", .text ""), ("", .text "\""), ("a,b \"c\"", .text "")],
    [("more", .int 1), ("a,b \"c\"", .text "x"), ("", .text ""), ("name", .text "id")]]

theorem read_write_scribbled :
    scribbled.header.Nodup ∧ IsLegible scribbled.header ∧
      (∀ row ∈ scribbled.rows, ∀ column ∈ scribbled.header, ∃ s, row.get? column = some (.text s)) ∧
      (∀ row ∈ scribbled.rows, IsLegible (cells scribbled.header row)) ∧
      read (write scribbled) =
        .ok (scribbled.rows.map fun row => .tabulate scribbled.header row.get) := by
  have hdistinct : scribbled.header.Nodup := by decide
  have hheader : IsLegible scribbled.header := by decide
  have htexts : ∀ row ∈ scribbled.rows, ∀ column ∈ scribbled.header,
      ∃ s, row.get? column = some (.text s) := by
    simp [scribbled, Entries.get?_cons]
  have hrows : ∀ row ∈ scribbled.rows, IsLegible (cells scribbled.header row) := by decide
  exact ⟨hdistinct, hheader, htexts, hrows, read_write_texts hdistinct hheader htexts hrows⟩

end TenantTables.Sheet
