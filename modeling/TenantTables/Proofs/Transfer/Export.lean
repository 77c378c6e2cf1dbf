import Mathlib.Data.List.Nodup
import TenantTables.Operation.Transfer
import TenantTables.Proofs.Operation.Fresh
import TenantTables.Proofs.Operation.Orderly
import TenantTables.Proofs.Storage.Filter
import TenantTables.Proofs.Storage.Runs
import TenantTables.Proofs.Value.Keyed

namespace TenantTables

def Record.shown (r : Record) (column : String) : Value :=
  if column = "id" then .text r.id
  else if column = "created_at" then .text r.createdAt.print
  else if column = "updated_at" then .text r.updatedAt.print
  else r.data.get column

theorem Record.shown_of_notMem (r : Record) {column : String} (h : column ∉ reservedColumns) :
    r.shown column = r.data.get column := by
  simp only [reservedColumns, List.mem_cons, List.not_mem_nil, or_false, not_or] at h
  rw [shown, if_neg h.1, if_neg h.2.1, if_neg h.2.2]

theorem nodup_eraseDups (as : List String) : as.eraseDups.Nodup := by
  induction hlength : as.length using Nat.strongRecOn generalizing as with
  | ind n ih =>
    cases as with
    | nil => exact List.nodup_nil
    | cons a as =>
      rw [List.eraseDups_cons, List.nodup_cons]
      constructor
      . simp [List.mem_eraseDups]
      . apply ih _ _ _ rfl
        rw [← hlength, List.length_cons]
        exact Nat.lt_succ_of_le (List.length_filter_le _ _)

namespace Transfer

open Program

section Shape

variable {table : Table} {records : List Record} {legacy : List String}

theorem mem_legacyColumns {column : String} : column ∈ legacyColumns table records ↔
    column ∉ table.fieldNames ∧ ∃ r ∈ records, column ∈ r.data.keys := by
  simp only [legacyColumns, List.mem_mergeSort, List.mem_eraseDups, List.mem_flatMap, List.mem_filter]
  constructor
  . rintro ⟨r, hr, hkey, hnew⟩
    exact ⟨by simpa using hnew, r, hr, hkey⟩
  . rintro ⟨hnew, r, hr, hkey⟩
    exact ⟨r, hr, hkey, by simpa using hnew⟩

theorem nodup_legacyColumns (table : Table) (records : List Record) : (legacyColumns table records).Nodup :=
  (List.mergeSort_perm _ _).nodup_iff.mpr (nodup_eraseDups _)

def columns (table : Table) (legacy : List String) : List String :=
  "id" :: table.fieldNames ++ ["created_at", "updated_at"] ++ legacy

theorem mem_columns {column : String} : column ∈ columns table legacy ↔
    column ∈ Record.reservedColumns ∨ column ∈ table.fieldNames ∨ column ∈ legacy := by
  simp only [columns, Record.reservedColumns, List.mem_append, List.mem_cons, List.not_mem_nil, or_false]
  tauto

theorem perm_columns (table : Table) (legacy : List String) :
    (columns table legacy).Perm (Record.reservedColumns ++ (table.fieldNames ++ legacy)) := by
  rw [← List.append_assoc]
  exact (List.perm_append_comm.append_right legacy).cons "id"

theorem notMem_reservedColumns (h : (columns table legacy).Nodup) {column : String}
    (hmem : column ∈ table.fieldNames ++ legacy) : column ∉ Record.reservedColumns := by
  have hapart := (List.nodup_append.mp ((perm_columns table legacy).nodup_iff.mp h)).2.2
  intro hreserved
  exact hapart column hreserved column hmem rfl

theorem nodup_columns (hnames : table.fieldNames.Nodup) (hlegacy : legacy.Nodup)
    (hnew : ∀ column ∈ legacy, column ∉ table.fieldNames) : (columns table legacy).Nodup ↔
      ∀ column ∈ Record.reservedColumns, column ∉ table.fieldNames ∧ column ∉ legacy := by
  have hdata : (table.fieldNames ++ legacy).Nodup := by
    refine List.nodup_append.mpr ⟨hnames, hlegacy, ?_⟩
    rintro column hname _ hmem rfl
    exact hnew column hmem hname
  have hreserved : Record.reservedColumns.Nodup := by decide
  constructor
  . intro h column hcolumn
    rw [← not_or, ← List.mem_append]
    intro hmem
    exact notMem_reservedColumns h hmem hcolumn
  . intro hapart
    rw [(perm_columns table legacy).nodup_iff]
    refine List.nodup_append.mpr ⟨hreserved, hdata, ?_⟩
    rintro column hcolumn _ hmem rfl
    obtain ⟨hname, hother⟩ := hapart column hcolumn
    rcases List.mem_append.mp hmem with hmem | hmem
    . exact hname hmem
    . exact hother hmem

theorem exportRow_of_nodup (h : (columns table legacy).Nodup) (r : Record) :
    exportRow table legacy r = .tabulate (columns table legacy) r.shown := by
  have hshown {names : List String} (hnames : ∀ column ∈ names, column ∉ Record.reservedColumns) :
      (names.map fun name => (name, r.data.get name)) = names.map fun name => (name, r.shown name) :=
    List.map_congr_left fun name hname => by rw [r.shown_of_notMem (hnames name hname)]
  have hnames : ∀ column ∈ table.fieldNames, column ∉ Record.reservedColumns := fun column hcolumn =>
    notMem_reservedColumns h (List.mem_append_left _ hcolumn)
  have hlegacy : ∀ column ∈ legacy, column ∉ Record.reservedColumns := fun column hcolumn =>
    notMem_reservedColumns h (List.mem_append_right _ hcolumn)
  rw [← Entries.ofList_tabulate h, exportRow, hshown hnames, hshown hlegacy]
  congr 1
  simp [columns, Entries.tabulate, Record.shown]

def exported (table : Table) (includeLegacy : Bool) (records : List Record) : ExportResult :=
  let legacy := if includeLegacy then legacyColumns table records else []
  { header := columns table legacy
    rows := records.map (exportRow table legacy) }

/--
An export names every column once, and shows of each record what it is to show in each of them. It has the
reserved columns, those of the fields, and on demand those of all other data.
-/
structure IsFaithful (table : Table) (includeLegacy : Bool) (records : List Record) (e : ExportResult) :
    Prop where
  distinct : e.header.Nodup
  columns : ∀ column, column ∈ e.header ↔ column ∈ Record.reservedColumns ∨ column ∈ table.fieldNames ∨
    includeLegacy = true ∧ ∃ r ∈ records, column ∈ r.data.keys
  rows : e.rows = records.map fun r => .tabulate e.header r.shown

def IsApart (table : Table) (includeLegacy : Bool) (records : List Record) : Prop :=
  ∀ column ∈ Record.reservedColumns, column ∉ table.fieldNames ∧
    (includeLegacy = true → ∀ r ∈ records, column ∉ r.data.keys)

theorem isFaithful_exported (hnames : table.fieldNames.Nodup) (includeLegacy : Bool) :
    IsFaithful table includeLegacy records (exported table includeLegacy records) ↔
      IsApart table includeLegacy records := by
  -- the other keys of the data, none of which is a field
  let legacy := if includeLegacy then legacyColumns table records else []
  have hmem (column : String) : column ∈ legacy ↔
      includeLegacy = true ∧ column ∉ table.fieldNames ∧ ∃ r ∈ records, column ∈ r.data.keys := by
    cases includeLegacy with
    | false => simp [legacy]
    | true => simp [legacy, mem_legacyColumns]
  have hlegacy : legacy.Nodup := by
    cases includeLegacy with
    | false => exact List.nodup_nil
    | true => exact nodup_legacyColumns table records
  have hdistinct := nodup_columns hnames hlegacy fun column hcolumn => ((hmem column).mp hcolumn).2.1
  have happart : IsApart table includeLegacy records ↔ (columns table legacy).Nodup := by
    rw [hdistinct]
    apply forall₂_congr
    intro column hreserved
    rw [hmem]
    grind
  rw [happart]
  constructor
  . intro h
    exact h.distinct
  . intro h
    refine ⟨h, ?_, List.map_congr_left fun r _ => exportRow_of_nodup h r⟩
    intro column
    show column ∈ columns table legacy ↔ _
    rw [mem_columns, hmem]
    tauto

end Shape

def AreNewest (s : Store) (tableId : String) (limit : Int) (records : List Record) : Prop :=
  ∃ ordered : List Record, ordered.Perm (s.live tableId) ∧ Record.AreOrdered .createdAt true ordered ∧
    records = ordered.take limit.toNat

section Run

variable {source : Source} {w : World} {settings : Settings} {tableId : String} {table : Table}

theorem select_newest (tableId : String) (hready : w.store.isReady = true) (hdistinct : (w.store.records.map (·.id)).Nodup)
    {limit : Int} (hpos : 1 ≤ limit) (hfits : fitsWord limit = true) :
    ∃ records, w.store.select { tableId, limit := some limit } = .ok records ∧
      AreNewest w.store tableId limit records := by
  let q : Selection := { tableId, limit := some limit }
  have hall : ((w.store.live tableId).filter fun r => q.excludeId != some r.id) = w.store.live tableId :=
    List.filter_eq_self.mpr fun r _ => rfl
  have hselect : w.store.select q = .ok (q.page (q.arrange _)) :=
    Store.select_of_filterAll hready rfl rfl hfits rfl (by grind) rfl
  rw [hall] at hselect
  refine ⟨_, hselect, q.arrange (w.store.live tableId), q.perm_arrange _, ?_, ?_⟩
  . exact q.areOrdered_arrange (hdistinct.sublist (List.filter_sublist.map _))
  . rw [Selection.page]
    show (if limit < 0 then _ else _) = _
    rw [if_neg (by omega)]
    rfl

theorem mem_live_of_areNewest {s : Store} {limit : Int} {records : List Record}
    (h : AreNewest s tableId limit records) {r : Record} (hr : r ∈ records) : r ∈ s.live tableId := by
  obtain ⟨ordered, hperm, -, rfl⟩ := h
  exact hperm.mem_iff.mp (List.mem_of_mem_take hr)

theorem run_exportAll (hready : w.store.isReady = true) (htable : w.store.table? tableId = some table)
    {records : List Record}
    (hselect : w.store.select { tableId, limit := some settings.exportLimit } = .ok records)
    (includeLegacy : Bool) :
    (exportAll settings tableId includeLegacy).run source w = (.ok (exported table includeLegacy records), w) :=
  run_bind_ok.mpr ⟨table, w, run_requireTable hready htable,
    run_bind_ok.mpr ⟨records, w, run_select_ok.mpr ⟨hselect, rfl⟩, rfl⟩⟩

end Run

end Transfer

namespace World

open Transfer

/--
After any history, an export returns the newest live records of a table and leaves everything as it is. It is
faithful to them just when neither a field nor other data that it shows has the name of a reserved column.
-/
theorem exports_after (source : Source) (hids : Function.Injective source.identifiers) (w : World)
    (htables : w.store.tables = []) (hrecords : w.store.records = []) (ops : List Operation)
    (settings : Settings) (hpos : 1 ≤ settings.exportLimit) (hfits : fitsWord settings.exportLimit = true)
    {tableId : String} {table : Table} (htable : (w.after source ops).store.table? tableId = some table)
    (includeLegacy : Bool) :
    let v := w.after source ops
    ∃ records e, AreNewest v.store tableId settings.exportLimit records ∧
      (exportAll settings tableId includeLegacy).run source v = (.ok e, v) ∧
      (IsFaithful table includeLegacy records e ↔ IsApart table includeLegacy records) := by
  intro v
  have horderly : v.IsOrderly source := isOrderly_after hids (isOrderly_of_nil htables) ops
  have hmem := Store.table?_mem htable
  have hready := horderly.ready (List.ne_nil_of_mem hmem)
  have hdistinct : (v.store.records.map (·.id)).Nodup := nodup_records_after (by simp [hrecords]) ops
  obtain ⟨records, hselect, hnewest⟩ := select_newest tableId hready hdistinct hpos hfits
  exact ⟨records, exported table includeLegacy records, hnewest, run_exportAll hready htable hselect _,
    isFaithful_exported (horderly.tables table hmem).names includeLegacy⟩

theorem exports_after_inserts :
    let w : World := { store := { isReady := true } }
    let ops : List Operation := [
      .createTable
        { tenantId := .text "x", name := .text "points", displayName := .text "Points" } true,
      .work "i" (.addField (.ready { name := "n", displayName := "N", type := .number })),
      .work "i" (.insert (.map [("n", .int 1), ("old", .text "a")]) .null),
      .work "i" (.insert (.map [("n", .int 2)]) .null)]
    let v := w.after .sample ops
    Function.Injective Source.sample.identifiers ∧ w.store.tables = [] ∧ w.store.records = [] ∧
      (v.store.live "i").length = 2 ∧
      ∃ table records e, v.store.table? "i" = some table ∧ AreNewest v.store "i" 5000 records ∧
        (exportAll {} "i" true).run .sample v = (.ok e, v) ∧ IsFaithful table true records e := by
  intro w ops v
  obtain ⟨table, htable⟩ : ∃ table, v.store.table? "i" = some table := by
    rw [← Option.isSome_iff_exists]
    decide +kernel
  have hnames : (v.store.table? "i").map (·.fieldNames) = some ["n"] := by decide +kernel
  have hkeys : ∀ r ∈ v.store.live "i", ∀ column ∈ Record.reservedColumns, column ∉ r.data.keys := by
    decide +kernel
  rw [htable, Option.map_some, Option.some.injEq] at hnames
  obtain ⟨records, e, hnewest, hrun, hfaithful⟩ :=
    exports_after .sample Source.sample_injective w rfl rfl ops {} (by decide) (by decide) htable true
  have hapart : IsApart table true records := by
    intro column hcolumn
    constructor
    . rw [hnames]
      revert column
      decide
    . intro _ r hr
      exact hkeys r (mem_live_of_areNewest hnewest hr) column hcolumn
  exact ⟨Source.sample_injective, rfl, rfl, by decide +kernel, table, records, e, htable, hnewest, hrun,
    hfaithful.mpr hapart⟩

theorem export_unfaithful_of_id :
    let v := World.after .sample { store := { isReady := true } } [
      .createTable
        { tenantId := .text "x", name := .text "points", displayName := .text "Points" } true,
      .work "i" (.addField (.ready { name := "id", displayName := "Id", type := .text })),
      .work "i" (.insert (.map [("id", .text "x")]) .null)]
    (v.store.live "i").map (·.id) = ["iii"] ∧
      ∃ table e, v.store.table? "i" = some table ∧ ((exportAll {} "i" false).run .sample v).1 = .ok e ∧
        e.header = ["id", "id", "created_at", "updated_at"] ∧ e.rows.map (·.get "id") = [.text "x"] ∧
        ¬IsFaithful table false (v.store.live "i") e := by
  intro v
  have hshown : (((exportAll {} "i" false).run .sample v).1.toOption.map fun e =>
      (e.header, e.rows.map (·.get "id"))) =
        some (["id", "id", "created_at", "updated_at"], [.text "x"]) := by
    decide +kernel
  obtain ⟨e, he, hparts⟩ := Option.map_eq_some_iff.mp hshown
  obtain ⟨hheader, hrows⟩ := Prod.mk.inj hparts
  have hrun : ((exportAll {} "i" false).run .sample v).1 = .ok e := Outcome.eq_ok_of_toOption he
  obtain ⟨table, htable⟩ : ∃ table, v.store.table? "i" = some table := by
    rw [← Option.isSome_iff_exists]
    decide +kernel
  refine ⟨by decide +kernel, table, e, htable, hrun, hheader, hrows, ?_⟩
  intro h
  have hdistinct := h.distinct
  rw [hheader] at hdistinct
  exact absurd hdistinct (by decide)

end World
end TenantTables
