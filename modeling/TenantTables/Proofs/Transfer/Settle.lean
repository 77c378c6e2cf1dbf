import TenantTables.Proofs.Operation.ReadBack
import TenantTables.Proofs.Record.Settle
import TenantTables.Proofs.Transfer.Account

namespace TenantTables

open Program

theorem Failure.exists_report {e : Failure} (h : e.isRefusal = true) : ∃ report, e.report? = some report := by
  cases e <;> first | contradiction | exact ⟨_, rfl⟩

theorem Program.settles_clock_bind {source : Source} {w : World} {f : Moment → Program α} :
    Settles source w (ask .clock >>= f) ↔
      Settles source { w with readings := w.readings + 1 } (f (source.clock w.readings)) := by
  rw [Settles, run_bind]
  rfl

structure Table.IsLegible (t : Table) : Prop where
  formulas : ∀ f ∈ t.fields, f.IsLegible
  defaults : ∀ f ∈ t.fields, f.defaultValue.isLong = false

theorem Table.isStorable_default {t : Table} (hexchanged : t.IsExchanged) (hlegible : t.IsLegible) :
    ∀ f ∈ t.fields, f.defaultValue.isStorable = true := by
  intro f hf
  have hdefault : f.defaultValue.exchange = f.defaultValue := congrArg Field.defaultValue (hexchanged f hf)
  have hplain := (Value.json_exchange f.defaultValue).1
  rw [hdefault] at hplain
  rw [Value.isStorable, hplain, hlegible.defaults f hf]
  rfl

namespace Records

variable {source : Source} {w : World} {tableId : String} {table : Table} {es data : Entries} {actor : Value}

theorem exists_run_checkUnique (source : Source) (hready : w.store.isReady = true) (table : Table)
    (data : Entries) (excludeId : Option String) :
    ∃ r, (checkUnique table data excludeId).run source w = (r, w) ∧ r.isSettled = true := by
  unfold checkUnique
  dsimp only
  split
  . exact ⟨.ok (), rfl, rfl⟩
  . have hselect : w.store.select { tableId := table.id, excludeId } = .ok _ :=
      Store.select_of_filterAll hready rfl rfl rfl rfl (by simp) rfl
    rw [run_bind, run_ask, World.answer, World.answer.read, hselect]
    exact ⟨_, rfl, Outcome.isSettled_forM fun f _ => Field.isSettled_ensureUnique f _ _⟩

theorem settles_saveRecord {r : Record} {n : Nat} (hready : w.store.isReady = true) (htimed : source.IsTimed)
    (hplain : (Value.map r.data).isPlain = true) (hcreated : r.createdAt = source.clock n)
    (hupdated : r.updatedAt = source.clock n) (hdeleted : r.deletedAt = none) :
    Settles source w (ask (.saveRecord r)) := by
  obtain ⟨utc, hutc⟩ := Option.isSome_iff_exists.mp (htimed n).2
  have hnow : (source.clock n).stored = .ok utc := by
    rw [Moment.stored, hutc]
  have hnone : r.deletedAt.mapM Moment.stored = .ok none := by
    rw [hdeleted]
    rfl
  obtain ⟨s, hsaved⟩ := Store.exists_saveRecord hready hplain (hcreated ▸ hnow) (hupdated ▸ hnow) hnone
  rw [Settles, run_saveRecord_ok.mpr ⟨s, hsaved, rfl⟩]
  rfl

theorem settles_insert (hready : w.store.isReady = true) (htimed : source.IsTimed) (hactor : actor.isActor = true)
    (hfound : w.store.table? tableId = some table) (hexchanged : table.IsExchanged) (hlegible : table.IsLegible)
    (hes : es.AreStorable) (hmeasured : ∀ f ∈ table.fields, f.type = .number → (es.get f.name).IsMeasured) :
    Settles source w (insert tableId (.map es) actor) := by
  obtain ⟨hsettled, hplain⟩ :=
    isSettled_newData (table.isStorable_default hexchanged hlegible) hlegible.formulas hes hmeasured
  unfold insert
  rw [settles_locked, settles_requireTable_bind hready]
  intro t ht
  obtain rfl := Option.some.inj (ht.symm.trans hfound)
  refine settles_lift_bind.mpr ⟨rfl, fun payload hpayload => ?_⟩
  obtain rfl : es = payload := Except.ok.inj hpayload
  refine settles_lift_bind.mpr ⟨hsettled, fun data hdata => ?_⟩
  obtain ⟨r, hrun, hr⟩ := exists_run_checkUnique source hready t data none
  refine (settles_bind_of_run hrun).mpr ⟨hr, fun _ _ => ?_⟩
  rw [settles_clock_bind, settles_identifier_bind]
  obtain ⟨author, hrecord⟩ :=
    newRecord_of_aware (source.identifiers w.identifiers) t.id data (htimed w.readings).1 hactor
  refine settles_lift_bind.mpr ⟨by rw [hrecord]; rfl, fun record heq => ?_⟩
  obtain rfl := Except.ok.inj (hrecord.symm.trans heq)
  refine settles_bind.mpr ⟨?_, fun _ _ _ => settles_pure _⟩
  exact settles_saveRecord hready htimed (hplain data hdata) rfl rfl rfl

end Records

namespace Transfer

variable {source : Source} {w : World} {table : Table} {tableId : String} {dropped : List String} {actor : Value}
  {row : Entries} {rows : List Entries}

def cells (row : List (String × String)) : Entries :=
  row.map fun e => (e.1, .text e.2)

theorem areStorable_cells (row : List (String × String)) : (cells row).AreStorable := by
  intro e he
  obtain ⟨cell, -, rfl⟩ := List.mem_map.mp he
  rfl

theorem run_importRow_of_settles (h : Settles source w (insertRow tableId dropped actor row)) :
    ∃ report, (importRow tableId dropped (.map row) actor).run source w =
      (.ok report, ((insertRow tableId dropped actor row).run source w).2) := by
  rw [run_importRow_map]
  unfold Settles at h
  rcases hrun : ((insertRow tableId dropped actor row).run source w).1 with e | r
  . rw [hrun] at h
    obtain ⟨report, hreport⟩ := Failure.exists_report h
    exact ⟨some report, by simp only [hreport]⟩
  . exact ⟨none, rfl⟩

theorem exists_run_importFrom (number : Int) (hready : w.store.isReady = true)
    (hfound : w.store.table? tableId = some table)
    (hsettles : ∀ row ∈ rows, ∀ v : World, v.store.isReady = true → v.store.table? tableId = some table →
      Settles source v (insertRow tableId dropped actor row)) :
    ∃ result w', (importFrom tableId dropped actor number (rows.map .map)).run source w = (.ok result, w') := by
  induction rows generalizing w number with
  | nil => exact ⟨_, _, rfl⟩
  | cons row rows ih =>
    rw [List.forall_mem_cons] at hsettles
    obtain ⟨report, hrow⟩ := run_importRow_of_settles (hsettles.1 w hready hfound)
    obtain ⟨htables, hready'⟩ := tables_run_of_uses (sparesTables_importRow tableId dropped (.map row) actor) source w
    rw [hrow] at htables hready'
    have hfound' : ((insertRow tableId dropped actor row).run source w).2.store.table? tableId = some table := by
      rwa [Store.table?, htables]
    obtain ⟨result, w', hrest⟩ := ih (number + 1) (hready'.trans hready) hfound' hsettles.2
    exact ⟨_, w', run_bind_ok.mpr ⟨report, _, hrow, run_bind_ok.mpr ⟨result, w', hrest, rfl⟩⟩⟩

theorem isMeasured_null : Value.null.IsMeasured := by
  rintro _ _ ⟨⟩

theorem isMeasured_get_filter (dropped : List String) {k : String} (h : (row.get k).IsMeasured) :
    (Entries.get (row.filter fun e => !dropped.contains e.1) k).IsMeasured := by
  cases hk : dropped.contains k with
  | true =>
    have hnone : Entries.get? (row.filter fun e => !dropped.contains e.1) k = none := by
      rw [Entries.get?_eq_none_iff]
      intro hmem
      obtain ⟨e, he, rfl⟩ := List.mem_map.mp hmem
      have hkept := (List.mem_filter.mp he).2
      rw [hk] at hkept
      contradiction
    rw [Entries.get, hnone]
    exact isMeasured_null
  | false =>
    rwa [Entries.get_of_get? (Entries.get?_filter fun v => by rw [hk]; rfl)]

/--
An import of rows of texts returns and accounts for each row, whatever the rows are, as long as no text for a number
has more digits than are read, and no formula and no default value of the table has an integer with too many digits.
-/
theorem importRows_of_texts (hw : w.Reachable source) (hready : w.store.isReady = true) (htimed : source.IsTimed)
    (hactor : actor.isActor = true) (hfound : w.store.table? tableId = some table) (hlegible : table.IsLegible)
    (settings : Settings) (rows : List (List (String × String)))
    (hmeasured : ∀ row ∈ rows, ∀ f ∈ table.fields, f.type = .number → ((cells row).get f.name).IsMeasured) :
    ∃ result w', (importRows settings tableId (rows.map fun row => .map (cells row)) actor).run source w =
        (.ok result, w') ∧
      Accounts source tableId (droppedColumns table) actor w settings.importHeaderOffset (rows.map cells)
        result w' := by
  have hexchanged : table.IsExchanged := (World.isSettled_of_reachable hw).fields tableId table hfound
  have hsettles : ∀ row ∈ rows.map cells, ∀ v : World, v.store.isReady = true → v.store.table? tableId = some table →
      Settles source v (insertRow tableId (droppedColumns table) actor row) := by
    intro row hrow v hready hfound
    obtain ⟨texts, htexts, rfl⟩ := List.mem_map.mp hrow
    refine Records.settles_insert hready htimed hactor hfound hexchanged hlegible
      (Entries.areStorable_filter (areStorable_cells texts) _) fun f hf hnumber => ?_
    exact isMeasured_get_filter _ (hmeasured texts htexts f hf hnumber)
  obtain ⟨result, w', hrun⟩ := exists_run_importFrom settings.importHeaderOffset hready hfound hsettles
  refine ⟨result, w', ?_, accounts_of_importFrom hrun⟩
  rw [run_importRows hready hfound]
  rwa [List.map_map] at hrun

theorem importRows_of_texts_of_word :
    let rows := [[("n", "12")], [("n", "twelve"), ("id", "x")], [("n", "3.5")]]
    let result : ImportResult := ⟨2, [⟨3, "Field \"N\" must be a number"⟩]⟩
    ∃ table w', (importRows {} "i" (rows.map fun row => .map (cells row)) .null).run .sample World.sample =
        (.ok result, w') ∧
      Accounts .sample "i" (droppedColumns table) .null World.sample 2 (rows.map cells) result w' := by
  intro rows result
  let n : Field := { id := "ii", name := "n", displayName := "N", type := .number }
  have hutc : ({ (default : Moment) with offset := some 0 } : Moment).toUtc?.isSome = true := by decide
  have htimed : Source.sample.IsTimed := fun _ => ⟨rfl, hutc⟩
  have hw : World.sample.Reachable .sample := ⟨true, _, rfl⟩
  have hready : World.sample.store.isReady = true := by decide +kernel
  have hfields : (World.sample.store.table? "i").map (·.fields) = some [n] := by decide +kernel
  have hreturns : ((importRows {} "i" (rows.map fun row => .map (cells row)) .null).run .sample World.sample).1 =
      .ok result := by
    decide +kernel
  -- the world is not computed again from here on
  generalize World.sample = w at hw hready hfields hreturns ⊢
  obtain ⟨table, hfound, hfields⟩ := Option.map_eq_some_iff.mp hfields
  have hlegible : table.IsLegible := by
    constructor <;> rw [hfields, List.forall_mem_singleton]
    . rintro ⟨⟩
    . decide
  have hmeasured : ∀ row ∈ rows, ∀ f ∈ table.fields, f.type = .number → ((cells row).get f.name).IsMeasured := by
    intro row hrow f hf _
    rw [hfields, List.mem_singleton] at hf
    subst hf
    simp only [rows, List.mem_cons, List.not_mem_nil, or_false] at hrow
    rcases hrow with rfl | rfl | rfl <;> exact Value.isMeasured_text (by decide)
  have hactor : Value.null.isActor = true := rfl
  obtain ⟨result', w', hrun, haccounts⟩ :=
    importRows_of_texts hw hready htimed hactor hfound hlegible {} rows hmeasured
  rw [hrun] at hreturns
  obtain rfl := Except.ok.inj hreturns
  exact ⟨table, w', hrun, haccounts⟩

section Stop

variable {f : Field} {fields : List Field} {data : Entries} {s : String} {ds : List Char} {e : Failure}

theorem newData_of_integerDigitLimit_lt (hnumber : f.type = .number) (hrequired : f.required = false)
    (hget : data.get f.name = .text s) (hs : Text.IsWhole s ds) (hlong : integerDigitLimit < ds.length) :
    Records.newData (f :: fields) data = .error (.digitLimit ds.length) := by
  have hcheck : f.check (.text s) = .error (.digitLimit ds.length) := by
    rw [Field.check, hnumber]
    dsimp only
    rw [Field.checkNumber, Field.number?, Field.splitDigits?_of_isWhole hs]
    dsimp only
    rw [if_pos hlong]
    rfl
  have haccept : f.accept data = .error (.digitLimit ds.length) := by
    rw [Field.accept, hget, hrequired, hcheck]
    rfl
  rw [Records.newData, validate, List.foldlM_cons, haccept]
  rfl

theorem run_importRows_of_error (hready : w.store.isReady = true) (hfound : w.store.table? tableId = some table)
    (hdata : Records.newData table.fields (row.filter fun e => !(droppedColumns table).contains e.1) = .error e)
    (hreport : e.report? = none) (settings : Settings) (rows : List Value) :
    (importRows settings tableId (.map row :: rows) actor).run source w = (.error e, w) := by
  have hinsert : (insertRow tableId (droppedColumns table) actor row).run source w = (.error e, w) := by
    rw [insertRow, Records.insert, run_locked, run_bind, run_requireTable hready hfound]
    show (liftM (Records.newData table.fields _) >>= _ : Program Record).run source w = _
    rw [hdata]
    rfl
  rw [run_importRows hready hfound, importFrom, run_bind, run_importRow_map, hinsert]
  dsimp only
  rw [hreport]

end Stop

theorem importRows_stops_at_digits :
    let rows := [[("n", String.ofList (List.replicate 4301 '9'))], [("n", "1")]]
    (importRows {} "i" (rows.map fun row => .map (cells row)) .null).run .sample World.sample =
      (.error (.digitLimit 4301), World.sample) := by
  intro rows
  let n : Field := { id := "ii", name := "n", displayName := "N", type := .number }
  have hready : World.sample.store.isReady = true := by decide +kernel
  have hfields : (World.sample.store.table? "i").map (·.fields) = some [n] := by decide +kernel
  obtain ⟨table, hfound, hfields⟩ := Option.map_eq_some_iff.mp hfields
  have hlength : (List.replicate 4301 '9').length = 4301 := List.length_replicate
  have hdigits : Text.IsDigits (List.replicate 4301 '9') := by
    refine ⟨List.ne_nil_of_length_pos (by rw [hlength]; decide), fun c hc => ?_⟩
    rw [List.eq_of_mem_replicate hc]
    decide
  have hkept : "n" ∉ droppedColumns table := fun h => absurd (List.mem_filter.mp h).1 (by decide)
  generalize World.sample = w at hready hfound ⊢
  simp only [rows]
  generalize List.replicate 4301 '9' = ds at hdigits hlength ⊢
  have hwhole : Text.IsWhole (String.ofList ds) ds := ⟨hdigits, .inl String.toList_ofList⟩
  have hget : Entries.get ((cells [("n", String.ofList ds)]).filter fun e => !(droppedColumns table).contains e.1) "n" =
      .text (String.ofList ds) := by
    simp [cells, hkept, Entries.get, Entries.get?]
  have hdata : Records.newData [n] _ = .error (.digitLimit ds.length) :=
    newData_of_integerDigitLimit_lt rfl rfl hget hwhole (by rw [hlength]; decide)
  rw [← hfields, hlength] at hdata
  exact run_importRows_of_error hready hfound hdata rfl {} _

end Transfer
end TenantTables
