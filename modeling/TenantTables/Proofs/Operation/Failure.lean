import Mathlib.Data.List.Basic
import TenantTables.Proofs.Operation.History

namespace TenantTables

open Program

namespace Transfer

variable {source : Source} {w w' : World} {tableId : String} {dropped : List String} {actor : Value}

theorem importRow_cases (source : Source) (w : World) (tableId : String) (dropped : List String)
    (row actor : Value) :
    (∃ w' table payload r, (importRow tableId dropped row actor).run source w = (.ok none, w') ∧
      w.store.table? tableId = some table ∧ Records.Inserted source w w' table payload r) ∨
    (((importRow tableId dropped row actor).run source w).1 ≠ .ok none ∧
      ((importRow tableId dropped row actor).run source w).2.store = w.store) := by
  have hguarded : (do
      let payload ← rowPayload dropped row
      Records.insert tableId (.map payload) actor : Program Record).IsGuarded tableId :=
    isGuarded_lift_bind fun payload => Records.isGuarded_insert tableId (.map payload) actor
  unfold importRow
  rw [run_bind, run_attempt]
  dsimp only
  rcases hrun : (do
      let payload ← rowPayload dropped row
      Records.insert tableId (.map payload) actor : Program Record).run source w with ⟨e | r, v⟩
  . right
    have hstore := store_run_of_isGuarded hguarded source w (congrArg Prod.fst hrun)
    rw [hrun] at hstore
    dsimp only
    split
    . exact ⟨by simp, hstore⟩
    . exact ⟨by simp, hstore⟩
  . left
    obtain ⟨es, -, hinsert⟩ := run_lift_bind_ok.mp hrun
    obtain ⟨table, htable, hinserted⟩ := Records.insert_ok hinsert
    exact ⟨v, table, .map es, r, rfl, htable, hinserted⟩

theorem store_of_report {row : Value} {report : Report}
    (h : (importRow tableId dropped row actor).run source w = (.ok (some report), w')) :
    w'.store = w.store := by
  rcases importRow_cases source w tableId dropped row actor with
    ⟨_, _, _, _, hnone, -, -⟩ | ⟨-, hstore⟩
  . rw [h] at hnone
    simp at hnone
  . rwa [h] at hstore

def worldAfter (source : Source) (tableId : String) (dropped : List String) (actor : Value)
    (w : World) (rows : List Value) : World :=
  rows.foldl (fun w row => ((importRow tableId dropped row actor).run source w).2) w

def IsReported (source : Source) (tableId : String) (dropped : List String) (actor : Value) (w : World)
    (number : Int) (rows : List Value) (e : ImportRowError) : Prop :=
  ∃ (i : Nat) (row : Value) (report : Report), rows[i]? = some row ∧
    e = ⟨number + i, report.message⟩ ∧
    (importRow tableId dropped row actor).run source
        (worldAfter source tableId dropped actor w (rows.take i)) =
      (.ok (some report), worldAfter source tableId dropped actor w (rows.take (i + 1)))

theorem importFrom_ok {number : Int} {rows : List Value} {result : ImportResult}
    (h : (importFrom tableId dropped actor number rows).run source w = (.ok result, w')) :
    worldAfter source tableId dropped actor w rows = w' ∧
      ∀ e ∈ result.errors, IsReported source tableId dropped actor w number rows e := by
  induction rows generalizing number w result with
  | nil =>
    obtain ⟨rfl, rfl⟩ := run_pure_ok.mp h
    exact ⟨rfl, by simp⟩
  | cons row rows ih =>
    unfold importFrom at h
    obtain ⟨report, v, hrow, h⟩ := run_bind_ok.mp h
    obtain ⟨rest, v', hrest, h⟩ := run_bind_ok.mp h
    obtain ⟨hresult, rfl⟩ := run_pure_ok.mp h
    have hnext (rows : List Value) : worldAfter source tableId dropped actor w (row :: rows) =
        worldAfter source tableId dropped actor v rows := by
      rw [worldAfter, List.foldl_cons, hrow]
      rfl
    obtain ⟨hworld, herrors⟩ := ih hrest
    refine ⟨(hnext rows).trans hworld, ?_⟩
    have hlater : ∀ e ∈ rest.errors, IsReported source tableId dropped actor w number (row :: rows) e := by
      intro e he
      obtain ⟨i, row', report', hrow', heq, hrun⟩ := herrors e he
      refine ⟨i + 1, row', report', hrow', ?_, ?_⟩
      . rw [heq]
        congr 1
        omega
      . rw [List.take_succ_cons, List.take_succ_cons, hnext, hnext]
        exact hrun
    cases report with
    | none =>
      rw [← hresult]
      exact hlater
    | some report =>
      intro e he
      rw [← hresult] at he
      rcases List.mem_cons.mp he with rfl | he
      . refine ⟨0, row, report, rfl, by simp, ?_⟩
        rw [List.take_succ_cons, List.take_zero, List.take_zero, hnext]
        exact hrow
      . exact hlater e he

end Transfer

namespace World

/--
An operation that fails, in whatever way, leaves all tables and all records as they were. An import that
returns has gone through its rows in order, and each row that it returns as an error leaves them as they
were before the row.
-/
theorem store_of_failure (source : Source) (w : World) :
    (∀ r lookUp e, ((Tables.create r lookUp).run source w).1 = .error e →
      ((Tables.create r lookUp).run source w).2.store = w.store) ∧
    (∀ tableId (job : Work) e, ((job.program tableId).run source w).1 = .error e →
      ((job.program tableId).run source w).2.store = w.store) ∧
    (∀ settings tableId rows actor result,
      ((Transfer.importRows settings tableId rows actor).run source w).1 = .ok result →
      ∃ table, w.store.table? tableId = some table ∧
        let dropped := Transfer.droppedColumns table
        let before (i : Nat) := Transfer.worldAfter source tableId dropped actor w (rows.take i)
        before rows.length = ((Transfer.importRows settings tableId rows actor).run source w).2 ∧
        ∀ e ∈ result.errors, ∃ (i : Nat) (row : Value) (report : Report), rows[i]? = some row ∧
          e = ⟨settings.importHeaderOffset + i, report.message⟩ ∧
          (Transfer.importRow tableId dropped row actor).run source (before i) =
            (.ok (some report), before (i + 1)) ∧
          (before (i + 1)).store = (before i).store) := by
  refine ⟨?_, ?_, ?_⟩
  . intro r lookUp e herror
    exact store_run_of_error (Tables.writesLast_create r lookUp) source w herror
  . intro tableId job e herror
    exact store_run_of_isGuarded (job.isGuarded_program tableId) source w herror
  . intro settings tableId rows actor result hresult
    have hrun : (Transfer.importRows settings tableId rows actor).run source w = (.ok result, _) :=
      Prod.ext hresult rfl
    obtain ⟨table, v, hload, hrows⟩ := run_bind_ok.mp hrun
    obtain ⟨-, htable, rfl⟩ := requireTable_ok hload
    obtain ⟨hworld, herrors⟩ := Transfer.importFrom_ok hrows
    refine ⟨table, htable, ?_, ?_⟩
    . dsimp only
      rwa [List.take_length]
    . intro e he
      obtain ⟨i, row, report, hrow, heq, hrow'⟩ := herrors e he
      exact ⟨i, row, report, hrow, heq, hrow', Transfer.store_of_report hrow'⟩

theorem store_of_failure_of_rows :
    let field : Field :=
      { id := "f", name := "name", displayName := "Name", type := .text, unique := some true }
    let table : Table :=
      { id := "t", tenantId := "x", name := "users", displayName := "Users", fields := [field]
        createdAt := default, updatedAt := default }
    let w : World := { store := { isReady := true, tables := [table] } }
    let job : Work := .insert (.map [("name", .text "Ada"), ("since", .date default)]) .null
    let ada : Value := .map [("name", .text "Ada")]
    let rows := [ada, ada, .map [("name", .text "Bo")]]
    let before (i : Nat) := Transfer.worldAfter .sample "t" (Transfer.droppedColumns table) .null w
      (rows.take i)
    ((job.program "t").run .sample w).1 = .error (.storage .statement) ∧
      ((job.program "t").run .sample w).2.store = w.store ∧
      (((Transfer.importRows {} "t" rows .null).run .sample w).2.store.live "t").map (·.data) =
        [[("name", .text "Ada")], [("name", .text "Bo")]] ∧
      ∃ i : Nat, (3 : Int) = 2 + i ∧ (before (i + 1)).store = (before i).store := by
  intro field table w job ada rows before
  obtain ⟨-, hwork, hrows⟩ := store_of_failure .sample w
  have hfails : ((job.program "t").run .sample w).1 = .error (.storage .statement) := by
    decide +kernel
  have hreturns : ((Transfer.importRows {} "t" rows .null).run .sample w).1 =
      .ok ⟨2, [⟨3, "Value \"Ada\" for field \"Name\" already exists"⟩]⟩ := by
    decide +kernel
  obtain ⟨found, hfound, -, herrors⟩ := hrows {} "t" rows .null _ hreturns
  obtain rfl : table = found := by simpa [w, Store.table?, table] using hfound
  obtain ⟨i, _, _, -, herror, -, hstore⟩ := herrors _ (List.mem_singleton_self _)
  exact ⟨hfails, hwork "t" job _ hfails, by decide +kernel, i,
    congrArg ImportRowError.row herror, hstore⟩

end World
end TenantTables
