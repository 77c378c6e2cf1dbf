import TenantTables.Proofs.Operation.Orderly

namespace TenantTables

open Program

def ImportResult.append (first second : ImportResult) : ImportResult where
  imported := first.imported + second.imported
  errors := first.errors ++ second.errors

def ImportResult.shift (n : Int) (result : ImportResult) : ImportResult where
  imported := result.imported
  errors := result.errors.map fun e => { e with row := e.row + n }

theorem Failure.message_of_report {e : Failure} {report : Report} (h : e.report? = some report) :
    report.message = e.message := by
  cases e <;> simp_all only [report?, Option.some.injEq, reduceCtorEq] <;> subst h <;> rfl

namespace Transfer

def insertRow (tableId : String) (dropped : List String) (actor : Value) (row : Entries) : Program Record :=
  Records.insert tableId (.map (row.filter fun e => !dropped.contains e.1)) actor

def leftBy (source : Source) (tableId : String) (dropped : List String) (actor : Value) (w : World)
    (rows : List Entries) : World :=
  rows.foldl (fun w row => ((insertRow tableId dropped actor row).run source w).2) w

/--
A result accounts for rows that are counted from a number on. Each row is imported or has one error, under its number
and with the message that its insert fails with after those of the rows before it, and in the end there is what the
inserts leave.
-/
structure Accounts (source : Source) (tableId : String) (dropped : List String) (actor : Value) (w : World)
    (number : Int) (rows : List Entries) (result : ImportResult) (w' : World) : Prop where
  counted : result.imported + result.errors.length = rows.length
  rising : result.errors.Pairwise fun e e' => e.row < e'.row
  numbered : ∀ e ∈ result.errors, ∃ i : Nat, i < rows.length ∧ e.row = number + i
  reported : ∀ (i : Nat) (row : Entries), rows[i]? = some row → ∀ message,
    ⟨number + i, message⟩ ∈ result.errors ↔
      ∃ e, ((insertRow tableId dropped actor row).run source
          (leftBy source tableId dropped actor w (rows.take i))).1 = .error e ∧ e.message = message
  final : leftBy source tableId dropped actor w rows = w'

variable {source : Source} {tableId : String} {dropped : List String} {actor : Value} {w v w' : World} {number : Int}
  {row : Entries} {rows : List Entries} {rest : ImportResult}

section Rows

theorem leftBy_cons (source : Source) (tableId : String) (dropped : List String) (actor : Value) (w : World)
    (row : Entries) (rows : List Entries) :
    leftBy source tableId dropped actor w (row :: rows) =
      leftBy source tableId dropped actor ((insertRow tableId dropped actor row).run source w).2 rows := rfl

theorem run_importRow_map (source : Source) (w : World) (tableId : String) (dropped : List String) (actor : Value)
    (row : Entries) :
    (importRow tableId dropped (.map row) actor).run source w =
      (match ((insertRow tableId dropped actor row).run source w).1 with
        | .ok _ => .ok none
        | .error e => match e.report? with
          | some report => .ok (some report)
          | none => .error e,
        ((insertRow tableId dropped actor row).run source w).2) := by
  have hinsert : (do
      let payload ← rowPayload dropped (.map row)
      Records.insert tableId (.map payload) actor : Program Record) = insertRow tableId dropped actor row := rfl
  rw [importRow, hinsert, run_bind, run_attempt]
  rcases ((insertRow tableId dropped actor row).run source w).1 with e | r
  . dsimp only
    cases e.report? <;> rfl
  . rfl

theorem importRow_none (h : (importRow tableId dropped (.map row) actor).run source w = (.ok none, v)) :
    ∃ r, (insertRow tableId dropped actor row).run source w = (.ok r, v) := by
  rw [run_importRow_map] at h
  rcases hrun : (insertRow tableId dropped actor row).run source w with ⟨e | r, v'⟩
  . rw [hrun] at h
    dsimp only at h
    split at h <;> simp at h
  . rw [hrun] at h
    obtain rfl : v' = v := congrArg Prod.snd h
    exact ⟨r, rfl⟩

theorem importRow_some {report : Report}
    (h : (importRow tableId dropped (.map row) actor).run source w = (.ok (some report), v)) :
    ∃ e, (insertRow tableId dropped actor row).run source w = (.error e, v) ∧ report.message = e.message := by
  rw [run_importRow_map] at h
  rcases hrun : (insertRow tableId dropped actor row).run source w with ⟨e | r, v'⟩
  . rw [hrun] at h
    obtain rfl : v' = v := congrArg Prod.snd h
    dsimp only at h
    split at h
    . next report' hreport =>
      obtain rfl : report' = report := by simpa using h
      exact ⟨e, rfl, Failure.message_of_report hreport⟩
    . simp at h
  . rw [hrun] at h
    simp at h

end Rows

section Account

theorem Accounts.nil : Accounts source tableId dropped actor w number [] { imported := 0 } w where
  counted := rfl
  rising := .nil
  numbered := by simp
  reported := by simp
  final := rfl

theorem Accounts.lt_row (h : Accounts source tableId dropped actor v (number + 1) rows rest w') :
    ∀ e ∈ rest.errors, number < e.row := by
  intro e he
  obtain ⟨i, -, hrow⟩ := h.numbered e he
  omega

theorem Accounts.numbered_cons (h : Accounts source tableId dropped actor v (number + 1) rows rest w') :
    ∀ e ∈ rest.errors, ∃ i : Nat, i < (row :: rows).length ∧ e.row = number + i := by
  intro e he
  obtain ⟨i, hi, hrow⟩ := h.numbered e he
  exact ⟨i + 1, by simpa using hi, by omega⟩

theorem Accounts.reported_succ (h : Accounts source tableId dropped actor v (number + 1) rows rest w')
    (hv : ((insertRow tableId dropped actor row).run source w).2 = v) {i : Nat} {later : Entries}
    (hlater : rows[i]? = some later) (message : String) :
    ⟨number + (i + 1 : Nat), message⟩ ∈ rest.errors ↔
      ∃ e, ((insertRow tableId dropped actor later).run source
          (leftBy source tableId dropped actor w ((row :: rows).take (i + 1)))).1 = .error e ∧
        e.message = message := by
  rw [List.take_succ_cons, leftBy_cons, hv, ← h.reported i later hlater message]
  have hnumber : number + (i + 1 : Nat) = number + 1 + i := by omega
  rw [hnumber]

theorem Accounts.cons_inserted {r : Record} (hrow : (insertRow tableId dropped actor row).run source w = (.ok r, v))
    (h : Accounts source tableId dropped actor v (number + 1) rows rest w') :
    Accounts source tableId dropped actor w number (row :: rows) { rest with imported := rest.imported + 1 } w' where
  counted := by
    have hcounted := h.counted
    simp only [List.length_cons]
    omega
  rising := h.rising
  numbered := h.numbered_cons
  reported := by
    intro i later hlater message
    cases i with
    | zero =>
      obtain rfl : row = later := by simpa using hlater
      constructor
      . intro herror
        have hlt := h.lt_row _ herror
        simp at hlt
      . rintro ⟨e, herror, -⟩
        simp [leftBy, hrow] at herror
    | succ i => exact h.reported_succ (congrArg Prod.snd hrow) (by simpa using hlater) message
  final := by rw [leftBy_cons, hrow, h.final]

theorem Accounts.cons_failed {e : Failure} (hrow : (insertRow tableId dropped actor row).run source w = (.error e, v))
    (h : Accounts source tableId dropped actor v (number + 1) rows rest w') :
    Accounts source tableId dropped actor w number (row :: rows)
      { rest with errors := ⟨number, e.message⟩ :: rest.errors } w' where
  counted := by
    have hcounted := h.counted
    simp only [List.length_cons]
    omega
  rising := List.pairwise_cons.mpr ⟨h.lt_row, h.rising⟩
  numbered := by
    rw [List.forall_mem_cons]
    exact ⟨⟨0, by simp, by simp⟩, h.numbered_cons⟩
  reported := by
    intro i later hlater message
    rw [List.mem_cons]
    cases i with
    | zero =>
      obtain rfl : row = later := by simpa using hlater
      have hnone : (⟨number, message⟩ : ImportRowError) ∉ rest.errors :=
        fun herror => Int.lt_irrefl _ (h.lt_row _ herror)
      simp [leftBy, hrow, hnone, eq_comm]
    | succ i =>
      have hne : (⟨number + (i + 1 : Nat), message⟩ : ImportRowError) ≠ ⟨number, e.message⟩ := by
        intro heq
        have hnumber := congrArg ImportRowError.row heq
        simp only at hnumber
        omega
      rw [or_iff_right hne]
      exact h.reported_succ (congrArg Prod.snd hrow) (by simpa using hlater) message
  final := by rw [leftBy_cons, hrow, h.final]

theorem accounts_of_importFrom {result : ImportResult}
    (h : (importFrom tableId dropped actor number (rows.map .map)).run source w = (.ok result, w')) :
    Accounts source tableId dropped actor w number rows result w' := by
  induction rows generalizing number w result with
  | nil =>
    obtain ⟨rfl, rfl⟩ := run_pure_ok.mp h
    exact .nil
  | cons row rows ih =>
    rw [List.map_cons, importFrom] at h
    obtain ⟨report, v, hrow, h⟩ := run_bind_ok.mp h
    obtain ⟨rest, v', hrest, h⟩ := run_bind_ok.mp h
    obtain ⟨rfl, rfl⟩ := run_pure_ok.mp h
    cases report with
    | none =>
      obtain ⟨r, hinsert⟩ := importRow_none hrow
      exact (ih hrest).cons_inserted hinsert
    | some report =>
      obtain ⟨e, hinsert, hmessage⟩ := importRow_some hrow
      have hfailed := (ih hrest).cons_failed hinsert
      rwa [← hmessage] at hfailed

end Account

section Append

theorem importFrom_append (tableId : String) (dropped : List String) (actor : Value) (number : Int)
    (rows more : List Value) :
    importFrom tableId dropped actor number (rows ++ more) = (do
      let first ← importFrom tableId dropped actor number rows
      let second ← importFrom tableId dropped actor (number + rows.length) more
      return first.append second) := by
  induction rows generalizing number with
  | nil => simp [importFrom, ImportResult.append]
  | cons row rows ih =>
    have hnumber : number + 1 + (rows.length : Int) = number + ((row :: rows).length : Int) := by
      rw [List.length_cons]
      omega
    rw [List.cons_append, importFrom, importFrom, ih, hnumber]
    simp only [bind_assoc, pure_bind]
    congr
    funext report
    congr
    funext first
    congr
    funext second
    cases report with
    | none => simp only [ImportResult.append, Int.add_right_comm]
    | some report => rfl

theorem importFrom_shift (tableId : String) (dropped : List String) (actor : Value) (number n : Int)
    (rows : List Value) :
    importFrom tableId dropped actor (number + n) rows = (do
      let result ← importFrom tableId dropped actor number rows
      return result.shift n) := by
  induction rows generalizing number with
  | nil => simp [importFrom, ImportResult.shift]
  | cons row rows ih =>
    have hnumber : number + n + 1 = number + 1 + n := by omega
    rw [importFrom, importFrom, hnumber, ih]
    simp only [bind_assoc, pure_bind]
    congr
    funext report
    congr
    funext result
    cases report <;> simp [ImportResult.shift]

theorem run_importRows {settings : Settings} {table : Table} (hready : w.store.isReady = true)
    (hfound : w.store.table? tableId = some table) (rows : List Value) :
    (importRows settings tableId rows actor).run source w =
      (importFrom tableId (droppedColumns table) actor settings.importHeaderOffset rows).run source w := by
  rw [importRows, run_bind, run_requireTable hready hfound]

theorem run_importRows_append (source : Source) (w : World) (settings : Settings) (tableId : String) (actor : Value)
    (rows more : List Value) :
    (importRows settings tableId (rows ++ more) actor).run source w =
      (do
        let first ← importRows settings tableId rows actor
        let second ← importRows settings tableId more actor
        return first.append (second.shift rows.length) : Program ImportResult).run source w := by
  rcases hload : (requireTable tableId).run source w with ⟨e | table, v⟩
  . simp only [importRows, run_bind, hload]
  . obtain ⟨hready, hfound, -⟩ := requireTable_ok hload
    obtain ⟨htables, hready'⟩ :=
      tables_run_of_uses (sparesTables_importRows settings tableId rows actor) source w
    rw [run_importRows hready hfound, importFrom_append, run_bind, run_bind, ← run_importRows hready hfound]
    rcases hfirst : (importRows settings tableId rows actor).run source w with ⟨e | first, v⟩
    . rfl
    . rw [hfirst] at htables hready'
      have hfound' : v.store.table? tableId = some table := by
        rwa [Store.table?, htables]
      simp only [importFrom_shift, bind_assoc, pure_bind]
      rw [run_bind, run_bind, ← run_importRows (hready'.trans hready) hfound']

end Append

/--
Whenever an import returns, its result accounts for all of its rows. To import rows in two parts is to import them at
once, but for the row numbers of the second part.
-/
theorem importRows_accounts (source : Source) (w : World) (settings : Settings) (tableId : String) (actor : Value)
    (rows : List Entries) :
    (∀ result, ((importRows settings tableId (rows.map .map) actor).run source w).1 = .ok result →
      ∃ table, w.store.table? tableId = some table ∧
        Accounts source tableId (droppedColumns table) actor w settings.importHeaderOffset rows result
          ((importRows settings tableId (rows.map .map) actor).run source w).2) ∧
    ∀ more : List Entries,
      (importRows settings tableId ((rows ++ more).map .map) actor).run source w =
        (do
          let first ← importRows settings tableId (rows.map .map) actor
          let second ← importRows settings tableId (more.map .map) actor
          return first.append (second.shift rows.length) : Program ImportResult).run source w := by
  refine ⟨fun result hresult => ?_, fun more => ?_⟩
  . have hrun : (importRows settings tableId (rows.map .map) actor).run source w = (.ok result, _) :=
      Prod.ext hresult rfl
    obtain ⟨table, v, hload, hrows⟩ := run_bind_ok.mp hrun
    obtain ⟨-, hfound, rfl⟩ := requireTable_ok hload
    exact ⟨table, hfound, accounts_of_importFrom hrows⟩
  . rw [List.map_append, run_importRows_append, List.length_map]

theorem importRows_accounts_of_repeat :
    let field : Field := { id := "f", name := "name", displayName := "Name", type := .text, unique := some true }
    let table : Table :=
      { id := "t", tenantId := "x", name := "users", displayName := "Users", fields := [field]
        createdAt := default, updatedAt := default }
    let w : World := { store := { isReady := true, tables := [table] } }
    let rows : List Entries :=
      [[("id", .int 1), ("name", .text "Ada")], [("name", .text "Ada")], [("name", .text "Bo")]]
    let message := "Value \"Ada\" for field \"Name\" already exists"
    ((importRows {} "t" (rows.map .map) .null).run .sample w).1 = .ok ⟨2, [⟨3, message⟩]⟩ ∧
      ∃ e, ((insertRow "t" (droppedColumns table) .null [("name", .text "Ada")]).run .sample
        (leftBy .sample "t" (droppedColumns table) .null w (rows.take 1))).1 = .error e ∧ e.message = message := by
  intro field table w rows message
  have hreturns : ((importRows {} "t" (rows.map .map) .null).run .sample w).1 = .ok ⟨2, [⟨3, message⟩]⟩ := by
    decide +kernel
  obtain ⟨found, hfound, haccounts⟩ :=
    (importRows_accounts .sample w {} "t" .null rows).1 _ hreturns
  obtain rfl : table = found := by simpa [w, Store.table?, table] using hfound
  exact ⟨hreturns, (haccounts.reported 1 _ rfl message).mp List.mem_cons_self⟩

end Transfer
end TenantTables
