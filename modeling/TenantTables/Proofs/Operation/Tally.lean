import TenantTables.Proofs.Operation.Conform
import TenantTables.Proofs.Operation.Failure
import TenantTables.Proofs.Operation.Insert
import TenantTables.Proofs.Query.Page

namespace TenantTables

open Program

namespace Work

def isInsert : Work → Bool
  | .insert .. => true
  | _ => false

def isDeletion : Work → Bool
  | .softDelete _ => true
  | _ => false

end Work

namespace Transfer

def rowsTaken (source : Source) (tableId : String) (dropped : List String) (actor : Value) :
    World → List Value → Nat
  | _, [] => 0
  | w, row :: rows =>
    match (importRow tableId dropped row actor).run source w with
    | (.ok none, v) => rowsTaken source tableId dropped actor v rows + 1
    | (.ok (some _), v) => rowsTaken source tableId dropped actor v rows
    | (.error _, _) => 0

def taken (source : Source) (w : World) (tableId : String) (rows : List Value) (actor : Value) : Nat :=
  match w.store.table? tableId with
  | some table => rowsTaken source tableId (droppedColumns table) actor w rows
  | none => 0

end Transfer

namespace Operation

def inserts (source : Source) (tableId : String) (w : World) : Operation → Nat
  | .createTable .. => 0
  | .work id job => (job.isInsert && id == tableId && ((job.program id).run source w).1.isOk).toNat
  | .importRows _ id rows actor => if id = tableId then Transfer.taken source w id rows actor else 0
  | .importText _ id text actor =>
    match Sheet.read text with
    | .ok rows => if id = tableId then Transfer.taken source w id (rows.map .map) actor else 0
    | .error _ => 0

def deletes (source : Source) (tableId : String) (w : World) : Operation → Nat
  | .work id job => (job.isDeletion && id == tableId && ((job.program id).run source w).1.isOk).toNat
  | .createTable .. | .importRows .. | .importText .. => 0

end Operation

def World.tally (source : Source) (amount : World → Operation → Nat) : World → List Operation → Nat
  | _, [] => 0
  | w, op :: ops => amount w op + tally source amount (op.program.run source w).2 ops

section Balance

variable {source : Source} {w w' : World} {tableId : String}

theorem Records.length_live_of_inserted (hkeyed : w.IsKeyed source) {table : Table} {payload : Value}
    {r : Record} (h : Records.Inserted source w w' table payload r) (tableId : String) :
    (w'.store.live tableId).length = (w.store.live tableId).length + (table.id == tableId).toNat := by
  obtain ⟨new, -, hlive⟩ := Records.live_of_inserted hkeyed.fresh h tableId
  rw [hlive, List.length_append]
  by_cases hid : table.id = tableId <;> simp [hid]

theorem Work.length_live_of_done (hkeyed : w.IsKeyed source) {id : String} {job : Work} {answer : Answer}
    (h : Work.Done source w w' id job answer) (tableId : String) :
    (w'.store.live tableId).length + (job.isDeletion && id == tableId).toNat =
      (w.store.live tableId).length + (job.isInsert && id == tableId).toNat := by
  cases h with
  | unchanged _ _ _ _ hsame => simp [hsame, isDeletion, isInsert]
  | edited hedit hedited _ =>
    obtain ⟨new, -, -, hstore⟩ := hedited.store
    rw [hstore, Store.live_putTable]
    cases hedit <;> rfl
  | inserted htable hinserted =>
    rw [Records.length_live_of_inserted hkeyed hinserted, Store.table?_id htable]
    rfl
  | @updated _ _ _ table old r htable hupdated =>
    obtain ⟨hfound, new, hkept, hstore⟩ := hupdated.store
    obtain ⟨_, hshape⟩ := hupdated.shape
    obtain ⟨hnewTable, -, hdeleted⟩ := Store.kept_of_some hfound hkept
    have hlive : new.isLiveIn tableId = old.isLiveIn tableId := by
      rw [Record.isLiveIn, Record.isLiveIn, hnewTable, hdeleted, hshape]
      rfl
    rw [← Store.kept_id hkept] at hfound
    have hlength := Store.length_live_putRecord_of_some hkeyed.nodup hfound tableId
    rw [hlive, ← hstore] at hlength
    simp only [isDeletion, isInsert, Bool.false_and, Bool.toNat_false]
    omega
  | @deleted _ old r hdeleted =>
    obtain ⟨hfound, new, hkept, hstore⟩ := hdeleted.store
    obtain ⟨-, -, hnewDeleted⟩ := Store.kept_of_some hfound hkept
    have hold : old.isLiveIn tableId = (id == tableId) := by
      rw [Record.isLiveIn, hdeleted.belongs, hdeleted.alive]
      exact Bool.and_true _
    have hnew : new.isLiveIn tableId = false := by
      rw [Record.isLiveIn, hnewDeleted, hdeleted.shape]
      exact Bool.and_false _
    rw [← Store.kept_id hkept] at hfound
    have hlength := Store.length_live_putRecord_of_some hkeyed.nodup hfound tableId
    rw [hold, hnew, ← hstore] at hlength
    simpa [isDeletion, isInsert] using hlength

theorem Work.length_live_run (hkeyed : w.IsKeyed source) (id : String) (job : Work) (tableId : String) :
    (((job.program id).run source w).2.store.live tableId).length +
        (job.isDeletion && id == tableId && ((job.program id).run source w).1.isOk).toNat =
      (w.store.live tableId).length +
        (job.isInsert && id == tableId && ((job.program id).run source w).1.isOk).toNat := by
  rcases hrun : (job.program id).run source w with ⟨e | answer, w'⟩
  . rw [Work.store_of_error hrun]
    simp [Except.isOk, Except.toBool]
  . simpa [Except.isOk, Except.toBool] using length_live_of_done hkeyed (done_of_run hrun) tableId

namespace Transfer

variable {dropped : List String} {actor : Value}

theorem isKeyed_importRow (hkeyed : w.IsKeyed source) (id : String) (row : Value) :
    ((importRow id dropped row actor).run source w).2.IsKeyed source := by
  have hchanges : (importRow id dropped row actor).Changes source fun _ _ => True :=
    changes_importRow fun _ _ _ => trivial
  exact hchanges (·.IsKeyed source) (fun _ _ => World.isKeyed_change) w hkeyed

theorem length_live_importFrom (hkeyed : w.IsKeyed source) (id : String) (number : Int) (rows : List Value)
    (tableId : String) :
    (((importFrom id dropped actor number rows).run source w).2.store.live tableId).length =
      (w.store.live tableId).length +
        if id = tableId then rowsTaken source id dropped actor w rows else 0 := by
  induction rows generalizing w number with
  | nil => simp [importFrom, rowsTaken]
  | cons row rows ih =>
    have hkeyed' : ((importRow id dropped row actor).run source w).2.IsKeyed source :=
      isKeyed_importRow hkeyed id row
    have hcases := importRow_cases source w id dropped row actor
    rw [importFrom, run_bind, rowsTaken]
    rcases hrow : (importRow id dropped row actor).run source w with ⟨e | report, v⟩
    . rw [hrow] at hcases
      rcases hcases with ⟨_, _, _, _, hnone, -⟩ | ⟨-, hstore⟩
      . simp at hnone
      . dsimp only at hstore ⊢
        rw [hstore, ite_self, Nat.add_zero]
    . rw [hrow] at hcases hkeyed'
      dsimp only
      rw [world_run_map, ih hkeyed' (number + 1)]
      rcases hcases with ⟨_, table, _, _, hnone, htable, hinserted⟩ | ⟨hsome, hstore⟩
      . obtain ⟨rfl, rfl⟩ : report = none ∧ v = _ := by simpa using hnone
        rw [Records.length_live_of_inserted hkeyed hinserted, Store.table?_id htable]
        by_cases hid : id = tableId <;> simp [hid]
        omega
      . cases report with
        | none => simp at hsome
        | some report =>
          dsimp only at hstore ⊢
          rw [hstore]

theorem length_live_importRows (hkeyed : w.IsKeyed source) (hready : w.store.isReady = true)
    (settings : Settings) (id : String) (rows : List Value) (actor : Value) (tableId : String) :
    (((importRows settings id rows actor).run source w).2.store.live tableId).length =
      (w.store.live tableId).length + if id = tableId then taken source w id rows actor else 0 := by
  rw [importRows, run_bind, taken]
  cases htable : w.store.table? id with
  | some table =>
    rw [run_requireTable hready htable]
    exact length_live_importFrom hkeyed id _ rows tableId
  | none =>
    have hstore := store_run_of_reads (reads_requireTable id) source w
    rcases hload : (requireTable id).run source w with ⟨e | table, v⟩
    . rw [hload] at hstore
      dsimp only at hstore ⊢
      rw [hstore, ite_self, Nat.add_zero]
    . rw [(requireTable_ok hload).2.1] at htable
      contradiction

theorem imported_of_importFrom {id : String} {number : Int} {rows : List Value} {result : ImportResult}
    (h : (importFrom id dropped actor number rows).run source w = (.ok result, w')) :
    result.imported = rowsTaken source id dropped actor w rows := by
  induction rows generalizing w number result with
  | nil =>
    obtain ⟨rfl, -⟩ := run_pure_ok.mp h
    rfl
  | cons row rows ih =>
    obtain ⟨report, v, hrow, h⟩ := run_bind_ok.mp h
    obtain ⟨rest, hrest, rfl⟩ := run_map_ok.mp h
    have himported := ih hrest
    rw [rowsTaken, hrow]
    cases report with
    | none => exact congrArg (· + 1) himported
    | some report => exact himported

end Transfer

theorem Operation.length_live_run (hkeyed : w.IsKeyed source) (hready : w.store.isReady = true) (op : Operation)
    (tableId : String) :
    ((op.program.run source w).2.store.live tableId).length + op.deletes source tableId w =
      (w.store.live tableId).length + op.inserts source tableId w := by
  cases op with
  | createTable r lookUp =>
    rw [program, world_run_map, deletes, inserts, Nat.add_zero, Nat.add_zero]
    rcases hrun : (Tables.create r lookUp).run source w with ⟨e | t, w'⟩
    . have hstore := store_run_of_error (Tables.writesLast_create r lookUp) source w (congrArg Prod.fst hrun)
      rw [hrun] at hstore
      exact congrArg (fun s : Store => (s.live tableId).length) hstore
    . obtain ⟨-, new, -, -, hstore⟩ := (Tables.create_ok hrun).store
      rw [hstore, Store.live_putTable]
  | work id job => exact Work.length_live_run hkeyed id job tableId
  | importRows settings id rows actor =>
    rw [program, world_run_map, deletes, inserts]
    exact Transfer.length_live_importRows hkeyed hready settings id rows actor tableId
  | importText settings id text actor =>
    rw [program, world_run_map, deletes, inserts, Transfer.importText]
    cases hread : Sheet.read text with
    | error e => simp [run_bind, Except.mapError]
    | ok rows => exact Transfer.length_live_importRows hkeyed hready settings id (rows.map .map) actor tableId

theorem World.isReady_after (hready : w.store.isReady = true) (ops : List Operation) :
    (w.after source ops).store.isReady = true :=
  after_keeps (P := fun v => v.store.isReady = true)
    (fun _ _ _ _ _ hchange hv => (puts_of_change hchange).1.trans hv) hready

theorem World.length_live_after (hkeyed : w.IsKeyed source) (hready : w.store.isReady = true)
    (ops : List Operation) (tableId : String) :
    ((w.after source ops).store.live tableId).length + w.tally source (Operation.deletes source tableId) ops =
      (w.store.live tableId).length + w.tally source (Operation.inserts source tableId) ops := by
  induction ops generalizing w with
  | nil => rfl
  | cons op ops ih =>
    have hkeyed' := op.changes_program (IsKeyed source) (fun _ _ => isKeyed_change) w hkeyed
    have hready' : (op.program.run source w).2.store.isReady = true := isReady_after hready [op]
    have hfirst := op.length_live_run hkeyed hready tableId
    have hrest := ih hkeyed' hready'
    rw [tally, tally, after, List.foldl_cons]
    rw [after] at hrest
    omega

end Balance

section Counts

variable (source : Source) {w : World} {tableId : String}

theorem Tables.run_list (hready : w.store.isReady = true) (tenantId : String) :
    (list tenantId).run source w =
      (.ok ((w.store.tablesOf tenantId).map fun t => ⟨t, (w.store.live t.id).length⟩), w) := by
  refine run_bind_ok.mpr ⟨_, w, run_tablesOf_ok.mpr ⟨hready, rfl, rfl⟩, ?_⟩
  refine run_bind_ok.mpr ⟨_, w, run_liveCounts_ok.mpr ⟨Store.liveCounts_eq hready _, rfl⟩, ?_⟩
  rw [run_pure, Prod.mk.injEq, Except.ok.injEq]
  refine ⟨?_, rfl⟩
  apply List.map_congr_left
  intro t ht
  obtain ⟨counts, hcounts, hcount⟩ :=
    Store.lookup_liveCounts hready (List.mem_map_of_mem (f := Table.id) ht)
  rw [Store.liveCounts_eq hready, Except.ok.injEq] at hcounts
  rw [hcounts, hcount]

theorem Query.found_of_nil {q : RecordQuery} (hfilters : q.filters.getD [] = []) :
    found w.store tableId q = w.store.live tableId := by
  rw [found, hfilters]
  exact List.filter_eq_self.mpr fun _ _ => rfl

theorem Query.total_of_page {settings : Settings} {request : Request RecordQuery} {q : RecordQuery}
    {p : QueryPage} (hrequest : readOptions request = .ok q) (hready : w.store.isReady = true)
    (hfilters : q.filters.getD [] = [])
    (h : ((page settings tableId request).run source w).1 = .ok p) :
    p.total = (w.store.live tableId).length := by
  have hrun : (page settings tableId request).run source w = (.ok p, _) := Prod.ext h rfl
  obtain ⟨q', hq', hrun⟩ := run_lift_bind_ok.mp hrun
  obtain rfl := Except.ok.inj (hrequest.symm.trans hq')
  obtain ⟨size, hsize, -⟩ := run_lift_bind_ok.mp hrun
  have hanswer : answer source w settings tableId q = .ok p := by rwa [page_of_readOptions hrequest] at h
  rw [answer_of_pageSize source hsize, hfilters, Store.count_nil hready] at hanswer
  obtain ⟨_, -, hanswer⟩ := Outcome.bind_eq_ok.mp hanswer
  obtain ⟨_, -, hanswer⟩ := Outcome.bind_eq_ok.mp hanswer
  obtain ⟨-, hanswer⟩ := Outcome.ite_throw_eq_ok.mp hanswer
  obtain ⟨total, htotal, hanswer⟩ := Outcome.bind_eq_ok.mp hanswer
  obtain ⟨_, -, hanswer⟩ := Outcome.bind_eq_ok.mp hanswer
  rw [← Except.ok.inj hanswer, ← Except.ok.inj htotal]

end Counts

namespace World

structure AllCount (source : Source) (w : World) (tableId : String) (n : Nat) : Prop where
  count : w.store.count tableId [] = .ok n
  select : ∃ rs, w.store.select { tableId } = .ok rs ∧ rs.length = n
  liveCounts : ∀ tableIds, tableId ∈ tableIds →
    ∃ counts, w.store.liveCounts tableIds = .ok counts ∧ (counts.lookup tableId).getD 0 = n
  list : ∀ t, w.store.table? tableId = some t →
    ∃ summaries, (Tables.list t.tenantId).run source w = (.ok summaries, w) ∧ ⟨t, n⟩ ∈ summaries
  total : ∀ settings request q, Query.readOptions request = .ok q → q.filters.getD [] = [] →
    ∀ p, ((Query.page settings tableId request).run source w).1 = .ok p → p.total = n
  page : ∀ settings request q size, (w.store.table? tableId).isSome = true →
    Query.readOptions request = .ok q → q.filters.getD [] = [] → Query.pageSize settings q = .ok size →
    1 ≤ size → size < 2 ^ 63 → 1 ≤ q.page → (q.page - 1) * size < 2 ^ 63 →
    ∃ p, ((Query.page settings tableId request).run source w).1 = .ok p ∧ p.total = n

theorem allCount_of_isReady (source : Source) {w : World} (hready : w.store.isReady = true) (tableId : String) :
    w.AllCount source tableId (w.store.live tableId).length := by
  refine ⟨Store.count_nil hready tableId, ?_, fun _ => Store.lookup_liveCounts hready, ?_, ?_, ?_⟩
  . obtain ⟨rs, hselect, hperm⟩ := Store.select_all hready tableId .createdAt true
    exact ⟨rs, hselect, hperm.length_eq⟩
  . intro t ht
    obtain rfl := Store.table?_id ht
    refine ⟨_, Tables.run_list source hready t.tenantId, List.mem_map.mpr ⟨t, ?_, rfl⟩⟩
    rw [Store.mem_tablesOf]
    exact ⟨Store.table?_mem ht, rfl⟩
  . intro settings request q hrequest hfilters p
    exact Query.total_of_page source hrequest hready hfilters
  . intro settings request q size htable hrequest hfilters hsize hpos hlt hpage hoffset
    have haccepts : Query.Accepts settings q size := by
      refine ⟨hsize, hpos, hlt, ?_, ?_⟩
      . rw [hfilters]
        rfl
      . simp [hfilters]
    have hanswer := Query.answer_of_isReadable source haccepts hready htable (.inl hfilters) hpage hoffset
    rw [Query.found_of_nil hfilters] at hanswer
    rw [Query.page_of_readOptions hrequest]
    exact ⟨_, hanswer, rfl⟩

/--
All counts of live records agree after every history, and there are as many as were inserted, also by imports,
less those that were deleted. The list of the tables of a tenant has each of them once and no others. And
what an import tells is the number of rows that it has inserted.
-/
theorem counts_agree (source : Source) (hids : Function.Injective source.identifiers) (ops : List Operation) :
    let w : World := { store := { isReady := true } }
    let v := w.after source ops
    (∀ tableId, ∃ n, v.AllCount source tableId n ∧
      n + w.tally source (Operation.deletes source tableId) ops =
        w.tally source (Operation.inserts source tableId) ops) ∧
    (∀ tenantId, ∃ summaries, (Tables.list tenantId).run source v = (.ok summaries, v) ∧
      (summaries.map (·.table.id)).Nodup ∧
      ∀ t, t ∈ summaries.map (·.table) ↔ t ∈ v.store.tables ∧ t.tenantId = tenantId) ∧
    ∀ settings tableId rows actor result,
      ((Transfer.importRows settings tableId rows actor).run source v).1 = .ok result →
      result.imported = Transfer.taken source v tableId rows actor := by
  intro w v
  have hw : w.Reachable source := ⟨true, [], rfl⟩
  have hkeyed : w.IsKeyed source := isKeyed_of_reachable hids hw
  have horderly : v.IsOrderly source := isOrderly_of_reachable hids (reachable_after hw ops)
  have hready : v.store.isReady = true := isReady_after rfl ops
  refine ⟨?_, ?_, ?_⟩
  . intro tableId
    refine ⟨_, allCount_of_isReady source hready tableId, ?_⟩
    have hbalance := length_live_after hkeyed rfl ops tableId
    have hnone : (w.store.live tableId).length = 0 := rfl
    rwa [hnone, Nat.zero_add] at hbalance
  . intro tenantId
    refine ⟨_, Tables.run_list source hready tenantId, ?_, ?_⟩
    . rw [List.map_map]
      exact Store.nodup_tablesOf horderly.ids tenantId
    . intro t
      rw [List.map_map, ← Store.mem_tablesOf]
      simp
  . intro settings tableId rows actor result hresult
    have hrun : (Transfer.importRows settings tableId rows actor).run source v = (.ok result, _) :=
      Prod.ext hresult rfl
    obtain ⟨table, u, hload, hrows⟩ := run_bind_ok.mp hrun
    obtain ⟨-, htable, rfl⟩ := requireTable_ok hload
    rw [Transfer.taken, htable]
    exact Transfer.imported_of_importFrom hrows

theorem counts_agree_of_import :
    let ops : List Operation := [
      .createTable
        { tenantId := .text "x", name := .text "points", displayName := .text "Points" } true,
      .work "i" (.addField (.ready { name := "n", displayName := "N", type := .number })),
      .work "i" (.insert (.map [("n", .int 1)]) .null),
      .importRows {} "i" [.map [("n", .int 2)], .map [("n", .text "x")], .map [("n", .int 3)]] .null,
      .work "i" (.softDelete "iii")]
    let w : World := { store := { isReady := true } }
    w.tally .sample (Operation.inserts .sample "i") ops = 3 ∧
      w.tally .sample (Operation.deletes .sample "i") ops = 1 ∧
      (w.after .sample ops).AllCount .sample "i" 2 := by
  intro ops w
  have hinserts : w.tally .sample (Operation.inserts .sample "i") ops = 3 := by decide +kernel
  have hdeletes : w.tally .sample (Operation.deletes .sample "i") ops = 1 := by decide +kernel
  obtain ⟨n, hcount, hbalance⟩ := (counts_agree .sample Source.sample_injective ops).1 "i"
  rw [hinserts, hdeletes] at hbalance
  obtain rfl : n = 2 := by omega
  exact ⟨hinserts, hdeletes, hcount⟩

end World
end TenantTables
