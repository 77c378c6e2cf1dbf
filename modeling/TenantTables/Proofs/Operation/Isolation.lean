import TenantTables.Proofs.Operation.Activity
import TenantTables.Proofs.Operation.Tally

namespace TenantTables

open Program

namespace Call

def isAbout (tableId : String) : Call β → Bool
  | table id => id == tableId
  | select s => s.tableId == tableId
  | count id _ => id == tableId
  | liveCounts ids => ids.all (· == tableId)
  | _ => false

end Call

structure Store.SameOn (tableId : String) (s s' : Store) : Prop where
  isReady : s'.isReady = s.isReady
  table? : s'.table? tableId = s.table? tableId
  live : s'.live tableId = s.live tableId

section Views

variable {source : Source} {w w' : World} {tableId : String}

theorem World.answer_of_isAbout (source : Source) (w w' : World) {c : Call β} (hc : c.isAbout tableId = true) :
    (w.answer source c).2 = w ∧
      (w.store.SameOn tableId w'.store → (w'.answer source c).1 = (w.answer source c).1) := by
  cases c with
  | table id =>
    obtain rfl : id = tableId := eq_of_beq hc
    refine ⟨rfl, fun h => ?_⟩
    simp only [answer, answer.read, Store.requireReady, h.isReady, h.table?]
  | select s =>
    obtain rfl : s.tableId = tableId := eq_of_beq hc
    refine ⟨rfl, fun h => ?_⟩
    simp only [answer, answer.read, Store.select, Store.requireReady, h.isReady, h.live]
  | count id filters =>
    obtain rfl : id = tableId := eq_of_beq hc
    refine ⟨rfl, fun h => ?_⟩
    simp only [answer, answer.read, Store.count, Store.matching, Store.requireReady, h.isReady, h.live]
  | liveCounts ids =>
    have hids : ∀ id ∈ ids, id = tableId := by simpa [Call.isAbout] using hc
    refine ⟨rfl, fun h => ?_⟩
    have hcounts : (ids.map fun id => (id, (w'.store.live id).length)) =
        ids.map fun id => (id, (w.store.live id).length) := by
      apply List.map_congr_left
      intro id hid
      rw [hids id hid, h.live]
    simp only [answer, answer.read, Store.liveCounts, Store.requireReady, h.isReady, hcounts]
  | _ => simp [Call.isAbout] at hc

theorem Program.run_of_isAbout {p : Program α} (hp : p.Uses (Call.isAbout tableId))
    (h : w.store.SameOn tableId w'.store) : (p.run source w').1 = (p.run source w).1 := by
  induction p with
  | done r => rfl
  | call c next ih =>
    obtain ⟨hworld, hanswer⟩ := World.answer_of_isAbout source w w' hp.1
    obtain ⟨hworld', -⟩ := World.answer_of_isAbout source w' w hp.1
    show ((next (w'.answer source c).1).run source (w'.answer source c).2).1 =
      ((next (w.answer source c).1).run source (w.answer source c).2).1
    rw [hworld, hworld', hanswer h]
    exact ih _ (hp.2 _)

end Views

namespace Activity

def isAbout (tableId : String) : Activity α → Bool
  | getTable id _ => id == tableId
  | queryPage _ id _ => id == tableId
  | exportAll _ id _ => id == tableId
  | exportText _ id _ => id == tableId
  | search c _ => c.isAbout tableId
  | _ => false

theorem uses_isAbout (a : Activity α) {tableId : String} (h : a.isAbout tableId = true) :
    a.program.Uses (Call.isAbout tableId) := by
  have hexport (settings : Settings) (includeLegacy : Bool) :
      (Transfer.exportAll settings tableId includeLegacy).Uses (Call.isAbout tableId) :=
    Transfer.uses_exportAll (beq_self_eq_true _) (fun _ hs => beq_iff_eq.mpr hs) settings includeLegacy
  cases a with
  | getTable id tenantId =>
    obtain rfl : id = tableId := eq_of_beq h
    exact Tables.uses_get (beq_self_eq_true _) tenantId
  | queryPage settings id request =>
    obtain rfl : id = tableId := eq_of_beq h
    exact Query.uses_page (beq_self_eq_true _) (fun _ => beq_self_eq_true _)
      (fun _ hs => beq_iff_eq.mpr hs) settings request
  | exportAll settings id includeLegacy =>
    obtain rfl : id = tableId := eq_of_beq h
    exact hexport settings includeLegacy
  | exportText settings id includeLegacy =>
    obtain rfl : id = tableId := eq_of_beq h
    exact uses_bind (hexport settings includeLegacy) fun _ => trivial
  | search c _ => exact uses_ask h
  | _ => simp [isAbout] at h

end Activity

namespace World

variable {source : Source} {w w' : World} {tableId : String}

theorem live_change {may : String → Work → Prop} (hmay : ∀ id job, may id job → id ≠ tableId)
    (hkeyed : w.IsKeyed source) (hchange : Change source may w w') :
    w'.store.live tableId = w.store.live tableId := by
  have hput {old new : Record} (hfound : w.store.record? new.id = some old) (hnew : new.tableId = old.tableId)
      (hother : old.tableId ≠ tableId) :
      (w.store.putRecord new).live tableId = w.store.live tableId := by
    apply Store.live_putRecord_of_not hkeyed.nodup
    . simp [Record.isLiveIn, hnew, hother]
    . intro r hr
      obtain rfl := Option.some.inj (hfound.symm.trans hr)
      simp [Record.isLiveIn, hother]
  cases hchange with
  | idle hstore => rw [hstore]
  | created hcreated =>
    obtain ⟨-, new, -, -, hstore⟩ := hcreated.store
    rw [hstore, Store.live_putTable]
  | done hdoes hdone =>
    have hother := hmay _ _ hdoes
    cases hdone with
    | unchanged _ _ _ _ hsame => rw [hsame]
    | edited _ hedited _ =>
      obtain ⟨new, -, -, hstore⟩ := hedited.store
      rw [hstore, Store.live_putTable]
    | inserted htable hinserted =>
      obtain ⟨new, -, hlive⟩ := Records.live_of_inserted hkeyed.fresh hinserted tableId
      rw [Store.table?_id htable, if_neg hother, List.append_nil] at hlive
      exact hlive
    | updated htable hupdated =>
      obtain ⟨hfound, new, hkept, hstore⟩ := hupdated.store
      rw [hstore]
      apply hput
      . rw [Store.kept_id hkept, hfound]
      . exact (Store.kept_of_some hfound hkept).1
      . rwa [hupdated.belongs, Store.table?_id htable]
    | deleted hdeleted =>
      obtain ⟨hfound, new, hkept, hstore⟩ := hdeleted.store
      rw [hstore]
      apply hput
      . rw [Store.kept_id hkept, hfound]
      . exact (Store.kept_of_some hfound hkept).1
      . rwa [hdeleted.belongs]

end World

namespace Operation

variable {source : Source} {w : World} {tableId : String}

def target (source : Source) (w : World) : Operation → String
  | createTable .. => source.identifiers w.identifiers
  | work id _ => id
  | importRows _ id _ _ => id
  | importText _ id _ _ => id

theorem live_run (hkeyed : w.IsKeyed source) (op : Operation) (hother : op.target source w ≠ tableId) :
    (op.program.run source w).2.store.live tableId = w.store.live tableId := by
  have hmay : ∀ id job, op.Does id job → id ≠ tableId := by
    intro id job hdoes
    cases hdoes <;> exact hother
  have hkeep := op.changes_program
    (fun v => v.IsKeyed source ∧ v.store.live tableId = w.store.live tableId)
    (fun v v' hle hchange hv => ⟨World.isKeyed_change hle hchange hv.1,
      (World.live_change hmay hv.1 hchange).trans hv.2⟩)
    w ⟨hkeyed, rfl⟩
  exact hkeep.2

theorem tables_run (source : Source) (w : World) (op : Operation) :
    (op.program.run source w).2.store.isReady = w.store.isReady ∧
      ((op.program.run source w).2.store.tables = w.store.tables ∨
        ∃ new, new.id = op.target source w ∧
          (op.program.run source w).2.store.tables = putKeyed Table.id new w.store.tables ∧
          ∀ old, w.store.table? new.id = some old → old.tenantId = new.tenantId) := by
  have hredefines := op.redefines_of_run source w
  generalize (op.program.run source w).1 = result at hredefines
  cases hredefines with
  | none htables hready _ _ => exact ⟨hready, .inl htables⟩
  | created hcreated =>
    obtain ⟨hnone, new, hnew, -, hstore⟩ := hcreated.store
    obtain ⟨_, _, _, _, hshape⟩ := hcreated.shape
    obtain ⟨_, _, -, -, hnewshape⟩ := Table.stored_ok hnew
    have hid : new.id = source.identifiers w.identifiers := by rw [hnewshape, hshape]
    refine ⟨by rw [hstore, Store.isReady_putTable], .inr ⟨new, hid, congrArg Store.tables hstore, ?_⟩⟩
    intro old hold
    have hsame : new.id = _ := congrArg Table.id hnewshape
    rw [hsame, hnone] at hold
    contradiction
  | revised hold hrevised =>
    refine ⟨by rw [hrevised.store, Store.isReady_putTable], .inr ⟨_,
      hrevised.id.trans (Store.table?_id hold), congrArg Store.tables hrevised.store, ?_⟩⟩
    intro old hfound
    rw [hrevised.id, Store.table?_id hold, hold] at hfound
    rw [← Option.some.inj hfound, hrevised.tenantId]

theorem sameOn_run (hkeyed : w.IsKeyed source) (op : Operation) (hother : op.target source w ≠ tableId) :
    w.store.SameOn tableId (op.program.run source w).2.store := by
  obtain ⟨hready, htables⟩ := op.tables_run source w
  refine ⟨hready, ?_, op.live_run hkeyed hother⟩
  rcases htables with hsame | ⟨new, hid, hput, -⟩
  . rw [Store.table?, hsame]
    rfl
  . rw [Store.table?, hput, find?_putKeyed, if_neg]
    . rfl
    . rw [hid]
      exact hother.symm

theorem tablesOf_run (htables : (w.store.tables.map (·.id)).Nodup) (op : Operation) {tenantId : String}
    (hother : ∀ t, (op.program.run source w).2.store.table? (op.target source w) = some t →
      t.tenantId ≠ tenantId) :
    (op.program.run source w).2.store.tablesOf tenantId = w.store.tablesOf tenantId ∧
      ∀ t ∈ w.store.tablesOf tenantId, op.target source w ≠ t.id := by
  have hfound {t : Table} (ht : t ∈ w.store.tables) : w.store.table? t.id = some t :=
    find?_of_mem Table.id htables ht
  obtain ⟨-, hsame | ⟨new, hid, hput, htenant⟩⟩ := op.tables_run source w
  . refine ⟨by rw [Store.tablesOf, hsame]; rfl, ?_⟩
    intro t ht hid
    obtain ⟨ht, htenant⟩ := Store.mem_tablesOf.mp ht
    apply hother t _ htenant
    rw [Store.table?, hsame, hid]
    exact hfound ht
  . have hnew : new.tenantId ≠ tenantId := by
      apply hother
      rw [Store.table?, hput, find?_putKeyed, if_pos hid.symm]
    refine ⟨?_, ?_⟩
    . have hfilter : (putKeyed Table.id new w.store.tables).filter (·.tenantId == tenantId) =
          w.store.tables.filter (·.tenantId == tenantId) := by
        apply filter_putKeyed_of_not
        . exact beq_false_of_ne hnew
        . intro t ht heq
          rw [htenant t (heq ▸ hfound ht)]
          exact beq_false_of_ne hnew
      rw [Store.tablesOf, hput, hfilter]
      rfl
    . intro t ht heq
      obtain ⟨ht, hsame⟩ := Store.mem_tablesOf.mp ht
      rw [← htenant t (by rw [hid, heq, hfound ht])] at hnew
      exact hnew hsame

end Operation

theorem Tables.list_congr (source : Source) {w w' : World} {tenantId : String}
    (hready : w'.store.isReady = w.store.isReady)
    (htables : w'.store.tablesOf tenantId = w.store.tablesOf tenantId)
    (hlive : ∀ t ∈ w.store.tablesOf tenantId, w'.store.live t.id = w.store.live t.id) :
    ((list tenantId).run source w').1 = ((list tenantId).run source w).1 := by
  cases h : w.store.isReady with
  | true =>
    rw [run_list source (hready.trans h), run_list source h, htables]
    apply congrArg Except.ok
    apply List.map_congr_left
    intro t ht
    rw [hlive t ht]
  | false =>
    have hfails {v : World} (hv : v.store.isReady = false) :
        ((list tenantId).run source v).1 = .error (.storage .operational) := by
      rw [list, run_bind, run_ask]
      simp [World.answer, World.answer.read, Store.requireReady, hv, Bind.bind, Except.bind]
    rw [hfails (hready.trans h), hfails h]

namespace Activity

variable {source : Source} {w : World}

def target? (source : Source) (w : World) (a : Activity α) : Option String :=
  a.operation?.map (·.target source w)

theorem sameOn_run (hkeyed : w.IsKeyed source) (a : Activity α) {tableId : String}
    (hother : a.target? source w ≠ some tableId) :
    w.store.SameOn tableId (a.program.run source w).2.store := by
  have hreads (b : Activity α) (hb : b.operation? = none) :
      w.store.SameOn tableId (b.program.run source w).2.store := by
    rw [store_run_of_reads (b.reads_program hb)]
    exact ⟨rfl, rfl, rfl⟩
  cases a with
  | operation op =>
    apply op.sameOn_run hkeyed
    rintro rfl
    exact hother rfl
  | _ => exact hreads _ rfl

theorem list_run (hkeyed : w.IsKeyed source) (htables : (w.store.tables.map (·.id)).Nodup) (a : Activity α)
    {tenantId : String}
    (hother : ∀ tableId, a.target? source w = some tableId →
      ∀ t, (a.program.run source w).2.store.table? tableId = some t → t.tenantId ≠ tenantId) :
    ((Tables.list tenantId).run source (a.program.run source w).2).1 =
      ((Tables.list tenantId).run source w).1 := by
  have hreads (b : Activity α) (hb : b.operation? = none) :
      ((Tables.list tenantId).run source (b.program.run source w).2).1 =
        ((Tables.list tenantId).run source w).1 := by
    have hstore := store_run_of_reads (b.reads_program hb) source w
    apply Tables.list_congr
    . rw [hstore]
    . rw [hstore]
    . intro t _
      rw [hstore]
  cases a with
  | operation op =>
    obtain ⟨hsame, hne⟩ := op.tablesOf_run htables (hother _ rfl)
    apply Tables.list_congr source (op.tables_run source w).1 hsame
    intro t ht
    exact op.live_run hkeyed (hne t ht)
  | _ => exact hreads _ rfl

end Activity

namespace World

/--
Tables are isolated from each other. Whatever is done to one table, or to create it, whether it succeeds or
fails, nobody who looks at another table sees a difference, and neither do the tenants that the table does not
belong to in the lists of their tables.
-/
theorem isolated_run (source : Source) {w : World} (hkeyed : w.IsKeyed source)
    (htables : (w.store.tables.map (·.id)).Nodup) (a : Activity α) :
    (∀ tableId, a.target? source w ≠ some tableId →
      ∀ {β : Type} (look : Activity β), look.isAbout tableId = true →
        (look.program.run source (a.program.run source w).2).1 = (look.program.run source w).1) ∧
    ∀ tenantId, (∀ tableId, a.target? source w = some tableId →
        ∀ t, (a.program.run source w).2.store.table? tableId = some t → t.tenantId ≠ tenantId) →
      ((Tables.list tenantId).run source (a.program.run source w).2).1 =
        ((Tables.list tenantId).run source w).1 := by
  refine ⟨?_, fun tenantId => a.list_run hkeyed htables⟩
  intro tableId hother β look hlook
  exact run_of_isAbout (look.uses_isAbout hlook) (a.sameOn_run hkeyed hother)

theorem isolated_run_of_relation :
    let table (name : String) : Operation := .createTable
      { tenantId := .text "x", name := .text name, displayName := .text name } true
    let field (tableId name : String) : Operation :=
      .work tableId (.addField (.ready { name, displayName := name, type := .text }))
    let w := World.after .sample { store := { isReady := true } } [table "pets", table "people",
      field "i" "owner", field "ii" "name", .work "ii" (.insert (.map [("name", .text "Ada")]) .null)]
    let relate : Operation := .work "i" (.createRelation
      (.ready { type := .manyToOne, toTable := "ii", fromField := "owner", toField := "name" }))
    let steal : Operation := .work "i" (.update "iiiii" (.map [("name", .text "Bo")]) .null)
    (relate.program.run .sample w).1.isOk = true ∧
      (steal.program.run .sample w).1 = .error (.foreignRecord "iiiii" "i") ∧
      ∀ op ∈ [relate, steal], ∀ settings request,
        ((Query.page settings "ii" request).run .sample (op.program.run .sample w).2).1 =
          ((Query.page settings "ii" request).run .sample w).1 := by
  intro table field w relate steal
  refine ⟨by decide +kernel, by decide +kernel, ?_⟩
  have hw : w.Reachable .sample := ⟨true, _, rfl⟩
  have htables : (w.store.tables.map (·.id)).Nodup := by decide +kernel
  have htarget : ∀ op ∈ [relate, steal], op.target .sample w = "i" := by
    simp [relate, steal, Operation.target]
  generalize [relate, steal] = ops at htarget
  clear_value w
  intro op hop settings request
  have hother : (Activity.operation op).target? .sample w ≠ some "ii" := by
    simp [Activity.target?, Activity.operation?, htarget op hop]
  exact (isolated_run .sample (isKeyed_of_reachable Source.sample_injective hw) htables (.operation op)).1 "ii"
    hother (.queryPage settings "ii" request) (beq_self_eq_true _)

end World
end TenantTables
