import TenantTables.Proofs.Operation.Orderly
import TenantTables.Proofs.Query.Key
import TenantTables.Proofs.Storage.Serial

/-!
This module contains which names tables and fields have, and which keys a query takes for its filters: names in
snake case, and such names with a newline at the end, at which the check of a name does not look.
-/

namespace TenantTables

open Program

def Table.IsNamed (t : Table) : Prop :=
  ∀ name ∈ t.name :: t.fieldNames, Text.IsSnakeLine name

def Store.IsNamed (s : Store) : Prop :=
  ∀ t ∈ s.tables, t.IsNamed

namespace Table

variable {t u : Table}

theorem isNamed_of_subset (ht : t.IsNamed) (hname : u.name = t.name)
    (hfields : u.fieldNames ⊆ t.fieldNames) : u.IsNamed := by
  intro name h
  rcases List.mem_cons.mp h with rfl | h
  . exact ht _ (hname ▸ List.mem_cons_self)
  . exact ht name (List.mem_cons_of_mem _ (hfields h))

theorem isNamed_of_stored (ht : t.IsNamed) (h : t.stored = .ok u) : u.IsNamed := by
  obtain ⟨_, _, -, -, rfl⟩ := stored_ok h
  refine isNamed_of_subset ht ?_ ?_
  . rfl
  . unfold fieldNames
    rw [List.map_map]
    exact List.Subset.refl _

theorem isNamed_of_overwrite {old new : Table} (hold : old.IsNamed) (ht : t.IsNamed)
    (h : old.overwrite t = .ok new) : new.IsNamed := by
  have hname : new.name = old.name := by
    obtain ⟨_, -, rfl⟩ := overwrite_ok h
    rfl
  rcases fieldNames_of_overwrite h with hfields | hfields
  . exact isNamed_of_subset hold hname (hfields ▸ List.Subset.refl _)
  . intro name hmem
    rcases List.mem_cons.mp hmem with rfl | hmem
    . exact hold _ (hname ▸ List.mem_cons_self)
    . exact ht name (List.mem_cons_of_mem _ (hfields ▸ hmem))

theorem isNamed_withFields {fields : List Field} (ht : t.IsNamed)
    (h : ∀ f ∈ fields, f.name ∈ t.fieldNames ∨ Text.IsSnakeLine f.name) :
    ({ t with fields } : Table).IsNamed := by
  intro name hmem
  rcases List.mem_cons.mp hmem with rfl | hmem
  . exact ht _ List.mem_cons_self
  . obtain ⟨f, hf, rfl⟩ := List.mem_map.mp hmem
    rcases h f hf with hold | hnew
    . exact ht _ (List.mem_cons_of_mem _ hold)
    . exact hnew

end Table

namespace Store

variable {s s' : Store} {t : Table}

theorem isNamed_putTable (h : s.IsNamed) (ht : t.IsNamed) : (s.putTable t).IsNamed := by
  intro u hu
  rcases (mem_putTable t u).mp hu with rfl | ⟨hu, -⟩
  . exact ht
  . exact h u hu

theorem isNamed_of_insertTable (h : s.IsNamed) (ht : t.IsNamed) (hinsert : s.insertTable t = .ok s') :
    s'.IsNamed := by
  obtain ⟨-, -, -, new, hnew, rfl⟩ := insertTable_ok hinsert
  exact isNamed_putTable h (Table.isNamed_of_stored ht hnew)

theorem isNamed_of_saveTable (h : s.IsNamed) (ht : t.IsNamed) (hsave : s.saveTable t = .ok s') :
    s'.IsNamed := by
  cases hold : s.table? t.id with
  | none =>
    unfold saveTable at hsave
    obtain ⟨_, -, hsave⟩ := Outcome.bind_eq_ok.mp hsave
    rw [hold] at hsave
    exact isNamed_of_insertTable h ht hsave
  | some old =>
    obtain ⟨-, new, hnew, rfl⟩ := saveTable_ok hold hsave
    exact isNamed_putTable h (Table.isNamed_of_overwrite (h old (table?_mem hold)) ht hnew)

end Store

namespace Call

def WritesNamed : Call β → Prop
  | insertTable t | saveTable t => t.IsNamed
  | _ => True

def TellsNamed : {β : Type} → Call β → Outcome β → Prop
  | _, table _, r => ∀ t, r = .ok (some t) → t.IsNamed
  | _, _, _ => True

end Call

theorem World.isNamed_answer (source : Source) {w : World} {c : Call β} (h : w.store.IsNamed)
    (hc : c.WritesNamed) :
    (w.answer source c).2.store.IsNamed ∧ c.TellsNamed (w.answer source c).1 := by
  cases c with
  | table id =>
    refine ⟨h, ?_⟩
    intro t ht
    have hrun : (ask (.table id)).run source w = (.ok (some t), w) := Prod.ext ht rfl
    exact h t (Store.table?_mem (run_table_ok.mp hrun).2.1)
  | insertTable t =>
    refine ⟨?_, trivial⟩
    cases hinsert : w.store.insertTable t with
    | error e => simpa [answer, answer.write, hinsert] using h
    | ok s => simpa [answer, answer.write, hinsert] using Store.isNamed_of_insertTable h hc hinsert
  | saveTable t =>
    refine ⟨?_, trivial⟩
    cases hsave : w.store.saveTable t with
    | error e => simpa [answer, answer.write, hsave] using h
    | ok s => simpa [answer, answer.write, hsave] using Store.isNamed_of_saveTable h hc hsave
  | saveRecord r =>
    refine ⟨?_, trivial⟩
    cases hsave : w.store.saveRecord r with
    | error e => simpa [answer, answer.write, hsave] using h
    | ok s =>
      obtain ⟨-, new, -, rfl⟩ := Store.saveRecord_ok hsave
      simpa [answer, answer.write, hsave, Store.IsNamed] using h
  | _ => exact ⟨h, trivial⟩

/--
Whatever its calls are answered, a program writes only named tables as long as it is told only of named ones,
and its value has a property.
-/
def Program.Names (Q : α → Prop) : Program α → Prop
  | done r => ∀ a, r = .ok a → Q a
  | call c next => c.WritesNamed ∧ ∀ r, c.TellsNamed r → (next r).Names Q

namespace Program

variable {Q : α → Prop} {R : β → Prop}

theorem names_pure {a : α} (h : Q a) : (pure a : Program α).Names Q := by
  intro b hb
  exact Except.ok.inj hb ▸ h

theorem names_throw (e : Failure) : (throw e : Program α).Names Q := by
  intro a h
  contradiction

theorem names_bind {p : Program α} {f : α → Program β} (hp : p.Names Q)
    (hf : ∀ a, Q a → (f a).Names R) : (p >>= f).Names R := by
  induction p with
  | done r =>
    cases r with
    | error e => exact names_throw e
    | ok a => exact hf a (hp a rfl)
  | call c next ih => exact ⟨hp.1, fun r hr => ih r (hp.2 r hr)⟩

theorem names_lift_bind {r : Outcome α} {f : α → Program β} (h : ∀ a, r = .ok a → (f a).Names R) :
    ((liftM r : Program α) >>= f).Names R :=
  names_bind (Q := fun a => r = .ok a) (fun _ ha => ha) h

theorem names_ask_bind {c : Call α} {f : α → Program β} (hc : c.WritesNamed)
    (h : ∀ a, c.TellsNamed (.ok a) → (f a).Names R) : (ask c >>= f).Names R := by
  refine ⟨hc, fun r hr => ?_⟩
  cases r with
  | error e => exact names_throw e
  | ok a => exact h a hr

theorem names_ask {c : Call α} (hc : c.WritesNamed) : (ask c).Names fun _ => True :=
  ⟨hc, fun _ _ _ _ => trivial⟩

theorem names_map {p : Program α} (h : p.Names Q) (f : α → β) :
    (p >>= fun a => pure (f a)).Names fun _ => True :=
  names_bind h fun _ _ => names_pure trivial

theorem names_tryCatch {p : Program α} {f : Failure → Program α} (hp : p.Names Q)
    (hf : ∀ e, (f e).Names Q) : (tryCatch p f).Names Q := by
  show (p.handle f).Names Q
  induction p with
  | done r =>
    cases r with
    | error e => exact hf e
    | ok a => exact hp
  | call c next ih => exact ⟨hp.1, fun r hr => ih r (hp.2 r hr)⟩

theorem names_of_uses {p : Program α} (h : p.Uses Call.sparesTables) : p.Names fun _ => True := by
  induction p with
  | done r => exact fun _ _ => trivial
  | @call β c next ih =>
    refine ⟨?_, fun r _ => ih r (h.2 r)⟩
    have hspares := h.1
    cases c <;> trivial

theorem names_attempt {p : Program α} (h : p.Names Q) :
    p.attempt.Names fun r => ∀ a, r = .ok a → Q a := by
  induction p with
  | done r => exact names_pure h
  | call c next ih => exact ⟨h.1, fun r hr => ih r (h.2 r hr)⟩

theorem names_locked {tableId : String} {p : Program α} (h : p.Names Q) :
    (locked tableId p).Names Q := by
  apply names_ask_bind (by trivial)
  intro _ _
  apply names_bind (names_attempt h)
  intro result hresult
  exact names_ask_bind (by trivial) fun _ _ => hresult

theorem names_requireTable (tableId : String) : (requireTable tableId).Names Table.IsNamed := by
  apply names_ask_bind (by trivial)
  intro found hfound
  cases found with
  | none => exact names_throw _
  | some t => exact names_pure (hfound t rfl)

theorem isNamed_run {source : Source} {p : Program α} (hp : p.Names Q) {w : World} (h : w.store.IsNamed) :
    (p.run source w).2.store.IsNamed := by
  induction p generalizing w with
  | done r => exact h
  | call c next ih =>
    obtain ⟨hworld, htells⟩ := World.isNamed_answer source h hp.1
    exact ih _ (hp.2 _ htells) hworld

end Program

namespace Tables

theorem names_write {t : Table} (ht : t.IsNamed) (displayName description : Value) :
    (write t displayName description).Names fun _ => True := by
  apply names_ask_bind (by trivial)
  intro now _
  apply names_lift_bind
  intro t' hrevise
  obtain ⟨-, _, _, rfl⟩ := revise_ok hrevise
  exact names_ask_bind ht fun _ _ => names_pure trivial

theorem names_update (tableId : String) (displayName description : Value) :
    (update tableId displayName description).Names fun _ => True := by
  apply names_locked
  apply names_bind (names_requireTable tableId)
  intro table htable
  split
  . exact names_pure trivial
  . exact names_write htable _ _

theorem names_addField (tableId : String) (request : Request FieldSpec) :
    (addField tableId request).Names fun _ => True := by
  apply names_lift_bind
  intro requested _
  apply names_locked
  apply names_bind (names_requireTable tableId)
  intro table htable
  apply names_lift_bind
  intro name _
  dsimp only
  split
  . exact names_lift_bind (by simp [reject])
  . apply names_lift_bind
    intro spec _
    apply names_ask_bind (by trivial)
    intro id _
    apply names_lift_bind
    intro field hfield
    rw [Document.Reading.toRequest_eq_ok] at hfield
    obtain ⟨rfl, hsnake, -⟩ := define_ok hfield
    apply names_write
    apply Table.isNamed_withFields htable
    intro f hf
    rcases List.mem_append.mp hf with hf | hf
    . exact .inl (List.mem_map_of_mem hf)
    . right
      rw [List.mem_singleton.mp hf]
      exact Text.isSnakeCase_iff.mp hsnake

theorem names_updateField (tableId fieldId : String) (request : Request FieldUpdate) :
    (updateField tableId fieldId request).Names fun _ => True := by
  apply names_locked
  apply names_bind (names_requireTable tableId)
  intro table htable
  dsimp only
  cases hexisting : table.fieldById? fieldId with
  | none => exact names_throw _
  | some existing =>
    dsimp only
    rw [pure_bind]
    apply names_lift_bind
    intro u _
    apply names_lift_bind
    intro merged hmerged
    rw [Document.Reading.toRequest_eq_ok] at hmerged
    apply names_write
    apply Table.isNamed_withFields htable
    intro f hf
    left
    obtain ⟨g, hg, rfl⟩ := List.mem_map.mp hf
    split
    . rw [(merge_eq_value hmerged).2.1]
      exact List.mem_map_of_mem (List.mem_of_find?_eq_some hexisting)
    . exact List.mem_map_of_mem hg

theorem names_deleteField (tableId fieldId : String) :
    (deleteField tableId fieldId).Names fun _ => True := by
  apply names_locked
  apply names_bind (names_requireTable tableId)
  intro table htable
  dsimp only
  split
  . exact names_throw _
  . apply names_write
    apply Table.isNamed_withFields htable
    intro f hf
    exact .inl (List.mem_map_of_mem (List.mem_filter.mp hf).1)

theorem names_createRelation (tableId : String) (request : Request RelationSpec) :
    (createRelation tableId request).Names fun _ => True := by
  apply names_lift_bind
  intro spec _
  apply names_locked
  apply names_bind (names_requireTable tableId)
  intro table htable
  apply names_bind (names_of_uses (uses_of_reads (reads_of_searches (searches_requireTarget _ _))))
  intro target _
  dsimp only
  split
  . exact names_lift_bind (by simp [reject])
  . split
    . exact names_lift_bind (by simp [reject])
    . apply names_ask_bind (by trivial)
      intro id _
      apply names_write
      exact htable

theorem names_add (r : TableRequest) {name : String} (hname : Text.isSnakeCase name = true) :
    (add r name).Names fun _ => True := by
  apply names_ask_bind (by trivial)
  intro now _
  apply names_ask_bind (by trivial)
  intro id _
  apply names_lift_bind
  intro table hnew
  have htable : table.IsNamed := by
    obtain ⟨-, _, _, _, rfl⟩ := newTable_ok hnew
    intro n hn
    obtain rfl : n = name := by simpa [Table.fieldNames] using hn
    exact Text.isSnakeCase_iff.mp hname
  apply names_bind
  . apply names_tryCatch (names_ask (by exact htable))
    intro e
    split
    . exact fun _ _ => trivial
    . exact names_throw _
  . exact fun _ _ => names_pure trivial

theorem names_create (r : TableRequest) (lookUp : Bool) : (create r lookUp).Names fun _ => True := by
  apply names_lift_bind
  intro name hname
  have hadd := names_add r (checkName_ok hname).2
  dsimp only
  split
  . apply names_bind (names_of_uses (uses_of_reads (reads_of_searches (searches_isTaken r name))))
    intro taken _
    split
    . exact names_lift_bind (by simp [reject])
    . exact hadd
  . exact hadd

end Tables

theorem Work.names_program (tableId : String) (job : Work) : (job.program tableId).Names fun _ => True := by
  cases job with
  | updateTable displayName description => exact names_map (Tables.names_update tableId _ _) _
  | addField request => exact names_map (Tables.names_addField tableId request) _
  | updateField fieldId request => exact names_map (Tables.names_updateField tableId fieldId request) _
  | deleteField fieldId => exact names_map (Tables.names_deleteField tableId fieldId) _
  | createRelation request => exact names_map (Tables.names_createRelation tableId request) _
  | insert payload actor => exact names_map (names_of_uses (Records.sparesTables_insert tableId _ _)) _
  | update recordId payload actor =>
    exact names_map (names_of_uses (Records.sparesTables_update tableId recordId _ _)) _
  | softDelete recordId => exact names_map (names_of_uses (Records.sparesTables_softDelete tableId recordId)) _

theorem Operation.names_program (op : Operation) : op.program.Names fun _ => True := by
  cases op with
  | createTable r lookUp => exact names_map (Tables.names_create r lookUp) _
  | work tableId job => exact job.names_program tableId
  | importRows settings tableId rows actor =>
    exact names_map (names_of_uses (Transfer.sparesTables_importRows settings tableId rows actor)) _
  | importText settings tableId text actor =>
    exact names_map (names_of_uses (Transfer.sparesTables_importText settings tableId text actor)) _

namespace Interleaving

variable {source : Source} {s : Interleaving α}

structure IsNamed (s : Interleaving α) : Prop where
  store : s.world.store.IsNamed
  programs : ∀ p ∈ s.programs, p.Names fun _ => True

theorem isNamed_put (h : s.IsNamed) (i : Nat) {p : Program α} (hp : p.Names fun _ => True) :
    (s.put i p).IsNamed := by
  refine ⟨h.store, ?_⟩
  intro q hq
  rcases List.mem_or_eq_of_mem_set hq with hq | rfl
  . exact h.programs q hq
  . exact hp

theorem isNamed_step (h : s.IsNamed) (i : Nat) : (s.step source i).IsNamed := by
  cases hp : s.programs[i]? with
  | none => rwa [step_none hp]
  | some p =>
    have hnames := h.programs p (List.mem_of_getElem? hp)
    cases p with
    | done r => rwa [step_done hp]
    | @call β c next =>
      obtain ⟨hwrites, hnext⟩ := hnames
      by_cases hc : c.isLock = true
      . cases c with
        | acquire tableId =>
          have hlocks : ({ s with locks := s.enter i tableId } : Interleaving α).IsNamed :=
            ⟨h.store, h.programs⟩
          rw [step_acquire hp]
          split
          . exact isNamed_put hlocks i (hnext _ trivial)
          . exact hlocks
        | release tableId =>
          have hlocks : ({ s with locks := s.locks.leave tableId i } : Interleaving α).IsNamed :=
            ⟨h.store, h.programs⟩
          rw [step_release hp]
          exact isNamed_put hlocks i (hnext _ trivial)
        | _ => contradiction
      . obtain ⟨hworld, htells⟩ := World.isNamed_answer source h.store hwrites
        rw [step_call hp (by simpa using hc)]
        exact isNamed_put (s := { s with world := (s.world.answer source c).2 }) ⟨hworld, h.programs⟩ i
          (hnext _ htells)

theorem isNamed_run (h : s.IsNamed) (turns : List Nat) : (s.run source turns).IsNamed := by
  induction turns generalizing s with
  | nil => exact h
  | cons i turns ih => exact ih (isNamed_step h i)

end Interleaving

namespace World

def alongside (w : World) (ops : List Operation) : Interleaving Answer where
  world := w
  programs := ops.map (·.program)

variable {source : Source} {w : World}

theorem isNamed_after (h : w.store.IsNamed) (ops : List Operation) : (w.after source ops).store.IsNamed := by
  induction ops generalizing w with
  | nil => exact h
  | cons op ops ih => exact ih (Program.isNamed_run op.names_program h)

theorem isNamed_alongside (hw : w.Reachable source) (ops : List Operation) (turns : List Nat) :
    ((w.alongside ops).run source turns).world.store.IsNamed := by
  obtain ⟨isReady, before, rfl⟩ := hw
  refine (Interleaving.isNamed_run ⟨isNamed_after ?_ before, ?_⟩ turns).store
  . intro t ht
    contradiction
  . intro p hp
    obtain ⟨op, -, rfl⟩ := List.mem_map.mp hp
    exact op.names_program

/--
At every turn of operations that run side by side after a history, all tables and fields have names in snake
case, and a query takes a filter exactly if its key is one. A newline at the end is not looked at, so the
names and the keys without one are just those in snake case.
-/
theorem names_of_reachable (source : Source) (hw : w.Reachable source) (ops : List Operation)
    (turns : List Nat) :
    let v := ((w.alongside ops).run source turns).world
    (∀ t ∈ v.store.tables, ∀ name ∈ t.name :: t.fieldNames,
      Text.IsSnakeLine name ∧ (Text.endsInNewline name = false → Text.IsSnakeName name)) ∧
    (∀ settings tableId request q size, Query.readOptions request = .ok q →
      Query.pageSize settings q = .ok size → ∀ key value,
        (((Query.page settings tableId request).run source v).1 = reject (.filterKey key) key value ↔
          Query.Refuses key value (q.filters.getD []))) ∧
    ∀ settings tableId request q size, Query.readOptions request = .ok q →
      Query.IsAnswerable settings v.store tableId q size →
        ((∃ page, ((Query.page settings tableId request).run source v).1 = .ok page) ↔
          ∀ e ∈ q.filters.getD [], Text.IsSnakeLine e.1) ∧
        ((∀ e ∈ q.filters.getD [], Text.endsInNewline e.1 = false) →
          ((∃ page, ((Query.page settings tableId request).run source v).1 = .ok page) ↔
            ∀ e ∈ q.filters.getD [], Text.IsSnakeName e.1)) := by
  intro v
  refine ⟨?_, ?_, ?_⟩
  . intro t ht name hname
    have hline := isNamed_alongside hw ops turns t ht name hname
    exact ⟨hline, fun h => (Text.isSnakeLine_iff_of_endsInNewline h).mp hline⟩
  . intro settings tableId request q size hrequest hresolved key value
    rw [Query.page_of_readOptions hrequest]
    exact Query.answer_eq_filterKey source hresolved
  . intro settings tableId request q size hrequest hanswerable
    have hpages := Query.exists_page_iff source hanswerable
    rw [Query.page_of_readOptions hrequest]
    refine ⟨hpages, ?_⟩
    intro hends
    apply hpages.trans
    apply forall₂_congr
    intro e he
    exact Text.isSnakeLine_iff_of_endsInNewline (hends e he)

theorem names_of_two_turns :
    let ops : List Operation := [
      .createTable
        { tenantId := .text "x", name := .text "places", displayName := .text "Places" } true,
      .work "i" (.addField (.ready { name := "m_2", displayName := "M", type := .text }))]
    let v := ((sample.alongside ops).run .sample [0, 1, 0, 1, 0, 1, 0, 1, 1, 1]).world
    (v.store.tables.map fun t => (t.name, t.fieldNames)) = [("points", ["n", "m_2"]), ("places", [])] ∧
      (∀ t ∈ v.store.tables, ∀ name ∈ t.name :: t.fieldNames,
        Text.endsInNewline name = false → Text.IsSnakeName name) ∧
      ∃ page, ((Query.page {} "i" (.ready { filters := some [("n", .int 1)], limit := some 2 })).run
        .sample v).1 = .ok page := by
  intro ops v
  have hw : sample.Reachable .sample := ⟨true, _, rfl⟩
  have htables : (v.store.tables.map fun t => (t.name, t.fieldNames)) =
      [("points", ["n", "m_2"]), ("places", [])] := by
    decide +kernel
  have hready : v.store.isReady = true := by decide +kernel
  have htable : (v.store.table? "i").isSome = true := by decide +kernel
  have hstrict : ∀ r ∈ v.store.live "i", (Value.map r.data).isStrictJson = true := by decide +kernel
  have hall := names_of_reachable .sample hw ops [0, 1, 0, 1, 0, 1, 0, 1, 1, 1]
  -- the world is not computed again from here on
  have hv : ((sample.alongside ops).run .sample [0, 1, 0, 1, 0, 1, 0, 1, 1, 1]).world = v := rfl
  simp only [hv] at hall
  clear hv
  clear_value v
  obtain ⟨hnames, -, hpages⟩ := hall
  refine ⟨htables, fun t ht name hname => (hnames t ht name hname).2, ?_⟩
  let q : RecordQuery := { filters := some [("n", .int 1)], limit := some 2 }
  have hanswerable : Query.IsAnswerable {} v.store "i" q 2 := by
    refine ⟨hready, htable, .inr hstrict, rfl, by decide, by decide, by decide, by decide, by decide, ?_⟩
    intro e he i hi
    obtain rfl : e = ("n", .int 1) := by simpa [q] using he
    obtain rfl : 1 = i := by simpa using hi
    decide
  apply (hpages {} "i" (.ready q) q 2 rfl hanswerable).1.mpr
  intro e he
  obtain rfl : e = ("n", .int 1) := by simpa [q] using he
  exact .inl (by decide)

theorem names_end_in_newline :
    let w := World.after .sample { store := { isReady := true } } [
      .createTable
        { tenantId := .text "x", name := .text "points\n", displayName := .text "Points" } true,
      .work "i" (.addField (.ready { name := "n\n", displayName := "N", type := .number }))]
    w.Reachable .sample ∧ (w.store.tables.map fun t => (t.name, t.fieldNames)) = [("points\n", ["n\n"])] ∧
      ¬Text.IsSnakeName "points\n" ∧ ¬Text.IsSnakeName "n\n" ∧
      Query.answer .sample w {} "i" { filters := some [("n\n", .int 1)] } =
        .ok { records := [], total := 0, page := 1, totalPages := 0 } := by
  intro w
  have hw : w.Reachable .sample := ⟨true, _, rfl⟩
  exact ⟨hw, by decide +kernel, by decide, by decide, by decide +kernel⟩

end World

end TenantTables
