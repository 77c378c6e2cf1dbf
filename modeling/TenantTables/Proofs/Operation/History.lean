import TenantTables.Operation.Transfer
import TenantTables.Proofs.Operation.Work

/-!
This module contains all operations that write, as data, and their histories. Each of them changes the
world by a row of single changes, and what every single change keeps holds after every history.
-/

namespace TenantTables

open Program

inductive Operation where
  | createTable (r : TableRequest) (lookUp : Bool)
  | work (tableId : String) (work : Work)
  | importRows (settings : Settings) (tableId : String) (rows : List Value) (actor : Value)
  | importText (settings : Settings) (tableId text : String) (actor : Value)

namespace Operation

def program : Operation → Program Answer
  | .createTable r lookUp => return .table (← Tables.create r lookUp)
  | .work tableId job => job.program tableId
  | .importRows settings tableId rows actor =>
    return .imported (← Transfer.importRows settings tableId rows actor)
  | .importText settings tableId text actor =>
    return .imported (← Transfer.importText settings tableId text actor)

theorem program_work (tableId : String) (job : Work) :
    (work tableId job).program = job.program tableId := rfl

inductive Does : Operation → String → Work → Prop where
  | work (tableId : String) (work : Work) : Does (.work tableId work) tableId work
  | row {settings : Settings} {tableId : String} {rows : List Value} {actor : Value} {es : Entries}
    (h : .map es ∈ rows) (keep : String × Value → Bool) :
    Does (.importRows settings tableId rows actor) tableId (.insert (.map (es.filter keep)) actor)
  | line {settings : Settings} {tableId text : String} {rows : List Entries} {actor : Value}
    {es : Entries} (hread : Sheet.read text = .ok rows) (h : es ∈ rows)
    (keep : String × Value → Bool) :
    Does (.importText settings tableId text actor) tableId (.insert (.map (es.filter keep)) actor)

end Operation

inductive Change (source : Source) (may : String → Work → Prop) (w w' : World) : Prop where
  | idle : w'.store = w.store → Change source may w w'
  | created {t : Table} : Tables.Created source w w' t → Change source may w w'
  | done {tableId : String} {work : Work} {answer : Answer} :
    may tableId work → Work.Done source w w' tableId work answer → Change source may w w'

def Program.Changes (source : Source) (may : String → Work → Prop) (p : Program α) : Prop :=
  ∀ (P : World → Prop),
    (∀ w w', w.identifiers ≤ w'.identifiers → Change source may w w' → P w → P w') →
    ∀ w, P w → P (p.run source w).2

section Changes

variable {source : Source} {may : String → Work → Prop}

theorem changes_done (r : Outcome α) : (Program.done r).Changes source may :=
  fun _ _ _ hw => hw

theorem changes_of_reads {p : Program α} (h : p.Reads) : p.Changes source may := by
  intro P hkeep w hw
  exact hkeep w _ (identifiers_le_run source w p) (.idle (store_run_of_reads h source w)) hw

theorem changes_bind {p : Program α} {f : α → Program β} (hp : p.Changes source may)
    (hf : ∀ a, (f a).Changes source may) : (p >>= f).Changes source may := by
  intro P hkeep w hw
  have hv := hp P hkeep w hw
  rw [run_bind]
  revert hv
  rcases p.run source w with ⟨_ | a, v⟩ <;> intro hv
  . exact hv
  . exact hf a P hkeep v hv

theorem changes_map {p : Program α} (hp : p.Changes source may) (f : α → β) :
    (p >>= fun a => pure (f a)).Changes source may :=
  changes_bind hp fun a => changes_done (.ok (f a))

theorem changes_attempt {p : Program α} (hp : p.Changes source may) :
    p.attempt.Changes source may := by
  intro P hkeep w hw
  rw [run_attempt]
  exact hp P hkeep w hw

theorem changes_work {tableId : String} {work : Work} (h : may tableId work) :
    (work.program tableId).Changes source may := by
  intro P hkeep w hw
  apply hkeep w _ (identifiers_le_run source w _) _ hw
  rcases hrun : (work.program tableId).run source w with ⟨e | answer, w'⟩
  . exact .idle (Work.store_of_error hrun)
  . exact .done h (Work.done_of_run hrun)

theorem changes_create (r : TableRequest) (lookUp : Bool) :
    (Tables.create r lookUp).Changes source may := by
  intro P hkeep w hw
  apply hkeep w _ (identifiers_le_run source w _) _ hw
  rcases hrun : (Tables.create r lookUp).run source w with ⟨e | t, w'⟩
  . have hstore := store_run_of_error (Tables.writesLast_create r lookUp) source w
      (congrArg Prod.fst hrun)
    rw [hrun] at hstore
    exact .idle hstore
  . exact .created (Tables.create_ok hrun)

theorem changes_insert {tableId : String} {payload actor : Value}
    (h : may tableId (.insert payload actor)) :
    (Records.insert tableId payload actor).Changes source may := by
  intro P hkeep w hw
  have hwork := changes_work h P hkeep w hw
  rw [Work.program, run_bind] at hwork
  rcases hrun : (Records.insert tableId payload actor).run source w with ⟨e | r, w'⟩
  . rw [hrun] at hwork
    exact hwork
  . rw [hrun] at hwork
    exact hwork

theorem changes_importRow {tableId : String} {dropped : List String} {row actor : Value}
    (h : ∀ es, row = .map es → ∀ keep, may tableId (.insert (.map (es.filter keep)) actor)) :
    (Transfer.importRow tableId dropped row actor).Changes source may := by
  unfold Transfer.importRow
  refine changes_bind (changes_attempt ?_) ?_
  . cases row with
    | map es => exact changes_insert (h es rfl _)
    | _ => exact changes_done _
  . intro result
    cases result with
    | ok _ => exact changes_done _
    | error e =>
      dsimp only
      split <;> exact changes_done _

theorem changes_importFrom {tableId : String} {dropped : List String} {actor : Value}
    {rows : List Value} (number : Int)
    (h : ∀ es, .map es ∈ rows → ∀ keep, may tableId (.insert (.map (es.filter keep)) actor)) :
    (Transfer.importFrom tableId dropped actor number rows).Changes source may := by
  induction rows generalizing number with
  | nil => exact changes_done _
  | cons row rows ih =>
    unfold Transfer.importFrom
    apply changes_bind
    . apply changes_importRow
      rintro es rfl
      exact h es List.mem_cons_self
    intro report
    apply changes_bind
    . apply ih
      intro es hes
      exact h es (List.mem_cons_of_mem _ hes)
    intro rest
    exact changes_done _

theorem changes_importRows {settings : Settings} {tableId : String} {rows : List Value}
    {actor : Value}
    (h : ∀ es, .map es ∈ rows → ∀ keep, may tableId (.insert (.map (es.filter keep)) actor)) :
    (Transfer.importRows settings tableId rows actor).Changes source may := by
  apply changes_bind (changes_of_reads (reads_requireTable tableId))
  intro table
  exact changes_importFrom _ h

theorem Operation.changes_program (op : Operation) :
    op.program.Changes source op.Does := by
  cases op with
  | createTable r lookUp => exact changes_map (changes_create r lookUp) Answer.table
  | work tableId job => exact changes_work (Operation.Does.work tableId job)
  | importRows settings tableId rows actor =>
    refine changes_map (changes_importRows ?_) Answer.imported
    intro es hes keep
    exact .row hes keep
  | importText settings tableId text actor =>
    refine changes_map ?_ Answer.imported
    unfold Transfer.importText
    cases hread : Sheet.read text with
    | error e => exact changes_done _
    | ok rows =>
      apply changes_importRows
      intro es hes keep
      obtain ⟨es', hes', heq⟩ := List.mem_map.mp hes
      cases heq
      exact .line hread hes' keep

end Changes

def Source.sample : Source where
  identifiers n := String.ofList (List.replicate (n + 1) 'i')
  clock _ := { (default : Moment) with offset := some 0 }

theorem Source.sample_injective : Function.Injective sample.identifiers := by
  intro m n h
  simpa [sample] using congrArg String.length h

namespace World

def after (source : Source) (w : World) (ops : List Operation) : World :=
  ops.foldl (fun w op => (op.program.run source w).2) w

theorem after_append (source : Source) (w : World) (ops later : List Operation) :
    w.after source (ops ++ later) = (w.after source ops).after source later :=
  List.foldl_append

variable {source : Source}

theorem after_keeps {P : World → Prop} {ops : List Operation}
    (hkeep : ∀ op ∈ ops, ∀ w w', w.identifiers ≤ w'.identifiers →
      Change source op.Does w w' → P w → P w')
    {w : World} (hw : P w) : P (w.after source ops) := by
  induction ops generalizing w with
  | nil => exact hw
  | cons op ops ih =>
    rw [after, List.foldl_cons]
    apply ih
    . intro op' hop'
      exact hkeep op' (List.mem_cons_of_mem _ hop')
    . exact op.changes_program P (hkeep op List.mem_cons_self) w hw

end World
end TenantTables
