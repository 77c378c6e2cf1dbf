import Mathlib.Data.List.Induction
import TenantTables.Proofs.Operation.Frame
import TenantTables.Proofs.Storage.Serial

namespace TenantTables

open Program

namespace World

def worked (source : Source) (tableId : String) (jobs : List Work) (w : World) (order : List Nat) :
    World :=
  w.serial source (jobs.map (·.program tableId)) order

def sideBySide (w : World) (tableId : String) (jobs : List Work) : Interleaving Answer where
  world := w
  programs := jobs.map (·.program tableId)

variable {source : Source} {tableId : String} {jobs : List Work} {w : World}

theorem worked_append (before after : List Nat) : w.worked source tableId jobs (before ++ after) =
    (w.worked source tableId jobs before).worked source tableId jobs after :=
  serial_append before after

theorem worked_concat {before : List Nat} {i : Nat} {job : Work} (h : jobs[i]? = some job) :
    w.worked source tableId jobs (before ++ [i]) =
      ((job.program tableId).run source (w.worked source tableId jobs before)).2 :=
  serial_concat (by simp [h])

theorem worked_keeps {P : List Nat → World → Prop} {order : List Nat}
    (hknown : ∀ i ∈ order, i < jobs.length)
    (hkeep : ∀ before i after job, order = before ++ i :: after → jobs[i]? = some job →
      P before (w.worked source tableId jobs before) →
        P (before ++ [i]) (w.worked source tableId jobs (before ++ [i])))
    (h : P [] w) : P order (w.worked source tableId jobs order) := by
  have hprefix (before after : List Nat) (hsplit : order = before ++ after) :
      P before (w.worked source tableId jobs before) := by
    -- on how much of the order has run
    induction before using List.reverseRecOn generalizing after with
    | nil => exact h
    | append_singleton before i ih =>
      have hi := List.getElem?_eq_getElem (hknown i (by simp [hsplit]))
      have hsplit : order = before ++ i :: after := by
        rw [hsplit, List.append_assoc, List.singleton_append]
      exact hkeep before i after _ hsplit hi (ih _ hsplit)
  exact hprefix order [] (List.append_nil order).symm

def LeavesField (source : Source) (tableId : String) (jobs : List Work) (w : World) (order : List Nat)
    (fieldId : String) : Prop :=
  ∀ before i after job, order = before ++ i :: after → jobs[i]? = some job →
    job.touches source (w.worked source tableId jobs before) fieldId = false

theorem fieldById?_worked (source : Source) {order : List Nat} (hknown : ∀ i ∈ order, i < jobs.length) {t : Table}
    (ht : w.store.table? tableId = some t) :
    ∃ u, (w.worked source tableId jobs order).store.table? tableId = some u ∧
      ∀ fieldId, w.LeavesField source tableId jobs order fieldId →
        (u.fieldById? fieldId).map Field.exchange = (t.fieldById? fieldId).map Field.exchange := by
  apply worked_keeps (P := fun order v => ∃ u, v.store.table? tableId = some u ∧
    ∀ fieldId, w.LeavesField source tableId jobs order fieldId →
      (u.fieldById? fieldId).map Field.exchange = (t.fieldById? fieldId).map Field.exchange) hknown
  . rintro before i after job - hjob ⟨u, hu, hsame⟩
    obtain ⟨v, hv, hnext⟩ := job.fieldById?_of_run source hu
    rw [worked_concat hjob]
    refine ⟨v, hv, ?_⟩
    intro fieldId hleaves
    rw [hnext fieldId (hleaves before i [] job rfl hjob)]
    apply hsame
    intro before' k after' other hsplit
    apply hleaves before' k (after' ++ [i]) other
    rw [hsplit, List.append_assoc, List.cons_append]
  . exact ⟨t, ht, fun _ _ => rfl⟩

theorem identifiers_le_worked {order : List Nat} (hknown : ∀ i ∈ order, i < jobs.length) :
    w.identifiers ≤ (w.worked source tableId jobs order).identifiers := by
  apply worked_keeps (P := fun _ v => w.identifiers ≤ v.identifiers) hknown _ (Nat.le_refl _)
  intro before i after job _ hjob hle
  rw [worked_concat hjob]
  exact Nat.le_trans hle (identifiers_le_run source _ _)

theorem isFresh_worked {order : List Nat} (hknown : ∀ i ∈ order, i < jobs.length)
    (h : w.IsFresh source) : (w.worked source tableId jobs order).IsFresh source := by
  apply worked_keeps (P := fun _ => IsFresh source) hknown _ h
  intro before i after job _ hjob hfresh
  rw [worked_concat hjob]
  exact job.isFresh_of_run hfresh

theorem mem_live_worked {order : List Nat} (hknown : ∀ i ∈ order, i < jobs.length)
    (hfresh : w.IsFresh source) {q : Record} (hrewrites : ∀ job ∈ jobs, job.rewrites q.id = false)
    {id : String} (hq : q ∈ w.store.live id) :
    q ∈ (w.worked source tableId jobs order).store.live id := by
  suffices hboth : (w.worked source tableId jobs order).IsFresh source ∧
      q ∈ (w.worked source tableId jobs order).store.live id from hboth.2
  apply worked_keeps (P := fun _ v => v.IsFresh source ∧ q ∈ v.store.live id) hknown _ ⟨hfresh, hq⟩
  rintro before i after job - hjob ⟨hfresh, hq⟩
  rw [worked_concat hjob]
  have hleaves := hrewrites job (List.mem_of_getElem? hjob)
  exact ⟨job.isFresh_of_run hfresh, job.mem_live_of_run hfresh hleaves hq⟩

end World

namespace Interleaving

def hasRevised (jobs : List Work) (s : Interleaving Answer) (i : Nat) : Bool :=
  match jobs[i]?, s.results[i]? with
  | some job, some (some (.ok _)) => job.revises
  | _, _ => false

structure IsSerial (source : Source) (tableId : String) (jobs : List Work) (w : World)
    (order : List Nat) (s : Interleaving Answer) : Prop where
  nodup : order.Nodup
  known : ∀ i ∈ order, i < jobs.length
  world : s.world = w.worked source tableId jobs order
  result : ∀ before i after job, order = before ++ i :: after → jobs[i]? = some job →
    s.results[i]? =
      some (some ((job.program tableId).run source (w.worked source tableId jobs before)).1)
  refused : ∀ i job, i ∉ order → jobs[i]? = some job → ∃ e, s.results[i]? = some (some (.error e)) ∧
    ∀ v, (job.program tableId).run source v = (.error e, v)

variable {source : Source} {tableId : String} {jobs : List Work} {w : World} {order : List Nat}
  {s : Interleaving Answer}

theorem isSerial_of_simulates (hguarded : ∀ p ∈ jobs.map (·.program tableId), p.IsGuarded tableId)
    (h : Simulates source tableId (jobs.map (·.program tableId)) w order s)
    (hdone : ∀ r ∈ s.results, r.isSome = true) : IsSerial source tableId jobs w order s := by
  have hprograms : ∀ p ∈ s.programs, (result? p).isSome = true := by
    intro p hp
    exact hdone _ (List.mem_map_of_mem hp)
  obtain ⟨hworld, hfinished⟩ := idle_of_done h hprograms
  refine ⟨h.nodup, ?_, hworld, ?_, ?_⟩
  . simpa using h.known
  . intro before i after job hsplit hjob
    have hprogram := hfinished before i after (job.program tableId) hsplit (by simp [hjob])
    rw [results, List.getElem?_map, hprogram]
    rfl
  . intro i job hi hjob
    have hp : (jobs.map (·.program tableId))[i]? = some (job.program tableId) := by
      simp [hjob]
    obtain ⟨e, hprogram, hleft⟩ := error_of_not_mem hguarded h hprograms hp hi
    refine ⟨e, ?_, ?_⟩
    . rw [results, List.getElem?_map, hleft]
      rfl
    . intro v
      rw [hprogram]
      rfl

def CountsEdits (tableId : String) (jobs : List Work) (w : World) (s : Interleaving Answer) : Prop :=
  ∀ t, w.store.table? tableId = some t →
    ∃ u, s.world.store.table? tableId = some u ∧
      u.version = t.version + (List.range jobs.length).countP (s.hasRevised jobs)

theorem countP_range_eq {n : Nat} {p : Nat → Bool} (hnodup : order.Nodup)
    (hknown : ∀ i ∈ order, i < n) (hp : ∀ i, i ∉ order → p i = false) :
    (List.range n).countP p = order.countP p := by
  rw [List.countP_eq_length_filter, List.countP_eq_length_filter]
  apply List.Perm.length_eq
  rw [List.perm_ext_iff_of_nodup (List.nodup_range.filter p) (hnodup.filter p)]
  intro i
  rw [List.mem_filter, List.mem_filter, List.mem_range]
  constructor
  . rintro ⟨-, hi⟩
    refine ⟨?_, hi⟩
    by_contra hnot
    rw [hp i hnot] at hi
    simp at hi
  . rintro ⟨hmem, hi⟩
    exact ⟨hknown i hmem, hi⟩

theorem countsEdits_of_isSerial (h : IsSerial source tableId jobs w order s) :
    s.CountsEdits tableId jobs w := by
  intro t ht
  have hrefused : ∀ i, i ∉ order → s.hasRevised jobs i = false := by
    intro i hi
    unfold hasRevised
    cases hjob : jobs[i]? with
    | none => rfl
    | some job =>
      obtain ⟨e, hresult, -⟩ := h.refused i job hi hjob
      rw [hresult]
  rw [h.world, countP_range_eq h.nodup h.known hrefused]
  apply World.worked_keeps (P := fun before v => ∃ u, v.store.table? tableId = some u ∧
    u.version = t.version + before.countP (s.hasRevised jobs)) h.known
  . rintro before i after job hsplit hjob ⟨u, hu, hversion⟩
    have hresult := h.result before i after job hsplit hjob
    rw [World.worked_concat hjob, List.countP_append, List.countP_singleton]
    rcases job.table?_of_run source hu with
      ⟨answer, edit, u', kept, hrevises, hok, -, -, -, hnext, hkept, hstore⟩ | ⟨hfails, hstore⟩
    . refine ⟨kept, hstore, ?_⟩
      have hrevised : s.hasRevised jobs i = true := by
        simp [hasRevised, hjob, hresult, hok, hrevises]
      have hversion' : kept.version = u.version + 1 := by
        obtain ⟨_, -, rfl⟩ := Table.overwrite_ok hkept
        exact hnext
      rw [hrevised, if_pos rfl]
      omega
    . refine ⟨u, hstore, ?_⟩
      have hrevised : s.hasRevised jobs i = false := by
        cases hrevises : job.revises with
        | false =>
          unfold hasRevised
          rw [hjob]
          split <;> simp_all
        | true =>
          obtain ⟨e, he⟩ := hfails hrevises
          simp [hasRevised, hjob, hresult, he]
      rw [hrevised, if_neg (by simp)]
      exact hversion
  . exact ⟨t, ht, by simp⟩

def KeepsEdits (source : Source) (tableId : String) (jobs : List Work) (w : World) (order : List Nat)
    (s : Interleaving Answer) : Prop :=
  ∀ before i after job answer, order = before ++ i :: after → jobs[i]? = some job →
    job.revises = true → s.results[i]? = some (some (.ok answer)) →
      ∃ old edit t kept u, (w.worked source tableId jobs before).store.table? tableId = some old ∧
        Work.Edits source (w.worked source tableId jobs before) old job edit ∧
        answer = .table t ∧ t.fields = edit.fields ∧ old.overwrite t = .ok kept ∧
        s.world.store.table? tableId = some u ∧
        ∀ fieldId,
          (w.worked source tableId jobs (before ++ [i])).LeavesField source tableId jobs after fieldId →
            (u.fieldById? fieldId).map Field.exchange = (kept.fieldById? fieldId).map Field.exchange

theorem keepsEdits_of_isSerial (h : IsSerial source tableId jobs w order s) :
    s.KeepsEdits source tableId jobs w order := by
  intro before i after job answer hsplit hjob hrevises hanswer
  rw [h.result before i after job hsplit hjob, Option.some.injEq, Option.some.injEq] at hanswer
  obtain ⟨old, hold⟩ := Work.exists_table?_of_revises hrevises hanswer
  rcases job.table?_of_run source hold with
    ⟨answer', edit, t, kept, -, hok, htable, hedit, hfields, -, hkept, hstore⟩ | ⟨hfails, -⟩
  . rw [hanswer] at hok
    obtain rfl := Except.ok.inj hok
    have hknown : ∀ k ∈ after, k < jobs.length := by
      intro k hk
      exact h.known k (by simp [hsplit, hk])
    rw [← World.worked_concat hjob] at hstore
    obtain ⟨u, hu, hsame⟩ := World.fieldById?_worked source hknown hstore
    rw [← World.worked_append, List.append_assoc, List.singleton_append, ← hsplit, ← h.world] at hu
    exact ⟨old, edit, t, kept, u, hold, hedit, htable, hfields, hkept, hu, hsame⟩
  . obtain ⟨e, he⟩ := hfails hrevises
    rw [hanswer] at he
    simp at he

def InsertsApart (source : Source) (tableId : String) (jobs : List Work) (w : World)
    (order : List Nat) (s : Interleaving Answer) : Prop :=
  ∀ before i between j after payload payload' actor actor' r q,
    order = before ++ i :: (between ++ j :: after) → jobs[i]? = some (.insert payload actor) →
    jobs[j]? = some (.insert payload' actor') → s.results[i]? = some (some (.ok (.record r))) →
    s.results[j]? = some (some (.ok (.record q))) →
      ∀ t, (w.worked source tableId jobs (before ++ i :: between)).store.table? tableId = some t →
        ∀ f ∈ t.fields, f.unique = some true → (r.data.get f.name).isNull = false →
          (q.data.get f.name).isNull = false → (r.data.get f.name).equals (q.data.get f.name) = false

theorem insertsApart_of_isSerial (hfresh : w.IsFresh source)
    (hrecords : ∀ job ∈ jobs, ∀ id, job.rewrites id = true → (w.store.record? id).isSome = true)
    (h : IsSerial source tableId jobs w order s) : s.InsertsApart source tableId jobs w order := by
  intro before i between j after payload payload' actor actor' r q hsplit hi hj hr hq t ht f hf hunique
    hrnull hqnull
  rw [h.result before i _ _ hsplit hi, Option.some.injEq, Option.some.injEq] at hr
  have hsplit' : order = (before ++ i :: between) ++ j :: after := by
    rw [hsplit, List.append_assoc, List.cons_append]
  rw [h.result _ j after _ hsplit' hj, Option.some.injEq, Option.some.injEq] at hq
  have hbefore : ∀ k ∈ before, k < jobs.length := by
    intro k hk
    exact h.known k (by simp [hsplit, hk])
  have hbetween : ∀ k ∈ between, k < jobs.length := by
    intro k hk
    exact h.known k (by simp [hsplit, hk])
  have hnow : (w.worked source tableId jobs before).IsFresh source :=
    World.isFresh_worked hbefore hfresh
  obtain ⟨new, hlive, hid, hdata⟩ := Work.mem_live_of_insert hnow (Prod.ext hr rfl)
  -- the record got a new identifier, so no job names it
  have hrewrites : ∀ job ∈ jobs, job.rewrites new.id = false := by
    intro job hjob
    rw [Bool.eq_false_iff]
    intro htrue
    have hsome := hrecords job hjob _ htrue
    rw [hid, (hfresh _ (World.identifiers_le_worked hbefore)).1] at hsome
    simp at hsome
  have hlater : new ∈ (w.worked source tableId jobs (before ++ i :: between)).store.live tableId := by
    rw [← List.singleton_append, ← List.append_assoc, World.worked_append, World.worked_concat hi]
    exact World.mem_live_worked hbetween (Work.isFresh_of_run _ hnow) hrewrites hlive
  rw [← hdata] at hrnull ⊢
  exact Work.equals_eq_false_of_insert (Prod.ext hq rfl) ht hf hunique hqnull hlater hrnull

/--
However the turns of jobs on one table are interleaved, the end is that of running them one after another
in the order in which they got the lock.
-/
theorem isSerial_run (source : Source) (tableId : String) (jobs : List Work) (w : World)
    (turns : List Nat)
    (hdone : ∀ r ∈ ((w.sideBySide tableId jobs).run source turns).results, r.isSome = true) :
    let order := (w.sideBySide tableId jobs).lockOrder source turns
    let s := (w.sideBySide tableId jobs).run source turns
    s.IsSerial source tableId jobs w order ∧ s.CountsEdits tableId jobs w ∧
      s.KeepsEdits source tableId jobs w order ∧
      (w.IsFresh source →
        (∀ job ∈ jobs, ∀ id, job.rewrites id = true → (w.store.record? id).isSome = true) →
          s.InsertsApart source tableId jobs w order) := by
  intro order s
  have hguarded : ∀ p ∈ jobs.map (·.program tableId), p.IsGuarded tableId := by
    intro p hp
    obtain ⟨job, -, rfl⟩ := List.mem_map.mp hp
    exact job.isGuarded_program tableId
  have hsimulates : Simulates source tableId (jobs.map (·.program tableId)) w order s :=
    simulates_run hguarded turns (simulates_start _ w)
  have hserial := isSerial_of_simulates hguarded hsimulates hdone
  exact ⟨hserial, countsEdits_of_isSerial hserial, keepsEdits_of_isSerial hserial,
    fun hfresh hrecords => insertsApart_of_isSerial hfresh hrecords hserial⟩

theorem isSerial_run_inserts :
    let field : Field :=
      { id := "f", name := "name", displayName := "Name", type := .text, unique := some true }
    let table : Table :=
      { id := "t", tenantId := "x", name := "users", displayName := "Users", fields := [field]
        createdAt := default, updatedAt := default }
    let insert : Work := .insert (.map [("name", .text "Ada")]) .null
    let jobs : List Work := [insert, .deleteField "f", insert]
    let w : World := { store := { isReady := true, tables := [table] } }
    let s := (w.sideBySide "t" jobs).run .sample (List.replicate 20 [2, 0, 1]).flatten
    (∀ r ∈ s.results, r.isSome = true) ∧ s.results.map (·.any (·.isOk)) = [false, true, true] ∧
      s.IsSerial .sample "t" jobs w [2, 0, 1] ∧ s.CountsEdits "t" jobs w ∧
      s.KeepsEdits .sample "t" jobs w [2, 0, 1] ∧ s.InsertsApart .sample "t" jobs w [2, 0, 1] := by
  intro field table insert jobs w s
  have hdone : ∀ r ∈ s.results, r.isSome = true := by
    decide +kernel
  have horder : (w.sideBySide "t" jobs).lockOrder .sample (List.replicate 20 [2, 0, 1]).flatten =
      [2, 0, 1] := by
    decide +kernel
  obtain ⟨hserial, hcounts, hkeeps, hapart⟩ := isSerial_run .sample "t" jobs w _ hdone
  rw [horder] at hserial hkeeps hapart
  refine ⟨hdone, by decide +kernel, hserial, hcounts, hkeeps, hapart ?_ ?_⟩
  . intro n _
    exact ⟨rfl, fun m _ heq => Source.sample_injective heq⟩
  . intro job hjob id hrewrites
    obtain rfl | rfl | rfl : job = insert ∨ job = .deleteField "f" ∨ job = insert := by
      simpa [jobs] using hjob
    all_goals simp [insert, Work.rewrites] at hrewrites

end Interleaving
end TenantTables
