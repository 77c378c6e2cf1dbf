import TenantTables.Proofs.Lock.Queue
import TenantTables.Proofs.Storage.Runs
import TenantTables.Storage.Interleaving

/-!
This module contains that programs which work under the lock of one table are serializable: however their
turns are interleaved, the world and their results are those of running one after another in the order
in which they got the lock.
-/

namespace TenantTables

open Program

def Program.held (tableId : String) (p : Program α) : Program α := do
  let result ← p.attempt
  ask (.release tableId)
  result

namespace Call

def isLock : Call β → Bool
  | acquire _ | release _ => true
  | _ => false

end Call

theorem Program.writesLast_call {c : Call β} {next : Outcome β → Program α}
    (h : (call c next).WritesLast) : c.isLock = false ∧ ∀ r, (next r).WritesLast := by
  cases h with
  | read hc hnext =>
    refine ⟨?_, hnext⟩
    cases c <;> first | rfl | simp [Call.isRead] at hc
  | write hc herror hok =>
    constructor
    . cases c <;> first | rfl | simp [Call.isWrite] at hc
    . intro r
      cases r with
      | error e =>
        obtain ⟨e', he⟩ := herror e
        rw [he]
        exact .done _
      | ok b =>
        obtain ⟨a, ha⟩ := hok b
        rw [ha]
        exact .done _

def World.serial (source : Source) (programs : List (Program α)) (w : World) (order : List Nat) :
    World :=
  order.foldl
    (fun w i => match programs[i]? with
      | some p => (p.run source w).2
      | none => w)
    w

theorem World.serial_append {source : Source} {programs : List (Program α)} {w : World}
    (before after : List Nat) : w.serial source programs (before ++ after) =
      (w.serial source programs before).serial source programs after :=
  List.foldl_append

theorem World.serial_concat {source : Source} {programs : List (Program α)} {w : World}
    {before : List Nat} {i : Nat} {p : Program α} (h : programs[i]? = some p) :
    w.serial source programs (before ++ [i]) = (p.run source (w.serial source programs before)).2 := by
  rw [serial_append]
  simp [serial, h]

namespace Interleaving

def acquires (s : Interleaving α) (i : Nat) : Bool :=
  match s.programs[i]? with
  | some (.call (.acquire tableId) _) => (s.enter i tableId).holder? tableId == some i
  | _ => false

def lockOrder (source : Source) (s : Interleaving α) : List Nat → List Nat
  | [] => []
  | i :: turns =>
    (if s.acquires i then [i] else []) ++ (s.step source i).lockOrder source turns

section Enter

variable {s : Interleaving α} {tableId : String}

theorem enter_eq (h : s.locks.IsSound) (i : Nat) : s.enter i tableId =
    if i ∈ s.locks.queue tableId then s.locks else s.locks.enter tableId i := by
  unfold enter
  rw [Lock.Registry.holder?_eq_head? h, Lock.Registry.waiting_eq_tail h]
  cases s.locks.queue tableId with
  | nil => simp
  | cons first rest => simp [eq_comm]

theorem isSound_enter (h : s.locks.IsSound) (i : Nat) : (s.enter i tableId).IsSound := by
  rw [enter_eq h]
  split
  . exact h
  . exact Lock.Registry.isSound_enter h tableId i

theorem holder?_enter {i k : Nat} (h : s.locks.IsSound)
    (hholder : s.locks.holder? tableId = some k) : (s.enter i tableId).holder? tableId = some k := by
  have hsound : (s.enter i tableId).IsSound := isSound_enter h i
  rw [Lock.Registry.holder?_eq_head? hsound, enter_eq h]
  rw [Lock.Registry.holder?_eq_head? h] at hholder
  split
  . exact hholder
  . rw [Lock.Registry.queue_enter h, if_pos rfl]
    cases hqueue : s.locks.queue tableId with
    | nil => simp [hqueue] at hholder
    | cons first rest => simpa [hqueue] using hholder

end Enter

section Step

variable {source : Source} {s : Interleaving α} {i : Nat}

theorem step_none (h : s.programs[i]? = none) : s.step source i = s := by
  simp [step, h]

theorem step_done {r : Outcome α} (h : s.programs[i]? = some (.done r)) : s.step source i = s := by
  simp [step, h]

theorem step_call {c : Call β} {next : Outcome β → Program α}
    (h : s.programs[i]? = some (.call c next)) (hc : c.isLock = false) :
    s.step source i = { s with world := (s.world.answer source c).2 }.put i
      (next (s.world.answer source c).1) := by
  cases c <;> first | simp [Call.isLock] at hc; done | simp [step, h]

theorem step_release {tableId : String} {next : Outcome Unit → Program α}
    (h : s.programs[i]? = some (.call (.release tableId) next)) :
    s.step source i = { s with locks := s.locks.leave tableId i }.put i (next (.ok ())) := by
  simp [step, h]

theorem step_acquire {tableId : String} {next : Outcome Unit → Program α}
    (h : s.programs[i]? = some (.call (.acquire tableId) next)) :
    s.step source i =
      if (s.enter i tableId).holder? tableId = some i then
        { s with locks := s.enter i tableId }.put i (next (.ok ()))
      else { s with locks := s.enter i tableId } := by
  simp [step, h]

theorem acquires_none (h : s.programs[i]? = none) : s.acquires i = false := by
  simp [acquires, h]

theorem acquires_done {r : Outcome α} (h : s.programs[i]? = some (.done r)) :
    s.acquires i = false := by
  simp [acquires, h]

theorem acquires_call {c : Call β} {next : Outcome β → Program α}
    (h : s.programs[i]? = some (.call c next)) (hc : c.isLock = false) : s.acquires i = false := by
  cases c <;> first | simp [Call.isLock] at hc; done | simp [acquires, h]

theorem acquires_release {tableId : String} {next : Outcome Unit → Program α}
    (h : s.programs[i]? = some (.call (.release tableId) next)) : s.acquires i = false := by
  simp [acquires, h]

theorem acquires_acquire {tableId : String} {next : Outcome Unit → Program α}
    (h : s.programs[i]? = some (.call (.acquire tableId) next)) :
    s.acquires i = ((s.enter i tableId).holder? tableId == some i) := by
  simp [acquires, h]

theorem getElem?_put (s : Interleaving α) (i j : Nat) (p : Program α) :
    (s.put i p).programs[j]? = if i = j ∧ i < s.programs.length then some p else s.programs[j]? := by
  rw [put, List.getElem?_set]
  by_cases hij : i = j
  . subst hij
    by_cases hlt : i < s.programs.length
    . simp [hlt]
    . simp [hlt]
  . simp [hij]

theorem getElem?_put_self {p q : Program α} (h : s.programs[i]? = some q) :
    (s.put i p).programs[i]? = some p := by
  rw [getElem?_put, if_pos ⟨rfl, (List.getElem?_eq_some_iff.mp h).1⟩]

theorem getElem?_put_of_ne {j : Nat} {p : Program α} (h : j ≠ i) :
    (s.put i p).programs[j]? = s.programs[j]? := by
  rw [getElem?_put, if_neg]
  rintro ⟨rfl, -⟩
  exact h rfl

end Step

section Simulation

variable (source : Source) (tableId : String) (programs : List (Program α)) (w : World)

def Finished (order : List Nat) (s : Interleaving α) : Prop :=
  ∀ before i after p, order = before ++ i :: after → programs[i]? = some p →
    s.programs[i]? = some (.done (p.run source (w.serial source programs before)).1)

/--
Either no program holds the lock, and the world is that of running the programs that did one after another,
or the last one to get it holds it, and comes to the same end as if it ran after the others.
-/
inductive Phase (s : Interleaving α) : List Nat → Prop where
  | idle {order : List Nat} : s.world = w.serial source programs order →
    Finished source programs w order s → Phase s order
  | busy {before : List Nat} {i : Nat} {p q : Program α} : programs[i]? = some p → q.WritesLast →
    s.programs[i]? = some (q.held tableId) → s.locks.holder? tableId = some i →
    q.run source s.world = p.run source (w.serial source programs before) →
    Finished source programs w before s → Phase s (before ++ [i])

structure Simulates (order : List Nat) (s : Interleaving α) : Prop where
  nodup : order.Nodup
  sound : s.locks.IsSound
  waits : ∀ i, i ∉ order → s.programs[i]? = programs[i]?
  known : ∀ i ∈ order, i < programs.length
  phase : Phase source tableId programs w s order

variable {source tableId programs w} {order : List Nat} {s : Interleaving α} {i : Nat}

theorem Finished.append (h : Finished source programs w order s) {p : Program α}
    (hp : programs[i]? = some p)
    (hi : s.programs[i]? = some (.done (p.run source (w.serial source programs order)).1)) :
    Finished source programs w (order ++ [i]) s := by
  intro before j after p' hsplit hp'
  rcases List.eq_nil_or_concat after with rfl | ⟨after, k, rfl⟩
  . obtain ⟨rfl, heq⟩ := List.append_inj' hsplit rfl
    obtain rfl : i = j := by simpa using heq
    rw [hp] at hp'
    exact Option.some.inj hp' ▸ hi
  . rw [List.concat_eq_append, ← List.cons_append, ← List.append_assoc] at hsplit
    obtain ⟨rfl, -⟩ := List.append_inj' hsplit rfl
    exact h before j after p' rfl hp'

theorem Finished.put (h : Finished source programs w order s) {s' : Interleaving α}
    (hsame : ∀ j ∈ order, s'.programs[j]? = s.programs[j]?) :
    Finished source programs w order s' := by
  intro before j after p hsplit hp
  rw [hsame j (by simp [hsplit])]
  exact h before j after p hsplit hp

theorem Finished.done (h : Finished source programs w order s) (hi : i ∈ order) {p : Program α}
    (hp : programs[i]? = some p) : ∃ r, s.programs[i]? = some (.done r) := by
  obtain ⟨before, after, hsplit⟩ := List.append_of_mem hi
  exact ⟨_, h before i after p hsplit hp⟩

theorem simulates_start (programs : List (Program α)) (w : World) :
    Simulates source tableId programs w [] { world := w, programs } where
  nodup := List.nodup_nil
  sound := Lock.Registry.isSound_empty
  waits := fun _ _ => rfl
  known := by simp
  phase := .idle rfl (by
    intro before j after p hsplit
    simp at hsplit)

theorem simulates_step_waiting (hguarded : ∀ p ∈ programs, p.IsGuarded tableId)
    (h : Simulates source tableId programs w order s) (hi : i ∉ order) :
    Simulates source tableId programs w (order ++ if s.acquires i then [i] else [])
      (s.step source i) := by
  have hwaits := h.waits i hi
  cases hp : programs[i]? with
  | none =>
    rw [hp] at hwaits
    rw [step_none hwaits, acquires_none hwaits]
    simpa using h
  | some p =>
    rw [hp] at hwaits
    rcases hguarded p (List.mem_of_getElem? hp) with ⟨body, hbody, rfl⟩ | ⟨e, rfl⟩
    . have hcall : s.programs[i]? = some (.call (.acquire tableId) fun r =>
          (done r).bind fun _ => body.held tableId) := hwaits
      have hsound : (s.enter i tableId).IsSound := isSound_enter h.sound i
      rw [step_acquire hcall, acquires_acquire hcall]
      by_cases hholder : (s.enter i tableId).holder? tableId = some i
      . have hlt : i < programs.length := (List.getElem?_eq_some_iff.mp hp).1
        rw [if_pos hholder, hholder, beq_self_eq_true, if_pos rfl]
        have hself : ({ s with locks := s.enter i tableId }.put i
            (body.held tableId)).programs[i]? = some (body.held tableId) :=
          getElem?_put_self hcall
        have hsame (j : Nat) (hj : j ≠ i) : ({ s with locks := s.enter i tableId }.put i
            (body.held tableId)).programs[j]? = s.programs[j]? :=
          getElem?_put_of_ne hj
        refine ⟨?_, hsound, ?_, ?_, ?_⟩
        . rw [List.nodup_append]
          refine ⟨h.nodup, by simp, ?_⟩
          rintro j hj k hk rfl
          exact hi (List.mem_singleton.mp hk ▸ hj)
        . intro j hj
          rw [List.mem_append, List.mem_singleton, not_or] at hj
          rw [← h.waits j hj.1]
          exact hsame j hj.2
        . intro j hj
          rcases List.mem_append.mp hj with hj | hj
          . exact h.known j hj
          . exact List.mem_singleton.mp hj ▸ hlt
        . -- it gets the lock, so no other program can hold it
          cases h.phase with
          | idle hworld hfinished =>
            refine .busy hp hbody hself hholder ?_ ?_
            . rw [run_locked, ← hworld]
              rfl
            . apply hfinished.put
              intro j hj
              exact hsame j (ne_of_mem_of_not_mem hj hi)
          | busy hq _ _ hother =>
            -- the program that holds the lock is in the order, so it is not this one
            rw [holder?_enter h.sound hother, Option.some.injEq] at hholder
            exact absurd (by simp [hholder]) hi
      . rw [if_neg hholder, beq_false_of_ne hholder, if_neg (by simp), List.append_nil]
        refine ⟨h.nodup, hsound, h.waits, h.known, ?_⟩
        cases h.phase with
        | idle hworld hfinished => exact .idle hworld hfinished
        | busy hk hq hheld hother hrun hfinished =>
          exact .busy hk hq hheld (holder?_enter h.sound hother) hrun hfinished
    . rw [step_done hwaits, acquires_done hwaits]
      simpa using h

theorem simulates_step_holding (h : Simulates source tableId programs w order s) (hi : i ∈ order) :
    Simulates source tableId programs w (order ++ if s.acquires i then [i] else [])
      (s.step source i) := by
  have hp := List.getElem?_eq_getElem (h.known i hi)
  cases hphase : h.phase with
  | idle hworld hfinished =>
    obtain ⟨r, hr⟩ := hfinished.done hi hp
    rw [step_done hr, acquires_done hr]
    simpa using h
  | @busy before k p q hk hq hheld hholder hrun hfinished =>
    by_cases hik : i = k
    . subst hik
      have hnot : i ∉ before := by
        intro hmem
        have hnodup := h.nodup
        rw [List.nodup_append] at hnodup
        exact hnodup.2.2 i hmem i (by simp) rfl
      cases q with
      | done r =>
        -- at its end it gives the lock back, and the world is that of the serial run again
        have hrelease : s.programs[i]? =
            some (.call (.release tableId) fun r' => (done r').bind fun _ => .done r) := hheld
        have hmem : i ∈ s.locks.queue tableId := by
          rw [Lock.Registry.holder?_eq_head? h.sound] at hholder
          exact List.mem_of_head? hholder
        have hself : ({ s with locks := s.locks.leave tableId i }.put i (.done r)).programs[i]? =
            some (.done r) :=
          getElem?_put_self hrelease
        have hsame (j : Nat) (hj : j ≠ i) : ({ s with locks := s.locks.leave tableId i }.put i
            (.done r)).programs[j]? = s.programs[j]? :=
          getElem?_put_of_ne hj
        rw [step_release hrelease, acquires_release hrelease, if_neg (by simp), List.append_nil]
        refine ⟨h.nodup, Lock.Registry.isSound_leave h.sound hmem, ?_, h.known, .idle ?_ ?_⟩
        . intro j hj
          rw [← h.waits j hj]
          exact hsame j (ne_of_mem_of_not_mem hi hj).symm
        . rw [World.serial_concat hk, ← hrun]
          rfl
        . apply Finished.append _ hk
          . rw [← hrun]
            exact hself
          . apply hfinished.put
            intro j hj
            exact hsame j (ne_of_mem_of_not_mem hj hnot)
      | call c next =>
        obtain ⟨hc, hnext⟩ := writesLast_call hq
        have hcall : s.programs[i]? = some (.call c fun r => (next r).held tableId) := hheld
        have hself : ({ s with world := (s.world.answer source c).2 }.put i
            ((next (s.world.answer source c).1).held tableId)).programs[i]? =
              some ((next (s.world.answer source c).1).held tableId) :=
          getElem?_put_self hcall
        have hsame (j : Nat) (hj : j ≠ i) : ({ s with world := (s.world.answer source c).2 }.put i
            ((next (s.world.answer source c).1).held tableId)).programs[j]? = s.programs[j]? :=
          getElem?_put_of_ne hj
        rw [step_call hcall hc, acquires_call hcall hc, if_neg (by simp), List.append_nil]
        refine ⟨h.nodup, h.sound, ?_, h.known, .busy hk (hnext _) hself hholder hrun ?_⟩
        . intro j hj
          rw [← h.waits j hj]
          exact hsame j (ne_of_mem_of_not_mem hi hj).symm
        . apply hfinished.put
          intro j hj
          exact hsame j (ne_of_mem_of_not_mem hj hnot)
    . have hbefore : i ∈ before := by
        simpa [hik] using hi
      obtain ⟨r, hr⟩ := hfinished.done hbefore hp
      rw [step_done hr, acquires_done hr]
      simpa using h

theorem simulates_run (hguarded : ∀ p ∈ programs, p.IsGuarded tableId) (turns : List Nat)
    (h : Simulates source tableId programs w order s) :
    Simulates source tableId programs w (order ++ s.lockOrder source turns) (s.run source turns) := by
  induction turns generalizing order s with
  | nil => simpa [lockOrder, run] using h
  | cons i turns ih =>
    rw [lockOrder, ← List.append_assoc, run, List.foldl_cons]
    apply ih
    by_cases hi : i ∈ order
    . exact simulates_step_holding h hi
    . exact simulates_step_waiting hguarded h hi

theorem idle_of_done (h : Simulates source tableId programs w order s)
    (hdone : ∀ p ∈ s.programs, (result? p).isSome = true) :
    s.world = w.serial source programs order ∧ Finished source programs w order s := by
  cases h.phase with
  | idle hworld hfinished => exact ⟨hworld, hfinished⟩
  | @busy before i p q _ _ hheld _ _ _ =>
    have hnone : result? (q.held tableId) = none := by
      cases q <;> rfl
    have hsome := hdone _ (List.mem_of_getElem? hheld)
    rw [hnone] at hsome
    simp at hsome

theorem error_of_not_mem (hguarded : ∀ p ∈ programs, p.IsGuarded tableId)
    (h : Simulates source tableId programs w order s)
    (hdone : ∀ p ∈ s.programs, (result? p).isSome = true) {p : Program α}
    (hp : programs[i]? = some p) (hi : i ∉ order) :
    ∃ e, p = .done (.error e) ∧ s.programs[i]? = some (.done (.error e)) := by
  have hwaits := h.waits i hi
  rw [hp] at hwaits
  rcases hguarded p (List.mem_of_getElem? hp) with ⟨body, -, rfl⟩ | ⟨e, rfl⟩
  . have hsome := hdone _ (List.mem_of_getElem? hwaits)
    simp [locked, ask, result?, Bind.bind, Program.bind] at hsome
  . exact ⟨e, rfl, hwaits⟩

end Simulation

end Interleaving
end TenantTables
