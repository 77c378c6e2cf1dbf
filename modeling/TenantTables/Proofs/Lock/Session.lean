import TenantTables.Lock.Session
import TenantTables.Proofs.Lock.Queue

/-!
This module contains the agreement of the tasks of a session with the queues of its registry: the tasks
in the queue of a table are those that wait for it or hold it, and the first one is the one that
holds it. While a lock passes on, its new holder has been granted it but has not gone on yet.
-/

namespace TenantTables.Lock.Session

open Registry

variable {s : Session} {granted : Option String}

theorem task?_putTask (s : Session) (name : String) (t : Task) (other : String) :
    (s.putTask name t).task? other = if other = name then some t else s.task? other := by
  rw [putTask, task?, lookup_cons, lookup_filter_ne]
  by_cases h : other = name
  . simp [h]
  . simp [h, task?]

theorem nodup_putTask (h : (s.tasks.map (·.1)).Nodup) (name : String) (t : Task) :
    ((s.putTask name t).tasks.map (·.1)).Nodup := by
  rw [putTask, List.map_cons, List.nodup_cons]
  constructor
  . simp
  . exact h.sublist (List.Sublist.map _ List.filter_sublist)

def IsOver (s : Session) (name : String) : Prop :=
  ∀ t, s.task? name = some t → t.status.isActive = false

/--
The tasks agree with the queues. Only the task that was granted its lock does not know it yet.
-/
structure Consistent (s : Session) (granted : Option String) : Prop where
  names : (s.tasks.map (·.1)).Nodup
  sound : s.registry.IsSound
  nodup : ∀ table, (s.registry.queue table).Nodup
  active : ∀ name table, name ∈ s.registry.queue table ↔
    ∃ t, s.task? name = some t ∧ t.table = table ∧ t.status.isActive = true
  holding : ∀ name t, s.task? name = some t →
    (t.status = .holding ↔ (s.registry.queue t.table).head? = some name ∧ granted ≠ some name)

theorem consistent_empty : Consistent {} none where
  names := List.nodup_nil
  sound := isSound_empty
  nodup := by
    intro table
    exact List.nodup_nil
  active := by
    intro name table
    simp [task?, queue, find?]
  holding := by
    intro name t h
    simp [task?] at h

theorem mem_queue (h : Consistent s granted) {name : String} {t : Task}
    (ht : s.task? name = some t) (hactive : t.status.isActive = true) :
    name ∈ s.registry.queue t.table :=
  (h.active name t.table).mpr ⟨t, ht, rfl, hactive⟩

theorem not_mem_queue (h : Consistent s granted) {name : String}
    (hover : s.IsOver name) (table : String) :
    name ∉ s.registry.queue table := by
  intro hmem
  obtain ⟨t, ht, -, hactive⟩ := (h.active name table).mp hmem
  rw [hover t ht] at hactive
  contradiction

theorem table_of_mem_queue (h : Consistent s granted) {name table : String} {t : Task}
    (ht : s.task? name = some t) (hmem : name ∈ s.registry.queue table) : t.table = table := by
  obtain ⟨u, hu, htable, -⟩ := (h.active name table).mp hmem
  rw [ht] at hu
  rw [Option.some.inj hu, htable]

theorem isActive_of_mem_queue (h : Consistent s granted) {name table : String} {t : Task}
    (ht : s.task? name = some t) (hmem : name ∈ s.registry.queue table) :
    t.status.isActive = true := by
  obtain ⟨u, hu, -, hactive⟩ := (h.active name table).mp hmem
  rw [ht] at hu
  rw [Option.some.inj hu, hactive]

theorem consistent_putTask (h : Consistent s granted) {name : String} {t u : Task}
    {granted' : Option String} (ht : s.task? name = some t) (htable : u.table = t.table)
    (hactive : u.status.isActive = t.status.isActive)
    (hholding : u.status = .holding ↔
      (s.registry.queue t.table).head? = some name ∧ granted' ≠ some name)
    (hgranted : ∀ other, other ≠ name → (granted ≠ some other ↔ granted' ≠ some other)) :
    Consistent (s.putTask name u) granted' where
  names := nodup_putTask h.names name u
  sound := h.sound
  nodup := h.nodup
  active := by
    intro other table
    rw [task?_putTask]
    by_cases hother : other = name
    . rw [if_pos hother, hother]
      constructor
      . intro hmem
        refine ⟨u, rfl, ?_, ?_⟩
        . rw [htable, table_of_mem_queue h ht hmem]
        . rw [hactive, isActive_of_mem_queue h ht hmem]
      . rintro ⟨v, hv, hvtable, hvactive⟩
        rw [← Option.some.inj hv] at hvtable hvactive
        rw [← hvtable, htable]
        apply mem_queue h ht
        rw [← hactive, hvactive]
    . rw [if_neg hother]
      exact h.active other table
  holding := by
    intro other v hv
    rw [task?_putTask] at hv
    by_cases hother : other = name
    . rw [if_pos hother] at hv
      rw [← Option.some.inj hv, htable, hother]
      exact hholding
    . rw [if_neg hother] at hv
      rw [← hgranted other hother]
      exact h.holding other v hv

theorem consistent_enter (h : Consistent s none) {name : String} (table : String)
    (hover : s.IsOver name) :
    Consistent (s.enter name table) none where
  names := nodup_putTask h.names name _
  sound := isSound_enter h.sound table name
  nodup := by
    intro other
    have hnot := not_mem_queue h hover table
    change ((s.registry.enter table name).queue other).Nodup
    rw [queue_enter h.sound]
    split
    . simpa [List.nodup_append, h.nodup table] using fun a ha => ne_of_mem_of_not_mem ha hnot
    . exact h.nodup other
  active := by
    intro other table'
    change other ∈ (s.registry.enter table name).queue table' ↔ _
    rw [queue_enter h.sound, enter, task?_putTask]
    by_cases hother : other = name
    . rw [if_pos hother, hother]
      have hnot := not_mem_queue h hover
      by_cases htable : table' = table
      . simp only [htable, ↓reduceIte, List.mem_append, List.mem_singleton, or_true, true_iff]
        refine ⟨_, rfl, rfl, ?_⟩
        dsimp only
        split <;> rfl
      . simp only [htable, ↓reduceIte, hnot table', false_iff]
        rintro ⟨t, ht, htable', -⟩
        rw [← Option.some.inj ht] at htable'
        exact htable htable'.symm
    . rw [if_neg hother]
      by_cases htable : table' = table
      . rw [if_pos htable, List.mem_append, List.mem_singleton, ← htable]
        simp only [hother, or_false]
        exact h.active other table'
      . rw [if_neg htable]
        exact h.active other table'
  holding := by
    intro other t ht
    have hsound := isSound_enter h.sound table name
    rw [enter, task?_putTask] at ht
    by_cases hother : other = name
    . rw [if_pos hother] at ht
      rw [← Option.some.inj ht, hother]
      change _ ↔ ((s.registry.enter table name).queue table).head? = some name ∧ _
      rw [holder?_eq_head? hsound]
      dsimp only
      split <;> simp_all
    . rw [if_neg hother] at ht
      change _ ↔ ((s.registry.enter table name).queue t.table).head? = some other ∧ _
      rw [h.holding other t ht, queue_enter h.sound]
      split
      . next htable =>
        rw [htable]
        cases s.registry.queue table with
        | nil => simp [Ne.symm hother]
        | cons first rest => simp
      . rfl

theorem consistent_remove (h : Consistent s granted) {name : String} {t : Task} {status : Status}
    (ht : s.task? name = some t) (hactive : t.status.isActive = true)
    (hover : status.isActive = false) (hgranted : granted = none ∨ granted = some name) :
    Consistent (s.remove name t status)
      (if (s.registry.queue t.table).head? = some name
        then ((s.registry.queue t.table).erase name).head? else none) where
  names := nodup_putTask h.names name _
  sound := isSound_leave h.sound (mem_queue h ht hactive)
  nodup := by
    intro table
    change ((s.registry.leave t.table name).queue table).Nodup
    rw [queue_leave h.sound (mem_queue h ht hactive)]
    split
    . exact (h.nodup t.table).erase name
    . exact h.nodup table
  active := by
    intro other table
    change other ∈ (s.registry.leave t.table name).queue table ↔ _
    rw [queue_leave h.sound (mem_queue h ht hactive), remove, task?_putTask]
    by_cases hother : other = name
    . rw [if_pos hother, hother]
      constructor
      . intro hmem
        split at hmem
        . exact absurd hmem ((h.nodup t.table).not_mem_erase)
        . next htable => exact absurd (table_of_mem_queue h ht hmem).symm htable
      . rintro ⟨u, hu, -, huactive⟩
        rw [← Option.some.inj hu] at huactive
        exact absurd (hover.symm.trans huactive) (by simp)
    . rw [if_neg hother]
      split
      . next htable =>
        rw [List.mem_erase_of_ne hother, htable]
        exact h.active other t.table
      . exact h.active other table
  holding := by
    -- the next task of the queue is granted the lock, but does not know it yet
    intro other u hu
    have hmem := mem_queue h ht hactive
    change _ ↔ ((s.registry.leave t.table name).queue u.table).head? = some other ∧ _
    rw [remove, task?_putTask] at hu
    rw [queue_leave h.sound hmem]
    by_cases hother : other = name
    . rw [if_pos hother] at hu
      rw [← Option.some.inj hu, hother, if_pos rfl]
      constructor
      . intro hstatus
        rw [show status = .holding from hstatus] at hover
        contradiction
      . rintro ⟨hhead, -⟩
        exact absurd (List.mem_of_head? hhead) ((h.nodup t.table).not_mem_erase)
    . rw [if_neg hother] at hu
      have hnot : granted ≠ some other := by
        rcases hgranted with hnone | hname
        . simp [hnone]
        . rw [hname]
          simpa using Ne.symm hother
      rw [h.holding other u hu]
      by_cases htable : u.table = t.table
      . rw [if_pos htable, htable]
        cases hqueue : s.registry.queue t.table with
        | nil =>
          rw [hqueue] at hmem
          simp at hmem
        | cons first rest =>
          by_cases hfirst : first = name
          . simp [hfirst, Ne.symm hother]
          . simp [hfirst, hnot]
      . rw [if_neg htable]
        have hqueue : other ∉ s.registry.queue t.table := by
          intro hmem'
          exact htable (table_of_mem_queue h hu hmem')
        have : (if (s.registry.queue t.table).head? = some name
            then ((s.registry.queue t.table).erase name).head? else none) ≠ some other := by
          split
          . intro hhead
            exact hqueue (List.mem_of_mem_erase (List.mem_of_head? hhead))
          . simp
        simp [hnot, this]

theorem resume_of_consistent (h : Consistent s none) (name : String) : s.resume name = s := by
  unfold resume
  split
  . next t ht =>
    rw [if_neg]
    rintro ⟨hwaiting, hholder⟩
    rw [holder?_eq_head? h.sound] at hholder
    have hholding := (h.holding name t ht).mpr ⟨hholder, by simp⟩
    rw [hwaiting] at hholding
    contradiction
  . rfl

theorem foldl_resume_of_consistent (h : Consistent s none) (names : List String) :
    names.foldl resume s = s := by
  induction names with
  | nil => rfl
  | cons name names ih => rw [List.foldl_cons, resume_of_consistent h, ih]

/--
What the tasks of a queue do once the first of them is granted the lock. Those that were told to end
do so in their order, and the first one of the others holds the lock.
-/
structure Settled (s s' : Session) (queue : List String) (table : String) : Prop where
  consistent : Consistent s' none
  sublist : (s'.registry.queue table).Sublist queue
  others : ∀ other, other ≠ table → s'.registry.queue other = s.registry.queue other
  untouched : ∀ name, name ∉ queue → s'.task? name = s.task? name
  behind : ∀ first later, first ∈ s'.registry.queue table → [first, later].Sublist queue →
    s'.task? later = s.task? later
  tables : ∀ name t, s'.task? name = some t → ∃ u, s.task? name = some u ∧ u.table = t.table
  head : ∀ name t, queue.head? = some name → s.task? name = some t →
    ∃ u, s'.task? name = some u ∧ u.status = (t.told.elim .holding Ending.status)

theorem registry_remove (s : Session) (name : String) (t : Task) (status : Status) :
    (s.remove name t status).registry = s.registry.leave t.table name := rfl

theorem task?_remove (s : Session) (name : String) (t : Task) (status : Status) (other : String) :
    (s.remove name t status).task? other =
      if other = name then some { t with status } else s.task? other := by
  rw [remove, task?_putTask]
  rfl

section Granted

variable {name : String} {t : Task} (h : Consistent s (some name)) (ht : s.task? name = some t)
  (hwaiting : t.status = .waiting) (hhead : (s.registry.queue t.table).head? = some name)

include h ht hwaiting hhead

theorem resume_granted (htold : t.told = none) :
    s.resume name = s.putTask name { t with status := .holding } := by
  have hholder := holder?_eq_head? h.sound t.table
  rw [hhead] at hholder
  unfold resume
  rw [ht]
  dsimp only
  rw [if_pos ⟨hwaiting, hholder⟩]
  split
  . next e he => simp [htold] at he
  . rfl

theorem resume_granted_told {e : Ending} (htold : t.told = some e) :
    s.resume name = s.remove name t e.status := by
  have hholder := holder?_eq_head? h.sound t.table
  rw [hhead] at hholder
  unfold resume
  rw [ht]
  dsimp only
  rw [if_pos ⟨hwaiting, hholder⟩, htold]

theorem settled_granted {queue : List String} (hqueue : s.registry.queue t.table = name :: queue)
    (htold : t.told = none) :
    Settled s (s.putTask name { t with status := .holding }) (name :: queue) t.table where
  consistent := by
    apply consistent_putTask (u := { t with status := .holding }) h ht rfl
    . rw [hwaiting]
      rfl
    . simp [hhead]
    . intro other hother
      simp [Ne.symm hother]
  sublist := by
    rw [← hqueue]
    exact List.Sublist.refl _
  others := by
    intro other _
    rfl
  untouched := by
    intro other hother
    rw [task?_putTask, if_neg (by simp_all)]
  behind := by
    -- the task holds the lock from now on, so none behind it goes on
    intro first later _ hsub
    have hnodup := h.nodup t.table
    rw [hqueue, List.nodup_cons] at hnodup
    have hlater : later ∈ queue := by
      cases hsub with
      | cons _ hsub => exact hsub.subset (by simp)
      | cons_cons _ hsub => exact hsub.subset (by simp)
    rw [task?_putTask, if_neg (ne_of_mem_of_not_mem hlater hnodup.1)]
  tables := by
    intro other u hu
    rw [task?_putTask] at hu
    split at hu
    . next hother =>
      rw [← Option.some.inj hu, hother]
      exact ⟨t, ht, rfl⟩
    . exact ⟨u, hu, rfl⟩
  head := by
    intro first u hfirst hu
    obtain rfl : name = first := by simpa using hfirst
    rw [ht] at hu
    rw [← Option.some.inj hu, htold, task?_putTask, if_pos rfl]
    exact ⟨_, rfl, rfl⟩

end Granted

theorem settled_of_remove {s' : Session} {name : String} {t : Task} {e : Ending} {queue : List String}
    (h : Consistent s granted) (ht : s.task? name = some t) (hactive : t.status.isActive = true)
    (htold : t.told = some e) (hqueue : s.registry.queue t.table = name :: queue)
    (hsettled : Settled (s.remove name t e.status) s' queue t.table) :
    Settled s s' (name :: queue) t.table := by
  have hmem := mem_queue h ht hactive
  have hnodup := h.nodup t.table
  rw [hqueue, List.nodup_cons] at hnodup
  have hne : ∀ other ∈ queue, other ≠ name := by
    intro other hother
    exact ne_of_mem_of_not_mem hother hnodup.1
  exact {
    consistent := hsettled.consistent
    sublist := hsettled.sublist.cons name
    others := by
      intro other hother
      rw [hsettled.others other hother, registry_remove, queue_leave h.sound hmem, if_neg hother]
    untouched := by
      intro other hother
      rw [List.mem_cons, not_or] at hother
      rw [hsettled.untouched other hother.2, task?_remove, if_neg hother.1]
    behind := by
      intro first later hfirst hsub
      have hin := hsettled.sublist.subset hfirst
      have hsub : [first, later].Sublist queue := by
        cases hsub with
        | cons _ hsub => exact hsub
        | cons_cons _ hsub => exact absurd rfl (hne _ hin)
      rw [hsettled.behind first later hfirst hsub, task?_remove,
        if_neg (hne later (hsub.subset (by simp)))]
    tables := by
      intro other u hu
      obtain ⟨v, hv, hvtable⟩ := hsettled.tables other u hu
      rw [task?_remove] at hv
      split at hv
      . next hother =>
        rw [← Option.some.inj hv] at hvtable
        rw [hother]
        exact ⟨t, ht, hvtable⟩
      . exact ⟨v, hv, hvtable⟩
    head := by
      intro first u hfirst hu
      obtain rfl : name = first := by simpa using hfirst
      rw [ht] at hu
      rw [← Option.some.inj hu, htold, hsettled.untouched name hnodup.1, task?_remove, if_pos rfl]
      exact ⟨_, rfl, rfl⟩ }

theorem isActive_status (e : Ending) : e.status.isActive = false := by
  cases e <;> rfl

theorem settled_foldl_resume (queue : List String) (table : String)
    (hqueue : s.registry.queue table = queue) (h : Consistent s queue.head?)
    (hwaiting : ∀ name ∈ queue, ∃ t, s.task? name = some t ∧ t.table = table ∧ t.status = .waiting) :
    Settled s (queue.foldl resume s) queue table := by
  induction queue generalizing s with
  | nil =>
    exact {
      consistent := h
      sublist := by rw [List.foldl_nil, hqueue]
      others := by intros; rfl
      untouched := by intros; rfl
      behind := by intros; rfl
      tables := fun name t ht => ⟨t, ht, rfl⟩
      head := by simp }
  | cons name queue ih =>
    obtain ⟨t, ht, htable, hstatus⟩ := hwaiting name (List.mem_cons_self ..)
    subst htable
    have hhead : (s.registry.queue t.table).head? = some name := by
      rw [hqueue]
      rfl
    rw [List.foldl_cons]
    cases htold : t.told with
    | none =>
      have hsettled := settled_granted h ht hstatus hhead hqueue htold
      rw [resume_granted h ht hstatus hhead htold, foldl_resume_of_consistent hsettled.consistent]
      exact hsettled
    | some e =>
      have hactive : t.status.isActive = true := by
        rw [hstatus]
        rfl
      have hconsistent := consistent_remove h ht hactive (isActive_status e) (.inr rfl)
      rw [if_pos hhead, hqueue, List.erase_cons_head] at hconsistent
      rw [resume_granted_told h ht hstatus hhead htold]
      apply settled_of_remove h ht hactive htold hqueue
      apply ih
      . rw [registry_remove, queue_leave h.sound (mem_queue h ht hactive), if_pos rfl, hqueue,
          List.erase_cons_head]
      . exact hconsistent
      . intro other hother
        have hnodup := h.nodup t.table
        rw [hqueue, List.nodup_cons] at hnodup
        rw [task?_remove, if_neg (ne_of_mem_of_not_mem hother hnodup.1)]
        exact hwaiting other (List.mem_cons_of_mem _ hother)

/--
What becomes of a session when a task leaves its lock and is over. The other tasks of its queue keep
their order, a task goes on only if none of those before it is left, and the next one in turn goes on
if the lock was held by the task that left.
-/
structure Released (s s' : Session) (name : String) (t : Task) (status : Status) : Prop where
  consistent : Consistent s' none
  gone : s'.task? name = some { t with status }
  sublist : ∀ table, (s'.registry.queue table).Sublist (s.registry.queue table)
  behind : ∀ table first later, later ≠ name → first ∈ s'.registry.queue table →
    [first, later].Sublist (s.registry.queue table) → s'.task? later = s.task? later
  untouched : ∀ other, other ≠ name → (∀ table, other ∉ s.registry.queue table) →
    s'.task? other = s.task? other
  tables : ∀ other u, s'.task? other = some u → ∃ v, s.task? other = some v ∧ v.table = u.table
  next : ∀ first rest u, s.registry.queue t.table = name :: first :: rest →
    s.task? first = some u → ∃ v, s'.task? first = some v ∧ v.status = (u.told.elim .holding Ending.status)

section Leave

variable {name : String} {t : Task} {status : Status}

theorem waiting_of_mem_tail (h : Consistent s none) {table first other : String} {rest : List String}
    (hqueue : s.registry.queue table = first :: rest) (hother : other ∈ rest) :
    ∃ t, s.task? other = some t ∧ t.table = table ∧ t.status = .waiting := by
  have hnodup := h.nodup table
  rw [hqueue, List.nodup_cons] at hnodup
  have hmem : other ∈ s.registry.queue table := by
    rw [hqueue]
    exact List.mem_cons_of_mem _ hother
  obtain ⟨t, ht, htable, hactive⟩ := (h.active other table).mp hmem
  refine ⟨t, ht, htable, ?_⟩
  have hholding := h.holding other t ht
  rw [htable, hqueue, List.head?_cons, Option.some.injEq] at hholding
  have hne := ne_of_mem_of_not_mem hother hnodup.1
  cases hstatus : t.status with
  | waiting => rfl
  | holding => exact absurd (hholding.mp hstatus).1.symm hne
  | done => simp [hstatus, Status.isActive] at hactive
  | failed => simp [hstatus, Status.isActive] at hactive
  | cancelled => simp [hstatus, Status.isActive] at hactive

variable (h : Consistent s none) (ht : s.task? name = some t) (hactive : t.status.isActive = true)
  (hover : status.isActive = false)

include h ht hactive hover

theorem released_holder {rest : List String} (hqueue : s.registry.queue t.table = name :: rest) :
    Released s (s.leave name t status) name t status := by
  have hmem := mem_queue h ht hactive
  have hnodup := h.nodup t.table
  rw [hqueue, List.nodup_cons] at hnodup
  have hne : ∀ other ∈ rest, other ≠ name := by
    intro other hother
    exact ne_of_mem_of_not_mem hother hnodup.1
  have hrest : (s.remove name t status).registry.queue t.table = rest := by
    rw [registry_remove, queue_leave h.sound hmem, if_pos rfl, hqueue, List.erase_cons_head]
  have hconsistent := consistent_remove h ht hactive hover (.inl rfl)
  rw [hqueue, List.head?_cons, if_pos rfl, List.erase_cons_head] at hconsistent
  have hsettled : Settled (s.remove name t status) (s.leave name t status) rest t.table := by
    rw [leave, waiting_eq_tail h.sound, hqueue, List.tail_cons]
    apply settled_foldl_resume rest t.table hrest hconsistent
    intro other hother
    rw [task?_remove, if_neg (hne other hother)]
    exact waiting_of_mem_tail h hqueue hother
  exact {
    consistent := hsettled.consistent
    gone := by rw [hsettled.untouched name hnodup.1, task?_remove, if_pos rfl]
    sublist := by
      intro table
      by_cases htable : table = t.table
      . rw [htable, hqueue]
        exact hsettled.sublist.cons name
      . rw [hsettled.others table htable, registry_remove, queue_leave h.sound hmem, if_neg htable]
    behind := by
      intro table first later hlater hfirst hsub
      have hin : later ∈ s.registry.queue table := hsub.subset (by simp)
      by_cases htable : table = t.table
      . rw [htable] at hfirst
        rw [htable, hqueue] at hsub
        have hsub : [first, later].Sublist rest := by
          cases hsub with
          | cons _ hsub => exact hsub
          | cons_cons _ hsub => exact absurd (hsettled.sublist.subset hfirst) hnodup.1
        rw [hsettled.behind first later hfirst hsub, task?_remove, if_neg hlater]
      . have hnot : later ∉ rest := by
          intro hrest
          obtain ⟨u, hu, hutable, -⟩ := waiting_of_mem_tail h hqueue hrest
          exact htable ((table_of_mem_queue h hu hin).symm.trans hutable)
        rw [hsettled.untouched later hnot, task?_remove, if_neg hlater]
    untouched := by
      intro other hother hnot
      have hrest : other ∉ rest := by
        intro hrest
        apply hnot t.table
        rw [hqueue]
        exact List.mem_cons_of_mem _ hrest
      rw [hsettled.untouched other hrest, task?_remove, if_neg hother]
    tables := by
      intro other u hu
      obtain ⟨v, hv, hvtable⟩ := hsettled.tables other u hu
      rw [task?_remove] at hv
      split at hv
      . next hother =>
        rw [← Option.some.inj hv] at hvtable
        rw [hother]
        exact ⟨t, ht, hvtable⟩
      . exact ⟨v, hv, hvtable⟩
    next := by
      intro first behind u hsplit hu
      rw [hqueue, List.cons.injEq] at hsplit
      apply hsettled.head first u
      . rw [hsplit.2]
        rfl
      . rw [task?_remove, if_neg (hne first (by simp [hsplit.2]))]
        exact hu }

theorem released_waiter (hhead : (s.registry.queue t.table).head? ≠ some name) :
    Released s (s.leave name t status) name t status := by
  have hmem := mem_queue h ht hactive
  have hconsistent := consistent_remove h ht hactive hover (.inl rfl)
  rw [if_neg hhead] at hconsistent
  rw [leave, foldl_resume_of_consistent hconsistent]
  exact {
    consistent := hconsistent
    gone := by rw [task?_remove, if_pos rfl]
    sublist := by
      intro table
      rw [registry_remove, queue_leave h.sound hmem]
      split
      . next htable =>
        rw [htable]
        exact List.erase_sublist
      . exact List.Sublist.refl _
    behind := by
      intro table first later hlater _ _
      rw [task?_remove, if_neg hlater]
    untouched := by
      intro other hother _
      rw [task?_remove, if_neg hother]
    tables := by
      intro other u hu
      rw [task?_remove] at hu
      split at hu
      . next hother =>
        rw [← Option.some.inj hu, hother]
        exact ⟨t, ht, rfl⟩
      . exact ⟨u, hu, rfl⟩
    next := by
      intro first rest u hqueue
      rw [hqueue] at hhead
      simp at hhead }

theorem released_leave : Released s (s.leave name t status) name t status := by
  by_cases hhead : (s.registry.queue t.table).head? = some name
  . obtain ⟨rest, hqueue⟩ := List.head?_eq_some_iff.mp hhead
    exact released_holder h ht hactive hover hqueue
  . exact released_waiter h ht hactive hover hhead

end Leave

theorem isActive_eq_true_iff (status : Status) :
    status.isActive = true ↔ status = .waiting ∨ status = .holding := by
  cases status <;> simp [Status.isActive]

theorem consistent_told (h : Consistent s none) {name : String} {t : Task}
    (ht : s.task? name = some t) (e : Ending) :
    Consistent (s.putTask name { t with told := some e }) none := by
  apply consistent_putTask (u := { t with told := some e }) h ht rfl rfl
  . exact h.holding name t ht
  . intro other _
    rfl

inductive Move (s : Session) : Session → Prop where
  | idle : Move s s
  | enter (name table : String) (hover : s.IsOver name) : Move s (s.enter name table)
  | tell (name : String) (t : Task) (e : Ending) (ht : s.task? name = some t) :
    Move s (s.putTask name { t with told := some e })
  | leave (name : String) (t : Task) (status : Status) (ht : s.task? name = some t)
    (hactive : t.status.isActive = true) (hover : status.isActive = false)
    (hreason : t.status = .holding ∨ status = .cancelled) : Move s (s.leave name t status)

theorem isOver_of_some {name : String} {t : Task} (ht : s.task? name = some t)
    (hover : t.status.isActive = false) : s.IsOver name := by
  intro u hu
  rw [ht] at hu
  rw [← Option.some.inj hu, hover]

theorem isOver_of_none {name : String} (hnone : s.task? name = none) : s.IsOver name := by
  intro t ht
  rw [hnone] at ht
  contradiction

theorem move_step (s : Session) (step : Step) : Move s (s.step step) := by
  cases step with
  | enter name table =>
    unfold Session.step
    dsimp only
    split
    . next t ht =>
      split
      . exact .idle
      . next hover => exact .enter name table (isOver_of_some ht (by simpa using hover))
    . next hnone => exact .enter name table (isOver_of_none hnone)
  | finish name e =>
    unfold Session.step
    dsimp only
    split
    . next t ht =>
      split
      . next hstatus =>
        have hactive := (isActive_eq_true_iff _).mpr (.inr hstatus)
        exact .leave name t e.status ht hactive (isActive_status e) (.inl hstatus)
      . split
        . exact .tell name t e ht
        . exact .idle
      . exact .idle
    . exact .idle
  | cancel name =>
    unfold Session.step
    dsimp only
    split
    . next t ht =>
      split
      . next hactive => exact .leave name t .cancelled ht hactive rfl (.inr rfl)
      . exact .idle
    . exact .idle

theorem consistent_move (h : Consistent s none) {s' : Session} (hmove : Move s s') :
    Consistent s' none := by
  cases hmove with
  | idle => exact h
  | enter name table hover => exact consistent_enter h table hover
  | tell name t e ht => exact consistent_told h ht e
  | leave name t status ht hactive hover => exact (released_leave h ht hactive hover).consistent

theorem consistent_run (h : Consistent s none) (steps : List Step) : Consistent (s.run steps) none := by
  induction steps generalizing s with
  | nil => exact h
  | cons step steps ih =>
    rw [run, List.foldl_cons]
    exact ih (consistent_move h (move_step s step))

end TenantTables.Lock.Session
