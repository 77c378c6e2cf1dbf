import TenantTables.Proofs.Lock.Session

/-!
This module contains what tasks may rely on whatever steps a session takes: a lock has one holder, it
is there exactly as long as it is used, no task waits for a lock that nobody holds, and a task that
came later gets a lock only after those that came before it.
-/

namespace TenantTables.Lock.Session

open Registry

variable {s : Session}

def Holds (s : Session) (name table : String) : Prop :=
  ∃ t, s.task? name = some t ∧ t.table = table ∧ t.status = .holding

def Waits (s : Session) (name table : String) : Prop :=
  ∃ t, s.task? name = some t ∧ t.table = table ∧ t.status = .waiting

def users (s : Session) (table : String) : List String :=
  (s.tasks.filter fun e => e.2.table == table && e.2.status.isActive).map (·.1)

def IsBehind (s : Session) (name table : String) : Prop :=
  ∀ t, s.task? name = some t → t.table = table → t.status = .waiting ∨ t.status = .cancelled

structure IsSafe (s : Session) : Prop where
  exclusive : ∀ table name other, s.Holds name table → s.Holds other table → name = other
  isHeld : ∀ table, s.registry.isHeld table = true ↔ ∃ name, s.Holds name table
  distinct : (s.registry.entries.map (·.1)).Nodup
  registered : ∀ table, table ∈ s.registry.entries.map (·.1) ↔ s.users table ≠ []
  counted : ∀ table e, (table, e) ∈ s.registry.entries → e.users = (s.users table).length
  -- No wake-up is lost.
  attended : ∀ table name, s.Waits name table → ∃ other, s.Holds other table
  -- A task does not overtake one that was there before it.
  ordered : ∀ table first later, first ∈ s.users table →
    (∀ t, s.task? later = some t → t.table ≠ table) → ∀ steps,
      (∀ n, first ∈ (s.run (steps.take n)).users table) → (s.run steps).IsBehind later table
  -- The lock goes to the task that waits the longest, which may have been told to end by then.
  handed : ∀ table name first rest, s.Holds name table → s.registry.waiting table = first :: rest →
    ∀ step, (step = .cancel name ∨ ∃ e, step = .finish name e) →
      ∃ t u, s.task? first = some t ∧ (s.step step).task? first = some u ∧
        u.status = t.told.elim .holding Ending.status
  -- No matter which other tables are held.
  free : ∀ table name, s.IsOver name → (∀ other, ¬ s.Holds other table) →
    (s.step (.enter name table)).Holds name table
  cleared : (∀ name, s.IsOver name) → s.registry.size = 0 ∧ ∀ table, s.registry.isHeld table = false

theorem nodup_users (h : Consistent s none) (table : String) : (s.users table).Nodup :=
  h.names.sublist (List.filter_sublist.map _)

theorem mem_users_iff (h : Consistent s none) (name table : String) :
    name ∈ s.users table ↔ name ∈ s.registry.queue table := by
  rw [h.active, users, List.mem_map]
  constructor
  . rintro ⟨⟨key, t⟩, ht, rfl⟩
    simp only [List.mem_filter, Bool.and_eq_true, beq_iff_eq] at ht
    exact ⟨t, (lookup_eq_some_iff_mem h.names _ _).mpr ht.1, ht.2⟩
  . rintro ⟨t, ht, htable, hactive⟩
    have hmem := (lookup_eq_some_iff_mem h.names _ _).mp ht
    exact ⟨(name, t), by simp [hmem, htable, hactive], rfl⟩

theorem length_users (h : Consistent s none) (table : String) :
    (s.users table).length = (s.registry.queue table).length := by
  apply List.Perm.length_eq
  rw [List.perm_ext_iff_of_nodup (nodup_users h table) (h.nodup table)]
  intro name
  exact mem_users_iff h name table

theorem users_eq_nil_iff (h : Consistent s none) (table : String) :
    s.users table = [] ↔ s.registry.find? table = none := by
  rw [← queue_eq_nil_iff h.sound, ← List.length_eq_zero_iff, length_users h, List.length_eq_zero_iff]

theorem holds_iff_head? (h : Consistent s none) (name table : String) :
    s.Holds name table ↔ (s.registry.queue table).head? = some name := by
  constructor
  . rintro ⟨t, ht, rfl, hstatus⟩
    exact ((h.holding name t ht).mp hstatus).1
  . intro hhead
    obtain ⟨t, ht, rfl, -⟩ := (h.active name table).mp (List.mem_of_head? hhead)
    exact ⟨t, ht, rfl, (h.holding name t ht).mpr ⟨hhead, by simp⟩⟩

theorem isOver_iff (h : Consistent s none) (name : String) :
    s.IsOver name ↔ ∀ table, name ∉ s.registry.queue table := by
  constructor
  . exact not_mem_queue h
  . intro hnot t ht
    rw [← Bool.not_eq_true]
    intro hactive
    exact hnot t.table (mem_queue h ht hactive)

def Follows (s : Session) (first later table : String) : Prop :=
  ∀ t, s.task? later = some t → t.table = table →
    (t.status = .waiting ∧ [first, later].Sublist (s.registry.queue table)) ∨ t.status = .cancelled

section Follows

variable {first later table : String} (h : Consistent s none)

include h

theorem follows_enter (hfirst : first ∈ s.registry.queue table) (hf : s.Follows first later table)
    (name table' : String) (hover : s.IsOver name) :
    (s.enter name table').Follows first later table := by
  intro t ht htable
  change _ ∧ List.Sublist _ ((s.registry.enter table' name).queue table) ∨ _
  rw [queue_enter h.sound]
  rw [enter, task?_putTask] at ht
  by_cases hlater : later = name
  . left
    rw [if_pos hlater] at ht
    rw [← Option.some.inj ht] at htable ⊢
    change table' = table at htable
    rw [if_pos htable.symm, hlater, htable]
    constructor
    . rw [if_neg]
      rw [holder?_eq_head? (isSound_enter h.sound table name), queue_enter h.sound, if_pos rfl]
      have hne : first ≠ name := ne_of_mem_of_not_mem hfirst ((isOver_iff h name).mp hover table)
      cases hqueue : s.registry.queue table with
      | nil => simp [hqueue] at hfirst
      | cons holder rest =>
        rw [List.cons_append, List.head?_cons, Option.some.injEq]
        intro hholder
        have hmem : name ∈ s.registry.queue table := by simp [hqueue, hholder]
        exact (isOver_iff h name).mp hover table hmem
    . have := (List.singleton_sublist.mpr hfirst).append (List.Sublist.refl [name])
      simpa using this
  . rw [if_neg hlater] at ht
    rcases hf t ht htable with ⟨hstatus, hsub⟩ | hstatus
    . left
      refine ⟨hstatus, ?_⟩
      split
      . next hsame =>
        rw [← hsame]
        exact hsub.trans (List.sublist_append_left _ _)
      . exact hsub
    . right
      exact hstatus

theorem follows_released {s' : Session} {name : String} {u : Task} {status : Status}
    (hr : Released s s' name u status)
    (hfirst : first ∈ s'.registry.queue table) (hf : s.Follows first later table)
    (hown : name = later → u.table = table → status = .cancelled) :
    s'.Follows first later table := by
  intro t ht htable
  by_cases hlater : later = name
  . right
    rw [hlater, hr.gone] at ht
    rw [← Option.some.inj ht] at htable ⊢
    exact hown hlater.symm htable
  . obtain ⟨v, hv, hvtable⟩ := hr.tables later t ht
    rw [htable] at hvtable
    rcases hf v hv hvtable with ⟨hstatus, hsub⟩ | hstatus
    . left
      have hsame := hr.behind table first later hlater hfirst hsub
      rw [ht, hv] at hsame
      rw [Option.some.inj hsame]
      refine ⟨hstatus, ?_⟩
      have hmem : later ∈ s'.registry.queue table := by
        rw [hr.consistent.active]
        refine ⟨t, ht, htable, ?_⟩
        rw [Option.some.inj hsame, hstatus]
        rfl
      exact pair_sublist_of_sublist (hr.sublist table) (h.nodup table) hsub hfirst hmem
    . right
      have hover : s.IsOver later := isOver_of_some hv (by rw [hstatus]; rfl)
      have hsame := hr.untouched later hlater ((isOver_iff h later).mp hover)
      rw [ht, hv] at hsame
      rw [Option.some.inj hsame, hstatus]

theorem follows_move {s' : Session} (hmove : Move s s') (hfirst : first ∈ s.registry.queue table)
    (hfirst' : first ∈ s'.registry.queue table) (hf : s.Follows first later table) :
    s'.Follows first later table := by
  cases hmove with
  | idle => exact hf
  | enter name table' hover => exact follows_enter h hfirst hf name table' hover
  | tell name t e ht =>
    intro u hu htable
    rw [task?_putTask] at hu
    split at hu
    . next hlater =>
      rw [← hlater] at ht
      rw [← Option.some.inj hu] at htable ⊢
      exact hf t ht htable
    . exact hf u hu htable
  | leave name t status ht hactive hover hreason =>
    apply follows_released h (released_leave h ht hactive hover) hfirst' hf
    -- A task that holds its lock does not follow another one.
    rintro rfl htable
    rcases hreason with hholding | hcancelled
    . rcases hf t ht htable with ⟨hstatus, -⟩ | hstatus
      . simp [hholding] at hstatus
      . simp [hholding] at hstatus
    . exact hcancelled

theorem follows_run (hf : s.Follows first later table) (steps : List Step)
    (hfirst : ∀ n, first ∈ (s.run (steps.take n)).users table) :
    (s.run steps).Follows first later table := by
  induction steps generalizing s with
  | nil => exact hf
  | cons step steps ih =>
    have hnow := (mem_users_iff h first table).mp (hfirst 0)
    have hmove := move_step s step
    have hconsistent := consistent_move h hmove
    have hnext := (mem_users_iff hconsistent first table).mp (by simpa [run] using hfirst 1)
    apply ih hconsistent
    . exact follows_move h hmove hnow hnext hf
    . intro n
      simpa [run] using hfirst (n + 1)

end Follows

theorem handed_of_consistent (h : Consistent s none) {table name first : String} {rest : List String}
    (hholds : s.Holds name table) (hwaiting : s.registry.waiting table = first :: rest) (step : Step)
    (hstep : step = .cancel name ∨ ∃ e, step = .finish name e) :
    ∃ t u, s.task? first = some t ∧ (s.step step).task? first = some u ∧
      u.status = t.told.elim .holding Ending.status := by
  have hhead := (holds_iff_head? h name table).mp hholds
  obtain ⟨t, ht, rfl, hstatus⟩ := hholds
  have hactive := (isActive_eq_true_iff _).mpr (.inr hstatus)
  rw [waiting_eq_tail h.sound] at hwaiting
  have hqueue : s.registry.queue t.table = name :: first :: rest := by
    obtain ⟨tail, htail⟩ := List.head?_eq_some_iff.mp hhead
    rw [htail, List.tail_cons] at hwaiting
    rw [htail, hwaiting]
  obtain ⟨w, hw, -, -⟩ := waiting_of_mem_tail h hqueue (List.mem_cons_self ..)
  have hreleased : ∃ status, Released s (s.step step) name t status := by
    rcases hstep with rfl | ⟨e, rfl⟩
    . refine ⟨.cancelled, ?_⟩
      simp only [Session.step, ht, hactive, ↓reduceIte]
      exact released_leave h ht hactive rfl
    . refine ⟨e.status, ?_⟩
      simp only [Session.step, ht, hstatus]
      exact released_leave h ht hactive (isActive_status e)
  obtain ⟨status, hreleased⟩ := hreleased
  obtain ⟨u, hu, hustatus⟩ := hreleased.next first rest w hqueue hw
  exact ⟨w, u, hw, hu, hustatus⟩

theorem free_of_consistent (h : Consistent s none) {table name : String} (hover : s.IsOver name)
    (hfree : ∀ other, ¬ s.Holds other table) : (s.step (.enter name table)).Holds name table := by
  have hqueue : s.registry.queue table = [] := by
    cases hqueue : s.registry.queue table with
    | nil => rfl
    | cons other rest =>
      exfalso
      apply hfree other
      rw [holds_iff_head? h, hqueue]
      rfl
  have hstep : s.step (.enter name table) = s.enter name table := by
    unfold Session.step
    dsimp only
    split
    . next t ht => simp [hover t ht]
    . rfl
  have hconsistent := consistent_move h (move_step s (.enter name table))
  rw [holds_iff_head? hconsistent, hstep]
  change ((s.registry.enter table name).queue table).head? = some name
  rw [queue_enter h.sound, if_pos rfl, hqueue]
  rfl

theorem cleared_of_consistent (h : Consistent s none) (hover : ∀ name, s.IsOver name) :
    s.registry.size = 0 ∧ ∀ table, s.registry.isHeld table = false := by
  have hqueue : ∀ table, s.registry.queue table = [] := by
    intro table
    rw [List.eq_nil_iff_forall_not_mem]
    intro name
    exact (isOver_iff h name).mp (hover name) table
  constructor
  . rw [size, List.length_eq_zero_iff, List.eq_nil_iff_forall_not_mem]
    rintro ⟨table, e⟩ hmem
    have hfind := (queue_eq_nil_iff h.sound table).mp (hqueue table)
    rw [find?, (lookup_eq_some_iff_mem h.sound.tables _ _).mpr hmem] at hfind
    contradiction
  . intro table
    rw [isHeld, holder?_eq_head? h.sound, hqueue]
    rfl

theorem isSafe_of_consistent (h : Consistent s none) : s.IsSafe where
  exclusive := by
    intro table name other hname hother
    rw [holds_iff_head? h] at hname hother
    rw [hname] at hother
    exact Option.some.inj hother
  isHeld := by
    intro table
    rw [isHeld, holder?_eq_head? h.sound, Option.isSome_iff_exists]
    simp only [holds_iff_head? h]
  distinct := h.sound.tables
  registered := by
    intro table
    rw [ne_eq, users_eq_nil_iff h, ← ne_eq, Option.ne_none_iff_exists', List.mem_map]
    simp only [find?, lookup_eq_some_iff_mem h.sound.tables]
    constructor
    . rintro ⟨⟨key, e⟩, hmem, rfl⟩
      exact ⟨e, hmem⟩
    . rintro ⟨e, hmem⟩
      exact ⟨(table, e), hmem, rfl⟩
  counted := by
    intro table e hmem
    rw [← lookup_eq_some_iff_mem h.sound.tables] at hmem
    rw [length_users h, (h.sound.entry table e hmem).2]
    simp [Entry.ofQueue]
  attended := by
    rintro table name ⟨t, ht, rfl, hstatus⟩
    have hmem := mem_queue h ht ((isActive_eq_true_iff _).mpr (.inl hstatus))
    cases hqueue : s.registry.queue t.table with
    | nil => simp [hqueue] at hmem
    | cons other rest =>
      refine ⟨other, ?_⟩
      rw [holds_iff_head? h, hqueue]
      rfl
  ordered := by
    intro table first later hfirst hlater steps hsteps t ht htable
    have hf : s.Follows first later table := by
      intro u hu hutable
      exact absurd hutable (hlater u hu)
    rcases follows_run h hf steps hsteps t ht htable with ⟨hstatus, -⟩ | hstatus
    . left
      exact hstatus
    . right
      exact hstatus
  handed := by
    intro table name first rest hholds hwaiting step hstep
    exact handed_of_consistent h hholds hwaiting step hstep
  free := by
    intro table name hover hfree
    exact free_of_consistent h hover hfree
  cleared := cleared_of_consistent h

theorem isSafe_run (steps : List Step) : IsSafe (({} : Session).run steps) :=
  isSafe_of_consistent (consistent_run consistent_empty steps)

end TenantTables.Lock.Session
