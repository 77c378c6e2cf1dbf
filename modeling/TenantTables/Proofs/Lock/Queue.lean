import Mathlib.Data.List.Basic
import TenantTables.Lock.Registry

/-!
This module contains the locks of tables as queues of tasks: the first task of a queue holds the lock
and the others wait for it in their order. The registry keeps for each queue that is not empty exactly
the lock that belongs to it, so entering appends to a queue and leaving erases from it.
-/

namespace TenantTables.Lock

variable {τ : Type}

namespace Entry

def ofQueue (queue : List τ) : Entry τ where
  users := queue.length
  holder := queue.head?
  waiting := queue.tail

def queue (e : Entry τ) : List τ :=
  e.holder.toList ++ e.waiting

@[simp]
theorem queue_ofQueue (queue : List τ) : (ofQueue queue).queue = queue := by
  cases queue with
  | nil => rfl
  | cons task rest => rfl

theorem enter_ofQueue (queue : List τ) (task : τ) :
    (ofQueue queue).enter task = ofQueue (queue ++ [task]) := by
  cases queue with
  | nil => rfl
  | cons first rest => simp [ofQueue, enter]

theorem leave_ofQueue [DecidableEq τ] {queue : List τ} {task : τ} (h : task ∈ queue) :
    (ofQueue queue).leave task = ofQueue (queue.erase task) := by
  cases queue with
  | nil => simp at h
  | cons first rest =>
    by_cases hfirst : first = task
    . simp [ofQueue, leave, hfirst]
    . have hrest : task ∈ rest := by
        simpa [Ne.symm hfirst] using h
      have hpos : 0 < rest.length := List.length_pos_of_mem hrest
      have hlength := List.length_erase_of_mem hrest
      simp only [ofQueue, leave, List.head?_cons, Option.some.injEq, hfirst, ↓reduceIte,
        List.length_cons, List.tail_cons, not_false_eq_true, List.erase_cons_tail, beq_iff_eq,
        Entry.mk.injEq, and_true]
      omega

end Entry

namespace Registry

def queue (r : Registry τ) (table : String) : List τ :=
  ((r.find? table).map Entry.queue).getD []

/--
The registry knows each table once, and has for it the lock of a queue that is not empty.
-/
structure IsSound (r : Registry τ) : Prop where
  tables : (r.entries.map (·.1)).Nodup
  entry : ∀ table e, r.find? table = some e → r.queue table ≠ [] ∧ e = .ofQueue (r.queue table)

theorem lookup_eq_some_iff_mem {entries : List (String × α)} (h : (entries.map (·.1)).Nodup)
    (key : String) (a : α) : entries.lookup key = some a ↔ (key, a) ∈ entries := by
  induction entries with
  | nil => simp
  | cons entry entries ih =>
    rw [List.map_cons, List.nodup_cons] at h
    rw [lookup_cons, List.mem_cons]
    by_cases hkey : key = entry.1
    . rw [if_pos hkey]
      constructor
      . intro ha
        left
        exact Prod.ext hkey (Option.some.inj ha).symm
      . rintro (ha | ha)
        . rw [← ha]
        . exact absurd (List.mem_map.mpr ⟨_, ha, hkey⟩) h.1
    . rw [if_neg hkey, ih h.2]
      constructor
      . exact Or.inr
      . rintro (ha | ha)
        . exact absurd (congrArg Prod.fst ha) hkey
        . exact ha

theorem pair_sublist_of_sublist {a b : α} {small large : List α} (h : small.Sublist large)
    (hnodup : large.Nodup) (hpair : [a, b].Sublist large) (ha : a ∈ small) (hb : b ∈ small) :
    [a, b].Sublist small := by
  induction h with
  | slnil => simp at ha
  | cons x h ih =>
    rw [List.nodup_cons] at hnodup
    cases hpair with
    | cons _ hpair => exact ih hnodup.2 hpair ha hb
    | cons_cons _ hpair => exact absurd (h.subset ha) hnodup.1
  | cons_cons x h ih =>
    rw [List.nodup_cons] at hnodup
    cases hpair with
    | cons _ hpair =>
      have ha' := List.mem_of_ne_of_mem (ne_of_mem_of_not_mem (hpair.subset (by simp)) hnodup.1) ha
      have hb' := List.mem_of_ne_of_mem (ne_of_mem_of_not_mem (hpair.subset (by simp)) hnodup.1) hb
      exact (ih hnodup.2 hpair ha' hb').cons x
    | cons_cons _ hpair =>
      have hb' := List.mem_of_ne_of_mem (ne_of_mem_of_not_mem (hpair.subset (by simp)) hnodup.1) hb
      exact (List.singleton_sublist.mpr hb').cons_cons _

variable {r : Registry τ}

theorem queue_eq_nil_iff (h : r.IsSound) (table : String) :
    r.queue table = [] ↔ r.find? table = none := by
  cases hfind : r.find? table with
  | none => simp [queue, hfind]
  | some e => simp [(h.entry table e hfind).1]

theorem holder?_eq_head? (h : r.IsSound) (table : String) :
    r.holder? table = (r.queue table).head? := by
  cases hfind : r.find? table with
  | none => simp [holder?, queue, hfind]
  | some e =>
    rw [holder?, hfind, (h.entry table e hfind).2]
    rfl

theorem waiting_eq_tail (h : r.IsSound) (table : String) :
    r.waiting table = (r.queue table).tail := by
  cases hfind : r.find? table with
  | none => simp [waiting, queue, hfind]
  | some e =>
    rw [waiting, hfind, (h.entry table e hfind).2]
    rfl

theorem isSound_empty : ({} : Registry τ).IsSound where
  tables := List.nodup_nil
  entry := by
    intro table e h
    simp [find?] at h

theorem nodup_put (h : r.IsSound) (table : String) (e : Entry τ) :
    ((r.put table e).entries.map (·.1)).Nodup := by
  rw [put, List.map_cons, List.nodup_cons]
  constructor
  . simp
  . exact h.tables.sublist (List.Sublist.map _ List.filter_sublist)

theorem nodup_erase (h : r.IsSound) (table : String) :
    ((r.erase table).entries.map (·.1)).Nodup :=
  h.tables.sublist (List.Sublist.map _ List.filter_sublist)

theorem queue_put_ofQueue (r : Registry τ) (table : String) (queue : List τ) (other : String) :
    (r.put table (.ofQueue queue)).queue other = if other = table then queue else r.queue other := by
  rw [Registry.queue, find?_put]
  by_cases hother : other = table
  . simp [hother]
  . simp [hother, Registry.queue]

theorem queue_erase (r : Registry τ) (table other : String) :
    (r.erase table).queue other = if other = table then [] else r.queue other := by
  rw [queue, find?_erase]
  by_cases hother : other = table
  . simp [hother]
  . simp [hother, queue]

theorem isSound_put (h : r.IsSound) (table : String) {queue : List τ} (hqueue : queue ≠ []) :
    (r.put table (.ofQueue queue)).IsSound where
  tables := nodup_put h table _
  entry := by
    intro other e he
    rw [find?_put] at he
    rw [queue_put_ofQueue]
    by_cases hother : other = table
    . rw [if_pos hother] at he ⊢
      exact ⟨hqueue, (Option.some.inj he).symm⟩
    . rw [if_neg hother] at he ⊢
      exact h.entry other e he

theorem isSound_erase (h : r.IsSound) (table : String) : (r.erase table).IsSound where
  tables := nodup_erase h table
  entry := by
    intro other e he
    rw [find?_erase] at he
    rw [queue_erase]
    by_cases hother : other = table
    . rw [if_pos hother] at he
      simp at he
    . rw [if_neg hother] at he ⊢
      exact h.entry other e he

theorem enter_eq_put (h : r.IsSound) (table : String) (task : τ) :
    r.enter table task = r.put table (.ofQueue (r.queue table ++ [task])) := by
  rw [enter]
  cases hfind : r.find? table with
  | none =>
    have hqueue := (queue_eq_nil_iff h table).mpr hfind
    rw [hqueue]
    rfl
  | some e =>
    rw [Option.getD_some, ← Entry.enter_ofQueue, ← (h.entry table e hfind).2]

theorem isSound_enter (h : r.IsSound) (table : String) (task : τ) : (r.enter table task).IsSound := by
  rw [enter_eq_put h]
  apply isSound_put h
  simp

theorem queue_enter (h : r.IsSound) (table : String) (task : τ) (other : String) :
    (r.enter table task).queue other =
      if other = table then r.queue table ++ [task] else r.queue other := by
  rw [enter_eq_put h, queue_put_ofQueue]

variable [DecidableEq τ]

theorem leave_eq (h : r.IsSound) {table : String} {task : τ} (htask : task ∈ r.queue table) :
    r.leave table task =
      if (r.queue table).erase task = [] then r.erase table
      else r.put table (.ofQueue ((r.queue table).erase task)) := by
  cases hfind : r.find? table with
  | none =>
    rw [(queue_eq_nil_iff h table).mpr hfind] at htask
    simp at htask
  | some e =>
    simp only [leave, hfind]
    rw [(h.entry table e hfind).2, Entry.leave_ofQueue htask]
    simp only [Entry.ofQueue, List.length_eq_zero_iff]

theorem isSound_leave (h : r.IsSound) {table : String} {task : τ} (htask : task ∈ r.queue table) :
    (r.leave table task).IsSound := by
  rw [leave_eq h htask]
  split
  . exact isSound_erase h table
  . next hqueue => exact isSound_put h table hqueue

theorem queue_leave (h : r.IsSound) {table : String} {task : τ} (htask : task ∈ r.queue table)
    (other : String) :
    (r.leave table task).queue other =
      if other = table then (r.queue table).erase task else r.queue other := by
  rw [leave_eq h htask]
  split
  . next hqueue => rw [queue_erase, hqueue]
  . rw [queue_put_ofQueue]

end Registry
end TenantTables.Lock
