/-!
This module contains the locks of tables. A lock exists only as long as some task holds it or waits for
it, and it goes to the tasks in the order in which they came.
-/

namespace TenantTables.Lock

variable {τ : Type}

structure Entry (τ : Type) where
  users : Nat := 0
  holder : Option τ := none
  waiting : List τ := []
  deriving DecidableEq, Repr

namespace Entry

def enter (e : Entry τ) (task : τ) : Entry τ :=
  match e.holder with
  | none => { e with users := e.users + 1, holder := some task }
  | some _ => { e with users := e.users + 1, waiting := e.waiting ++ [task] }

def leave [DecidableEq τ] (e : Entry τ) (task : τ) : Entry τ :=
  if e.holder = some task then
    { users := e.users - 1, holder := e.waiting.head?, waiting := e.waiting.tail }
  else { e with users := e.users - 1, waiting := e.waiting.erase task }

end Entry

structure Registry (τ : Type) where
  entries : List (String × Entry τ) := []
  deriving DecidableEq, Repr

namespace Registry

def find? (r : Registry τ) (table : String) : Option (Entry τ) :=
  r.entries.lookup table

def put (r : Registry τ) (table : String) (e : Entry τ) : Registry τ :=
  ⟨(table, e) :: r.entries.filter (·.1 != table)⟩

def erase (r : Registry τ) (table : String) : Registry τ :=
  ⟨r.entries.filter (·.1 != table)⟩

def enter (r : Registry τ) (table : String) (task : τ) : Registry τ :=
  r.put table (((r.find? table).getD {}).enter task)

def leave [DecidableEq τ] (r : Registry τ) (table : String) (task : τ) : Registry τ :=
  match r.find? table with
  | none => r
  | some e =>
    let e := e.leave task
    if e.users = 0 then r.erase table else r.put table e

def size (r : Registry τ) : Nat :=
  r.entries.length

def holder? (r : Registry τ) (table : String) : Option τ :=
  (r.find? table).bind (·.holder)

def waiting (r : Registry τ) (table : String) : List τ :=
  ((r.find? table).map (·.waiting)).getD []

def isHeld (r : Registry τ) (table : String) : Bool :=
  (r.holder? table).isSome

theorem lookup_cons (entry : String × α) (entries : List (String × α)) (key : String) :
    (entry :: entries).lookup key = if key = entry.1 then some entry.2 else entries.lookup key := by
  obtain ⟨k, a⟩ := entry
  rw [List.lookup_cons]
  by_cases h : key = k
  · simp [h]
  · rw [beq_false_of_ne h, if_neg h]

theorem lookup_filter_ne (entries : List (String × α)) (key other : String) :
    (entries.filter (·.1 != key)).lookup other =
      if other = key then none else entries.lookup other := by
  induction entries with
  | nil => simp
  | cons e entries ih =>
    rw [lookup_cons, List.filter_cons]
    by_cases h : e.1 = key <;> grind [lookup_cons]

theorem find?_put (r : Registry τ) (table : String) (e : Entry τ) (other : String) :
    (r.put table e).find? other = if other = table then some e else r.find? other := by
  rw [put, find?, lookup_cons, lookup_filter_ne]
  by_cases h : other = table <;> simp [h, find?]

theorem find?_erase (r : Registry τ) (table other : String) :
    (r.erase table).find? other = if other = table then none else r.find? other :=
  lookup_filter_ne r.entries table other

end Registry
end TenantTables.Lock
