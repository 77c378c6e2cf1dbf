import TenantTables.Storage.Store

/-!
This module contains the programs that operations are made of. A program makes its calls one at a time,
to storage, to the locks of tables, and for the time and for new identifiers, and each of them may fail.
Between two calls other programs may make theirs.
-/

namespace TenantTables

inductive Call : Type → Type where
  | acquire (tableId : String) : Call Unit
  | release (tableId : String) : Call Unit
  | identifier : Call String
  | clock : Call Moment
  | table (id : String) : Call (Option Table)
  | tableNamed (tenantId name : String) : Call (Option Table)
  | tablesOf (tenantId : String) : Call (List Table)
  | insertTable (t : Table) : Call Unit
  | saveTable (t : Table) : Call Unit
  | record (id : String) : Call (Option Record)
  | select (s : Selection) : Call (List Record)
  | count (tableId : String) (filters : Entries) : Call Nat
  | liveCounts (tableIds : List String) : Call (List (String × Nat))
  | saveRecord (r : Record) : Call Unit

inductive Program (α : Type) : Type 1 where
  | done (result : Outcome α)
  | call {β : Type} (c : Call β) (next : Outcome β → Program α)

namespace Program

def bind (p : Program α) (f : α → Program β) : Program β :=
  match p with
  | done (.ok a) => f a
  | done (.error e) => done (.error e)
  | call c next => call c fun r => (next r).bind f

instance : Monad Program where
  pure a := done (.ok a)
  bind := bind

def handle (p : Program α) (f : Failure → Program α) : Program α :=
  match p with
  | done (.ok a) => done (.ok a)
  | done (.error e) => f e
  | call c next => call c fun r => (next r).handle f

instance : MonadExceptOf Failure Program where
  throw e := done (.error e)
  tryCatch := handle

instance : MonadLift (Except Failure) Program where
  monadLift := done

def ask (c : Call α) : Program α :=
  call c done

def attempt (p : Program α) : Program (Outcome α) :=
  match p with
  | done r => done (.ok r)
  | call c next => call c fun r => (next r).attempt

def locked (tableId : String) (p : Program α) : Program α := do
  ask (.acquire tableId)
  let result ← p.attempt
  ask (.release tableId)
  result

theorem bind_done (p : Program α) : (p >>= fun a => pure a) = p := by
  induction p with
  | done r => cases r <;> rfl
  | call c next ih => exact congrArg (call c) (funext ih)

theorem bind_bind (p : Program α) (f : α → Program β) (g : β → Program γ) :
    (p >>= f) >>= g = p >>= fun a => f a >>= g := by
  induction p with
  | done r => cases r <;> rfl
  | call c next ih => exact congrArg (call c) (funext ih)

end Program

structure Source where
  identifiers : Nat → String
  clock : Nat → Moment

structure World where
  store : Store
  identifiers : Nat := 0
  readings : Nat := 0

namespace World

def answer (source : Source) (w : World) : Call β → Outcome β × World
  | .acquire _ => (.ok (), w)
  | .release _ => (.ok (), w)
  | .identifier => (.ok (source.identifiers w.identifiers), { w with identifiers := w.identifiers + 1 })
  | .clock => (.ok (source.clock w.readings), { w with readings := w.readings + 1 })
  | .table id => read do w.store.requireReady; return w.store.table? id
  | .tableNamed tenantId name =>
    read do w.store.requireReady; return w.store.tableNamed? tenantId name
  | .tablesOf tenantId => read do w.store.requireReady; return w.store.tablesOf tenantId
  | .record id => read do w.store.requireReady; return w.store.record? id
  | .select s => read (w.store.select s)
  | .count tableId filters => read (w.store.count tableId filters)
  | .liveCounts tableIds => read (w.store.liveCounts tableIds)
  | .insertTable t => write (w.store.insertTable t)
  | .saveTable t => write (w.store.saveTable t)
  | .saveRecord r => write (w.store.saveRecord r)
where
  read {γ : Type} (r : Outcome γ) : Outcome γ × World := (r, w)
  write (r : Outcome Store) : Outcome Unit × World :=
    match r with
    | .ok s => (.ok (), { w with store := s })
    | .error e => (.error e, w)

end World

def Program.run (source : Source) (w : World) : Program α → Outcome α × World
  | done r => (r, w)
  | call c next =>
    let (r, w) := w.answer source c
    (next r).run source w

namespace Program

variable (source : Source) (w : World)

@[simp]
theorem run_pure (a : α) : (pure a : Program α).run source w = (.ok a, w) := rfl

@[simp]
theorem run_throw (e : Failure) : (throw e : Program α).run source w = (.error e, w) := rfl

@[simp]
theorem run_lift (r : Outcome α) : (liftM r : Program α).run source w = (r, w) := rfl

@[simp]
theorem run_ask (c : Call α) : (ask c).run source w = w.answer source c := rfl

theorem run_bind (p : Program α) (f : α → Program β) :
    (p >>= f).run source w =
      match p.run source w with
      | (.ok a, w) => (f a).run source w
      | (.error e, w) => (.error e, w) := by
  induction p generalizing w with
  | done r => cases r <;> rfl
  | call c next ih => exact ih _ _

@[simp]
theorem run_attempt (p : Program α) :
    p.attempt.run source w = (.ok (p.run source w).1, (p.run source w).2) := by
  induction p generalizing w with
  | done r => rfl
  | call c next ih => exact ih _ _

@[simp]
theorem run_locked (tableId : String) (p : Program α) :
    (locked tableId p).run source w = p.run source w := by
  simp [locked, run_bind, World.answer]

end Program

end TenantTables
