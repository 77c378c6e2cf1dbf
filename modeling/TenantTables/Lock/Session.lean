import TenantTables.Lock.Registry

/-!
This module contains tasks that use the locks of tables, each one lock at a time, and what becomes of
them when they enter, leave, fail or are cancelled.
-/

namespace TenantTables.Lock

inductive Status where
  | waiting
  | holding
  | done
  | failed
  | cancelled
  deriving DecidableEq, Repr

namespace Status

def isActive : Status → Bool
  | .waiting => true
  | .holding => true
  | _ => false

end Status

inductive Ending where
  | exit
  | fail
  deriving DecidableEq, Repr

def Ending.status : Ending → Status
  | .exit => .done
  | .fail => .failed

structure Task where
  table : String
  status : Status
  told : Option Ending := none
  deriving DecidableEq, Repr

inductive Step where
  | enter (task table : String)
  | finish (task : String) (e : Ending)
  | cancel (task : String)
  deriving DecidableEq, Repr

structure Session where
  registry : Registry String := {}
  tasks : List (String × Task) := []
  deriving DecidableEq, Repr

namespace Session

def task? (s : Session) (name : String) : Option Task :=
  s.tasks.lookup name

def putTask (s : Session) (name : String) (t : Task) : Session :=
  { s with tasks := (name, t) :: s.tasks.filter (·.1 != name) }

def remove (s : Session) (name : String) (t : Task) (status : Status) : Session :=
  { s with registry := s.registry.leave t.table name }.putTask name { t with status }

def resume (s : Session) (name : String) : Session :=
  match s.task? name with
  | some t =>
    if t.status = .waiting ∧ s.registry.holder? t.table = some name then
      match t.told with
      | some e => s.remove name t e.status
      | none => s.putTask name { t with status := .holding }
    else s
  | none => s

def leave (s : Session) (name : String) (t : Task) (status : Status) : Session :=
  (s.registry.waiting t.table).foldl resume (s.remove name t status)

def enter (s : Session) (name table : String) : Session :=
  let registry := s.registry.enter table name
  let status := if registry.holder? table = some name then .holding else .waiting
  { s with registry }.putTask name { table, status }

def step (s : Session) : Step → Session
  | .enter name table =>
    match s.task? name with
    | some t => if t.status.isActive then s else s.enter name table
    | none => s.enter name table
  | .finish name e =>
    match s.task? name with
    | some t =>
      match t.status with
      | .holding => s.leave name t e.status
      | .waiting => if t.told.isNone then s.putTask name { t with told := some e } else s
      | _ => s
    | none => s
  | .cancel name =>
    match s.task? name with
    | some t => if t.status.isActive then s.leave name t .cancelled else s
    | none => s

def run (s : Session) (steps : List Step) : Session :=
  steps.foldl step s

end Session
end TenantTables.Lock
