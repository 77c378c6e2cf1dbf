import TenantTables.Lock.Registry
import TenantTables.Storage.Program

/-!
This module contains programs that run side by side over one storage and one registry of locks. They
take turns, and in its turn a program makes one call.
-/

namespace TenantTables

structure Interleaving (α : Type) where
  world : World
  locks : Lock.Registry Nat := {}
  programs : List (Program α)

namespace Interleaving

def put (s : Interleaving α) (i : Nat) (p : Program α) : Interleaving α :=
  { s with programs := s.programs.set i p }

def enter (s : Interleaving α) (i : Nat) (tableId : String) : Lock.Registry Nat :=
  if s.locks.holder? tableId = some i ∨ i ∈ s.locks.waiting tableId then s.locks
  else s.locks.enter tableId i

def step (source : Source) (s : Interleaving α) (i : Nat) : Interleaving α :=
  match s.programs[i]? with
  | some (.call (.acquire tableId) next) =>
    let s := { s with locks := s.enter i tableId }
    if s.locks.holder? tableId = some i then s.put i (next (.ok ())) else s
  | some (.call (.release tableId) next) =>
    { s with locks := s.locks.leave tableId i }.put i (next (.ok ()))
  | some (.call c next) =>
    let (r, world) := s.world.answer source c
    { s with world }.put i (next r)
  | _ => s

def run (source : Source) (s : Interleaving α) (turns : List Nat) : Interleaving α :=
  turns.foldl (step source) s

def result? : Program α → Option (Outcome α)
  | .done r => some r
  | .call .. => none

def results (s : Interleaving α) : List (Option (Outcome α)) :=
  s.programs.map result?

def runRounds (source : Source) : Nat → Interleaving α → Interleaving α
  | 0, s => s
  | n + 1, s =>
    if s.results.all Option.isSome then s
    else runRounds source n (s.run source (List.range s.programs.length))

end Interleaving
end TenantTables
