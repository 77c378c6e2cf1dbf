import TenantTables.Query.Request
import TenantTables.Value.Equality

/-!
This module contains the order of values, and the sorting of one page of records by a field of their data. Values
of different kinds may not order against each other, so the way the sort takes is part of its result: it keeps the
run that the rows start with and inserts the others one by one. From 64 rows on a sort that merges runs may leave
rows of incomparable values elsewhere. Where all values order against each other, both have the same result.
-/

namespace TenantTables

namespace Value

mutual

def before? : Value → Value → Option Bool
  | .text a, .text b => some (a < b)
  | .date a, .date b => some (a.ordinal < b.ordinal)
  | .moment a, .moment b => if a.isAware == b.isAware then some (a.instant < b.instant) else none
  | .uuid a, .uuid b => some (a < b)
  | .list a, .list b => itemsBefore? a b
  | a, b =>
    match a.place?, b.place? with
    | some (some p), some (some q) => some (p.lt q)
    | some _, some _ => some false
    | _, _ => none

def itemsBefore? : List Value → List Value → Option Bool
  | [], [] => some false
  | [], _ :: _ => some true
  | _ :: _, [] => some false
  | a :: as, b :: bs => if agrees a b then itemsBefore? as bs else before? a b

end

end Value

namespace Sorting

variable {α : Type}

def fallingRun (before : α → α → Bool) (last : α) : List α → List α × List α
  | [] => ([], [])
  | x :: xs =>
    if before x last then
      let (run, rest) := fallingRun before x xs
      (x :: run, rest)
    else ([], x :: xs)

def risingRun (before : α → α → Bool) (last : α) : List α → List α × List α
  | [] => ([], [])
  | x :: xs =>
    if before x last then ([], x :: xs)
    else
      let (run, rest) := risingRun before x xs
      (x :: run, rest)

def firstRun (before : α → α → Bool) : List α → List α × List α
  | [] => ([], [])
  | [x] => ([x], [])
  | x :: y :: rest =>
    if before y x then
      let (run, rest) := fallingRun before y rest
      ((x :: y :: run).reverse, rest)
    else
      let (run, rest) := risingRun before y rest
      (x :: y :: run, rest)

def place (before : α → α → Bool) (sorted : List α) (x : α) (low high : Nat) : Nat :=
  if _h : low < high then
    let middle := low + (high - low) / 2
    match sorted[middle]? with
    | some y =>
      if before x y then place before sorted x low middle
      else place before sorted x (middle + 1) high
    | none => low
  else low
termination_by high - low

def insert (before : α → α → Bool) (sorted : List α) (x : α) : List α :=
  let i := place before sorted x 0 sorted.length
  sorted.take i ++ x :: sorted.drop i

def sort (before : α → α → Bool) (xs : List α) : List α :=
  let (run, rest) := firstRun before xs
  rest.foldl (insert before) run

end Sorting

def SortSpec.before (s : SortSpec) (a b : Value) : Bool :=
  match a.before? b with
  | none => false
  | some true => !s.descending
  | some false => s.descending && (b.before? a).getD false

def SortSpec.sortRows (s : SortSpec) (rows : List Entries) : List Entries :=
  let missing (row : Entries) : Bool := (row.get s.field).isNull
  Sorting.sort (fun a b => s.before (a.get s.field) (b.get s.field)) (rows.filter (!missing ·)) ++
    rows.filter missing

end TenantTables
