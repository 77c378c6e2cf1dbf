import TenantTables.Query.Sort

namespace TenantTables

namespace Sorting

variable {α : Type} (before : α → α → Bool)

theorem fallingRun_append (last : α) (xs : List α) :
    (fallingRun before last xs).1 ++ (fallingRun before last xs).2 = xs := by
  induction xs generalizing last with
  | nil => rfl
  | cons x xs ih =>
    unfold fallingRun
    split
    . exact congrArg (x :: ·) (ih x)
    . rfl

theorem risingRun_append (last : α) (xs : List α) :
    (risingRun before last xs).1 ++ (risingRun before last xs).2 = xs := by
  induction xs generalizing last with
  | nil => rfl
  | cons x xs ih =>
    unfold risingRun
    split
    . rfl
    . exact congrArg (x :: ·) (ih x)

theorem perm_firstRun (xs : List α) : ((firstRun before xs).1 ++ (firstRun before xs).2).Perm xs := by
  unfold firstRun
  split
  . exact List.Perm.refl _
  . exact List.Perm.refl _
  . next x y rest =>
    split
    . have happend := fallingRun_append before y rest
      have hreverse : (x :: y :: (fallingRun before y rest).1).reverse.Perm
          (x :: y :: (fallingRun before y rest).1) := List.reverse_perm _
      refine (hreverse.append_right _).trans ?_
      rw [List.cons_append, List.cons_append, happend]
    . have happend := risingRun_append before y rest
      show (x :: y :: (risingRun before y rest).1 ++ (risingRun before y rest).2).Perm _
      rw [List.cons_append, List.cons_append, happend]

theorem perm_insert (sorted : List α) (x : α) : (insert before sorted x).Perm (x :: sorted) := by
  unfold insert
  dsimp only
  refine List.perm_middle.trans ?_
  rw [List.take_append_drop]

theorem perm_foldl_insert (sorted rest : List α) :
    (rest.foldl (insert before) sorted).Perm (sorted ++ rest) := by
  induction rest generalizing sorted with
  | nil => simp
  | cons x rest ih =>
    rw [List.foldl_cons]
    refine (ih _).trans ?_
    refine ((perm_insert before sorted x).append_right rest).trans ?_
    exact List.perm_middle.symm

theorem perm_sort (xs : List α) : (sort before xs).Perm xs := by
  unfold sort
  exact (perm_foldl_insert before _ _).trans (perm_firstRun before xs)

end Sorting

theorem SortSpec.perm_sortRows (s : SortSpec) (rows : List Entries) : (s.sortRows rows).Perm rows := by
  unfold sortRows
  dsimp only
  refine ((Sorting.perm_sort _ _).append_right _).trans ?_
  refine List.perm_append_comm.trans ?_
  exact List.filter_append_perm _ _

end TenantTables
