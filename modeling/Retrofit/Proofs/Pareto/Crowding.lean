import Mathlib.Tactic.Lemma
import Retrofit.Pareto.Crowding

/-!
# Every member has room

The crowding distances of a front are as many as its members, and thinning a front out keeps some of
its members.
-/

namespace Retrofit

lemma length_roomAfter (width previous : Float) (l : List (Float × Nat)) :
    (roomAfter width previous l).length = l.length := by
  induction l generalizing previous with
  | nil => rfl
  | cons e rest ih =>
    cases rest with
    | nil => rfl
    | cons next rest => exact congrArg Nat.succ (ih e.1)

lemma length_columnRoom (column : List Amount) : (columnRoom column).length = column.length := by
  have hlength : ((column.zipIdx.mergeSort fun a b => a.1.rank ≤ b.1.rank).map
      fun e => (e.1.value, e.2)).length = column.length := by
    rw [List.length_map, List.length_mergeSort, List.length_zipIdx]
  unfold columnRoom
  dsimp only
  split
  · rename_i first place rest last _ heq hlast
    rw [heq] at hlength
    rw [List.length_map, List.length_mergeSort, List.length_cons, length_roomAfter]
    exact hlength
  · rename_i hnot
    generalize (column.zipIdx.mergeSort fun a b => a.1.rank ≤ b.1.rank).map
      (fun e => (e.1.value, e.2)) = ascending at hlength hnot
    cases ascending with
    | nil => exact hlength
    | cons e rest =>
      have hlast := List.getLast?_eq_some_getLast (List.cons_ne_nil e rest)
      exact (hnot e.1 e.2 rest _ _ rfl hlast).elim

theorem length_crowding (rows : List (List Amount)) : (crowding rows).length = rows.length := by
  unfold crowding
  split
  · exact List.length_map _
  · dsimp only
    have hfold : ∀ (columns : List Nat) (distances : List Float), distances.length = rows.length →
        (columns.foldl (fun distances c =>
          distances.zipWith (· + ·) (columnRoom (rows.map fun row => row.getD c 0)))
          distances).length = rows.length := by
      intro columns
      induction columns with
      | nil => exact fun _ h => h
      | cons c columns ih =>
        intro distances h
        apply ih
        rw [List.length_zipWith, length_columnRoom, List.length_map, h, Nat.min_self]
    exact hfold _ _ (List.length_map _)

/-- As many solutions are kept as there is room for. -/
lemma length_leastCrowded (objectives : List Objective) (limit : Nat)
    (solutions : List PortfolioSolution) :
    (leastCrowded objectives limit solutions).length = min limit solutions.length := by
  unfold leastCrowded
  split
  · rename_i h
    exact (Nat.min_eq_right h).symm
  · rw [List.length_map, List.length_mergeSort, List.length_take, List.length_mergeSort,
      List.length_zipIdx, List.length_zip, length_crowding, List.length_map, Nat.min_self]

lemma mem_of_mem_leastCrowded {objectives : List Objective} {limit : Nat}
    {solutions : List PortfolioSolution} {s : PortfolioSolution}
    (h : s ∈ leastCrowded objectives limit solutions) : s ∈ solutions := by
  unfold leastCrowded at h
  split at h
  · exact h
  · obtain ⟨e, he, rfl⟩ := List.mem_map.mp h
    have he := List.mem_of_mem_take ((List.mergeSort_perm _ _).mem_iff.mp he)
    have he := List.fst_mem_of_mem_zipIdx ((List.mergeSort_perm _ _).mem_iff.mp he)
    exact (List.of_mem_zip he).1

end Retrofit
