import Mathlib.Data.List.FinRange
import Retrofit.Proofs.Pareto.Costs
import Retrofit.Proofs.Pareto.Room
import Retrofit.Proofs.Pareto.Selection

/-!
# Thinning out keeps the extremes

Thinning a front out keeps the solutions at some positions (`leastCrowded_eq`): as many as there is
room for, in their old order, and nobody who is left out has more room than one who is kept. If
there is room for two solutions on every objective, the extremes of every objective stay, since no
others have infinite room (`Thinning`).
-/

namespace Retrofit

open Number

variable {objectives : List Objective} {limit : Nat} {solutions : List PortfolioSolution}

/-- The crowding distance of the solution at a position. -/
def roomAt (objectives : List Objective) (solutions : List PortfolioSolution)
    (i : Fin solutions.length) : Float :=
  (crowding (solutions.map (·.costs objectives))).get
    (i.cast (by rw [length_crowding, List.length_map]))

lemma getElem?_roomAt (i : Fin solutions.length) :
    (crowding (solutions.map (·.costs objectives)))[i.val]? =
      some (roomAt objectives solutions i) :=
  List.getElem?_eq_getElem _

lemma unsigned_roomAt (i : Fin solutions.length) : Unsigned (roomAt objectives solutions i) :=
  unsigned_crowding (List.mem_of_getElem? (getElem?_roomAt i))

/-- All positions, those of the solutions with the most room first. -/
def roomiestFirst (objectives : List Objective) (solutions : List PortfolioSolution) :
    List (Fin solutions.length) :=
  (List.finRange solutions.length).mergeSort fun i j =>
    rank (roomAt objectives solutions j) ≤ rank (roomAt objectives solutions i)

/-- The positions that are kept. -/
def keptPositions (objectives : List Objective) (limit : Nat) (solutions : List PortfolioSolution) :
    List (Fin solutions.length) :=
  ((roomiestFirst objectives solutions).take limit).mergeSort fun i j => i ≤ j

lemma roomiestFirst_perm :
    (roomiestFirst objectives solutions).Perm (List.finRange solutions.length) :=
  List.mergeSort_perm _ _

lemma keptPositions_perm : (keptPositions objectives limit solutions).Perm
    ((roomiestFirst objectives solutions).take limit) :=
  List.mergeSort_perm _ _

lemma mem_keptPositions {i : Fin solutions.length} : i ∈ keptPositions objectives limit solutions ↔
    i ∈ (roomiestFirst objectives solutions).take limit :=
  keptPositions_perm.mem_iff

lemma nodup_keptPositions : (keptPositions objectives limit solutions).Nodup :=
  keptPositions_perm.nodup_iff.mpr
    ((roomiestFirst_perm.nodup_iff.mpr (List.nodup_finRange _)).sublist (List.take_sublist _ _))

lemma ascending_keptPositions : (keptPositions objectives limit solutions).Pairwise (· < ·) := by
  have hle := pairwise_mergeSort_key (fun i => i) ((roomiestFirst objectives solutions).take limit)
  exact hle.imp₂ (fun _ _ hle hne => lt_of_le_of_ne hle hne) nodup_keptPositions

lemma length_keptPositions :
    (keptPositions objectives limit solutions).length = min limit solutions.length := by
  rw [keptPositions_perm.length_eq, List.length_take, roomiestFirst_perm.length_eq,
    List.length_finRange]

lemma keptPositions_of_le (h : solutions.length ≤ limit) :
    keptPositions objectives limit solutions = List.finRange solutions.length := by
  have hall : (roomiestFirst objectives solutions).take limit =
      roomiestFirst objectives solutions := by
    refine List.take_of_length_le ?_
    rwa [roomiestFirst_perm.length_eq, List.length_finRange]
  have hperm : (keptPositions objectives limit solutions).Perm (List.finRange solutions.length) :=
    (keptPositions_perm.trans (.of_eq hall)).trans roomiestFirst_perm
  exact hperm.eq_of_pairwise' ascending_keptPositions (List.pairwise_lt_finRange _)

/-- Who is left out has no more room than who is kept. -/
lemma roomAt_le {i j : Fin solutions.length} (hi : i ∈ keptPositions objectives limit solutions)
    (hj : j ∉ keptPositions objectives limit solutions) :
    roomAt objectives solutions j ≤ roomAt objectives solutions i := by
  rw [mem_keptPositions] at hi hj
  have hsorted := pairwise_mergeSort_key_down (fun i => rank (roomAt objectives solutions i))
    (List.finRange solutions.length)
  change (roomiestFirst objectives solutions).Pairwise _ at hsorted
  rw [← List.take_append_drop limit (roomiestFirst objectives solutions),
    List.pairwise_append] at hsorted
  have hdropped : j ∈ (roomiestFirst objectives solutions).drop limit := by
    have hmem : j ∈ roomiestFirst objectives solutions :=
      roomiestFirst_perm.mem_iff.mpr (List.mem_finRange j)
    rw [← List.take_append_drop limit (roomiestFirst objectives solutions)] at hmem
    exact (List.mem_append.mp hmem).resolve_left hj
  have hrank := hsorted.2.2 i hi j hdropped
  have hroom : ∀ i, IsNumber (roomAt objectives solutions i) :=
    fun i => (unsigned_roomAt i).isNumber
  exact (le_iff_units (hroom j) (hroom i)).mpr (units_le_of_rank_le (hroom j) (hroom i) hrank)

/-! ## The kept solutions -/

/-- A solution with its room and its position. -/
def entryAt (objectives : List Objective) (solutions : List PortfolioSolution)
    (i : Fin solutions.length) : (PortfolioSolution × Float) × Nat :=
  ((solutions.get i, roomAt objectives solutions i), i.val)

lemma zipIdx_eq_map : (solutions.zip (crowding (solutions.map (·.costs objectives)))).zipIdx =
    (List.finRange solutions.length).map (entryAt objectives solutions) := by
  refine List.ext_getElem ?_ fun i hi _ => ?_
  · rw [List.length_zipIdx, List.length_zip, length_crowding, List.length_map, List.length_map,
      List.length_finRange, Nat.min_self]
  · rw [List.getElem_zipIdx, List.getElem_zip, List.getElem_map, List.getElem_finRange,
      Nat.zero_add]
    rfl

/-- Thinning out keeps the solutions at the kept positions. -/
lemma leastCrowded_eq : leastCrowded objectives limit solutions =
    (keptPositions objectives limit solutions).map solutions.get := by
  unfold leastCrowded
  split
  · rename_i h
    rw [keptPositions_of_le h, List.map_get_finRange]
  · have hroomiest : ((List.finRange solutions.length).map
        (entryAt objectives solutions)).mergeSort (fun a b => rank b.1.2 ≤ rank a.1.2) =
        (roomiestFirst objectives solutions).map (entryAt objectives solutions) :=
      Eq.symm (List.map_mergeSort fun _ _ _ _ => rfl)
    have hkept : (((roomiestFirst objectives solutions).take limit).map
        (entryAt objectives solutions)).mergeSort (fun a b => a.2 ≤ b.2) =
        (keptPositions objectives limit solutions).map (entryAt objectives solutions) :=
      Eq.symm (List.map_mergeSort fun _ _ _ _ => rfl)
    dsimp only
    rw [zipIdx_eq_map, hroomiest, ← List.map_take, hkept, List.map_map]
    rfl

/-! ## Extremes -/

lemma columnAt_costs {c : Nat} {o : Objective} (hc : objectives[c]? = some o) :
    columnAt (solutions.map (·.costs objectives)) c = solutions.map (·.cost o) := by
  unfold columnAt
  rw [List.map_map]
  refine List.map_congr_left fun s _ => ?_
  change (s.costs objectives).getD c 0 = s.cost o
  rw [List.getD_eq_getElem?_getD, PortfolioSolution.costs, List.getElem?_map, hc]
  rfl

lemma columns_costs (hne : solutions ≠ []) :
    columns (solutions.map (·.costs objectives)) = objectives.length := by
  cases solutions with
  | nil => exact absurd rfl hne
  | cons s solutions => exact List.length_map _

/-- Who has infinite room is kept, if there is room for two solutions on every objective. -/
lemma mem_keptPositions_of_endless (hlarge : 2 < solutions.length)
    (hlimit : 2 * objectives.length ≤ limit) {i : Fin solutions.length}
    (hi : units (roomAt objectives solutions i) = beyond) :
    i ∈ keptPositions objectives limit solutions := by
  by_contra hdropped
  have hrows : 2 < (solutions.map (·.costs objectives)).length := by rwa [List.length_map]
  obtain ⟨least, greatest, -, hcrowding⟩ := exists_crowding_ends hrows
  have hne : solutions ≠ [] := List.ne_nil_of_length_pos (by omega)
  have hends : ∀ j : Fin solutions.length, units (roomAt objectives solutions j) = beyond →
      ∃ c < objectives.length, j.val = least c ∨ j.val = greatest c := by
    intro j hj
    by_contra hnone
    push Not at hnone
    have hle := (hcrowding (getElem?_roomAt j)).2.2 (by rwa [columns_costs hne])
    have hlt : min (columns (solutions.map (·.costs objectives))) (2 ^ 53) * one < beyond :=
      mul_one_lt_beyond (by omega)
    omega
  -- Everybody kept has at least as much room as the one left out, which is infinite.
  have hall : ∀ j ∈ i :: keptPositions objectives limit solutions,
      units (roomAt objectives solutions j) = beyond := by
    refine List.forall_mem_cons.mpr ⟨hi, fun j hj => ?_⟩
    have hle := (le_iff_units (unsigned_roomAt i).isNumber (unsigned_roomAt j).isNumber).mp
      (roomAt_le hj hdropped)
    have hnumber : IsNumber (roomAt objectives solutions j) := (unsigned_roomAt j).isNumber
    have hbound := natAbs_units_le hnumber
    omega
  have hcount := length_le_of_ends
    ((List.nodup_cons.mpr ⟨hdropped, nodup_keptPositions⟩).map Fin.val_injective)
    (List.forall_mem_map.mpr fun j hj => hends j (hall j hj))
  rw [List.length_map, List.length_cons, length_keptPositions] at hcount
  have hcut : limit < solutions.length := by
    by_contra hfits
    rw [keptPositions_of_le (Nat.not_lt.mp hfits)] at hdropped
    exact hdropped (List.mem_finRange i)
  omega

lemma exists_least_of_ends {o : Objective} {least greatest : Nat}
    (hends : ColumnEnds (solutions.map (·.cost o)) least greatest)
    (hnumbers : ∀ s ∈ solutions, (s.cost o).IsNumber) :
    ∃ i : Fin solutions.length, i.val = least ∧
      ∀ t ∈ solutions, (solutions.get i).cost o ≤ t.cost o := by
  obtain ⟨a, ha, hle⟩ := hends.rank_least
  obtain ⟨hlt, rfl⟩ := List.getElem?_eq_some_iff.mp ha
  rw [List.length_map] at hlt
  refine ⟨⟨least, hlt⟩, rfl, fun t ht => ?_⟩
  have hs := hnumbers _ (List.get_mem solutions ⟨least, hlt⟩)
  have hrank := hle _ (List.mem_map_of_mem ht)
  rw [List.getElem_map] at hrank
  exact (Amount.le_iff_units hs (hnumbers t ht)).mpr
    (Amount.units_le_of_rank_le hs (hnumbers t ht) hrank)

lemma exists_greatest_of_ends {o : Objective} {least greatest : Nat}
    (hends : ColumnEnds (solutions.map (·.cost o)) least greatest)
    (hnumbers : ∀ s ∈ solutions, (s.cost o).IsNumber) :
    ∃ i : Fin solutions.length, i.val = greatest ∧
      ∀ t ∈ solutions, t.cost o ≤ (solutions.get i).cost o := by
  obtain ⟨a, ha, hle⟩ := hends.rank_greatest
  obtain ⟨hlt, rfl⟩ := List.getElem?_eq_some_iff.mp ha
  rw [List.length_map] at hlt
  refine ⟨⟨greatest, hlt⟩, rfl, fun t ht => ?_⟩
  have hs := hnumbers _ (List.get_mem solutions ⟨greatest, hlt⟩)
  have hrank := hle _ (List.mem_map_of_mem ht)
  rw [List.getElem_map] at hrank
  exact (Amount.le_iff_units (hnumbers t ht) hs).mpr
    (Amount.units_le_of_rank_le (hnumbers t ht) hs hrank)

/-- The ends of an objective are kept. -/
lemma exists_kept_ends (hlimit : 2 * objectives.length ≤ limit) (hne : solutions ≠ [])
    {o : Objective} (ho : o ∈ objectives) : ∃ least greatest,
    ColumnEnds (solutions.map (·.cost o)) least greatest ∧ ∀ i : Fin solutions.length,
      i.val = least ∨ i.val = greatest → i ∈ keptPositions objectives limit solutions := by
  rcases Nat.lt_or_ge limit solutions.length with hcut | hfits
  · obtain ⟨c, hc⟩ := List.getElem?_of_mem ho
    obtain ⟨hlt, -⟩ := List.getElem?_eq_some_iff.mp hc
    have hlarge : 2 < solutions.length := by omega
    have hrows : 2 < (solutions.map (·.costs objectives)).length := by rwa [List.length_map]
    obtain ⟨least, greatest, hends, hcrowding⟩ := exists_crowding_ends hrows
    refine ⟨least c, greatest c, columnAt_costs hc ▸ hends c, fun i hi => ?_⟩
    refine mem_keptPositions_of_endless hlarge hlimit ((hcrowding (getElem?_roomAt i)).2.1 ?_)
    exact ⟨c, by rwa [columns_costs hne], hi⟩
  · obtain ⟨least, greatest, hends⟩ := exists_ends (mt List.map_eq_nil_iff.mp hne)
    refine ⟨least, greatest, hends, fun i _ => ?_⟩
    rw [keptPositions_of_le hfits]
    exact List.mem_finRange i

/-- What thinning a front out keeps, by position. -/
structure Thinning (objectives : List Objective) (limit : Nat) (solutions : List PortfolioSolution)
    (kept : List (Fin solutions.length)) : Prop where
  length_eq : kept.length = min limit solutions.length
  ascending : kept.Pairwise (· < ·)
  roomiest : ∀ i ∈ kept, ∀ j, j ∉ kept →
    roomAt objectives solutions j ≤ roomAt objectives solutions i
  extremes : solutions ≠ [] → 2 * objectives.length ≤ limit → ∀ o ∈ objectives,
    (∃ i ∈ kept, ∀ t ∈ solutions, (solutions.get i).cost o ≤ t.cost o) ∧
      ∃ i ∈ kept, ∀ t ∈ solutions, t.cost o ≤ (solutions.get i).cost o

/-- Thinning a front of defined costs out keeps as many solutions as there is room for, those with
the most room, in their old order, and with room for two on every objective its extremes. -/
theorem exists_thinning (objectives : List Objective) (limit : Nat)
    {solutions : List PortfolioSolution}
    (hnumbers : ∀ s ∈ solutions, Numbers (s.costs objectives)) :
    ∃ kept : List (Fin solutions.length),
      leastCrowded objectives limit solutions = kept.map solutions.get ∧
        Thinning objectives limit solutions kept := by
  refine ⟨keptPositions objectives limit solutions, leastCrowded_eq, length_keptPositions,
    ascending_keptPositions, fun i hi j hj => roomAt_le hi hj, fun hne hlimit o ho => ?_⟩
  have hcosts : ∀ s ∈ solutions, (s.cost o).IsNumber :=
    fun s hs => PortfolioSolution.numbers_costs.mp (hnumbers s hs) o ho
  obtain ⟨least, greatest, hends, hkept⟩ := exists_kept_ends hlimit hne ho
  obtain ⟨i, hi, hleast⟩ := exists_least_of_ends hends hcosts
  obtain ⟨j, hj, hgreatest⟩ := exists_greatest_of_ends hends hcosts
  exact ⟨⟨i, hkept i (Or.inl hi), hleast⟩, j, hkept j (Or.inr hj), hgreatest⟩

/-- Three bids of which the last one lies between the others. -/
theorem exists_thinning_bids :
    let bids := [1.0, 5.0, 2.0].map fun capex => bid (some (.number capex)) none
    (∀ s ∈ bids, Numbers (s.costs [.capex])) ∧
    ∃ kept : List (Fin bids.length),
      leastCrowded [.capex] 2 bids = kept.map bids.get ∧ Thinning [.capex] 2 bids kept := by
  intro bids
  have hnumbers : ∀ s ∈ bids, Numbers (s.costs [.capex]) := by decide +kernel
  exact ⟨hnumbers, exists_thinning [.capex] 2 hnumbers⟩

end Retrofit
