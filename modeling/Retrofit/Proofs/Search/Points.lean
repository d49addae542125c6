import Mathlib.Algebra.BigOperators.Group.List.Basic
import Mathlib.Data.List.Forall2
import Mathlib.Data.List.Induction
import Mathlib.Data.List.Nodup
import Retrofit.Proofs.Random.Bounds
import Retrofit.Random.ChaCha
import Retrofit.Search.Grid

/-!
# The points of a grid

A grid with few enough points is enumerated: the vectors of places of its points stand in
lexicographic order, each of them once. From a larger grid vectors are drawn one after another, and
those that were not drawn before are kept, until there are enough or the tries are used up
(`exists_stops_drawNew`). Memory is not counted here: a search that asks for more than `mostDrawn`
points of a larger grid never comes to draw them.

The product of the sizes of the axes is an unbounded number here. Multiplied up in words of 64 bits,
with every overflow noticed, it leads to the same choice (`checkedSize_eq`).
-/

namespace Retrofit

section Lists

variable {α : Type} [BEq α] [LawfulBEq α] {a : α} {l : List α}

lemma eraseDups_concat_of_mem (h : a ∈ l) : (l ++ [a]).eraseDups = l.eraseDups := by
  simp [List.eraseDups_append, List.cons_removeAll, h]

lemma eraseDups_concat_of_notMem (h : a ∉ l) : (l ++ [a]).eraseDups = l.eraseDups ++ [a] := by
  simp [List.eraseDups_append, List.cons_removeAll, List.eraseDups_cons, h]

lemma nodup_eraseDups (l : List α) : l.eraseDups.Nodup := by
  induction l using List.reverseRecOn with
  | nil => exact List.nodup_nil
  | append_singleton l a ih =>
    by_cases h : a ∈ l
    · rwa [eraseDups_concat_of_mem h]
    · rw [eraseDups_concat_of_notMem h]
      exact List.nodup_append.mpr ⟨ih, List.nodup_singleton a, fun b hb c hc heq =>
        h (List.mem_singleton.mp hc ▸ heq ▸ List.mem_eraseDups.mp hb)⟩

end Lists

namespace Grid

open Retrofit.Random

variable {axes : List Axis} {places : List Nat}

/-- A vector of places that lie on the axes. -/
def OnGrid (axes : List Axis) (places : List Nat) : Prop :=
  List.Forall₂ (fun axis k => k < axis.size) axes places

/-! ## Enumeration -/

/-- The places of all points, in the order of the points. -/
def allPlaces : List Axis → List (List Nat)
  | [] => [[]]
  | axis :: rest => (List.range axis.size).flatMap fun k => (allPlaces rest).map (k :: ·)

lemma map_pointAt_allPlaces (axes : List Axis) :
    (allPlaces axes).map (pointAt axes) = allPoints axes := by
  induction axes with
  | nil => rfl
  | cons axis rest ih =>
    simp only [allPlaces, allPoints, Axis.values, List.map_flatMap, List.flatMap_map, List.map_map,
      ← ih]
    rfl

lemma mem_allPlaces : places ∈ allPlaces axes ↔ OnGrid axes places := by
  induction axes generalizing places with
  | nil => simp [allPlaces, OnGrid]
  | cons axis rest ih => cases places <;> simp [allPlaces, OnGrid, ih]

lemma pairwise_lt_allPlaces (axes : List Axis) : (allPlaces axes).Pairwise (· < ·) := by
  induction axes with
  | nil => exact List.pairwise_singleton _ _
  | cons axis rest ih =>
    refine List.pairwise_flatMap.mpr ⟨fun k _ => ?_, ?_⟩
    · refine List.pairwise_map.mpr (ih.imp fun hlt => ?_)
      exact List.cons_lt_cons_iff.mpr (.inr ⟨rfl, hlt⟩)
    · refine List.pairwise_lt_range.imp fun hlt x hx y hy => ?_
      obtain ⟨xs, -, rfl⟩ := List.mem_map.mp hx
      obtain ⟨ys, -, rfl⟩ := List.mem_map.mp hy
      exact List.cons_lt_cons_iff.mpr (.inl hlt)

lemma size_eq_prod (axes : List Axis) : size axes = (axes.map (·.size)).prod := by
  simp [size, List.prod_eq_foldr, List.foldr_map]

lemma size_pos (hpos : ∀ axis ∈ axes, 0 < axis.size) : 0 < size axes := by
  induction axes with
  | nil => exact Nat.one_pos
  | cons axis rest ih =>
    obtain ⟨hfirst, hrest⟩ := List.forall_mem_cons.mp hpos
    exact Nat.mul_pos hfirst (ih hrest)

lemma length_allPlaces (axes : List Axis) : (allPlaces axes).length = size axes := by
  induction axes with
  | nil => rfl
  | cons axis rest ih => simp [allPlaces, size, ih]

/-! ## The size in words of 64 bits -/

/-- A number that has room in a word. -/
def checked (n : Nat) : Option Nat :=
  if n < 2 ^ 64 then some n else none

/-- The product of the sizes, if no step of the multiplication overflows. -/
def checkedSize (axes : List Axis) : Option Nat :=
  axes.foldlM (fun acc axis => checked (acc * axis.size)) 1

lemma foldlM_checked {acc : Nat} (hpos : ∀ axis ∈ axes, 0 < axis.size) (hacc : acc < 2 ^ 64) :
    axes.foldlM (fun acc axis => checked (acc * axis.size)) acc = checked (acc * size axes) := by
  induction axes generalizing acc with
  | nil =>
    rw [size, List.foldr_nil, Nat.mul_one, checked, if_pos hacc]
    rfl
  | cons axis rest ih =>
    obtain ⟨-, hrest⟩ := List.forall_mem_cons.mp hpos
    have hsize : acc * size (axis :: rest) = acc * axis.size * size rest := by
      simp [size, Nat.mul_assoc]
    rw [List.foldlM_cons, hsize]
    by_cases hfits : acc * axis.size < 2 ^ 64
    · rw [checked, if_pos hfits]
      exact ih hrest hfits
    · -- What has overflowed once never comes back, for no axis is empty.
      have hover : ¬ acc * axis.size * size rest < 2 ^ 64 := fun h =>
        hfits (Nat.lt_of_le_of_lt (Nat.le_mul_of_pos_right _ (size_pos hrest)) h)
      rw [checked, checked, if_neg hfits, if_neg hover]
      rfl

/-- An overflow on the way says that the whole product has no room in a word either. -/
theorem checkedSize_eq (hpos : ∀ axis ∈ axes, 0 < axis.size) :
    checkedSize axes = checked (size axes) := by
  rw [checkedSize, foldlM_checked hpos (by decide), Nat.one_mul]

example : checkedSize (List.replicate 2 (Axis.ofGene 1 (.integer 0 (2 ^ 53)))) = none := by decide

lemma exists_checked_le_iff {n limit : Nat} (hlimit : limit < 2 ^ 64) :
    (∃ k, checked n = some k ∧ k ≤ limit) ↔ n ≤ limit := by
  unfold checked
  split
  · simp
  · simp only [reduceCtorEq, false_and, exists_false, false_iff]
    omega

/-! ## Drawing -/

variable {γ : Type} [Source γ]

/-- The vectors of places that are drawn first. -/
def draws (axes : List Axis) (count : Nat) : Draw γ (List (List Nat)) :=
  (List.replicate count axes).mapM drawPlaces

lemma run_draws_succ (axes : List Axis) (count : Nat) (s : γ) :
    (draws axes (count + 1)).run s =
      (((drawPlaces axes).run s).1 :: ((draws axes count).run ((drawPlaces axes).run s).2).1,
        ((draws axes count).run ((drawPlaces axes).run s).2).2) := by
  rw [draws, List.replicate_succ, List.mapM_cons]
  rfl

lemma always_drawPlaces (hpos : ∀ axis ∈ axes, 0 < axis.size) :
    Always (drawPlaces axes : Draw γ (List Nat)) (OnGrid axes) := by
  unfold drawPlaces
  induction axes with
  | nil => exact always_pure .nil
  | cons axis axes ih =>
    obtain ⟨hfirst, hrest⟩ := List.forall_mem_cons.mp hpos
    rw [List.mapM_cons]
    refine always_bind (always_below64 hfirst) fun place hplace => ?_
    exact always_bind (ih hrest) fun places hplaces => always_pure (.cons hplace hplaces)

lemma always_draws (hpos : ∀ axis ∈ axes, 0 < axis.size) (count : Nat) :
    Always (draws axes count : Draw γ (List (List Nat))) (∀ places ∈ ·, OnGrid axes places) := by
  induction count with
  | zero => exact always_pure fun places h => absurd h List.not_mem_nil
  | succ count ih =>
    intro s
    rw [run_draws_succ]
    exact List.forall_mem_cons.mpr ⟨always_drawPlaces hpos s, ih _⟩

lemma run_drawNew_succ (axes : List Axis) (tries missing : Nat) (drawn : List (List Nat)) (s : γ) :
    (drawNew axes (tries + 1) (missing + 1) drawn).run s =
      if drawn.contains ((drawPlaces axes).run s).1 then
        (drawNew axes tries (missing + 1) drawn).run ((drawPlaces axes).run s).2
      else (drawNew axes tries missing (((drawPlaces axes).run s).1 :: drawn)).run
        ((drawPlaces axes).run s).2 := by
  rw [drawNew]
  exact apply_ite (fun d : Draw γ (List (List Nat)) => d.run ((drawPlaces axes).run s).2) _ _ _

/-- What a loop that has seen the draws `earlier` comes to within `tries` further draws: it keeps
the different ones of all draws, and stops when there are as many as wanted or no tries are left. -/
structure Stops (axes : List Axis) (earlier : List (List Nat)) (tries wanted : Nat) (s : γ)
    (found : List (List Nat) × γ) (count : Nat) : Prop where
  count_le : count ≤ tries
  state : found.2 = ((draws axes count).run s).2
  kept : found.1.reverse = (earlier ++ ((draws axes count).run s).1).eraseDups
  length_le : found.1.length ≤ wanted
  done : found.1.length = wanted ∨ count = tries

lemma Stops.step {earlier : List (List Nat)} {tries wanted : Nat} {s : γ}
    {found : List (List Nat) × γ} {count : Nat}
    (h : Stops axes (earlier ++ [((drawPlaces axes).run s).1]) tries wanted
      ((drawPlaces axes).run s).2 found count) :
    Stops axes earlier (tries + 1) wanted s found (count + 1) where
  count_le := Nat.succ_le_succ h.count_le
  state := by
    rw [run_draws_succ]
    exact h.state
  kept := by
    rw [h.kept, run_draws_succ, List.append_assoc]
    rfl
  length_le := h.length_le
  done := h.done.imp_right (congrArg Nat.succ)

lemma Stops.here {earlier drawn : List (List Nat)} {tries wanted : Nat} {s : γ}
    (hdrawn : drawn.reverse = earlier.eraseDups) (hle : drawn.length ≤ wanted)
    (hdone : drawn.length = wanted ∨ 0 = tries) : Stops axes earlier tries wanted s (drawn, s) 0 where
  count_le := Nat.zero_le _
  state := rfl
  kept := by
    rw [hdrawn]
    exact (congrArg List.eraseDups (List.append_nil earlier)).symm
  length_le := hle
  done := hdone

lemma exists_stops_drawNew (axes : List Axis) {earlier drawn : List (List Nat)}
    (tries missing : Nat) (s : γ) (hdrawn : drawn.reverse = earlier.eraseDups) :
    ∃ count, Stops axes earlier tries (drawn.length + missing) s
      ((drawNew axes tries missing drawn).run s) count := by
  induction tries generalizing missing drawn earlier s with
  | zero => exact ⟨0, .here hdrawn (Nat.le_add_right _ _) (.inr rfl)⟩
  | succ tries ih =>
    cases missing with
    | zero => exact ⟨0, .here hdrawn (Nat.le_refl _) (.inl rfl)⟩
    | succ missing =>
      have hmem : drawn.contains ((drawPlaces axes).run s).1 = true ↔
          ((drawPlaces axes).run s).1 ∈ earlier := by
        rw [List.contains_iff_mem, ← List.mem_reverse, hdrawn, List.mem_eraseDups]
      rw [run_drawNew_succ]
      split
      · rename_i hold
        have hsame : drawn.reverse = (earlier ++ [((drawPlaces axes).run s).1]).eraseDups := by
          rw [eraseDups_concat_of_mem (hmem.mp hold), hdrawn]
        obtain ⟨count, h⟩ := ih _ _ hsame
        exact ⟨count + 1, h.step⟩
      · rename_i hnew
        have hmore : (((drawPlaces axes).run s).1 :: drawn).reverse =
            (earlier ++ [((drawPlaces axes).run s).1]).eraseDups := by
          rw [List.reverse_cons, hdrawn, eraseDups_concat_of_notMem (hnew ∘ hmem.mpr)]
        obtain ⟨count, h⟩ := ih _ _ hmore
        rw [List.length_cons, Nat.add_assoc, Nat.add_comm 1] at h
        exact ⟨count + 1, h.step⟩

/-! ## All points, or some different ones -/

variable {limit : Nat}

lemma run_points_of_le (hsmall : size axes ≤ limit) (s : γ) :
    (points axes limit).run s = ((allPlaces axes).map (pointAt axes), s) := by
  rw [points, if_pos hsmall, map_pointAt_allPlaces]
  rfl

lemma run_points_of_lt (hlarge : limit < size axes) (s : γ) :
    ∃ count ≤ 20 * limit, ∃ kept : List (List Nat),
      kept = ((draws axes count).run s).1.eraseDups ∧
      (points axes limit).run s = (kept.map (pointAt axes), ((draws axes count).run s).2) ∧
      kept.length ≤ limit ∧ (kept.length < limit → count = 20 * limit) := by
  obtain ⟨count, h⟩ := exists_stops_drawNew axes (20 * limit) limit s
    (List.reverse_nil.trans List.eraseDups_nil.symm)
  rw [List.length_nil, Nat.zero_add] at h
  refine ⟨count, h.count_le, _, h.kept, ?_, ?_, ?_⟩
  · rw [points, if_neg (Nat.not_le.mpr hlarge), ← h.state]
    rfl
  · rw [List.length_reverse]
    exact h.length_le
  · rw [List.length_reverse]
    exact fun hless => h.done.resolve_left (Nat.ne_of_lt hless)

/-- The first draw is new, whatever it is. -/
lemma one_le_length_kept {count : Nat} {s : γ} (hlimit : 0 < limit)
    (hdone : ((draws axes count).run s).1.eraseDups.length < limit → count = 20 * limit) :
    1 ≤ ((draws axes count).run s).1.eraseDups.length := by
  cases count with
  | zero =>
    have hnone : 0 = 20 * limit := hdone hlimit
    omega
  | succ count =>
    rw [run_draws_succ, List.eraseDups_cons]
    exact Nat.succ_pos _

/-- Whether they are enumerated or drawn, the points are those of vectors of places. -/
lemma exists_kept (axes : List Axis) (limit : Nat) (s : γ) : ∃ kept : List (List Nat),
    ((points axes limit).run s).1 = kept.map (pointAt axes) ∧ kept.length ≤ limit ∧
    ((∀ axis ∈ axes, 0 < axis.size) → (∀ places ∈ kept, OnGrid axes places) ∧
      (0 < limit → 0 < kept.length)) := by
  by_cases hsmall : size axes ≤ limit
  · refine ⟨allPlaces axes, by rw [run_points_of_le hsmall], ?_, fun hpos => ⟨?_, fun _ => ?_⟩⟩
    · rwa [length_allPlaces]
    · exact fun places => mem_allPlaces.mp
    · rw [length_allPlaces]
      exact size_pos hpos
  · obtain ⟨count, -, kept, rfl, hrun, hmost, hdone⟩ := run_points_of_lt (Nat.lt_of_not_le hsmall) s
    refine ⟨_, by rw [hrun], hmost, fun hpos => ⟨fun places hplaces => ?_, fun hlimit => ?_⟩⟩
    · exact always_draws hpos count s places (List.mem_eraseDups.mp hplaces)
    · exact one_le_length_kept hlimit hdone

/-- A grid of at most `limit` points is enumerated: its points stand in lexicographic order of their
places, each vector of places once, and the source is not touched. From a larger grid vectors of
places are drawn, at most `20 * limit` of them, and the points of the different ones are taken in
the order in which they were drawn: at least one, and fewer than `limit` only if all draws were
made. The size of the grid is the product of the sizes of its axes, whether or not it overflows. -/
theorem points_enumerate_or_sample (hpos : ∀ axis ∈ axes, 0 < axis.size) (hlimit : 0 < limit)
    (s : γ) :
    ((axes.map (·.size)).prod ≤ limit → ∃ all : List (List Nat),
      (points axes limit).run s = (all.map (pointAt axes), s) ∧
      (∀ places, places ∈ all ↔ OnGrid axes places) ∧ all.Nodup ∧ all.Pairwise (· < ·)) ∧
    (limit < (axes.map (·.size)).prod → ∃ count ≤ 20 * limit, ∃ kept : List (List Nat),
      kept = ((draws axes count).run s).1.eraseDups ∧
      (points axes limit).run s = (kept.map (pointAt axes), ((draws axes count).run s).2) ∧
      (∀ places ∈ kept, OnGrid axes places) ∧ kept.Nodup ∧ 1 ≤ kept.length ∧
      kept.length ≤ limit ∧ (kept.length < limit → count = 20 * limit)) ∧
    (limit < 2 ^ 64 →
      ((∃ n, checkedSize axes = some n ∧ n ≤ limit) ↔ (axes.map (·.size)).prod ≤ limit)) := by
  rw [← size_eq_prod]
  refine ⟨fun hsmall => ?_, fun hlarge => ?_, fun hword => ?_⟩
  · exact ⟨allPlaces axes, run_points_of_le hsmall s, fun places => mem_allPlaces,
      (pairwise_lt_allPlaces axes).nodup, pairwise_lt_allPlaces axes⟩
  · obtain ⟨count, hcount, kept, rfl, hrun, hmost, hdone⟩ := run_points_of_lt hlarge s
    refine ⟨count, hcount, _, rfl, hrun, fun places hplaces => ?_, nodup_eraseDups _, ?_, hmost,
      hdone⟩
    · exact always_draws hpos count s places (List.mem_eraseDups.mp hplaces)
    · exact one_le_length_kept hlimit hdone
  · rw [checkedSize_eq hpos]
    exact exists_checked_le_iff hword

/-- Two moorings, each with three berths. -/
def quayAxes : List Axis :=
  [.ofGene 5 (.integer 0 1), .ofGene 5 (.integer 0 2)]

theorem points_enumerate_or_sample_quay :
    (∀ axis ∈ quayAxes, 0 < axis.size) ∧
    (∃ all : List (List Nat), (points quayAxes 6).run (ChaCha.ofSeed 0) =
        (all.map (pointAt quayAxes), ChaCha.ofSeed 0) ∧
      (∀ places, places ∈ all ↔ OnGrid quayAxes places) ∧ all.Nodup ∧ all.Pairwise (· < ·)) ∧
    ∃ count ≤ 100, ∃ kept : List (List Nat),
      kept = ((draws quayAxes count).run (ChaCha.ofSeed 0)).1.eraseDups ∧
      ((points quayAxes 5).run (ChaCha.ofSeed 0)).1 = kept.map (pointAt quayAxes) ∧
      1 ≤ kept.length ∧ kept.length ≤ 5 := by
  have hpos : ∀ axis ∈ quayAxes, 0 < axis.size := by decide
  obtain ⟨hall, -, -⟩ :=
    points_enumerate_or_sample hpos (show 0 < 6 by decide) (ChaCha.ofSeed 0)
  obtain ⟨-, hsome, -⟩ :=
    points_enumerate_or_sample hpos (show 0 < 5 by decide) (ChaCha.ofSeed 0)
  obtain ⟨count, hcount, kept, hkept, hrun, -, -, hone, hmost, -⟩ := hsome (by decide)
  exact ⟨hpos, hall (by decide), count, hcount, kept, hkept, congrArg Prod.fst hrun, hone, hmost⟩

end Grid

end Retrofit
