import Mathlib.Data.List.Perm.Basic
import Retrofit.Proofs.Number.Rank
import Retrofit.Proofs.Pareto.Selection
import Retrofit.Proofs.Search.Evolution

/-!
# Survival

Every member of a population has one `Standing`: its front, and its room within the whole front.
Survival splits the standings into those that are kept and those that are dropped, whatever the
sizes of the fronts are. The kept ones are as many as there are places, nobody is dropped from an
earlier front than one that is kept, and in the front that does not fit nobody with more room is
(`survive_splits_standings`). So the feasible members go first.
-/

namespace Retrofit.Nsga2

variable {objectives : List Objective}

/-- The place of a member in a list of members, its front and its room within this front. -/
structure Standing where
  place : Nat
  rank : Nat
  room : Float

/-- The costs of the member at a place. -/
def costsAt (objectives : List Objective) (members : List Member) (i : Nat) : List Amount :=
  match members[i]? with
  | some m => m.solution.costs objectives
  | none => []

/-- The standings of the members at the places of a front. -/
def standingsOf (costs : Nat → List Amount) (rank : Nat) (front : List Nat) : List Standing :=
  front.zipWith (fun place room => ⟨place, rank, room⟩) (crowding (front.map costs))

/-- The standings of the members at the places of several fronts, whose ranks ascend from the given
one. -/
def standingsFrom (costs : Nat → List Amount) (rank : Nat) (fronts : List (List Nat)) :
    List Standing :=
  (fronts.zipIdx rank).flatMap fun e => standingsOf costs e.2 e.1

/-- The standings of all members, one front after the other. -/
def standings (objectives : List Objective) (members : List Member) : List Standing :=
  standingsFrom (costsAt objectives members) 0
    (frontPlaces (members.map (·.solution.judgement objectives)))

/-- The member with a standing, which is written into it. -/
def Standing.settle (members : List Member) (s : Standing) : Option Member :=
  members[s.place]?.map fun m => { m with rank := s.rank, crowding := s.room }

/-- Whether a member with one standing goes before a member with another: nobody from an earlier
front is left behind, nor anybody with more room in the same front. -/
structure Standing.Precedes (s t : Standing) : Prop where
  rank_le : s.rank ≤ t.rank
  room_not_lt : s.rank = t.rank → ¬ s.room < t.room

/-! ## Standings -/

section Standings

variable {members : List Member} {costs : Nat → List Amount} {rank : Nat} {front : List Nat}
  {fronts : List (List Nat)}

lemma length_standingsOf : (standingsOf costs rank front).length = front.length := by
  unfold standingsOf
  rw [List.length_zipWith, length_crowding, List.length_map, Nat.min_self]

lemma map_place_standingsOf : (standingsOf costs rank front).map (·.place) = front := by
  refine List.ext_getElem (by rw [List.length_map, length_standingsOf]) fun i _ _ => ?_
  rw [List.getElem_map]
  exact congrArg Standing.place (List.getElem_zipWith ..)

lemma rank_of_mem_standingsOf {s : Standing} (h : s ∈ standingsOf costs rank front) :
    s.rank = rank := by
  unfold standingsOf at h
  obtain ⟨i, hi, rfl⟩ := List.mem_iff_getElem.mp h
  rw [List.getElem_zipWith]

lemma standingsFrom_cons : standingsFrom costs rank (front :: fronts) =
    standingsOf costs rank front ++ standingsFrom costs (rank + 1) fronts := by
  unfold standingsFrom
  rw [List.zipIdx_cons, List.flatMap_cons]

lemma map_place_standingsFrom : (standingsFrom costs rank fronts).map (·.place) = fronts.flatten := by
  induction fronts generalizing rank with
  | nil => rfl
  | cons front rest ih =>
    rw [standingsFrom_cons, List.map_append, ih, List.flatten_cons, map_place_standingsOf]

lemma le_rank_of_mem_standingsFrom {s : Standing} (h : s ∈ standingsFrom costs rank fronts) :
    rank ≤ s.rank := by
  induction fronts generalizing rank with
  | nil => exact nomatch h
  | cons front rest ih =>
    rw [standingsFrom_cons] at h
    rcases List.mem_append.mp h with h | h
    · exact Nat.le_of_eq (rank_of_mem_standingsOf h).symm
    · exact Nat.le_of_succ_le (ih h)

/-- Every member has one standing. -/
theorem places_standings (objectives : List Objective) (members : List Member) :
    ((standings objectives members).map (·.place)).Perm (List.range members.length) := by
  unfold standings
  rw [map_place_standingsFrom, frontPlaces_eq_peel, List.length_map]
  exact perm_flatten_peel _ _

/-- A standing and the member that it is written into. -/
def Settles (members : List Member) (s : Standing) (m : Member) : Prop := s.settle members = some m

lemma map_room_of_settles {all : List Standing} {settled : List Member}
    (h : List.Forall₂ (Settles members) all settled) :
    all.map (·.room) = settled.map (·.crowding) := by
  induction h with
  | nil => rfl
  | cons hsettles _ ih =>
    obtain ⟨m, -, rfl⟩ := Option.map_eq_some_iff.mp hsettles
    rw [List.map_cons, List.map_cons, ih]

/-- The members of a front are placed according to their standings. -/
lemma settles_place (objectives : List Objective) (rank : Nat)
    (hfront : ∀ i ∈ front, i < members.length) :
    List.Forall₂ (Settles members) (standingsOf (costsAt objectives members) rank front)
      (place objectives rank (front.filterMap (members[·]?))) := by
  have hcosts : (front.filterMap (members[·]?)).map (·.solution.costs objectives) =
      front.map (costsAt objectives members) := by
    rw [List.map_filterMap, ← List.filterMap_eq_map]
    refine List.filterMap_congr fun i hi => ?_
    rw [Function.comp_apply, costsAt, List.getElem?_eq_getElem (hfront i hi)]
    rfl
  unfold standingsOf place
  rw [hcosts]
  generalize crowding _ = rooms
  clear hcosts
  induction front generalizing rooms with
  | nil => exact .nil
  | cons i front ih =>
    obtain ⟨hi, hfront⟩ := List.forall_mem_cons.mp hfront
    rw [List.filterMap_cons, List.getElem?_eq_getElem hi]
    cases rooms with
    | nil => exact .nil
    | cons room rooms =>
      refine .cons ?_ (ih hfront rooms)
      unfold Settles Standing.settle
      rw [List.getElem?_eq_getElem hi]
      rfl

end Standings

/-! ## Splitting -/

section Splitting

variable {members : List Member} {rank free : Nat}

/-- Who survives from some standings when `free` places are left. -/
structure Split (members : List Member) (free : Nat) (all : List Standing)
    (survivors : List Member) (kept dropped : List Standing) : Prop where
  perm : (kept ++ dropped).Perm all
  settles : List.Forall₂ (Settles members) kept survivors
  length_eq : kept.length = min free all.length
  precedes : ∀ s ∈ kept, ∀ t ∈ dropped, s.Precedes t

lemma pairwise_roomiest (members : List Member) :
    (members.mergeSort fun a b => Number.rank b.crowding ≤ Number.rank a.crowding).Pairwise
      fun a b => Number.rank b.crowding ≤ Number.rank a.crowding :=
  pairwise_mergeSort_key_down (fun m => Number.rank m.crowding) members

/-- The front that does not fit is split by the room of its members. -/
lemma exists_split_cut (objectives : List Objective) (free rank : Nat) {front : List Nat}
    (hfront : ∀ i ∈ front, i < members.length) :
    ∃ kept dropped, Split members free (standingsOf (costsAt objectives members) rank front)
      (((place objectives rank (front.filterMap (members[·]?))).mergeSort
        fun a b => Number.rank b.crowding ≤ Number.rank a.crowding).take free) kept dropped := by
  have hplaced := settles_place objectives rank hfront
  have hrank : ∀ s ∈ standingsOf (costsAt objectives members) rank front, s.rank = rank :=
    fun s hs => rank_of_mem_standingsOf hs
  generalize standingsOf (costsAt objectives members) rank front = all at hplaced hrank
  generalize place objectives rank (front.filterMap (members[·]?)) = placed at hplaced ⊢
  have hsorted := pairwise_roomiest placed
  generalize hroomiest : placed.mergeSort _ = roomiest at hsorted ⊢
  have hperm : roomiest.Perm placed := hroomiest ▸ List.mergeSort_perm placed _
  obtain ⟨sorted, hsettles, hall⟩ := List.perm_comp_forall₂ hperm hplaced.flip
  have hsettles : List.Forall₂ (Settles members) sorted roomiest := hsettles.flip
  refine ⟨sorted.take free, sorted.drop free, ?_, List.forall₂_take free hsettles, ?_, ?_⟩
  · rwa [List.take_append_drop]
  · rw [List.length_take, hall.length_eq]
  · have hrooms : (roomiest.map (·.crowding)).Pairwise fun x y => Number.rank y ≤ Number.rank x :=
      List.pairwise_map.mpr hsorted
    rw [← map_room_of_settles hsettles, List.pairwise_map,
      ← List.take_append_drop free sorted] at hrooms
    have hcut := (List.pairwise_append.mp hrooms).2.2
    intro s hs t ht
    have hsrank := hrank s (hall.subset (List.mem_of_mem_take hs))
    have htrank := hrank t (hall.subset (List.mem_of_mem_drop ht))
    exact ⟨by omega, fun _ => Number.not_lt_of_rank_le (hcut s hs t ht)⟩

section Fronts

variable {here later kept dropped : List Standing} {placed survivors : List Member}

/-- A front that fits survives whole. -/
lemma Split.prepend (h : Split members (free - here.length) later survivors kept dropped)
    (hbefore : ∀ s ∈ here, ∀ t ∈ later, s.rank < t.rank) (hfits : here.length ≤ free)
    (hplaced : List.Forall₂ (Settles members) here placed) :
    Split members free (here ++ later) (placed ++ survivors) (here ++ kept) dropped := by
  refine ⟨?_, List.rel_append hplaced h.settles, ?_, fun s hs t ht => ?_⟩
  · rw [List.append_assoc]
    exact h.perm.append_left here
  · have hkept := h.length_eq
    rw [List.length_append, List.length_append]
    omega
  · rcases List.mem_append.mp hs with hs | hs
    · have hlt := hbefore s hs t (h.perm.subset (List.mem_append_right kept ht))
      exact ⟨by omega, by omega⟩
    · exact h.precedes s hs t ht

/-- Nobody survives from the fronts after one that does not fit. -/
lemma Split.append (h : Split members free here survivors kept dropped)
    (hbefore : ∀ s ∈ here, ∀ t ∈ later, s.rank < t.rank) (hcut : free ≤ here.length) :
    Split members free (here ++ later) survivors kept (dropped ++ later) := by
  refine ⟨?_, h.settles, ?_, fun s hs t ht => ?_⟩
  · rw [← List.append_assoc]
    exact h.perm.append_right later
  · have hkept := h.length_eq
    rw [List.length_append]
    omega
  · rcases List.mem_append.mp ht with ht | ht
    · exact h.precedes s hs t ht
    · have hlt := hbefore s (h.perm.subset (List.mem_append_left dropped hs)) t ht
      exact ⟨by omega, by omega⟩

lemma split_of_full (members : List Member) (all : List Standing) :
    Split members 0 all [] [] all :=
  ⟨.refl _, .nil, (Nat.zero_min _).symm, fun _ hs => absurd hs List.not_mem_nil⟩

end Fronts

/-- Filling the free places splits the standings. -/
theorem exists_split_fill (objectives : List Objective) (free rank : Nat)
    {fronts : List (List Nat)} (hfronts : ∀ front ∈ fronts, ∀ i ∈ front, i < members.length) :
    ∃ kept dropped, Split members free (standingsFrom (costsAt objectives members) rank fronts)
      (fill objectives free rank (fronts.map fun front => front.filterMap (members[·]?)))
      kept dropped := by
  induction fronts generalizing free rank with
  | nil =>
    exact ⟨[], [], .refl _, .nil, (Nat.min_zero _).symm, fun _ hs => absurd hs List.not_mem_nil⟩
  | cons front rest ih =>
    obtain ⟨hfront, hrest⟩ := List.forall_mem_cons.mp hfronts
    have hplaced := settles_place objectives rank hfront
    have hbefore : ∀ s ∈ standingsOf (costsAt objectives members) rank front,
        ∀ t ∈ standingsFrom (costsAt objectives members) (rank + 1) rest, s.rank < t.rank :=
      fun s hs t ht => (rank_of_mem_standingsOf hs).trans_lt (le_rank_of_mem_standingsFrom ht)
    rw [List.map_cons, standingsFrom_cons, fill]
    by_cases hfree : free = 0
    · rw [if_pos hfree, hfree]
      exact ⟨[], _, split_of_full members _⟩
    · rw [if_neg hfree]
      dsimp only
      rw [← hplaced.length_eq]
      by_cases hfits : (standingsOf (costsAt objectives members) rank front).length ≤ free
      · rw [if_pos hfits]
        obtain ⟨kept, dropped, hsplit⟩ := ih (free - _) (rank + 1) hrest
        exact ⟨_, dropped, hsplit.prepend hbefore hfits hplaced⟩
      · rw [if_neg hfits]
        obtain ⟨kept, dropped, hsplit⟩ := exists_split_cut objectives free rank hfront
        exact ⟨kept, _, hsplit.append hbefore (by omega)⟩

/-- Survival splits the standings of all members. -/
lemma exists_split_survive (objectives : List Objective) (places : Nat) (members : List Member) :
    ∃ kept dropped, Split members places (standings objectives members)
      (survive objectives places members) kept dropped := by
  unfold survive standings
  rw [fronts_eq_map_frontPlaces]
  refine exists_split_fill objectives places 0 fun front hfront i hi => ?_
  have hflat := List.mem_flatten.mpr ⟨front, hfront, hi⟩
  rw [frontPlaces_eq_peel, List.length_map] at hflat
  exact List.mem_range.mp ((perm_flatten_peel _ _).subset hflat)

end Splitting

/-! ## Feasible members -/

section Feasible

variable {members : List Member} {places : Nat}

/-- Whether the member at a place is feasible. -/
def feasibleAt (members : List Member) (i : Nat) : Bool :=
  members[i]?.any (·.solution.violation ≤ 0.0)

lemma countP_feasibleAt (members : List Member) :
    (List.range members.length).countP (feasibleAt members) =
      members.countP (·.solution.violation ≤ 0.0) := by
  have hmembers : (List.range members.length).map (members[·]?) = members.map some := by
    refine List.ext_getElem (by simp) fun i _ hi => ?_
    rw [List.length_map] at hi
    rw [List.getElem_map, List.getElem_map, List.getElem_range, List.getElem?_eq_getElem hi]
  calc (List.range members.length).countP (feasibleAt members)
    _ = ((List.range members.length).map (members[·]?)).countP
        (·.any (·.solution.violation ≤ 0.0)) := by rw [List.countP_map]; rfl
    _ = members.countP (·.solution.violation ≤ 0.0) := by
      rw [hmembers, List.countP_map]
      rfl

lemma countP_of_settles {kept : List Standing} {survivors : List Member}
    (h : List.Forall₂ (Settles members) kept survivors) :
    survivors.countP (·.solution.violation ≤ 0.0) =
      kept.countP fun s => feasibleAt members s.place := by
  induction h with
  | nil => rfl
  | cons hsettles _ ih =>
    obtain ⟨m, hm, rfl⟩ := Option.map_eq_some_iff.mp hsettles
    rw [List.countP_cons, List.countP_cons, ih, feasibleAt, hm]
    rfl

/-- A standing is at the place of a front of its rank. -/
lemma mem_front_of_mem_standingsFrom {costs : Nat → List Amount} {rank : Nat}
    {fronts : List (List Nat)} {s : Standing} (h : s ∈ standingsFrom costs rank fronts) :
    s.place ∈ fronts.getD (s.rank - rank) [] := by
  induction fronts generalizing rank with
  | nil => exact nomatch h
  | cons front rest ih =>
    rw [standingsFrom_cons] at h
    rcases List.mem_append.mp h with h | h
    · rw [rank_of_mem_standingsOf h, Nat.sub_self, List.getD_cons_zero]
      have hplace := List.mem_map_of_mem (f := Standing.place) h
      rwa [map_place_standingsOf] at hplace
    · have hrank := le_rank_of_mem_standingsFrom h
      have hsucc : s.rank - rank = s.rank - (rank + 1) + 1 := by omega
      rw [hsucc, List.getD_cons_succ]
      exact ih h

/-- Among defined members a feasible one stands in an earlier front than one that is not. -/
lemma rank_lt_of_feasible (defined : ∀ m ∈ members, m.solution.Defined objectives)
    {s t : Standing} (hs : s ∈ standings objectives members) (ht : t ∈ standings objectives members)
    (hfeasible : feasibleAt members s.place) (hnot : ¬ feasibleAt members t.place) :
    s.rank < t.rank := by
  have hfront : ∀ {u : Standing}, u ∈ standings objectives members →
      u.place ∈ (peel (beatsAt (members.map (·.solution.judgement objectives)))
        (List.range (members.map (·.solution.judgement objectives)).length)).getD u.rank [] := by
    intro u hu
    rw [← frontPlaces_eq_peel]
    exact mem_front_of_mem_standingsFrom hu
  have hground : Grounded (beatsAt (members.map (·.solution.judgement objectives)))
      (List.range (members.map (·.solution.judgement objectives)).length) :=
    grounded_beatsAt (List.forall_mem_map.mpr defined)
  have hbeats : beatsAt (members.map (·.solution.judgement objectives)) s.place t.place := by
    have htplace := List.mem_range.mp
      ((places_standings objectives members).subset (List.mem_map_of_mem ht))
    have htmember := List.getElem?_eq_getElem htplace
    obtain ⟨m, hm, hfeasible⟩ := (Option.any_eq_true _ _).mp hfeasible
    have hnot := (Option.any_eq_false _ _).mp (Bool.eq_false_of_not_eq_true hnot) _ htmember
    refine beatsAt_iff.mpr ⟨m.solution.judgement objectives,
      members[t.place].solution.judgement objectives, ?_, ?_, ?_⟩
    · rw [List.getElem?_map, hm, Option.map_some]
    · rw [List.getElem?_map, htmember, Option.map_some]
    · unfold Judgement.beats Judgement.feasible PortfolioSolution.judgement
      rw [hfeasible, hnot]
  exact lt_of_beats hground (hfront ht) (hfront hs) hbeats

/-- Among defined members the feasible ones survive as far as there are places. -/
theorem countP_feasible_survive (defined : ∀ m ∈ members, m.solution.Defined objectives) :
    (survive objectives places members).countP (·.solution.violation ≤ 0.0) =
      min places (members.countP (·.solution.violation ≤ 0.0)) := by
  obtain ⟨kept, dropped, hsplit⟩ := exists_split_survive objectives places members
  have hall : kept.countP (fun s => feasibleAt members s.place) +
      dropped.countP (fun s => feasibleAt members s.place) =
        members.countP (·.solution.violation ≤ 0.0) := by
    rw [← List.countP_append, hsplit.perm.countP_eq, ← countP_feasibleAt,
      ← (places_standings objectives members).countP_eq, List.countP_map]
    rfl
  have hlength := hsplit.length_eq
  have hkept := List.countP_le_length (p := fun s => feasibleAt members s.place) (l := kept)
  have htotal : kept.length + dropped.length = (standings objectives members).length := by
    rw [← List.length_append, hsplit.perm.length_eq]
  rw [countP_of_settles hsplit.settles]
  by_cases hfull : ∀ s ∈ kept, feasibleAt members s.place
  · have hcount := List.countP_eq_length.mpr hfull
    have hdropped :=
      List.countP_le_length (p := fun s => feasibleAt members s.place) (l := dropped)
    omega
  · have hnone : dropped.countP (fun s => feasibleAt members s.place) = 0 := by
      push Not at hfull
      obtain ⟨s, hs, hnot⟩ := hfull
      refine List.countP_eq_zero.mpr fun t ht hfeasible => ?_
      have hlt := rank_lt_of_feasible defined (hsplit.perm.subset (List.mem_append_right kept ht))
        (hsplit.perm.subset (List.mem_append_left dropped hs)) hfeasible hnot
      exact absurd (hsplit.precedes s hs t ht).rank_le (Nat.not_le.mpr hlt)
    omega

end Feasible

/-! ## Survivors -/

/-- Every member has one standing, the place of its front and its room within the whole front.
Survival splits the standings: as many are kept as there are places, those that are dropped are in
no earlier front than any that is kept and in the same front have no more room, and each survivor is
the member with a kept standing, which is written into it. Where all costs and violations are
numbers, as many feasible members survive as there are places for. -/
theorem survive_splits_standings (objectives : List Objective) (places : Nat)
    (members : List Member) :
    let survivors := survive objectives places members
    ((standings objectives members).map (·.place)).Perm (List.range members.length) ∧
    (∃ kept dropped, (kept ++ dropped).Perm (standings objectives members) ∧
      List.Forall₂ (fun s m => s.settle members = some m) kept survivors ∧
      survivors.length = min places members.length ∧
      ∀ s ∈ kept, ∀ t ∈ dropped, s.rank ≤ t.rank ∧ (s.rank = t.rank → ¬ s.room < t.room)) ∧
    ((∀ m ∈ members, m.solution.Defined objectives) →
      survivors.countP (·.solution.violation ≤ 0.0) =
        min places (members.countP (·.solution.violation ≤ 0.0))) := by
  intro survivors
  refine ⟨places_standings objectives members, ?_, countP_feasible_survive⟩
  obtain ⟨kept, dropped, hsplit⟩ := exists_split_survive objectives places members
  have hlength := (places_standings objectives members).length_eq
  rw [List.length_map, List.length_range] at hlength
  refine ⟨kept, dropped, hsplit.perm, hsplit.settles, ?_, fun s hs t ht => ?_⟩
  · rw [← hsplit.settles.length_eq, hsplit.length_eq, hlength]
  · have hprecedes := hsplit.precedes s hs t ht
    exact ⟨hprecedes.rank_le, hprecedes.room_not_lt⟩

/-- A member with an expenditure, a yearly cost and a violation. -/
def bidder (capex annualisedCost violation : Float) : Member where
  chromosome := []
  solution :=
    { bid (some (.number capex)) (some (.number annualisedCost)) with
      violation, feasible := violation ≤ 0.0 }
  rank := 0
  crowding := 0.0

/-- The first four do not dominate one another. The last would dominate them and is not feasible. -/
def bidders : List Member :=
  [bidder 0.0 10.0 0.0, bidder 1.0 5.0 0.0, bidder 6.0 4.0 0.0, bidder 10.0 0.0 0.0,
    bidder 0.0 0.0 1.0]

theorem survive_splits_standings_bidders :
    (∀ m ∈ bidders, m.solution.Defined [.capex, .annualisedCost]) ∧
    (survive [.capex, .annualisedCost] 3 bidders).length = 3 ∧
    (survive [.capex, .annualisedCost] 3 bidders).countP (·.solution.violation ≤ 0.0) = 3 := by
  have hdefined : ∀ m ∈ bidders, m.solution.Defined [.capex, .annualisedCost] := by decide +kernel
  obtain ⟨-, ⟨_, _, -, -, hlength, -⟩, hcount⟩ :=
    survive_splits_standings [.capex, .annualisedCost] 3 bidders
  refine ⟨hdefined, hlength.trans (by decide), (hcount hdefined).trans ?_⟩
  decide +kernel

end Retrofit.Nsga2
