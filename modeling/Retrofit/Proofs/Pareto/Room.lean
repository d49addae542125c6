import Mathlib.Data.Finset.Union
import Mathlib.Data.List.Sort
import Retrofit.Proofs.Lists
import Retrofit.Proofs.Number.Shares
import Retrofit.Proofs.Pareto.Crowding

/-!
# How much room there is

On every column one row of least and one of greatest cost have infinite room, and every other row
has a share of the width of the column (`exists_ends`). The crowding distance of a row adds up its
rooms (`getElem?_crowding`), so it is infinite for the rows at the ends, two for every column at
most, and no more than the number of columns for every other row (`exists_crowding_ends`). Costs may
be undefined or infinite in all of this, and crowding distances are numbers all the same.
-/

namespace Retrofit

open Number

/-! ## The rooms of a column -/

/-- Entries with all places below `n`, sorted by their places, stand at these places. -/
lemma getElem?_map_snd_mergeSort {α : Type} {entries : List (Nat × α)} {n : Nat}
    (hplaces : (entries.map Prod.fst).Perm (List.range n)) {i : Nat} {x : α} :
    ((entries.mergeSort fun a b => a.1 ≤ b.1).map Prod.snd)[i]? = some x ↔ (i, x) ∈ entries := by
  have hsorted := pairwise_mergeSort_key Prod.fst entries
  have hperm := List.mergeSort_perm entries fun a b => a.1 ≤ b.1
  rw [← hperm.mem_iff]
  generalize (entries.mergeSort fun a b => a.1 ≤ b.1) = sorted at hsorted hperm ⊢
  have hrange : sorted.map Prod.fst = List.range n :=
    ((hperm.map Prod.fst).trans hplaces).eq_of_pairwise' (List.pairwise_map.mpr hsorted)
      List.pairwise_le_range
  have hplace : ∀ {j : Nat} {e : Nat × α}, sorted[j]? = some e → e.1 = j := by
    intro j e he
    have hfirst : (sorted.map Prod.fst)[j]? = some e.1 := by
      rw [List.getElem?_map, he, Option.map_some]
    rw [hrange, List.getElem?_eq_some_iff] at hfirst
    obtain ⟨hj, heq⟩ := hfirst
    rw [← heq, List.getElem_range]
  rw [List.getElem?_map, Option.map_eq_some_iff]
  constructor
  · rintro ⟨⟨j, y⟩, he, rfl⟩
    obtain rfl : j = i := hplace he
    exact List.mem_of_getElem? he
  · intro h
    obtain ⟨j, hj⟩ := List.getElem?_of_mem h
    obtain rfl : i = j := hplace hj
    exact ⟨_, hj, rfl⟩

/-- All values but the last have shares of the width, if any two of them are a share apart. -/
lemma exists_roomAfter {width : Float} {before last : Amount × Nat} {inner : List (Amount × Nat)}
    (h : (before :: (inner ++ [last])).Pairwise fun a b =>
      Share (if 0.0 < width && width.isFinite then (b.1.value - a.1.value) / width else 0.0)) :
    ∃ rooms, roomAfter width before.1.value ((inner ++ [last]).map fun e => (e.1.value, e.2)) =
        rooms ++ [(last.2, infinity)] ∧
      rooms.map Prod.fst = inner.map Prod.snd ∧ ∀ e ∈ rooms, Share e.2 := by
  induction inner generalizing before with
  | nil => exact ⟨[], rfl, rfl, List.forall_mem_nil _⟩
  | cons e inner ih =>
    obtain ⟨hbefore, hrest⟩ := List.pairwise_cons.mp h
    obtain ⟨rooms, hrooms, hplaces, hshares⟩ := ih hrest
    obtain ⟨next, rest, hnext⟩ : ∃ next rest, inner ++ [last] = next :: rest :=
      List.exists_cons_of_ne_nil (List.append_ne_nil_of_right_ne_nil _ (List.cons_ne_nil _ _))
    rw [List.cons_append, hnext] at hbefore ⊢
    rw [hnext] at hrooms
    refine ⟨(e.2, _) :: rooms, congrArg (List.cons _) hrooms, ?_, ?_⟩
    · rw [List.map_cons, List.map_cons, hplaces]
    · have hshare := hbefore next (List.mem_cons_of_mem _ List.mem_cons_self)
      exact List.forall_mem_cons.mpr ⟨hshare, hshares⟩

/-- The rows at the two ends of a column, which alone have infinite room there. -/
structure ColumnEnds (column : List Amount) (least greatest : Nat) : Prop where
  rank_least : ∃ a, column[least]? = some a ∧ ∀ b ∈ column, a.rank ≤ b.rank
  rank_greatest : ∃ a, column[greatest]? = some a ∧ ∀ b ∈ column, b.rank ≤ a.rank
  room_least : (columnRoom column)[least]? = some infinity
  room_greatest : (columnRoom column)[greatest]? = some infinity
  room_between : ∀ {i x}, (columnRoom column)[i]? = some x → i ≠ least → i ≠ greatest → Share x

lemma share_between {first last a b : Amount} (hfirst : first.rank ≤ a.rank)
    (hab : a.rank ≤ b.rank) (hlast : b.rank ≤ last.rank) :
    Share (if 0.0 < last.value - first.value && (last.value - first.value).isFinite then
      (b.value - a.value) / (last.value - first.value) else 0.0) := by
  split_ifs with hwidth
  · rw [Bool.and_eq_true, decide_eq_true_eq] at hwidth
    obtain ⟨hlastFinite, hfirstFinite⟩ := isFinite_of_isFinite_sub hwidth.2
    have hnumbers : first.IsNumber ∧ last.IsNumber :=
      ⟨isNumber_of_isFinite hfirstFinite, isNumber_of_isFinite hlastFinite⟩
    have ha := Amount.isNumber_of_rank_between hnumbers.1 hnumbers.2 hfirst (hab.trans hlast)
    have hb := Amount.isNumber_of_rank_between hnumbers.1 hnumbers.2 (hfirst.trans hab) hlast
    exact share_div hwidth.1 hwidth.2 ha hb (Amount.units_le_of_rank_le hnumbers.1 ha hfirst)
      (Amount.units_le_of_rank_le ha hb hab) (Amount.units_le_of_rank_le hb hnumbers.2 hlast)
  · exact .zero

section Sorted

variable {column : List Amount} {first last : Amount × Nat} {rest : List (Amount × Nat)}

lemma columnRoom_eq (heq : column.zipIdx.mergeSort (fun a b => a.1.rank ≤ b.1.rank) = first :: rest)
    (hlast : (first :: rest).getLast? = some last) :
    columnRoom column = (((first.2, infinity) :: roomAfter (last.1.value - first.1.value)
      first.1.value (rest.map fun e => (e.1.value, e.2))).mergeSort fun a b => a.1 ≤ b.1).map
        Prod.snd := by
  have hascending : ((first :: rest).map fun e => (e.1.value, e.2)).getLast? =
      some (last.1.value, last.2) := by
    rw [List.getLast?_map, hlast, Option.map_some]
  unfold columnRoom
  dsimp only
  rw [heq, hascending]
  rfl

lemma rank_between (hsorted : (first :: rest).Pairwise fun a b => a.1.rank ≤ b.1.rank)
    (hlast : (first :: rest).getLast? = some last) :
    ∀ e ∈ first :: rest, first.1.rank ≤ e.1.rank ∧ e.1.rank ≤ last.1.rank := by
  intro e he
  have hfinal := hsorted.rel_getLast_of_rel_getLast_getLast he (Int.le_refl _)
  rw [List.getLast_of_getLast?_eq_some hlast] at hfinal
  exact ⟨hsorted.rel_head_of_rel_head_head he (Int.le_refl _), hfinal⟩

/-- The rooms of all rows but the first of a column in its order. -/
lemma exists_rooms (hsorted : (first :: rest).Pairwise fun a b => a.1.rank ≤ b.1.rank)
    (hlast : (first :: rest).getLast? = some last) :
    ∃ rooms, roomAfter (last.1.value - first.1.value) first.1.value
        (rest.map fun e => (e.1.value, e.2)) = rooms ∧
      rooms.map Prod.fst = rest.map Prod.snd ∧ (last.2, infinity) ∈ (first.2, infinity) :: rooms ∧
      ∀ e ∈ rooms, e.1 ≠ last.2 → Share e.2 := by
  have hbetween := rank_between hsorted hlast
  rcases List.eq_nil_or_concat' rest with rfl | ⟨inner, final, rfl⟩
  · obtain rfl : first = last := Option.some.inj hlast
    exact ⟨[], rfl, rfl, List.mem_cons_self, List.forall_mem_nil _⟩
  · obtain rfl : final = last := by
      rw [← List.cons_append, List.getLast?_append] at hlast
      exact Option.some.inj hlast
    obtain ⟨rooms, hrooms, hplaces, hshares⟩ := exists_roomAfter (hsorted.imp_of_mem
      fun ha hb hab => share_between (hbetween _ ha).1 hab (hbetween _ hb).2)
    refine ⟨_, hrooms, ?_, List.mem_cons_of_mem _ (List.mem_append_right _ List.mem_cons_self), ?_⟩
    · rw [List.map_append, hplaces, List.map_append]
      rfl
    · intro e he hne
      rcases List.mem_append.mp he with he | he
      · exact hshares e he
      · exact absurd (List.mem_singleton.mp he ▸ rfl) hne

end Sorted

theorem exists_ends {column : List Amount} (hne : column ≠ []) :
    ∃ least greatest, ColumnEnds column least greatest := by
  have hsorted := pairwise_mergeSort_key (fun e => e.1.rank) column.zipIdx
  have hperm := List.mergeSort_perm column.zipIdx fun a b => a.1.rank ≤ b.1.rank
  have hroom := @columnRoom_eq column
  generalize column.zipIdx.mergeSort (fun a b => a.1.rank ≤ b.1.rank) = sorted at *
  cases sorted with
  | nil => exact absurd (List.zipIdx_eq_nil_iff.mp (List.nil_perm.mp hperm)) hne
  | cons first rest =>
    obtain ⟨last, hlast⟩ : ∃ last, (first :: rest).getLast? = some last :=
      ⟨_, List.getLast?_eq_some_getLast (List.cons_ne_nil first rest)⟩
    have hbetween := rank_between hsorted hlast
    have hplace : ∀ e ∈ first :: rest, column[e.2]? = some e.1 :=
      fun e he => List.mem_zipIdx_iff_getElem?.mp (hperm.mem_iff.mp he)
    have hplaces : ((first :: rest).map Prod.snd).Perm (List.range column.length) := by
      have hmap := hperm.map Prod.snd
      rwa [List.zipIdx_map_snd, ← List.range_eq_range'] at hmap
    have hvalues : ∀ b ∈ column, first.1.rank ≤ b.rank ∧ b.rank ≤ last.1.rank := by
      intro b hb
      obtain ⟨i, hi⟩ := List.getElem?_of_mem hb
      exact hbetween (b, i) (hperm.mem_iff.mpr (List.mem_zipIdx_iff_getElem?.mpr hi))
    obtain ⟨rooms, hrooms, hroomPlaces, hlastRoom, hshares⟩ := exists_rooms hsorted hlast
    have hentries :
        (((first.2, infinity) :: rooms).map Prod.fst).Perm (List.range column.length) := by
      rwa [List.map_cons, hroomPlaces]
    have hmem : ∀ {i : Nat} {x : Float}, (columnRoom column)[i]? = some x ↔
        (i, x) ∈ (first.2, infinity) :: rooms := by
      rw [hroom rfl hlast, hrooms]
      exact getElem?_map_snd_mergeSort hentries
    refine ⟨first.2, last.2, ?_, ?_, ?_, ?_, ?_⟩
    · exact ⟨first.1, hplace _ List.mem_cons_self, fun b hb => (hvalues b hb).1⟩
    · exact ⟨last.1, hplace _ (List.mem_of_getLast? hlast), fun b hb => (hvalues b hb).2⟩
    · exact hmem.mpr List.mem_cons_self
    · exact hmem.mpr hlastRoom
    · intro i x hx hfirst hgreatest
      rcases List.mem_cons.mp (hmem.mp hx) with heq | hx
      · exact absurd (congrArg Prod.fst heq) hfirst
      · exact hshares _ hx hgreatest

/-! ## Crowding distances -/

/-- The costs of all rows on one objective. -/
def columnAt (rows : List (List Amount)) (c : Nat) : List Amount := rows.map fun row => row.getD c 0

/-- How many columns there are. -/
def columns (rows : List (List Amount)) : Nat := (rows.headD []).length

section Rows

variable {rows : List (List Amount)} {i : Nat}

lemma getElem?_room (c : Nat) (hi : i < rows.length) : (columnRoom (columnAt rows c))[i]? =
    some ((columnRoom (columnAt rows c)).getD i 0.0) := by
  have hlt : i < (columnRoom (columnAt rows c)).length := by
    rwa [length_columnRoom, columnAt, List.length_map]
  rw [List.getElem?_eq_getElem hlt, List.getD_eq_getElem _ _ hlt]

/-- The crowding distance of a row adds up its rooms on all columns. -/
lemma getElem?_crowding (h : 2 < rows.length) (hi : i < rows.length) :
    (crowding rows)[i]? = some (sum ((List.range (columns rows)).map
      fun c => (columnRoom (columnAt rows c)).getD i 0.0)) := by
  have hfold : ∀ (cs : List Nat) {distances : List Float} {d : Float}, distances[i]? = some d →
      (cs.foldl (fun distances c => distances.zipWith (· + ·) (columnRoom (columnAt rows c)))
        distances)[i]? =
      some ((cs.map fun c => (columnRoom (columnAt rows c)).getD i 0.0).foldl (· + ·) d) := by
    intro cs
    induction cs with
    | nil => exact id
    | cons c cs ih =>
      intro distances d hd
      exact ih (by rw [List.getElem?_zipWith, hd, getElem?_room c hi])
  unfold crowding
  rw [if_neg (Nat.not_le.mpr h)]
  refine hfold _ ?_
  rw [List.getElem?_map, List.getElem?_eq_getElem hi, Option.map_some]

lemma unsigned_infinity : Unsigned infinity :=
  ⟨⟨isNumber_infinity, Int.natCast_nonneg beyond⟩, nofun⟩

lemma ColumnEnds.nonNegative_room {column : List Amount} {least greatest : Nat} {x : Float}
    (h : ColumnEnds column least greatest) (hx : (columnRoom column)[i]? = some x) : NonNegative x := by
  by_cases hleast : i = least
  · rw [hleast, h.room_least] at hx
    exact Option.some.inj hx ▸ unsigned_infinity.toNonNegative
  · by_cases hgreatest : i = greatest
    · rw [hgreatest, h.room_greatest] at hx
      exact Option.some.inj hx ▸ unsigned_infinity.toNonNegative
    · exact (h.room_between hx hleast hgreatest).toNonNegative

/-- The crowding distance of a row that stands at no end is at most the number of columns, and that
of every other row is infinite. -/
theorem exists_crowding_ends (h : 2 < rows.length) : ∃ least greatest : Nat → Nat,
    (∀ c, ColumnEnds (columnAt rows c) (least c) (greatest c)) ∧
    ∀ {i d}, (crowding rows)[i]? = some d → Unsigned d ∧
      ((∃ c < columns rows, i = least c ∨ i = greatest c) → units d = beyond) ∧
      ((∀ c < columns rows, i ≠ least c ∧ i ≠ greatest c) →
        units d ≤ (min (columns rows) (2 ^ 53) : Nat) * one) := by
  have hcolumn : ∀ c, columnAt rows c ≠ [] := by
    intro c hnil
    have hlength := congrArg List.length hnil
    rw [columnAt, List.length_map, List.length_nil] at hlength
    omega
  choose least greatest hends using fun c => exists_ends (hcolumn c)
  refine ⟨least, greatest, hends, ?_⟩
  intro i d hd
  have hi : i < rows.length := by
    rw [← length_crowding]
    exact (List.getElem?_eq_some_iff.mp hd).1
  have hroom := fun c => getElem?_room c hi
  rw [getElem?_crowding h hi, Option.some.injEq] at hd
  subst hd
  have hrooms : ∀ x ∈ (List.range (columns rows)).map
      fun c => (columnRoom (columnAt rows c)).getD i 0.0, NonNegative x :=
    List.forall_mem_map.mpr fun c _ => (hends c).nonNegative_room (hroom c)
  refine ⟨unsigned_sum hrooms, ?_, ?_⟩
  · rintro ⟨c, hc, hend⟩
    have hinfinite : (columnRoom (columnAt rows c)).getD i 0.0 = infinity := by
      refine Option.some.inj ((hroom c).symm.trans ?_)
      rcases hend with rfl | rfl
      · exact (hends c).room_least
      · exact (hends c).room_greatest
    have hle := units_le_sum hrooms (List.mem_map.mpr ⟨c, List.mem_range.mpr hc, hinfinite⟩)
    have hbound := natAbs_units_le (unsigned_sum hrooms).isNumber
    rw [units_infinity] at hle
    omega
  · intro hbetween
    have hsum := units_sum_le (List.forall_mem_map.mpr fun c hc =>
      have hends' := hbetween c (List.mem_range.mp hc)
      (hends c).room_between (hroom c) hends'.1 hends'.2)
    rwa [List.length_map, List.length_range] at hsum

/-- A crowding distance is a number and not negative, whatever the costs are. -/
theorem unsigned_crowding {d : Float} (hd : d ∈ crowding rows) : Unsigned d := by
  rcases Nat.lt_or_ge 2 rows.length with hlarge | hsmall
  · obtain ⟨_, _, -, hcrowding⟩ := exists_crowding_ends hlarge
    obtain ⟨i, hi⟩ := List.getElem?_of_mem hd
    exact (hcrowding hi).1
  · unfold crowding at hd
    rw [if_pos hsmall] at hd
    obtain ⟨-, -, rfl⟩ := List.mem_map.mp hd
    exact unsigned_infinity

end Rows

/-- Two ends for every column. -/
lemma length_le_of_ends {k : Nat} {least greatest : Nat → Nat} {l : List Nat} (hl : l.Nodup)
    (hends : ∀ i ∈ l, ∃ c < k, i = least c ∨ i = greatest c) : l.length ≤ 2 * k := by
  have hsub : l ⊆ (List.range k).map least ++ (List.range k).map greatest := by
    intro i hi
    obtain ⟨c, hc, hend⟩ := hends i hi
    have hc := List.mem_range.mpr hc
    rcases hend with rfl | rfl
    · exact List.mem_append_left _ (List.mem_map_of_mem hc)
    · exact List.mem_append_right _ (List.mem_map_of_mem hc)
  have hle := (List.subperm_of_subset hl hsub).length_le
  rw [List.length_append, List.length_map, List.length_map, List.length_range] at hle
  omega

end Retrofit
