import Mathlib.Data.Prod.Lex
import Mathlib.Order.RelClasses
import Retrofit.Proofs.Number.Zeros
import Retrofit.Proofs.Pareto.Room
import Retrofit.Proofs.Search.Survival

/-!
# Which parents are preferred

Crowding distances are numbers whatever the costs are: infinite for the members at the two ends of
every objective, and at most the number of objectives for all others. So a survivor has a place in a
linear order, that of its front and then of its room (`Member.key`), and tournaments compare these
places (`Member.preferred_iff`). To be preferred is therefore a strict weak order among the survivors
(`crowding_orders_survivors`).
-/

namespace Retrofit

open Number

/-! ## Crowding distances of a matrix of costs -/

lemma Number.eq_infinity_iff {x : Float} (hx : IsNumber x) : x = infinity ↔ units x = beyond := by
  constructor
  · rintro rfl
    exact units_infinity
  · intro h
    have hpos := beyond_pos
    exact (plain_of_units_ne_zero (by omega)).eq_of_units_eq
      (plain_of_units_ne_zero (by rw [units_infinity]; omega)) hx isNumber_infinity
      (h.trans units_infinity.symm)

/-- What is at most a count of ones, as far as these are counted exactly, is at most the count. -/
lemma Number.le_ofInt {x : Float} {n : Nat} (hx : IsNumber x)
    (h : units x ≤ (min n (2 ^ 53) : Nat) * one) : x ≤ ofInt n := by
  rw [le_iff_units hx (isNumber_ofInt n)]
  have hexact := units_ofInt (Nat.min_le_right n (2 ^ 53))
  have hmono := units_ofInt_mono (Nat.min_le_left n (2 ^ 53))
  omega

section Matrix

variable {n m : Nat}

/-- The costs of every row of a matrix. -/
def rowsOf (costs : Fin n → Fin m → Amount) : List (List Amount) :=
  List.ofFn fun i => List.ofFn (costs i)

variable (costs : Fin n → Fin m → Amount)

lemma length_rowsOf : (rowsOf costs).length = n := List.length_ofFn

lemma columns_rowsOf (h : 0 < n) : columns (rowsOf costs) = m := by
  cases n with
  | zero => exact absurd h (Nat.lt_irrefl 0)
  | succ n =>
    unfold columns rowsOf
    rw [List.ofFn_succ]
    exact List.length_ofFn

lemma getElem?_columnAt_rowsOf (c : Fin m) (i : Fin n) :
    (columnAt (rowsOf costs) c)[i.1]? = some (costs i c) := by
  unfold columnAt rowsOf
  simp

/-- The rows at the ends of a column have its least and its greatest cost. -/
lemma exists_of_columnEnds {c : Fin m} {least greatest : Nat}
    (h : ColumnEnds (columnAt (rowsOf costs) c) least greatest) :
    ∃ low high : Fin n, low.1 = least ∧ high.1 = greatest ∧
      ∀ i, (costs low c).rank ≤ (costs i c).rank ∧ (costs i c).rank ≤ (costs high c).rank := by
  have hvalue := getElem?_columnAt_rowsOf costs c
  have hplace : ∀ {i : Nat} {a : Amount}, (columnAt (rowsOf costs) c)[i]? = some a →
      ∃ j : Fin n, j.1 = i ∧ costs j c = a := by
    intro i a ha
    have hlt := (List.getElem?_eq_some_iff.mp ha).1
    rw [columnAt, List.length_map, length_rowsOf] at hlt
    exact ⟨⟨i, hlt⟩, rfl, Option.some.inj ((hvalue ⟨i, hlt⟩).symm.trans ha)⟩
  obtain ⟨a, ha, hbelow⟩ := h.rank_least
  obtain ⟨b, hb, habove⟩ := h.rank_greatest
  obtain ⟨low, hlow, rfl⟩ := hplace ha
  obtain ⟨high, hhigh, rfl⟩ := hplace hb
  refine ⟨low, high, hlow, hhigh, fun i => ?_⟩
  have hcost := List.mem_of_getElem? (hvalue i)
  exact ⟨hbelow _ hcost, habove _ hcost⟩

/-- The rows at the two ends of every column, and the crowding distances of all rows. -/
lemma exists_ends_of_matrix (h : 2 < n) : ∃ least greatest : Fin m → Fin n,
    (∀ c i, (costs (least c) c).rank ≤ (costs i c).rank ∧
      (costs i c).rank ≤ (costs (greatest c) c).rank) ∧
    ∀ (i : Fin n) d, (crowding (rowsOf costs))[i.1]? = some d →
      (d = infinity ↔ ∃ c, i = least c ∨ i = greatest c) ∧ (d ≠ infinity → d ≤ ofInt m) := by
  obtain ⟨least, greatest, hends, hdistance⟩ :=
    @exists_crowding_ends (rowsOf costs) (by rwa [length_rowsOf])
  rw [columns_rowsOf costs (by omega)] at hdistance
  choose low high hlow hhigh hranks using fun c : Fin m => exists_of_columnEnds costs (hends c)
  refine ⟨low, high, hranks, fun i d hd => ?_⟩
  obtain ⟨hd, hinfinite, hshares⟩ := hdistance hd
  have hiff := Number.eq_infinity_iff hd.isNumber
  by_cases hend : ∃ c, i = low c ∨ i = high c
  · have heq : d = infinity := by
      obtain ⟨c, rfl | rfl⟩ := hend
      · exact hiff.mpr (hinfinite ⟨c, c.2, .inl (hlow c)⟩)
      · exact hiff.mpr (hinfinite ⟨c, c.2, .inr (hhigh c)⟩)
    exact ⟨iff_of_true heq hend, fun hne => absurd heq hne⟩
  · have hshare := hshares fun c hc =>
      ⟨fun h => hend ⟨⟨c, hc⟩, .inl (Fin.ext (h.trans (hlow ⟨c, hc⟩).symm))⟩,
        fun h => hend ⟨⟨c, hc⟩, .inr (Fin.ext (h.trans (hhigh ⟨c, hc⟩).symm))⟩⟩
    have hfinite : units d ≠ beyond := by
      have hbeyond := mul_one_lt_beyond (n := min m (2 ^ 53)) (by omega)
      rw [← Int.natCast_mul] at hshare
      omega
    exact ⟨iff_of_false (mt hiff.mp hfinite) hend, fun _ => Number.le_ofInt hd.isNumber hshare⟩

end Matrix

namespace Nsga2

/-! ## Survivors -/

section Survivors

variable {objectives : List Objective} {members : List Member} {places : Nat}

lemma unsigned_of_mem_standingsFrom {costs : Nat → List Amount} {rank : Nat}
    {fronts : List (List Nat)} {s : Standing} (h : s ∈ standingsFrom costs rank fronts) :
    Unsigned s.room := by
  induction fronts generalizing rank with
  | nil => exact nomatch h
  | cons front rest ih =>
    rw [standingsFrom_cons] at h
    rcases List.mem_append.mp h with h | h
    · unfold standingsOf at h
      obtain ⟨i, hi, rfl⟩ := List.mem_iff_getElem.mp h
      rw [List.getElem_zipWith]
      exact unsigned_crowding (List.getElem_mem _)
    · exact ih h

/-- The room that is written into a survivor is a number. -/
theorem unsigned_crowding_of_mem_survive {m : Member} (h : m ∈ survive objectives places members) :
    Unsigned m.crowding := by
  obtain ⟨kept, dropped, hsplit⟩ := exists_split_survive objectives places members
  obtain ⟨s, hs, hsettles⟩ := exists_of_mem_right hsplit.settles h
  obtain ⟨m, -, rfl⟩ := Option.map_eq_some_iff.mp hsettles
  exact unsigned_of_mem_standingsFrom (hsplit.perm.subset (List.mem_append_left dropped hs))

end Survivors

/-! ## Places in a linear order -/

namespace Member

/-- The front of a member, and the room around it where more comes first. -/
def key (m : Member) : Nat ×ₗ Int := toLex (m.rank, -units m.crowding)

variable {a b : Member}

/-- Of two members with room that is a number the one is preferred that comes first. -/
lemma preferred_iff (ha : IsNumber a.crowding) (hb : IsNumber b.crowding) :
    a.preferred b ↔ a.key < b.key := by
  unfold preferred key
  rw [Prod.Lex.toLex_lt_toLex, Bool.or_eq_true, Bool.and_eq_true, decide_eq_true_eq,
    decide_eq_true_eq, decide_eq_true_eq, lt_iff_units hb ha]
  exact or_congr_right (and_congr_right fun _ => Int.neg_lt_neg_iff.symm)

end Member

lemma better_toArray {population : List Member} (a b : Fin population.length) :
    better population.toArray a b = population[a].preferred population[b] := by
  have hfound : ∀ i : Fin population.length, population.toArray[i.1]? = some population[i] :=
    fun i => (List.getElem?_toArray ..).trans (List.getElem?_eq_getElem i.2)
  unfold better
  rw [hfound, hfound]

/-- Tournaments compare positions by a strict weak order if there is no undefined room. -/
theorem isStrictWeakOrder_better {population : List Member}
    (h : ∀ m ∈ population, IsNumber m.crowding) :
    IsStrictWeakOrder (Fin population.length) fun a b => better population.toArray a b := by
  have hkeys : (fun a b : Fin population.length => (better population.toArray a b : Prop)) =
      Order.Preimage (fun a : Fin population.length => population[a].key) (· < ·) := by
    funext a b
    rw [better_toArray]
    exact propext (Member.preferred_iff (h _ (List.getElem_mem _)) (h _ (List.getElem_mem _)))
  have hplaces : IsStrictWeakOrder (Nat ×ₗ Int) (· < ·) := isStrictWeakOrder_of_isOrderConnected
  rw [hkeys]
  infer_instance

/-- Whatever the costs of a front are, undefined and infinite ones included, its crowding distances
are as many numbers, none of them negative, and all infinite where there are at most two. Among more
members those at the two ends of an objective have infinite distances, and all others at most the
number of objectives. So tournaments compare survivors by a strict weak order. -/
theorem crowding_orders_survivors {n m : Nat} (costs : Fin n → Fin m → Amount) :
    (crowding (rowsOf costs)).length = n ∧
    (∀ d ∈ crowding (rowsOf costs), IsNumber d ∧ 0.0 ≤ d) ∧
    (n ≤ 2 → ∀ d ∈ crowding (rowsOf costs), d = infinity) ∧
    (2 < n → ∃ least greatest : Fin m → Fin n,
      (∀ c i, (costs (least c) c).rank ≤ (costs i c).rank ∧
        (costs i c).rank ≤ (costs (greatest c) c).rank) ∧
      ∀ (i : Fin n) d, (crowding (rowsOf costs))[i.1]? = some d →
        (d = infinity ↔ ∃ c, i = least c ∨ i = greatest c) ∧ (d ≠ infinity → d ≤ ofInt m)) ∧
    ∀ (objectives : List Objective) (places : Nat) (members : List Member),
      let population := survive objectives places members
      IsStrictWeakOrder (Fin population.length) fun a b => better population.toArray a b := by
  refine ⟨(length_crowding _).trans (length_rowsOf costs), fun d hd => ?_, fun hn d hd => ?_,
    exists_ends_of_matrix costs, fun objectives places members => ?_⟩
  · have hunsigned := unsigned_crowding hd
    refine ⟨hunsigned.isNumber, (le_iff_units isNumber_zero hunsigned.isNumber).mpr ?_⟩
    rw [units_zero]
    exact hunsigned.nonneg
  · unfold crowding at hd
    rw [length_rowsOf, if_pos hn] at hd
    obtain ⟨-, -, rfl⟩ := List.mem_map.mp hd
    rfl
  · exact isStrictWeakOrder_better fun m hm => (unsigned_crowding_of_mem_survive hm).isNumber

end Nsga2

end Retrofit
