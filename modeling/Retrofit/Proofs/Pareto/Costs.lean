import Retrofit.Pareto.Front
import Retrofit.Proofs.Number.Arithmetic
import Retrofit.Proofs.Pareto.Dominance

/-!
# Costs, objective by objective

Dominance between solutions compares their costs one objective at a time (`dominates_costs`), and so
do the sameness of points and the definedness of costs. An undefined cost is neither less nor more
than another, so dominance passes over it, while `isDominatedBy` asks for a cost that is no more:
the two differ by the definedness of the costs alone (`isDominatedBy_iff`). Solutions at one point
are not told apart by dominance (`dominates_congr`), whether their costs are defined or not.
-/

namespace Retrofit

namespace Amount

variable {a a' b b' : Amount}

lemma not_lt_of_not_isNumber (h : ¬ a.IsNumber ∨ ¬ b.IsNumber) : ¬ a < b :=
  Number.not_lt_of_not_isNumber h

lemma isNumber_of_lt (h : a < b) : a.IsNumber ∧ b.IsNumber := by
  by_contra hnot
  exact not_lt_of_not_isNumber (not_and_or.mp hnot) h

lemma le_iff : a ≤ b ↔ (a.IsNumber ∧ b.IsNumber) ∧ ¬ b < a := by
  constructor
  · intro h
    obtain ⟨ha, hb⟩ := Number.isNumber_of_le h
    refine ⟨⟨ha, hb⟩, ?_⟩
    rw [lt_iff_units hb ha, Int.not_lt]
    exact (le_iff_units ha hb).mp h
  · rintro ⟨⟨ha, hb⟩, hnot⟩
    rw [lt_iff_units hb ha, Int.not_lt] at hnot
    exact (le_iff_units ha hb).mpr hnot

lemma isNumber_add_zero : (a + 0).IsNumber ↔ a.IsNumber := by
  cases a with
  | undefined side => rfl
  | number x =>
    by_cases hx : Number.IsNumber x
    · rw [number_add_zero hx]
      exact Number.isNumber_add_zero
    · have hsum : (x + 0.0).isNaN = true :=
        Bool.not_eq_false _ ▸ mt Number.isNumber_add_zero.mp hx
      refine iff_of_false ?_ hx
      change ¬ (ofResult (x + 0.0)).IsNumber
      rw [ofResult, if_pos hsum]
      decide +kernel

lemma units_add_zero (ha : a.IsNumber) : (a + 0).units = a.units := by
  obtain ⟨x, rfl, hx⟩ := exists_eq_number ha
  rw [number_add_zero hx]
  exact Number.units_add_zero x

lemma isNumber_neg : (-a).IsNumber ↔ a.IsNumber := by
  cases a with
  | number x => exact Number.isNumber_neg
  | undefined side => rfl

lemma units_neg (a : Amount) : (-a).units = -a.units := by
  cases a with
  | number x => exact Number.units_neg x
  | undefined side => cases side <;> decide +kernel

lemma lt_trans {c : Amount} (hab : a < b) (hbc : b < c) : a < c := by
  obtain ⟨ha, hb⟩ := isNumber_of_lt hab
  have hc := (isNumber_of_lt hbc).2
  rw [lt_iff_units ha hb] at hab
  rw [lt_iff_units hb hc] at hbc
  exact (lt_iff_units ha hc).mpr (Int.lt_trans hab hbc)

/-- Amounts that are the same after adding zero compare alike. -/
lemma lt_congr (ha : a + 0 = a' + 0) (hb : b + 0 = b' + 0) : a < b ↔ a' < b' := by
  have hna : a.IsNumber ↔ a'.IsNumber := by
    rw [← isNumber_add_zero, ha, isNumber_add_zero]
  have hnb : b.IsNumber ↔ b'.IsNumber := by
    rw [← isNumber_add_zero, hb, isNumber_add_zero]
  by_cases h : a.IsNumber ∧ b.IsNumber
  · have h' : a'.IsNumber ∧ b'.IsNumber := ⟨hna.mp h.1, hnb.mp h.2⟩
    rw [lt_iff_units h.1 h.2, lt_iff_units h'.1 h'.2, ← units_add_zero h.1, ← units_add_zero h.2,
      ha, hb, units_add_zero h'.1, units_add_zero h'.2]
  · have h' : ¬ (a'.IsNumber ∧ b'.IsNumber) := by rwa [← hna, ← hnb]
    exact iff_of_false (mt isNumber_of_lt h) (mt isNumber_of_lt h')

end Amount

namespace Objective

variable {o : Objective} {a b : Amount}

lemma isNumber_cost : (o.cost a).IsNumber ↔ a.IsNumber := by
  unfold cost
  cases o.direction with
  | maximize => exact Amount.isNumber_neg
  | minimize => rfl

lemma units_cost_inj : (o.cost a).units = (o.cost b).units ↔ a.units = b.units := by
  unfold cost
  cases o.direction with
  | maximize =>
    dsimp only
    rw [Amount.units_neg, Amount.units_neg, Int.neg_inj]
  | minimize => rfl

end Objective

namespace PortfolioSolution

variable {objectives : List Objective} {s s' t t' : PortfolioSolution}

/-- The cost of a solution on an objective. -/
def cost (s : PortfolioSolution) (o : Objective) : Amount := o.cost (s.metric o)

lemma zip_costs (s t : PortfolioSolution) (objectives : List Objective) :
    (s.costs objectives).zip (t.costs objectives) = objectives.map fun o => (s.cost o, t.cost o) :=
  List.zip_map'

lemma numbers_costs : Numbers (s.costs objectives) ↔ ∀ o ∈ objectives, (s.cost o).IsNumber :=
  List.forall_mem_map

theorem dominates_costs : dominates (s.costs objectives) (t.costs objectives) ↔
    (∀ o ∈ objectives, ¬ t.cost o < s.cost o) ∧ ∃ o ∈ objectives, s.cost o < t.cost o := by
  unfold dominates
  dsimp only
  rw [zip_costs, Bool.and_eq_true, Bool.not_eq_true', List.any_eq_false, List.any_eq_true,
    List.forall_mem_map]
  simp only [List.mem_map, decide_eq_true_eq, exists_exists_and_eq_and]

theorem isDominatedBy_costs : s.isDominatedBy t objectives ↔
    (∀ o ∈ objectives, t.cost o ≤ s.cost o) ∧ ∃ o ∈ objectives, t.cost o < s.cost o := by
  unfold isDominatedBy
  dsimp only
  rw [zip_costs, Bool.and_eq_true, List.all_eq_true, List.any_eq_true, List.forall_mem_map]
  simp only [List.mem_map, decide_eq_true_eq, exists_exists_and_eq_and]

lemma point_eq_point : s.point objectives = t.point objectives ↔
    ∀ o ∈ objectives, s.cost o + 0 = t.cost o + 0 := by
  unfold point costs
  rw [List.map_map, List.map_map, List.map_inj_left]
  rfl

lemma rowUnits_costs_eq : rowUnits (s.costs objectives) = rowUnits (t.costs objectives) ↔
    ∀ o ∈ objectives, (s.cost o).units = (t.cost o).units := by
  unfold rowUnits costs
  rw [List.map_map, List.map_map, List.map_inj_left]
  rfl

/-- Dominance does not tell solutions at one point apart. -/
theorem dominates_congr (hs : s.point objectives = s'.point objectives)
    (ht : t.point objectives = t'.point objectives) :
    dominates (s.costs objectives) (t.costs objectives) ↔
      dominates (s'.costs objectives) (t'.costs objectives) := by
  have hs := point_eq_point.mp hs
  have ht := point_eq_point.mp ht
  rw [dominates_costs, dominates_costs]
  refine and_congr (forall₂_congr fun o ho => ?_) (exists_congr fun o => and_congr_right fun ho => ?_)
  · exact not_congr (Amount.lt_congr (ht o ho) (hs o ho))
  · exact Amount.lt_congr (hs o ho) (ht o ho)

/-- A solution is dominated by another if the other's costs dominate and the costs of both are
numbers. -/
theorem isDominatedBy_iff : s.isDominatedBy t objectives ↔
    dominates (t.costs objectives) (s.costs objectives) ∧ Numbers (s.costs objectives) ∧
      Numbers (t.costs objectives) := by
  rw [isDominatedBy_costs, dominates_costs, numbers_costs, numbers_costs]
  simp only [Amount.le_iff]
  constructor
  · rintro ⟨hle, hless⟩
    exact ⟨⟨fun o ho => (hle o ho).2, hless⟩, fun o ho => (hle o ho).1.2,
      fun o ho => (hle o ho).1.1⟩
  · rintro ⟨⟨hnot, hless⟩, hs, ht⟩
    exact ⟨fun o ho => ⟨⟨ht o ho, hs o ho⟩, hnot o ho⟩, hless⟩

end PortfolioSolution

end Retrofit
