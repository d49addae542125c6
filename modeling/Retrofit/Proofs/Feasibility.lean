import Retrofit.Proofs.Number.Sums
import Retrofit.Search.Problem

/-!
# Feasibility

A solution is feasible if its violation, summed up over windows, limits of expenditure, sites and the
portfolio, is zero. Each summand is a number that is not negative and measures one limit
(`Number.Measures`), whatever the simulator reports, so the sum measures all of them
(`feasible_iff_limits_met`). An undefined metric breaks its window; an undefined expenditure does not
break the limit of its site.
-/

namespace Retrofit

open Number (Measures)

/-! ## Windows -/

namespace Bounds

/-- The sides of a window are numbers. -/
def Proper (b : Bounds) : Prop :=
  (∀ low ∈ b.min, Number.IsNumber low) ∧ ∀ high ∈ b.max, Number.IsNumber high

instance : DecidablePred Proper := fun _ => inferInstanceAs (Decidable (_ ∧ _))

/-- A number within a window. -/
structure Holds (b : Bounds) (value : Float) : Prop where
  isNumber : Number.IsNumber value
  min_le : ∀ low ∈ b.min, low ≤ value
  le_max : ∀ high ∈ b.max, value ≤ high

/-- A number that is on the wrong side of neither side, as far as they are numbers. -/
def Admits (b : Bounds) (value : Float) : Prop :=
  Number.IsNumber value ∧ (∀ low ∈ b.min, ¬ value < low) ∧ ∀ high ∈ b.max, ¬ high < value

lemma le_iff_not_lt {x y : Float} (hx : Number.IsNumber x) (hy : Number.IsNumber y) :
    x ≤ y ↔ ¬ y < x := by
  rw [Number.le_iff_units hx hy, Number.lt_iff_units hy hx, Int.not_lt]

lemma holds_iff_admits {b : Bounds} {value : Float} (hb : b.Proper) :
    b.Holds value ↔ b.Admits value := by
  constructor
  · rintro ⟨hvalue, hmin, hmax⟩
    refine ⟨hvalue, fun low hlow => ?_, fun high hhigh => ?_⟩
    · exact (le_iff_not_lt (hb.1 low hlow) hvalue).mp (hmin low hlow)
    · exact (le_iff_not_lt hvalue (hb.2 high hhigh)).mp (hmax high hhigh)
  · rintro ⟨hvalue, hmin, hmax⟩
    refine ⟨hvalue, fun low hlow => ?_, fun high hhigh => ?_⟩
    · exact (le_iff_not_lt (hb.1 low hlow) hvalue).mpr (hmin low hlow)
    · exact (le_iff_not_lt hvalue (hb.2 high hhigh)).mpr (hmax high hhigh)

/-- The distance from one side of a window. -/
lemma measures_side (side : Option Float) (distance : Float → Float) (p : Float → Prop)
    (h : ∀ limit, Measures (distance limit) (p limit)) :
    Measures (match side with
      | some limit => distance limit
      | none => 0.0) (∀ limit ∈ side, p limit) := by
  cases side with
  | none => exact Measures.zero.congr (iff_of_true trivial nofun)
  | some limit =>
    refine (h limit).congr ⟨fun hp => ?_, fun hp => hp limit rfl⟩
    rintro _ ⟨⟩
    exact hp

lemma measures_infinity {p : Prop} (h : ¬ p) : Measures Number.infinity p := by
  have hpos : 0 < Number.units Number.infinity := Number.beyond_pos
  refine ⟨⟨by decide +kernel, Int.le_of_lt hpos⟩, iff_of_false (by omega) h⟩

/-- The violation of a window measures whether it admits a value. -/
theorem measures_violation (b : Bounds) (value : Float) :
    Measures (b.violation value) (b.Admits value) := by
  unfold violation
  split
  · rename_i hnan
    exact measures_infinity fun h => absurd (hnan.symm.trans h.1) nofun
  · rename_i hnan
    have hbelow := measures_side b.min _ _ fun low => Number.measures_excess low value
    have habove := measures_side b.max _ _ fun high => Number.measures_excess value high
    exact (hbelow.add habove).congr (and_iff_right (Bool.eq_false_of_not_eq_true hnan)).symm

/-- A window with numbers as its sides contains the numbers between them. -/
theorem contains_iff {b : Bounds} (hb : b.Proper) (value : Float) :
    b.contains value ↔ b.Holds value := by
  unfold contains
  rw [decide_eq_true_iff, (b.measures_violation value).le_zero_iff, holds_iff_admits hb]

end Bounds

/-! ## Constraints -/

namespace Constraints

/-- All sides of all windows are numbers. -/
def Proper (c : Constraints) : Prop := ∀ o, ∀ b ∈ c.get o, b.Proper

/-- Every constrained metric is there, and a number within its window. -/
def MetBy (c : Constraints) (metrics : Metrics Amount) : Prop :=
  ∀ o, ∀ b ∈ c.get o, ∃ amount ∈ metrics.get o, b.Holds amount.value

lemma measures_entry (b : Bounds) (metric : Option Amount) :
    Measures (match metric with
      | some amount => b.violation amount.value
      | none => Number.infinity)
      (∃ amount ∈ metric, b.Admits amount.value) := by
  cases metric with
  | none => exact Bounds.measures_infinity nofun
  | some amount =>
    refine (b.measures_violation amount.value).congr ⟨fun h => ⟨amount, rfl, h⟩, ?_⟩
    rintro ⟨_, ⟨⟩, h⟩
    exact h

lemma measures_violation (c : Constraints) (metrics : Metrics Amount) :
    Measures (c.violation metrics)
      (∀ o, ∀ b ∈ c.get o, ∃ amount ∈ metrics.get o, b.Admits amount.value) := by
  refine (Measures.sum fun e _ => measures_entry e.2 (metrics.get e.1)).congr ?_
  constructor
  · exact fun h o b hb => h (o, b) (PerObjective.mem_toList.mpr hb)
  · exact fun h e he => h e.1 e.2 (PerObjective.mem_toList.mp he)

/-- The violation of constraints measures whether they are met. -/
theorem measures_metBy {c : Constraints} (hc : c.Proper) (metrics : Metrics Amount) :
    Measures (c.violation metrics) (c.MetBy metrics) := by
  refine (c.measures_violation metrics).congr ?_
  refine forall₃_congr fun o b hb => exists_congr fun amount => and_congr_right fun _ => ?_
  exact (Bounds.holds_iff_admits (hc o b hb)).symm

end Constraints

/-! ## Sites -/

namespace Site

/-- The limit of expenditure is a number, and so are the sides of all windows. -/
structure Proper (site : Site) : Prop where
  constraints : site.constraints.Proper
  capexLimit : ∀ limit ∈ site.capexLimit, Number.IsNumber limit

lemma measures_overspent (limit : Option Float) (capex : Option Amount) :
    Measures (match limit, capex with
      | some limit, some capex => Number.larger (capex.value - limit) 0.0
      | _, _ => 0.0) (∀ l ∈ limit, ∀ c ∈ capex, ¬ l < c.value) := by
  cases limit with
  | none => exact Measures.zero.congr (iff_of_true trivial nofun)
  | some limit =>
    cases capex with
    | none => exact Measures.zero.congr (iff_of_true trivial nofun)
    | some capex =>
      refine (Number.measures_excess capex.value limit).congr ⟨fun h => ?_, fun h => ?_⟩
      · rintro _ ⟨⟩ _ ⟨⟩
        exact h
      · exact h limit rfl capex rfl

lemma nonNegative_violation (site : Site) (metrics : Metrics Amount) :
    Number.NonNegative (site.violation metrics) :=
  ((site.constraints.measures_violation metrics).add (measures_overspent _ _)).nonNegative

end Site

/-- A site with the totals of its baseline, and a scenario with the totals that it has. -/
structure EvaluatedSite where
  site : Site
  baseline : Totals Amount
  scenario : Scenario
  result : Totals Amount

namespace EvaluatedSite

def metrics (e : EvaluatedSite) : Metrics Amount := siteMetrics e.result e.baseline

def solution (e : EvaluatedSite) : SiteSolution := e.site.solution e.baseline e.scenario e.result

/-- The constraints of the site are met, and its expenditure, if it is a number, is at most its
limit. -/
structure WithinLimits (e : EvaluatedSite) : Prop where
  constraints : e.site.constraints.MetBy e.metrics
  capex : ∀ limit ∈ e.site.capexLimit, e.result.capex.IsNumber → e.result.capex.value ≤ limit

/-- The violation of a site measures whether its limits are kept. -/
theorem measures_withinLimits {e : EvaluatedSite} (h : e.site.Proper) :
    Measures e.solution.violation e.WithinLimits := by
  have hconstraints := Constraints.measures_metBy h.constraints e.metrics
  have hcapex := Site.measures_overspent e.site.capexLimit (some e.result.capex)
  refine (hconstraints.add hcapex).congr ⟨fun ⟨hmet, hspent⟩ => ⟨hmet, ?_⟩,
    fun ⟨hmet, hspent⟩ => ⟨hmet, ?_⟩⟩
  · intro limit hlimit hnumber
    exact (Bounds.le_iff_not_lt hnumber (h.capexLimit limit hlimit)).mpr (hspent limit hlimit _ rfl)
  · rintro limit hlimit _ ⟨⟩
    by_cases hnumber : e.result.capex.IsNumber
    · exact (Bounds.le_iff_not_lt hnumber (h.capexLimit limit hlimit)).mp
        (hspent limit hlimit hnumber)
    · exact Number.not_lt_of_not_isNumber (Or.inr hnumber)

end EvaluatedSite

/-! ## Portfolios -/

lemma Dict.values_map {α β : Type} (f : α → β) (d : Dict α) : (d.map f).values = d.values.map f := by
  unfold Dict.values Dict.map Dict.mapWithKey
  rw [List.map_map, List.map_map]
  rfl

namespace PortfolioSolution

/-- The violation of a portfolio is zero or more, whatever was simulated. -/
theorem unsigned_violation {sites : Dict SiteSolution} (constraints : Constraints)
    (h : ∀ s ∈ sites.values, Number.NonNegative s.violation) :
    Number.Unsigned (ofSites sites constraints).violation := by
  refine (Number.unsigned_sum ?_).add (constraints.measures_violation _).nonNegative
  intro v hv
  obtain ⟨s, hs, rfl⟩ := List.mem_map.mp hv
  exact h s hs

/-- A portfolio is feasible if all limits of its sites are kept and its constraints are met. Its
violation is a number, also if some of the metrics are undefined or infinite. -/
theorem feasible_iff_limits_met (evaluated : Dict EvaluatedSite) {constraints : Constraints}
    (hsites : ∀ e ∈ evaluated.values, e.site.Proper) (hconstraints : constraints.Proper) :
    let solution := ofSites (evaluated.map (·.solution)) constraints
    Number.Unsigned solution.violation ∧
      (solution.feasible ↔
        (∀ e ∈ evaluated.values, e.WithinLimits) ∧ constraints.MetBy solution.metrics) := by
  intro solution
  constructor
  · refine unsigned_violation constraints fun s hs => ?_
    rw [Dict.values_map] at hs
    obtain ⟨e, -, rfl⟩ := List.mem_map.mp hs
    exact e.site.nonNegative_violation _
  · have hsum := Measures.sum fun e he => EvaluatedSite.measures_withinLimits (hsites e he)
    have hviolation := hsum.add (Constraints.measures_metBy hconstraints solution.metrics)
    have hvalues : (evaluated.map (·.solution)).values.map (·.violation) =
        evaluated.values.map (·.solution.violation) := by
      rw [Dict.values_map, List.map_map]
      rfl
    rw [← hvalues] at hviolation
    exact decide_eq_true_iff.trans hviolation.le_zero_iff

/-- A quay where a hundred pounds may be spent, and ten pounds a year. -/
def quay : Site where
  siteId := "quay"
  bundleId := "quay"
  baseline := .empty
  range := .empty
  constraints := PerObjective.none.set .annualisedCost (some (.atMost 10.0))
  capexLimit := some 100.0

/-- The quay with a scenario of the given expenditure. -/
def quaySpending (capex : Amount) : Dict EvaluatedSite :=
  Dict.empty.insert "quay" ⟨quay, .fill 0, quay.baselineScenario, (Totals.fill 0).set .capex capex⟩

lemma proper_quay : quay.Proper := by
  refine ⟨fun o => ?_, ?_⟩
  · cases o <;> decide +kernel
  · decide +kernel

theorem feasible_iff_limits_met_quay :
    (∀ e ∈ (quaySpending (.number 50.0)).values, e.site.Proper) ∧
    Constraints.Proper PerObjective.none ∧
    ((ofSites ((quaySpending (.number 50.0)).map (·.solution)) .none).feasible ↔
      (∀ e ∈ (quaySpending (.number 50.0)).values, e.WithinLimits) ∧
        Constraints.MetBy PerObjective.none
          (ofSites ((quaySpending (.number 50.0)).map (·.solution)) .none).metrics) := by
  have hsites : ∀ e ∈ (quaySpending (.number 50.0)).values, e.site.Proper := by
    intro e he
    rw [List.mem_singleton.mp he]
    exact proper_quay
  have hconstraints : Constraints.Proper PerObjective.none := by
    intro o
    cases o <;> exact nofun
  exact ⟨hsites, hconstraints, (feasible_iff_limits_met _ hsites hconstraints).2⟩

/-- An undefined expenditure is feasible though it is not at most the limit, which as a window for
the expenditure would not contain it. -/
theorem unpriced_quay_feasible :
    let unpriced := quaySpending (.undefined .above)
    (ofSites (unpriced.map (·.solution)) .none).feasible ∧
    (¬ ∀ e ∈ unpriced.values, ∀ limit ∈ e.site.capexLimit, e.result.capex.value ≤ limit) ∧
    ¬ (Bounds.atMost 100.0).contains (Amount.undefined .above).value := by
  decide +kernel

end PortfolioSolution

end Retrofit
