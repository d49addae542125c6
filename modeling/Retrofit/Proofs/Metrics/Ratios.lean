import Retrofit.Metrics
import Retrofit.Proofs.Number.Quotients
import Retrofit.Proofs.Number.Steps
import Retrofit.Proofs.Pareto.Costs

/-!
# Ratios and savings

A ratio of money spent to a saving is there to be made small, so a greater saving should not have a
greater ratio. It has not as long as both savings are positive, whatever is rounded, overflows or
becomes too small for a double (`Ratio.formula_antitone`). Where nothing is saved the ratio is a
fixed value, which is beaten by every ratio up to it. It is not as great as all ratios: a saving that
is small enough ranks behind no saving at all (`savings_rank_up_to_unattainable`).
-/

namespace Retrofit

namespace Amount

lemma zero_lt_iff {x : Float} (hx : Number.IsNumber x) : (0 : Amount) < number x ↔
    0 < Number.units x := by
  change (0.0 : Float) < x ↔ _
  rw [Number.lt_iff_units Number.isNumber_zero hx, Number.units_zero]

end Amount

/-- The ratios of money spent to a yearly saving. -/
inductive Ratio where
  | payback
  | carbon

namespace Ratio

def objective : Ratio → Objective
  | payback => .paybackHorizon
  | carbon => .carbonCost

/-- The objective that is the saving. -/
def balance : Ratio → Objective
  | payback => .costBalance
  | carbon => .carbonBalanceScope1

def formula : Ratio → Amount → Amount → Amount
  | payback => paybackHorizon
  | carbon => carbonCost

/-- What the money is divided by. -/
def divisor (ratio : Ratio) (saving : Amount) : Amount :=
  match ratio with
  | payback => saving
  | carbon => saving * Scalar.lifetime / Scalar.kilogramsPerTonne

lemma formula_eq (ratio : Ratio) (capex saving : Amount) : ratio.formula capex saving =
    if 0 < capex then
      if 0 < saving then capex / ratio.divisor saving else Scalar.unattainable
    else 0 := by
  cases ratio <;> rfl

lemma formula_of_nothing_spent (ratio : Ratio) {capex : Amount} (h : ¬ 0 < capex)
    (saving : Amount) : ratio.formula capex saving = 0 := by
  rw [formula_eq, if_neg h]

lemma formula_of_nothing_saved (ratio : Ratio) {capex saving : Amount} (hspent : 0 < capex)
    (h : ¬ 0 < saving) : ratio.formula capex saving = Scalar.unattainable := by
  rw [formula_eq, if_pos hspent, if_neg h]

/-- The saving over the lifetime of the assets, in tonnes. It may be rounded to zero. -/
def lifetimeTonnes (x : Float) : Float := x * 20.0 / 1000.0

lemma isNumber_lifetime {x : Float} (hx : x.isFinite) (hpos : 0 < Number.units x) :
    Number.IsNumber (x * 20.0) ∧ 0 < Number.units (x * 20.0) := by
  have hlifetime : (Number.one : Int) ≤ Number.units 20.0 := by decide +kernel
  obtain ⟨hnumber, hunits⟩ := Number.units_mul hx (by decide : (20.0 : Float).isFinite)
  have hle := Number.le_rounded (Number.isNumber_of_isFinite hx) Number.one_pos
    (Int.mul_le_mul_of_nonneg_left hlifetime (Int.le_of_lt hpos))
  exact ⟨hnumber, by omega⟩

lemma unsigned_lifetimeTonnes {x : Float} (hx : x.isFinite) (hpos : 0 < Number.units x) :
    Number.Unsigned (lifetimeTonnes x) := by
  obtain ⟨hnumber, hproduct⟩ := isNumber_lifetime hx hpos
  exact (Number.unsigned_div hnumber hproduct (by decide) (by decide +kernel)).1

lemma units_lifetimeTonnes_mono {x y : Float} (hx : x.isFinite) (hy : y.isFinite)
    (hpos : 0 < Number.units x) (h : Number.units x ≤ Number.units y) :
    Number.units (lifetimeTonnes x) ≤ Number.units (lifetimeTonnes y) := by
  obtain ⟨hnumber, hproduct⟩ := isNumber_lifetime hx hpos
  obtain ⟨hnumber', -⟩ := isNumber_lifetime hy (by omega)
  apply Number.units_div_mono hnumber hnumber' hproduct _ (by decide) (by decide +kernel)
  rw [(Number.units_mul hx (by decide)).2, (Number.units_mul hy (by decide)).2]
  exact Number.rounded_mono Number.one_pos
    (Int.mul_le_mul_of_nonneg_right h (by decide +kernel))

/-- The divisor of a positive saving. -/
def divisorNumber (ratio : Ratio) (x : Float) : Float :=
  match ratio with
  | payback => x
  | carbon => lifetimeTonnes x

section

variable (ratio : Ratio) {x y c : Float} (hx : x.isFinite) (hpos : 0 < Number.units x)
include hx hpos

lemma divisor_number : ratio.divisor (.number x) = .number (ratio.divisorNumber x) := by
  cases ratio with
  | payback => rfl
  | carbon =>
    have hproduct : (Amount.number x) * .number 20.0 = .number (x * 20.0) :=
      Amount.ofResult_of_isNumber (isNumber_lifetime hx hpos).1
    change Amount.number x * .number 20.0 / .number 1000.0 = _
    rw [hproduct]
    exact Amount.ofResult_of_isNumber (unsigned_lifetimeTonnes hx hpos).isNumber

lemma unsigned_divisorNumber : Number.Unsigned (ratio.divisorNumber x) := by
  cases ratio with
  | payback =>
    exact ⟨⟨Number.isNumber_of_isFinite hx, Int.le_of_lt hpos⟩,
      Number.plain_of_units_ne_zero (Int.ne_of_gt hpos)⟩
  | carbon => exact unsigned_lifetimeTonnes hx hpos

lemma units_divisorNumber_mono (hy : y.isFinite) (h : Number.units x ≤ Number.units y) :
    Number.units (ratio.divisorNumber x) ≤ Number.units (ratio.divisorNumber y) := by
  cases ratio with
  | payback => exact h
  | carbon => exact units_lifetimeTonnes_mono hx hy hpos h

lemma formula_number (hc : c.isFinite) (hcpos : 0 < Number.units c) :
    Number.IsNumber (c / ratio.divisorNumber x) ∧
      ratio.formula (.number c) (.number x) = .number (c / ratio.divisorNumber x) := by
  have hdivisor := ratio.unsigned_divisorNumber hx hpos
  obtain ⟨hnumber, -⟩ := Number.units_div_unsigned hc hcpos hdivisor
  refine ⟨hnumber, ?_⟩
  rw [formula_eq, if_pos ((Amount.zero_lt_iff (Number.isNumber_of_isFinite hc)).mpr hcpos),
    if_pos ((Amount.zero_lt_iff (Number.isNumber_of_isFinite hx)).mpr hpos),
    ratio.divisor_number hx hpos]
  exact Amount.ofResult_of_isNumber hnumber

/-- Of two positive savings the greater one has no greater ratio. -/
theorem formula_antitone (hy : y.isFinite) (h : Number.units x ≤ Number.units y)
    (hc : c.isFinite) (hcpos : 0 < Number.units c) :
    ratio.formula (.number c) (.number y) ≤ ratio.formula (.number c) (.number x) := by
  have hposy : 0 < Number.units y := by omega
  obtain ⟨hnumber, hx'⟩ := ratio.formula_number hx hpos hc hcpos
  obtain ⟨hnumber', hy'⟩ := ratio.formula_number hy hposy hc hcpos
  rw [hx', hy']
  change c / ratio.divisorNumber y ≤ c / ratio.divisorNumber x
  rw [Number.le_iff_units hnumber' hnumber]
  exact Number.units_div_antitone hc hcpos (ratio.unsigned_divisorNumber hx hpos)
    (ratio.unsigned_divisorNumber hy hposy) (ratio.units_divisorNumber_mono hx hpos hy h)

end

lemma divisor_infinity (ratio : Ratio) :
    ratio.divisor (.number Number.infinity) = .number Number.infinity := by
  cases ratio <;> decide +kernel

/-- The divisor of a positive saving, infinite or not, has no sign. -/
lemma exists_divisor (ratio : Ratio) {x : Float} (hx : Number.IsNumber x)
    (hpos : 0 < Number.units x) : ∃ d, ratio.divisor (.number x) = .number d ∧ Number.Unsigned d := by
  by_cases hfinite : x.isFinite
  · exact ⟨_, ratio.divisor_number hfinite hpos, ratio.unsigned_divisorNumber hfinite hpos⟩
  · have hinfinite := Number.eq_infinity_of_not_isFinite hx (Int.le_of_lt hpos) hfinite
    rw [hinfinite] at hx hpos ⊢
    exact ⟨_, ratio.divisor_infinity, ⟨hx, Int.le_of_lt hpos⟩,
      Number.plain_of_units_ne_zero (Int.ne_of_gt hpos)⟩

/-- No ratio is the negative zero, whatever the expenditure and the saving are. -/
theorem plain_formula (ratio : Ratio) (capex saving : Amount) :
    (ratio.formula capex saving).Plain := by
  rw [formula_eq]
  split_ifs with hspent hsaved
  · obtain ⟨c, rfl, hc⟩ := Amount.exists_eq_number (Amount.isNumber_of_lt hspent).2
    obtain ⟨x, rfl, hx⟩ := Amount.exists_eq_number (Amount.isNumber_of_lt hsaved).2
    obtain ⟨d, hdivisor, hd⟩ := ratio.exists_divisor hx ((Amount.zero_lt_iff hx).mp hsaved)
    rw [hdivisor]
    exact Amount.plain_ofResult
      (Number.plain_div_unsigned hc ((Amount.zero_lt_iff hc).mp hspent) hd)
  · exact Number.plain_of_units_ne_zero (by decide +kernel)
  · exact Amount.plain_zero

/-- The one way in which the greater of two savings ranks worse: the lesser one is none at all, and
the ratio of the greater one is above the value that stands for this. -/
structure Outranked (ratio : Ratio) (capex less more : Amount) : Prop where
  nothing_saved : ¬ 0 < less
  saved : 0 < more
  above : Scalar.unattainable < ratio.formula capex more

/-- Saving more ranks no worse up to the ratio that stands for no saving. -/
theorem formula_le_iff (ratio : Ratio) {capex less more : Amount} (hc : capex.value.isFinite)
    (hless : less.value.isFinite) (hmore : more.value.isFinite) (h : less ≤ more) :
    ratio.formula capex more ≤ ratio.formula capex less ↔ ¬ ratio.Outranked capex less more := by
  obtain ⟨c, rfl, hnc⟩ := Amount.exists_eq_number (Number.isNumber_of_isFinite hc)
  obtain ⟨x, rfl, hnx⟩ := Amount.exists_eq_number (Number.isNumber_of_isFinite hless)
  obtain ⟨y, rfl, hny⟩ := Amount.exists_eq_number (Number.isNumber_of_isFinite hmore)
  have hunits : Number.units x ≤ Number.units y := (Number.le_iff_units hnx hny).mp h
  have hsentinel : Amount.IsNumber Scalar.unattainable := by decide
  by_cases hspent : (0 : Amount) < .number c
  · have hcpos := (Amount.zero_lt_iff hnc).mp hspent
    by_cases hsaved : (0 : Amount) < .number x
    · have hpos := (Amount.zero_lt_iff hnx).mp hsaved
      exact iff_of_true (ratio.formula_antitone hless hpos hmore hunits hc hcpos)
        fun houtranked => houtranked.nothing_saved hsaved
    · rw [ratio.formula_of_nothing_saved hspent hsaved]
      by_cases hsaved' : (0 : Amount) < .number y
      · obtain ⟨hnumber, hformula⟩ :=
          ratio.formula_number hmore ((Amount.zero_lt_iff hny).mp hsaved') hc hcpos
        have hratio : (ratio.formula (.number c) (.number y)).IsNumber := hformula ▸ hnumber
        rw [Amount.le_iff_units hratio hsentinel, ← Int.not_lt,
          ← Amount.lt_iff_units hsentinel hratio]
        exact not_congr ⟨fun habove => ⟨hsaved, hsaved', habove⟩,
          fun houtranked => houtranked.above⟩
      · rw [ratio.formula_of_nothing_saved hspent hsaved']
        exact iff_of_true (by decide) fun houtranked => hsaved' houtranked.saved
  · rw [ratio.formula_of_nothing_spent hspent, ratio.formula_of_nothing_spent hspent]
    refine iff_of_true (by decide) fun houtranked => ?_
    have habove := houtranked.above
    rw [ratio.formula_of_nothing_spent hspent] at habove
    exact absurd habove (by decide)

end Ratio

/-- What the sites have of an objective together. -/
def combined (sites : List (Metrics Amount)) (o : Objective) : Amount := (total sites o).getD 0

lemma get_portfolioMetrics_ratio (ratio : Ratio) (sites : List (Metrics Amount)) :
    (portfolioMetrics sites).get ratio.objective =
      some (ratio.formula (combined sites .capex) (combined sites ratio.balance)) := by
  cases ratio <;> rfl

/-- For one expenditure, a greater saving has no greater ratio, of a scenario or of the sums of a
portfolio, except that a saving whose ratio is above that of no saving ranks behind it. -/
theorem savings_rank_up_to_unattainable (ratio : Ratio) :
    (∀ capex less more : Amount, capex.value.isFinite → less.value.isFinite →
      more.value.isFinite → less ≤ more →
      (ratio.formula capex more ≤ ratio.formula capex less ↔
        ¬ ratio.Outranked capex less more)) ∧
    ∀ sites sites' : List (Metrics Amount),
      let capex := combined sites .capex
      let less := combined sites ratio.balance
      let more := combined sites' ratio.balance
      combined sites' .capex = capex → capex.value.isFinite → less.value.isFinite →
      more.value.isFinite → less ≤ more →
      ∃ r r', (portfolioMetrics sites).get ratio.objective = some r ∧
        (portfolioMetrics sites').get ratio.objective = some r' ∧
        (r' ≤ r ↔ ¬ ratio.Outranked capex less more) := by
  refine ⟨fun capex less more => ratio.formula_le_iff, ?_⟩
  intro sites sites' capex less more hsame hc hless hmore h
  refine ⟨_, _, get_portfolioMetrics_ratio ratio sites, get_portfolioMetrics_ratio ratio sites', ?_⟩
  rw [hsame]
  exact ratio.formula_le_iff hc hless hmore h

/-- A site with an expenditure and a yearly saving. -/
def pier (capex saving : Float) : Metrics Amount :=
  (PerObjective.none.set .capex (some (.number capex))).set .costBalance (some (.number saving))

theorem savings_rank_up_to_unattainable_piers :
    ((9000.0 : Float).isFinite ∧ (-50.0 : Float).isFinite ∧ (300.0 : Float).isFinite ∧
      Amount.number (-50.0) ≤ .number 300.0 ∧
      (Ratio.payback.formula (.number 9000.0) (.number 300.0) ≤
          Ratio.payback.formula (.number 9000.0) (.number (-50.0)) ↔
        ¬ Ratio.payback.Outranked (.number 9000.0) (.number (-50.0)) (.number 300.0))) ∧
    let sites := [pier 9000.0 300.0, pier 800.0 (-50.0)]
    let sites' := [pier 9000.0 500.0, pier 800.0 25.0]
    let capex := combined sites .capex
    let less := combined sites .costBalance
    let more := combined sites' .costBalance
    combined sites' .capex = capex ∧ capex.value.isFinite ∧ less.value.isFinite ∧
      more.value.isFinite ∧ less ≤ more ∧
      ∃ r r', (portfolioMetrics sites).get .paybackHorizon = some r ∧
        (portfolioMetrics sites').get .paybackHorizon = some r' ∧
        (r' ≤ r ↔ ¬ Ratio.payback.Outranked capex less more) := by
  obtain ⟨hamounts, hsites⟩ := savings_rank_up_to_unattainable .payback
  have hfinite : (9000.0 : Float).isFinite ∧ (-50.0 : Float).isFinite ∧ (300.0 : Float).isFinite ∧
      Amount.number (-50.0) ≤ .number 300.0 := by
    decide +kernel
  have hcombined :
      combined [pier 9000.0 500.0, pier 800.0 25.0] .capex =
        combined [pier 9000.0 300.0, pier 800.0 (-50.0)] .capex ∧
      (combined [pier 9000.0 300.0, pier 800.0 (-50.0)] .capex).value.isFinite ∧
      (combined [pier 9000.0 300.0, pier 800.0 (-50.0)] .costBalance).value.isFinite ∧
      (combined [pier 9000.0 500.0, pier 800.0 25.0] .costBalance).value.isFinite ∧
      combined [pier 9000.0 300.0, pier 800.0 (-50.0)] .costBalance ≤
        combined [pier 9000.0 500.0, pier 800.0 25.0] .costBalance := by
    decide +kernel
  obtain ⟨hc, hless, hmore, hle⟩ := hfinite
  obtain ⟨hsame, hcapex, hbefore, hafter, hsaved⟩ := hcombined
  exact ⟨⟨hc, hless, hmore, hle, hamounts _ _ _ hc hless hmore hle⟩,
    hsame, hcapex, hbefore, hafter, hsaved, hsites _ _ hsame hcapex hbefore hafter hsaved⟩

/-- A million pounds spent for a saving of less than a penny in a hundred years ranks behind the
same expenditure for nothing, by either ratio. -/
theorem slight_saving_outranked :
    let capex := Amount.number 1000000.0
    let slight := Amount.number 0.0000152587890625
    capex.value.isFinite ∧ slight.value.isFinite ∧ 0 ≤ slight ∧
      ¬ paybackHorizon capex slight ≤ paybackHorizon capex 0 ∧
      ¬ carbonCost capex slight ≤ carbonCost capex 0 := by
  decide +kernel

end Retrofit
