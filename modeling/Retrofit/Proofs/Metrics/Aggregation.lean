import Mathlib
import Retrofit.Proofs.Feasibility
import Retrofit.Proofs.Number.Zeros

/-!
# Metrics of sums

The metrics of a portfolio are computed from the metrics of its sites, and the totals that are
reported beside them from the totals of its sites. The two tell the same story
(`metrics_add_up`): balances are differences, so they add up over sites whenever totals do, and the
ratios of both are taken of the same sums. This is a law of exact sums; where sums and differences
of amounts are not rounded, it holds of amounts bit by bit, the signs of zeros included, because a
sum that starts from zero is not the negative zero.
-/

namespace Retrofit

/-! ## Objectives that add up -/

namespace Objective

/-- The objectives whose value for a portfolio is the sum of the values for its sites. -/
def additive : List Objective :=
  [carbonBalanceScope1, carbonBalanceScope2, costBalance, capex, annualisedCost]

lemma get_portfolioMetrics {α : Type} [Scalar α] {o : Objective} (h : o ∈ additive)
    (sites : List (Metrics α)) : (portfolioMetrics sites).get o = total sites o := by
  cases o with
  | paybackHorizon => exact absurd h (by decide)
  | carbonCost => exact absurd h (by decide)
  | _ => rfl

end Objective

section

variable {α : Type} [Scalar α]

/-- The ratios follow from the objectives that add up. -/
lemma portfolioMetrics_eq_siteMetrics {sites : List (Metrics α)} {result baseline : Totals α}
    (h : ∀ o ∈ Objective.additive, total sites o = (siteMetrics result baseline).get o) :
    portfolioMetrics sites = siteMetrics result baseline := by
  have hcapex := h .capex (by decide)
  have hcost := h .costBalance (by decide)
  have hcarbon := h .carbonBalanceScope1 (by decide)
  apply PerObjective.ext_get
  intro o
  by_cases hadditive : o ∈ Objective.additive
  · rw [Objective.get_portfolioMetrics hadditive, h o hadditive]
  · cases o with
    | paybackHorizon =>
      change some (paybackHorizon ((total sites .capex).getD 0) ((total sites .costBalance).getD 0))
        = _
      rw [hcapex, hcost]
      rfl
    | carbonCost =>
      change some (carbonCost ((total sites .capex).getD 0)
        ((total sites .carbonBalanceScope1).getD 0)) = _
      rw [hcapex, hcarbon]
      rfl
    | _ => exact absurd (by decide) hadditive

lemma portfolioMetrics_congr {sites sites' : List (Metrics α)}
    (h : ∀ o, total sites o = total sites' o) : portfolioMetrics sites = portfolioMetrics sites' := by
  unfold portfolioMetrics
  simp only [h]

end

/-! ## Exact sums -/

/-- Scalars whose sums and differences are taken exactly. -/
class ExactScalar (α : Type) extends Scalar α, AddCommGroup α

/-- Amounts of money, carbon and time without rounding. -/
instance : ExactScalar ℚ where
  decideLt := inferInstance
  unattainable := 10000000000
  lifetime := 20
  kilogramsPerTonne := 1000
  nsmul := nsmulRec
  zsmul := zsmulRec
  add_assoc := add_assoc
  zero_add := zero_add
  add_zero := add_zero
  add_comm := add_comm
  neg_add_cancel := neg_add_cancel
  sub_eq_add_neg := sub_eq_add_neg

section

variable {α : Type} [ExactScalar α]

lemma total_eq (sites : List (Metrics α)) (o : Objective) :
    total sites o = if sites.filterMap (·.get o) = [] then none
      else some (sites.filterMap (·.get o)).sum := by
  unfold total
  generalize sites.filterMap (·.get o) = values
  have hsum : values.foldl (fun sum value => value + sum) 0 = values.sum := by
    rw [List.sum_eq_foldl]
    simp only [add_comm]
  cases values with
  | nil => rfl
  | cons value values => exact congrArg some hsum

lemma total_perm {sites sites' : List (Metrics α)} (h : sites.Perm sites') (o : Objective) :
    total sites o = total sites' o := by
  have hvalues : (sites.filterMap (·.get o)).Perm (sites'.filterMap (·.get o)) := h.filterMap _
  have hnil : sites.filterMap (·.get o) = [] ↔ sites'.filterMap (·.get o) = [] := by
    rw [← List.length_eq_zero_iff, ← List.length_eq_zero_iff, hvalues.length_eq]
  rw [total_eq, total_eq, hvalues.sum_eq]
  simp only [hnil]

/-- What every site has a value of is added up. -/
lemma total_map {β : Type} {metrics : β → Metrics α} {value : β → α} {o : Objective}
    (h : ∀ b, (metrics b).get o = some (value b)) {l : List β} (hl : l ≠ []) :
    total (l.map metrics) o = some (l.map value).sum := by
  have hvalues : (l.map metrics).filterMap (·.get o) = l.map value := by
    rw [List.filterMap_map, ← List.filterMap_eq_map]
    exact congrArg (List.filterMap · l) (funext h)
  rw [total_eq, hvalues, if_neg (mt List.map_eq_nil_iff.mp hl)]

namespace Totals

lemma get_sum (ts : List (Totals α)) (q : Quantity) : (sum ts).get q = (ts.map (·.get q)).sum := by
  have hfold : ∀ t : Totals α, (ts.foldl add t).get q = t.get q + (ts.map (·.get q)).sum := by
    induction ts with
    | nil => exact fun t => (add_zero _).symm
    | cons t' ts ih =>
      intro t
      rw [List.foldl_cons, ih, List.map_cons, List.sum_cons, ← add_assoc]
      congr 1
      exact get_ofFn _ q
  rw [sum, hfold, fill, get_ofFn, zero_add]

lemma sum_singleton (t : Totals α) : sum [t] = t := by
  have hadd : ∀ q, (fill 0).get q + t.get q = t.get q := by
    intro q
    rw [fill, get_ofFn, zero_add]
  exact congrArg ofFn (funext hadd)

end Totals

lemma sum_map_sub {β : Type} (f g : β → α) (l : List β) :
    (l.map fun b => f b - g b).sum = (l.map f).sum - (l.map g).sum :=
  Multiset.sum_map_sub (m := (l : Multiset β))

namespace Totals

lemma operatingCost_sum (ts : List (Totals α)) :
    (sum ts).operatingCost = (ts.map operatingCost).sum := by
  have hcost : (ts.map operatingCost).sum = (ts.map (·.gasImportCost)).sum +
      (ts.map (·.electricityImportCost)).sum - (ts.map (·.electricityExportGain)).sum := by
    rw [← List.sum_map_add, ← sum_map_sub]
    rfl
  rw [hcost]
  exact congrArg₂ (· - ·) (congrArg₂ (· + ·) (get_sum ts .gasImportCost)
    (get_sum ts .electricityImportCost)) (get_sum ts .electricityExportGain)

end Totals

/-- The metrics of several sites are those of their summed totals. -/
theorem portfolioMetrics_map_siteMetrics {sites : List (Totals α × Totals α)} (h : sites ≠ []) :
    portfolioMetrics (sites.map fun s => siteMetrics s.1 s.2) =
      siteMetrics (Totals.sum (sites.map (·.1))) (Totals.sum (sites.map (·.2))) := by
  apply portfolioMetrics_eq_siteMetrics
  have hsum : ∀ f : Totals α × Totals α → Totals α, ∀ q,
      (sites.map fun s => (f s).get q).sum = (Totals.sum (sites.map f)).get q := by
    intro f q
    rw [Totals.get_sum, List.map_map]
    rfl
  intro o ho
  cases o with
  | paybackHorizon => exact absurd ho (by decide)
  | carbonCost => exact absurd ho (by decide)
  | capex =>
    rw [total_map (fun _ => rfl) h]
    exact congrArg some (hsum Prod.fst .capex)
  | annualisedCost =>
    rw [total_map (fun _ => rfl) h]
    exact congrArg some (hsum Prod.fst .annualisedCost)
  | carbonBalanceScope1 =>
    rw [total_map (fun _ => rfl) h, sum_map_sub]
    exact congrArg some (congrArg₂ (· - ·) (hsum Prod.snd .scope1Emissions)
      (hsum Prod.fst .scope1Emissions))
  | carbonBalanceScope2 =>
    rw [total_map (fun _ => rfl) h, sum_map_sub]
    exact congrArg some (congrArg₂ (· - ·) (hsum Prod.snd .scope2Emissions)
      (hsum Prod.fst .scope2Emissions))
  | costBalance =>
    have hcost : ∀ f : Totals α × Totals α → Totals α,
        (sites.map fun s => (f s).operatingCost).sum = (Totals.sum (sites.map f)).operatingCost := by
      intro f
      rw [Totals.operatingCost_sum, List.map_map]
      rfl
    rw [total_map (fun _ => rfl) h, sum_map_sub, hcost Prod.fst, hcost Prod.snd]
    rfl

end

/-! ## Amounts that are not rounded -/

namespace Amount

/-- The exact value of an amount. -/
def exact (a : Amount) : ℚ := a.units / Number.one

/-- Finite amounts of one exact value are the same. -/
lemma Plain.eq_of_exact_eq {a b : Amount} (ha : a.Plain) (hb : b.Plain) (hfa : a.value.isFinite)
    (hfb : b.value.isFinite) (h : a.exact = b.exact) : a = b := by
  have hone : (Number.one : ℚ) ≠ 0 := Nat.cast_ne_zero.mpr (Nat.ne_of_gt Number.one_pos)
  have hunits : a.units = b.units := Int.cast_inj.mp ((div_left_inj' hone).mp h)
  exact ha.eq_of_units_eq hb (Number.isNumber_of_isFinite hfa) (Number.isNumber_of_isFinite hfb)
    hunits

end Amount

namespace Totals

/-- The exact values of totals. -/
def exact (t : Totals Amount) : Totals ℚ := ofFn fun q => (t.get q).exact

/-- A sum of totals starts from zero. -/
lemma plain_get_sum (ts : List (Totals Amount)) (q : Quantity) : ((sum ts).get q).Plain := by
  have hfold : ∀ t : Totals Amount, (t.get q).Plain → ((ts.foldl add t).get q).Plain := by
    induction ts with
    | nil => exact fun _ ht => ht
    | cons t' ts ih =>
      intro t ht
      rw [List.foldl_cons]
      apply ih
      unfold add
      rw [get_ofFn]
      exact Amount.plain_add (Or.inl ht)
  apply hfold
  rw [fill, get_ofFn]
  exact Amount.plain_zero

end Totals

lemma plain_total {sites : List (Metrics Amount)} {o : Objective} {a : Amount}
    (h : total sites o = some a) : a.Plain := by
  have hfold : ∀ (values : List Amount) {sum : Amount}, sum.Plain →
      (values.foldl (fun sum value => value + sum) sum).Plain := by
    intro values
    induction values with
    | nil => exact id
    | cons value values ih => exact fun hsum => ih (Amount.plain_add (Or.inr hsum))
  unfold total at h
  split at h
  · cases h
  · exact Option.some.inj h ▸ hfold _ Amount.plain_zero

lemma plain_get_siteMetrics {result baseline : Totals Amount} (hresult : ∀ q, (result.get q).Plain)
    (hbaseline : ∀ q, (baseline.get q).Plain) {o : Objective} (ho : o ∈ Objective.additive)
    {a : Amount} (h : (siteMetrics result baseline).get o = some a) : a.Plain := by
  cases o with
  | paybackHorizon => exact absurd ho (by decide)
  | carbonCost => exact absurd ho (by decide)
  | capex => exact Option.some.inj h ▸ hresult .capex
  | annualisedCost => exact Option.some.inj h ▸ hresult .annualisedCost
  | carbonBalanceScope1 => exact Option.some.inj h ▸ Amount.plain_sub (hbaseline .scope1Emissions)
  | carbonBalanceScope2 => exact Option.some.inj h ▸ Amount.plain_sub (hbaseline .scope2Emissions)
  | costBalance =>
    exact Option.some.inj h ▸ Amount.plain_sub (Amount.plain_sub
      (Amount.plain_add (Or.inl (hbaseline .gasImportCost))))

/-- Metrics of which what adds up is finite and has the given exact values. -/
structure Unrounded (metrics : Metrics Amount) (exact : Metrics ℚ) : Prop where
  isFinite : ∀ o ∈ Objective.additive, ∀ a ∈ metrics.get o, a.value.isFinite
  exact_eq : ∀ o ∈ Objective.additive, (metrics.get o).map Amount.exact = exact.get o

instance (metrics : Metrics Amount) (exact : Metrics ℚ) : Decidable (Unrounded metrics exact) :=
  decidable_of_iff (_ ∧ _) ⟨fun h => ⟨h.1, h.2⟩, fun h => ⟨h.isFinite, h.exact_eq⟩⟩

lemma Unrounded.get_eq {metrics metrics' : Metrics Amount} {exact : Metrics ℚ} {o : Objective}
    (h : Unrounded metrics exact) (h' : Unrounded metrics' exact) (ho : o ∈ Objective.additive)
    (hplain : ∀ a ∈ metrics.get o, a.Plain) (hplain' : ∀ a ∈ metrics'.get o, a.Plain) :
    metrics.get o = metrics'.get o := by
  have hexact := (h.exact_eq o ho).trans (h'.exact_eq o ho).symm
  cases hget : metrics.get o with
  | none =>
    rw [hget] at hexact
    exact (Option.map_eq_none_iff.mp hexact.symm).symm
  | some a =>
    rw [hget] at hexact
    obtain ⟨b, hget', hb⟩ := Option.map_eq_some_iff.mp hexact.symm
    rw [hget', (hplain a hget).eq_of_exact_eq (hplain' b hget') (h.isFinite o ho a hget)
      (h'.isFinite o ho b hget') hb.symm]

/-- The metrics of a portfolio are those of its totals if neither are rounded. -/
lemma portfolioMetrics_eq_of_unrounded {sites : List (Totals Amount × Totals Amount)}
    (h : sites ≠ [])
    (hmetrics : Unrounded (portfolioMetrics (sites.map fun s => siteMetrics s.1 s.2))
      (portfolioMetrics (sites.map fun s => siteMetrics s.1.exact s.2.exact)))
    (htotals : Unrounded (siteMetrics (Totals.sum (sites.map (·.1))) (Totals.sum (sites.map (·.2))))
      (siteMetrics (Totals.sum (sites.map (·.1.exact))) (Totals.sum (sites.map (·.2.exact))))) :
    portfolioMetrics (sites.map fun s => siteMetrics s.1 s.2) =
      siteMetrics (Totals.sum (sites.map (·.1))) (Totals.sum (sites.map (·.2))) := by
  have hsame := @portfolioMetrics_map_siteMetrics ℚ _ (sites.map fun s => (s.1.exact, s.2.exact))
    (mt List.map_eq_nil_iff.mp h)
  simp only [List.map_map, Function.comp_def] at hsame
  rw [hsame] at hmetrics
  apply portfolioMetrics_eq_siteMetrics
  intro o ho
  rw [← Objective.get_portfolioMetrics ho]
  refine hmetrics.get_eq htotals ho (fun a ha => ?_) fun a ha => ?_
  · rw [Objective.get_portfolioMetrics ho] at ha
    exact plain_total ha
  · exact plain_get_siteMetrics (Totals.plain_get_sum _) (Totals.plain_get_sum _) ho ha

/-! ## Portfolios -/

/-- The metrics of a portfolio are the metrics of its summed totals, in whatever order the sites are,
and those of a site if there is only one. So the metrics and the totals of a portfolio solution tell
the same story as long as none of its sums and differences are rounded. -/
theorem metrics_add_up :
    (∀ {α : Type} [ExactScalar α] (sites : List (Totals α × Totals α)), sites ≠ [] →
      portfolioMetrics (sites.map fun s => siteMetrics s.1 s.2) =
        siteMetrics (Totals.sum (sites.map (·.1))) (Totals.sum (sites.map (·.2)))) ∧
    (∀ {α : Type} [ExactScalar α] (result baseline : Totals α),
      portfolioMetrics [siteMetrics result baseline] = siteMetrics result baseline) ∧
    (∀ {α : Type} [ExactScalar α] {sites sites' : List (Metrics α)}, sites.Perm sites' →
      portfolioMetrics sites = portfolioMetrics sites') ∧
    ∀ (evaluated : Dict EvaluatedSite) (constraints : Constraints),
      let sites := evaluated.values
      let solution := PortfolioSolution.ofSites (evaluated.map (·.solution)) constraints
      let baseline := Totals.sum (sites.map (·.baseline))
      sites ≠ [] →
      Unrounded solution.metrics
        (portfolioMetrics (sites.map fun e => siteMetrics e.result.exact e.baseline.exact)) →
      Unrounded (siteMetrics solution.result baseline)
        (siteMetrics (Totals.sum (sites.map (·.result.exact)))
          (Totals.sum (sites.map (·.baseline.exact)))) →
      solution.metrics = siteMetrics solution.result baseline := by
  refine ⟨fun sites h => portfolioMetrics_map_siteMetrics h, fun result baseline => ?_,
    fun h => portfolioMetrics_congr (total_perm h), ?_⟩
  · have h := portfolioMetrics_map_siteMetrics (List.cons_ne_nil (result, baseline) [])
    rwa [List.map_singleton, List.map_singleton, List.map_singleton, Totals.sum_singleton,
      Totals.sum_singleton] at h
  · intro evaluated constraints sites solution baseline hsites hmetrics htotals
    have h := @portfolioMetrics_eq_of_unrounded (sites.map fun e => (e.result, e.baseline))
      (mt List.map_eq_nil_iff.mp hsites)
    simp only [List.map_map, Function.comp_def] at h
    have hvalues : ∀ {β : Type} (f : SiteSolution → β),
        (evaluated.map (·.solution)).values.map f = sites.map fun e => f e.solution := by
      intro β f
      rw [Dict.values_map, List.map_map]
      rfl
    have hsolution : solution.metrics = portfolioMetrics (sites.map (·.metrics)) :=
      congrArg portfolioMetrics (hvalues (·.metrics))
    have hresult : solution.result = Totals.sum (sites.map (·.result)) :=
      congrArg Totals.sum (hvalues (·.result))
    rw [hsolution] at hmetrics ⊢
    rw [hresult] at htotals ⊢
    exact h hmetrics htotals

/-- Totals with an expenditure, a yearly bill and yearly emissions. -/
def account {α : Type} [Zero α] (capex bill emissions : α) : Totals α :=
  (((Totals.fill 0).set .capex capex).set .gasImportCost bill).set .scope1Emissions emissions

/-- A jetty that saves two thousand pounds a year, and a quay that pays more than before. -/
def jettyAndQuay : Dict EvaluatedSite :=
  let evaluated (capex before after : Float) : EvaluatedSite :=
    ⟨PortfolioSolution.quay, account 0 (.number before) (.number 4000.0),
      PortfolioSolution.quay.baselineScenario,
      account (.number capex) (.number after) (.number 1500.0)⟩
  (Dict.empty.insert "quay" (evaluated 800.0 500.0 750.25)).insert "jetty"
    (evaluated 9000.0 3000.0 1000.0)

/-- The totals of the two, and those of their baselines, without rounding. -/
def exactJettyAndQuay : List (Totals ℚ × Totals ℚ) :=
  jettyAndQuay.values.map fun e => (e.result.exact, e.baseline.exact)

def exactMetrics : List (Metrics ℚ) :=
  exactJettyAndQuay.map fun s => siteMetrics s.1 s.2

theorem metrics_add_up_jetty_and_quay :
    (exactJettyAndQuay ≠ [] ∧ portfolioMetrics exactMetrics =
      siteMetrics (Totals.sum (exactJettyAndQuay.map (·.1)))
        (Totals.sum (exactJettyAndQuay.map (·.2)))) ∧
    (exactMetrics.reverse.Perm exactMetrics ∧
      portfolioMetrics exactMetrics.reverse = portfolioMetrics exactMetrics) ∧
    let sites := jettyAndQuay.values
    let solution := PortfolioSolution.ofSites (jettyAndQuay.map (·.solution)) .none
    let baseline := Totals.sum (sites.map (·.baseline))
    sites ≠ [] ∧
      Unrounded solution.metrics
        (portfolioMetrics (sites.map fun e => siteMetrics e.result.exact e.baseline.exact)) ∧
      Unrounded (siteMetrics solution.result baseline)
        (siteMetrics (Totals.sum (sites.map (·.result.exact)))
          (Totals.sum (sites.map (·.baseline.exact)))) ∧
      solution.metrics = siteMetrics solution.result baseline := by
  obtain ⟨hexact, -, hperm, hamounts⟩ := metrics_add_up
  have hmetrics : Unrounded
      (PortfolioSolution.ofSites (jettyAndQuay.map (·.solution)) .none).metrics
      (portfolioMetrics (jettyAndQuay.values.map fun e =>
        siteMetrics e.result.exact e.baseline.exact)) := by
    decide +kernel
  have htotals : Unrounded
      (siteMetrics (PortfolioSolution.ofSites (jettyAndQuay.map (·.solution)) .none).result
        (Totals.sum (jettyAndQuay.values.map (·.baseline))))
      (siteMetrics (Totals.sum (jettyAndQuay.values.map (·.result.exact)))
        (Totals.sum (jettyAndQuay.values.map (·.baseline.exact)))) := by
    decide +kernel
  have hsites : jettyAndQuay.values ≠ [] := by decide +kernel
  have hexactSites : exactJettyAndQuay ≠ [] := by decide +kernel
  have hreverse := List.reverse_perm exactMetrics
  exact ⟨⟨hexactSites, hexact exactJettyAndQuay hexactSites⟩, ⟨hreverse, hperm hreverse⟩,
    hsites, hmetrics, htotals, hamounts jettyAndQuay .none hsites hmetrics htotals⟩

end Retrofit
