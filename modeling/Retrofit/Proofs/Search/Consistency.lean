import Retrofit.Proofs.Dict
import Retrofit.Proofs.Search.Candidates
import Retrofit.Proofs.Search.Evaluation
import Retrofit.Search.Nested

/-!
# Scenarios determine the solution

Evaluated portfolios with the same scenarios are the same. With a deterministic simulator this holds
of the candidates of a portfolio (`eq_of_appraise_eq_some`), and it holds of the combinations of
fronts in which every scenario has one outcome (`FrontProblem.eq_of_combine?_eq_some`).
-/

namespace Retrofit

/-- Solutions of which each site's scenario settles the site's solution are the same if their
scenarios are. -/
theorem PortfolioSolution.eq_of_scenarios_eq {l l' : List (String × SiteSolution)}
    {constraints : Constraints}
    (h : List.Forall₂ (fun e e' => e.1 = e'.1 ∧ (e.2.scenario = e'.2.scenario → e.2 = e'.2)) l l')
    (hscenarios : (ofSites (Dict.ofList l) constraints).scenarios =
      (ofSites (Dict.ofList l') constraints).scenarios) :
    ofSites (Dict.ofList l) constraints = ofSites (Dict.ofList l') constraints := by
  have hsites : Dict.ofList l = Dict.ofList l' := by
    apply Dict.ext_get?
    intro k
    have hscenario := congrArg (Dict.get? · k) hscenarios
    change ((Dict.ofList l).map _).get? k = ((Dict.ofList l').map _).get? k at hscenario
    rw [Dict.get?_map, Dict.get?_map] at hscenario
    have hrel := @Dict.rel_get?_ofList SiteSolution SiteSolution
      (fun s s' => s.scenario = s'.scenario → s = s') _ _ h k
    generalize (Dict.ofList l).get? k = found at hrel hscenario ⊢
    generalize (Dict.ofList l').get? k = found' at hrel hscenario ⊢
    cases hrel with
    | none => rfl
    | some heq => exact congrArg some (heq (Option.some.inj hscenario))
  rw [hsites]

/-! ## Candidates of a portfolio -/

section Appraisal

variable {outcome : Scenario → Except Fault (Totals Amount)} {space : Space} {portfolio : List Site}
  {constraints : Constraints} {c c' : Chromosome} {x x' : PortfolioSolution}

lemma PortfolioProblem.yields {σ : Type} {simulate : Simulator σ} {p : PortfolioProblem}
    (hsimulate : simulate.Computes outcome) (hp : p.BuiltFor outcome portfolio constraints) :
    (p.problem simulate).Yields (·.cache.Sound outcome)
      (appraise outcome p.space portfolio constraints · = some ·) :=
  fun _ _ _ _ _ ht hx => returns_evaluate hsimulate hp ht hx

lemma Space.length_sites (h : Space.ofPortfolio portfolio = .ok space) :
    space.sites.length = portfolio.length := by
  obtain ⟨sites, hsites, heq⟩ := bind_eq_ok.mp h
  cases heq
  exact (mapM_eq_ok.mp hsites).length_eq.symm

lemma forall₂_of_appraise_eq_some (hspace : Space.ofPortfolio portfolio = .ok space)
    (h : appraise outcome space portfolio constraints c = some x) :
    ∃ entries, List.Forall₂ (fun site e => ∃ scenario, appraiseSite outcome site scenario = some e)
      portfolio entries ∧ x = .ofSites (Dict.ofList entries) constraints := by
  obtain ⟨entries, hentries, rfl⟩ := appraise_eq_some.mp h
  refine ⟨entries, forall₂_of_forall₂_zip ?_ hentries, rfl⟩
  rw [Space.decode, Space.length_decodeFrom, Space.length_sites hspace]

/-- With a deterministic simulator candidates with the same scenarios are evaluated alike. -/
theorem eq_of_appraise_eq_some (hspace : Space.ofPortfolio portfolio = .ok space)
    (h : appraise outcome space portfolio constraints c = some x)
    (h' : appraise outcome space portfolio constraints c' = some x')
    (hscenarios : x.scenarios = x'.scenarios) : x = x' := by
  obtain ⟨entries, hentries, rfl⟩ := forall₂_of_appraise_eq_some hspace h
  obtain ⟨entries', hentries', rfl⟩ := forall₂_of_appraise_eq_some hspace h'
  refine PortfolioSolution.eq_of_scenarios_eq ?_ hscenarios
  refine (forall₂_of_common hentries hentries').imp ?_
  rintro e e' ⟨site, -, ⟨scenario, he⟩, ⟨scenario', he'⟩⟩
  obtain ⟨baseline, result, hbaseline, hresult, rfl⟩ := appraiseSite_eq_some.mp he
  obtain ⟨baseline', result', hbaseline', hresult', rfl⟩ := appraiseSite_eq_some.mp he'
  refine ⟨rfl, fun heq => ?_⟩
  change scenario = scenario' at heq
  subst heq
  rw [hbaseline] at hbaseline'
  rw [hresult] at hresult'
  cases hbaseline'
  cases hresult'
  rfl

end Appraisal

/-! ## Combinations of fronts -/

/-- No scenario occurs in a front with two outcomes. -/
def Unambiguous (front : List SiteSolution) : Prop :=
  ∀ s ∈ front, ∀ s' ∈ front, s.scenario = s'.scenario → s = s'

namespace Nested

namespace FrontProblem

variable {τ : Type} {p : FrontProblem} {evaluations : Nat} {c c' : Chromosome} {t t' : τ}
  {x x' : PortfolioSolution}

/-- Evaluating a chromosome is combining what it picks. -/
lemma returns_evaluate (h : Returns ((p.problem evaluations).evaluate c) t x t') :
    p.combine? c = some x ∧ t = t' := by
  unfold problem at h
  dsimp only at h
  split at h
  · rename_i heq
    obtain ⟨rfl, rfl⟩ := returns_pure.mp h
    exact ⟨heq, rfl⟩
  · exact absurd h not_returns_throw

lemma yields (p : FrontProblem) (evaluations : Nat) :
    (p.problem evaluations : Problem τ).Yields (fun _ => True) (p.combine? · = some ·) :=
  fun _ _ _ _ _ _ hx => ⟨(returns_evaluate hx).1, trivial⟩

lemma forall₂_of_combine?_eq_some (hlength : c.length = p.choices.length)
    (h : p.combine? c = some x) :
    ∃ picked, List.Forall₂ (fun choice e => e.1 = choice.siteId ∧ e.2 ∈ choice.front) p.choices
      picked ∧ x = .ofSites (Dict.ofList picked) p.constraints := by
  obtain ⟨picked, hpicked, heq⟩ := Option.bind_eq_some_iff.mp h
  refine ⟨picked, ?_, (Option.some.inj heq).symm⟩
  refine (forall₂_of_forall₂_zip hlength (mapM_eq_some.mp hpicked)).imp ?_
  rintro choice e ⟨value, he⟩
  obtain ⟨s, hs, rfl⟩ := Option.map_eq_some_iff.mp he
  exact ⟨rfl, List.mem_of_getElem? hs⟩

/-- Combinations of unambiguous fronts are the same if their scenarios are. -/
theorem eq_of_combine?_eq_some
    (hfronts : ∀ choice ∈ p.choices, Unambiguous choice.front)
    (hc : c.length = p.choices.length) (hc' : c'.length = p.choices.length)
    (h : p.combine? c = some x) (h' : p.combine? c' = some x')
    (hscenarios : x.scenarios = x'.scenarios) : x = x' := by
  obtain ⟨picked, hpicked, rfl⟩ := forall₂_of_combine?_eq_some hc h
  obtain ⟨picked', hpicked', rfl⟩ := forall₂_of_combine?_eq_some hc' h'
  refine PortfolioSolution.eq_of_scenarios_eq ?_ hscenarios
  refine (forall₂_of_common hpicked hpicked').imp ?_
  rintro e e' ⟨choice, hchoice, ⟨hkey, hmem⟩, ⟨hkey', hmem'⟩⟩
  exact ⟨hkey.trans hkey'.symm, hfronts choice hchoice _ hmem _ hmem'⟩

end FrontProblem

end Nested

end Retrofit
