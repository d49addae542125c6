import Retrofit.Optimiser.Basic
import Retrofit.Proofs.Search.SiteFronts

/-!
# The steps of a run

What each of the five searches did if it returned: the parts that ran, one after the other, and what
is reported of them.
-/

namespace Retrofit

open Retrofit.Random

variable {σ γ : Type}

/-- What an accepted result says. -/
structure Reported (engine : Engine σ γ) (solutions : List PortfolioSolution) (evaluations : Nat)
    (history : Option (List GenerationSummary)) (result : OptimisationResult) : Prop where
  solutions_eq : result.solutions = solutions
  evaluations_eq : result.evaluations = evaluations
  history_eq : result.history = history
  elapsed_eq : result.elapsed = engine.elapsed
  elapsed_ne_zero : engine.elapsed.toNanos ≠ 0

lemma returns_report {τ : Type} {engine : Engine σ γ} {solutions : List PortfolioSolution}
    {evaluations : Nat} {history : Option (List GenerationSummary)} {t t' : τ}
    {result : OptimisationResult}
    (h : Returns (engine.report solutions evaluations history) t result t') :
    Reported engine solutions evaluations history result ∧ t = t' := by
  unfold Engine.report OptimisationResult.accept at h
  split_ifs at h with hevaluations helapsed
  · exact absurd h not_returns_throw
  · exact absurd h not_returns_throw
  · obtain ⟨rfl, rfl⟩ := returns_pure.mp h
    exact ⟨⟨rfl, rfl, rfl, rfl, helapsed⟩, rfl⟩

/-- The end of a search: the count of evaluated candidates is looked up and reported. -/
lemma returns_spent_report {τ : Type} {engine : Engine σ γ} {p : Problem τ}
    {solutions : List PortfolioSolution} {history : Option (List GenerationSummary)} {t t' : τ}
    {result : OptimisationResult}
    (h : Returns (do
      let evaluations ← p.spent
      engine.report solutions evaluations history) t result t') :
    Reported engine solutions (p.evaluations t') history result ∧ t = t' := by
  obtain ⟨evaluations, t₁, hspent, h⟩ := returns_bind.mp h
  obtain ⟨rfl, rfl⟩ := returns_spent.mp hspent
  obtain ⟨hreported, rfl⟩ := returns_report h
  exact ⟨hreported, rfl⟩

variable [Source γ] {engine : Engine σ γ} {request : Request} {cache cache' : Cache σ}
  {result : OptimisationResult}

theorem Nsga2.steps_of_returns_run {settings : Nsga2.Settings}
    (h : Returns (Nsga2.run engine settings request) cache result cache') :
    ∃ prepared trial outcome count,
      Returns (PortfolioProblem.build engine.simulate request.portfolio request.constraints)
        ⟨cache, 0⟩ prepared trial ∧
      Returns (evolve (prepared.problem engine.simulate) settings request.objectives
        (prepared.seeds request.existing) (engine.source settings.seed)) trial outcome
        ⟨cache', count⟩ ∧
      Reported engine (paretoSet request.objectives outcome.front) count
        (if settings.recordHistory then some outcome.history else none) result := by
  obtain ⟨count, h⟩ := Trial.returns_run.mp h
  obtain ⟨prepared, trial, hbuild, h⟩ := returns_bind.mp h
  obtain ⟨outcome, trial', hevolve, h⟩ := returns_bind.mp h
  obtain ⟨hreported, rfl⟩ := returns_spent_report h
  exact ⟨prepared, trial, outcome, count, hbuild, hevolve, hreported⟩

theorem Genetic.steps_of_returns_run {settings : Genetic.Settings}
    (h : Returns (Genetic.run engine settings request) cache result cache') :
    settings.check = .ok () ∧ ∃ o prepared trial last history count,
      settings.objective.or request.objectives.head? = some o ∧
      Returns (PortfolioProblem.build engine.simulate request.portfolio request.constraints)
        ⟨cache, 0⟩ prepared trial ∧
      Returns (evolve (prepared.problem engine.simulate) settings request.objectives o
        (prepared.seeds request.existing) (engine.source settings.seed)) trial (last, history)
        ⟨cache', count⟩ ∧
      Reported engine
        (paretoSet request.objectives (bestFront request.objectives (last.map (·.solution)))) count
        (if settings.recordHistory then some history else none) result := by
  unfold run at h
  split at h
  · exact absurd h not_returns_throw
  · exact absurd h not_returns_throw
  · rename_i o hobjective hcheck
    obtain ⟨count, h⟩ := Trial.returns_run.mp h
    obtain ⟨prepared, trial, hbuild, h⟩ := returns_bind.mp h
    obtain ⟨⟨last, history⟩, trial', hevolve, h⟩ := returns_bind.mp h
    obtain ⟨hreported, rfl⟩ := returns_spent_report h
    exact ⟨hcheck, o, prepared, trial, last, history, count, hobjective, hbuild, hevolve,
      hreported⟩

theorem Grid.steps_of_returns_run {settings : Grid.Settings}
    (h : Returns (Grid.run engine settings request) cache result cache') :
    settings.check = .ok () ∧ ∃ prepared trial evaluated count,
      Returns (PortfolioProblem.build engine.simulate request.portfolio request.constraints)
        ⟨cache, 0⟩ prepared trial ∧
      Returns ((prepared.problem engine.simulate).evaluateAll
        ((points (prepared.space.genes.map (Axis.ofGene settings.continuousSteps))
          settings.maxEvaluations).run (engine.source settings.seed)).1) trial evaluated
        ⟨cache', count⟩ ∧
      Reported engine (paretoSet request.objectives (bestFront request.objectives evaluated)) count
        (some [.ofPopulation 0 (bestFront request.objectives evaluated).length count
          request.objectives evaluated]) result := by
  unfold run at h
  split at h
  · exact absurd h not_returns_throw
  · split at h
    · exact absurd h not_returns_throw
    · rename_i hcheck
      obtain ⟨count, h⟩ := Trial.returns_run.mp h
      obtain ⟨prepared, trial, hbuild, h⟩ := returns_bind.mp h
      obtain ⟨-, h⟩ := (returns_ite_throw (r := ())).mp h
      obtain ⟨evaluated, trial', hevaluated, h⟩ := returns_bind.mp h
      obtain ⟨evaluations, trial₁, hspent, h⟩ := returns_bind.mp h
      obtain ⟨rfl, rfl⟩ := returns_spent.mp hspent
      obtain ⟨hreported, rfl⟩ := returns_report h
      exact ⟨hcheck, prepared, trial, evaluated, count, hbuild, hevaluated, hreported⟩

theorem Separated.steps_of_returns_run {settings : Separated.Settings}
    (h : Returns (Separated.run engine settings request) cache result cache') :
    request.portfolio ≠ [] ∧ ∃ fronts count,
      Returns (siteFronts engine settings request 0 request.portfolio) cache (fronts, count)
        cache' ∧
      Reported engine (bestFront request.objectives
        ((merge request.objectives settings.maxFrontSize request.portfolio fronts).map fun x =>
          .ofSites x.sites request.constraints)) count none result := by
  obtain ⟨hportfolio, h⟩ := returns_ite_throw.mp h
  obtain ⟨⟨fronts, count⟩, cache₁, hfronts, h⟩ := returns_bind.mp h
  obtain ⟨hreported, rfl⟩ := returns_report h
  exact ⟨mt List.isEmpty_iff.mpr hportfolio, fronts, count, hfronts, hreported⟩

theorem Nested.steps_of_returns_run {settings : Nested.Settings}
    (h : Returns (Nested.run engine settings request) cache result cache') :
    ∃ fronts count cache₁ outcome,
      Returns (Separated.siteFronts engine settings.separated request 0 request.portfolio) cache
        (fronts, count) cache₁ ∧
      (let choice := FrontProblem.ofFronts request.portfolio fronts request.constraints
      let merged := Separated.merge request.objectives settings.separated.maxFrontSize
        request.portfolio fronts
      Returns (Nsga2.evolve (choice.problem count) settings.portfolio request.objectives
        (merged.filterMap choice.encode ++ request.existing.filterMap choice.encode)
        (engine.source settings.portfolio.seed)) cache₁ outcome cache') ∧
      Reported engine
        (paretoSet request.objectives (bestFront request.objectives outcome.front)) count
        (if settings.portfolio.recordHistory then some outcome.history else none) result := by
  obtain ⟨-, h⟩ := returns_ite_throw.mp h
  obtain ⟨⟨fronts, count⟩, cache₁, hfronts, h⟩ := returns_bind.mp h
  obtain ⟨outcome, cache₂, hevolve, h⟩ := returns_bind.mp h
  obtain ⟨hreported, rfl⟩ := returns_report h
  exact ⟨fronts, count, cache₁, outcome, hfronts, hevolve, hreported⟩

end Retrofit
