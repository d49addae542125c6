import Retrofit.Proofs.Search.Shape
import Retrofit.Proofs.Search.Sites

/-!
# Results without solutions

A run returns solutions, and a site has a front, unless costs are undefined on two objectives
(`Optimiser.some_solution_left`). Then candidates may dominate each other in a ring, and as each of
them is dominated, none is selected (`ring_of_roofs_dropped`).
-/

namespace Retrofit

open Retrofit.Random PortfolioSolution

variable {σ γ : Type} [Source γ] {engine : Engine σ γ} {request : Request} {cache cache' : Cache σ}
  {result : OptimisationResult} {gap : Objective}

namespace Separated

/-- A site that was searched has a front if any solution of the search is left in it. -/
lemma exists_returns_siteFront {settings : Nsga2.Settings} {site : Site}
    {prepared : PortfolioProblem} {trial trial' : Trial σ} {outcome : Nsga2.Outcome}
    (hbuild : Returns (PortfolioProblem.build engine.simulate [site] .none) ⟨cache, 0⟩ prepared trial)
    (hevolve : Returns (Nsga2.evolve (prepared.problem engine.simulate) settings request.objectives
      (prepared.seeds request.existing) (engine.source settings.seed)) trial outcome trial')
    (hne : bestFront request.objectives outcome.front ≠ []) :
    ∃ found, Returns (siteFront engine settings request site) cache found trial'.cache := by
  obtain ⟨hgathered, -⟩ :=
    Nsga2.of_returns_evolve (PortfolioProblem.yields_gathered hbuild) trivial hevolve
  obtain ⟨x, hx⟩ := List.exists_mem_of_ne_nil _ hne
  obtain ⟨c, -, entries, hentries, rfl⟩ :=
    hgathered x (mem_of_mem_bestFront hx)
  obtain ⟨s, hs, -⟩ := exists_get?_of_last hentries (List.nil_append [site]).symm
    fun later hlater => absurd hlater List.not_mem_nil
  let front := (bestFront request.objectives outcome.front).filterMap (·.sites.get? site.siteId)
  have hfront : front ≠ [] := List.ne_nil_of_mem (List.mem_filterMap.mpr ⟨_, hx, hs⟩)
  refine ⟨(front, trial'.evaluations), Trial.returns_run.mpr ⟨trial'.evaluations, ?_⟩⟩
  refine returns_bind.mpr ⟨prepared, trial, hbuild, ?_⟩
  refine returns_bind.mpr ⟨outcome, trial', hevolve, ?_⟩
  refine returns_bind.mpr ⟨_, trial', returns_spent.mpr ⟨rfl, rfl⟩, ?_⟩
  exact (returns_ite_throw (r := ())).mpr
    ⟨mt List.isEmpty_iff.mp hfront, returns_pure.mpr ⟨rfl, rfl⟩⟩

end Separated

namespace Optimiser

lemma Chooses.ne_nil {optimiser : Optimiser} {solutions : List PortfolioSolution}
    (hdefined : ∀ x, optimiser.Considers engine request cache x →
      x.DefinedBut gap request.objectives)
    (h : optimiser.Chooses engine request cache solutions) : solutions ≠ [] := by
  obtain ⟨candidates, hne, hconsidered, rfl⟩ := h
  exact bestFront_ne_nil hne fun x hx => hdefined x (hconsidered x hx).1

/-- A result has solutions if costs of considered candidates are undefined on one objective at
most. -/
theorem ne_nil_of_returns_run {optimiser : Optimiser} (hcheck : optimiser.check = .ok ())
    (hdefined : ∀ x, optimiser.Considers engine request cache x →
      x.DefinedBut gap request.objectives)
    (h : Returns (optimiser.run engine request) cache result cache') : result.solutions ≠ [] := by
  cases optimiser with
  | nsga2 settings =>
    obtain ⟨prepared, trial, outcome, count, hbuild, hevolve, hreported⟩ :=
      Nsga2.steps_of_returns_run h
    obtain ⟨hne, hevaluates⟩ := Nsga2.evaluates_of_returns_evolve hevolve
    rw [hreported.solutions_eq]
    exact paretoSet_ne_nil hne fun x hx => hdefined x ⟨prepared, trial, hbuild, hevaluates x hx⟩
  | genetic settings => exact (chooses_genetic h).ne_nil hdefined
  | gridSearch settings => exact (chooses_gridSearch h).ne_nil hdefined
  | separated settings => exact (chooses_separated hcheck hdefined h).ne_nil hdefined
  | nested settings => exact (chooses_nested h).ne_nil hdefined

/-- The best front is empty if every solution is beaten and every one is dominated. It is not empty
if costs are undefined on one objective at most, whatever the violations are; then every site that
was searched has a front, and every result has solutions. -/
theorem some_solution_left (engine : Engine σ γ) (request : Request) (cache : Cache σ)
    (gap : Objective) :
    (∀ solutions, bestFront request.objectives solutions = [] ↔
      (∀ s ∈ solutions, ∃ t ∈ solutions,
        (t.judgement request.objectives).beats (s.judgement request.objectives)) ∧
      ∀ s ∈ solutions, ∃ t ∈ solutions,
        dominates (t.costs request.objectives) (s.costs request.objectives)) ∧
    (∀ solutions, solutions ≠ [] → (∀ s ∈ solutions, s.DefinedBut gap request.objectives) →
      bestFront request.objectives solutions ≠ []) ∧
    (∀ settings site prepared trial outcome trial',
      Returns (PortfolioProblem.build engine.simulate [site] .none) ⟨cache, 0⟩ prepared trial →
      Returns (Nsga2.evolve (prepared.problem engine.simulate) settings request.objectives
        (prepared.seeds request.existing) (engine.source settings.seed)) trial outcome trial' →
      (∀ s ∈ outcome.front, s.DefinedBut gap request.objectives) →
      ∃ found, Returns (Separated.siteFront engine settings request site) cache found
        trial'.cache) ∧
    ∀ (optimiser : Optimiser) result cache', optimiser.check = .ok () →
      (∀ x, optimiser.Considers engine request cache x → x.DefinedBut gap request.objectives) →
      Returns (optimiser.run engine request) cache result cache' → result.solutions ≠ [] := by
  refine ⟨fun _ => bestFront_eq_nil_iff, fun _ => bestFront_ne_nil, ?_,
    fun _ _ _ hcheck hdefined h => ne_nil_of_returns_run hcheck hdefined h⟩
  intro settings site prepared trial outcome trial' hbuild hevolve hdefined
  have hne := (Nsga2.evaluates_of_returns_evolve hevolve).1
  exact Separated.exists_returns_siteFront hbuild hevolve (bestFront_ne_nil hne hdefined)

end Optimiser

/-! ## Roofs with unknown costs -/

/-- A house that gets one of some roofs. -/
def house (roofs : List String) : Site :=
  { depot with
    siteId := "house", bundleId := "house"
    range := Dict.empty.insert "roof"
      ⟨true, Dict.empty.insert "kind" (.choices (roofs.map .text))⟩ }

/-- The expenditure for a roof and its yearly cost. -/
def roofCosts (kind : String) : Amount × Amount :=
  if kind = "tile" then (.number 0.0, .number 10.0)
  else if kind = "slate" then (.number 5.0, .undefined .above)
  else if kind = "lead" then (.number 10.0, .number 0.0)
  else (.undefined .above, .number 5.0)

def roofOutcome (scenario : Scenario) : Except Fault (Totals Amount) :=
  match (scenario.assets.get? "roof").bind (·.get? "kind") with
  | some (.text kind) =>
    let (capex, annualisedCost) := roofCosts kind
    .ok (((Totals.fill 0).set .capex capex).set .annualisedCost annualisedCost)
  | _ => .ok (Totals.fill 0)

def roofEngine : Engine Unit ChaCha :=
  { depotEngine with simulate := fun scenario world => (roofOutcome scenario, world) }

def roofRequest (roofs : List String) : Request :=
  ⟨[.capex, .annualisedCost], .none, [house roofs], []⟩

/-- The problem of a house with two roofs, one of them with an unknown yearly cost. -/
def roofProblem : PortfolioProblem :=
  returnedOr (PortfolioProblem.build roofEngine.simulate [house ["tile", "slate"]] .none)
    ⟨.start (), 0⟩ ⟨[], ⟨[]⟩, .none⟩

def roofTrial : Trial Unit :=
  ((PortfolioProblem.build roofEngine.simulate [house ["tile", "slate"]] .none).run.run
    ⟨.start (), 0⟩).2

lemma returns_build_roofs : Returns
    (PortfolioProblem.build roofEngine.simulate [house ["tile", "slate"]] .none) ⟨.start (), 0⟩
    roofProblem roofTrial :=
  returns_of_isOk _ (by decide +kernel)

/-- The evaluation of both roofs. -/
def roofTrials : Search (Trial Unit) (List PortfolioSolution) :=
  let settings := Grid.Settings.default 1
  let axes := roofProblem.space.genes.map (Grid.Axis.ofGene settings.continuousSteps)
  (roofProblem.problem roofEngine.simulate).evaluateAll
    ((Grid.points axes settings.maxEvaluations).run (roofEngine.source settings.seed)).1

/-- The tiled roof is left for the house, on its own and in a portfolio. -/
theorem Optimiser.some_solution_left_roofs :
    let request := roofRequest ["tile", "slate"]
    bestFront request.objectives [bid (some (.number 5.0)) none] ≠ [] ∧
    (∃ found cache, Returns (Separated.siteFront roofEngine Nsga2.depotSettings request
      (house ["tile", "slate"])) (.start ()) found cache) ∧
    ∃ result cache, Returns (wingSearch.run roofEngine request) (.start ()) result cache ∧
      result.solutions ≠ [] := by
  intro request
  obtain ⟨-, hfront, hsite, hrun⟩ :=
    some_solution_left roofEngine request (.start ()) .annualisedCost
  refine ⟨hfront _ (List.cons_ne_nil _ _) (by decide +kernel), ?_, ?_⟩
  · have hevolve := returns_of_isOk ⟨[], []⟩ (by decide +kernel :
      ((Nsga2.evolve (roofProblem.problem roofEngine.simulate) Nsga2.depotSettings
        [.capex, .annualisedCost] (roofProblem.seeds []) (roofEngine.source none)).run.run
          roofTrial).1.isOk)
    exact ⟨_, _, (hsite _ _ _ _ _ _ returns_build_roofs hevolve (by decide +kernel)).choose_spec⟩
  · have hreturns := returns_of_isOk ⟨[], 0, ⟨0, 0⟩, none⟩ (by decide +kernel :
      ((wingSearch.run roofEngine request).run.run (.start ())).1.isOk)
    refine ⟨_, _, hreturns, hrun _ _ _ (by decide) ?_ hreturns⟩
    rintro x ⟨prepared, trial, evaluated, trial', hbuild, hevaluated, hx⟩
    obtain ⟨rfl, rfl⟩ := hbuild.unique returns_build_roofs
    have hall : Returns roofTrials roofTrial (returnedOr roofTrials roofTrial []) _ :=
      returns_of_isOk [] (by decide +kernel)
    obtain ⟨rfl, -⟩ := hall.unique hevaluated
    have hdefined : ∀ x ∈ returnedOr roofTrials roofTrial [],
        x.DefinedBut .annualisedCost [.capex, .annualisedCost] := by
      decide +kernel
    exact hdefined x hx

/-- Four roofs dominate each other in a ring, so none of them is selected: all have been evaluated,
and the result has no solution. -/
theorem ring_of_roofs_dropped :
    let request := roofRequest ["tile", "slate", "lead", "thatch"]
    let ring := [bid (some (.number 0.0)) (some (.number 10.0)), bid (some (.number 5.0)) none,
      bid (some (.number 10.0)) (some (.number 0.0)), bid none (some (.number 5.0))]
    bestFront request.objectives ring = [] ∧
    ∃ result cache, Returns (wingSearch.run roofEngine request) (.start ()) result cache ∧
      result.solutions = [] ∧ result.evaluations = 4 := by
  have hreturns := returns_of_isOk ⟨[], 0, ⟨0, 0⟩, none⟩ (by decide +kernel :
    ((wingSearch.run roofEngine (roofRequest ["tile", "slate", "lead", "thatch"])).run.run
      (.start ())).1.isOk)
  refine ⟨List.isEmpty_iff.mp (by decide +kernel), _, _, hreturns, ?_, by decide +kernel⟩
  exact List.isEmpty_iff.mp (by decide +kernel)

end Retrofit
