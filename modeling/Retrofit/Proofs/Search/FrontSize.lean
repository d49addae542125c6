import Retrofit.Proofs.Search.Chronicle
import Retrofit.Proofs.Search.Fittest
import Retrofit.Proofs.Search.Presence

/-!
# The sizes of fronts in histories

The last summary of a run gives the size of a front. On a grid this is the number of reported
solutions, and after a search on the fronts of the sites at least that. The genetic algorithm reports
the best front of its last population, but summarises the Pareto set of it, which knows of no
constraints: the size covers the reported solutions unless a member with a greater violation
dominates one of them (`last_front_covers_solutions`). A house that needs a roof has such a member
(`roofless_house_hides_front`).
-/

namespace Retrofit

open Retrofit.Random

section Selection

variable {objectives : List Objective} {solutions : List PortfolioSolution}

/-- The best front is no larger than the Pareto set, if no solution dominates one of the front that
has less violation. -/
theorem length_bestFront_le (defined : ∀ x ∈ solutions, x.Defined objectives)
    (hviolation : ∀ s ∈ bestFront objectives solutions, ∀ t ∈ solutions,
      dominates (t.costs objectives) (s.costs objectives) →
        Number.larger t.violation 0.0 ≤ Number.larger s.violation 0.0) :
    (bestFront objectives solutions).length ≤ (paretoSet objectives solutions).length := by
  have hpoints : (bestFront objectives solutions).map (·.point objectives) ⊆
      (paretoSet objectives solutions).map (·.point objectives) := by
    intro point hpoint
    obtain ⟨s, hs, rfl⟩ := List.mem_map.mp hpoint
    obtain ⟨hmem, hfree⟩ := unbeaten_of_mem_bestFront defined hs
    obtain ⟨t, ht, heq⟩ := exists_mem_paretoSet hmem fun t ht hdominates => by
      have hle := (PortfolioSolution.larger_violation_le_iff (defined t ht) (defined s hmem)).mp
        (hviolation s hs t ht hdominates)
      refine hfree t ht ((Judgement.beats_iff (defined t ht) (defined s hmem)).mpr ?_)
      rw [PortfolioSolution.dominates_iff (defined t ht) (defined s hmem)] at hdominates
      exact (Int.lt_or_eq_of_le hle).imp_right fun heq => ⟨heq, hdominates⟩
    exact heq ▸ List.mem_map_of_mem ht
  have hle := ((nodup_points_paretoSet objectives _).subperm hpoints).length_le
  rwa [List.length_map, List.length_map] at hle

lemma length_bestFront_le_length (objectives : List Objective) (solutions : List PortfolioSolution) :
    (bestFront objectives solutions).length ≤ solutions.length := by
  have hpoints : (bestFront objectives solutions).map (·.point objectives) ⊆
      solutions.map (·.point objectives) :=
    List.map_subset _ fun _ => mem_of_mem_bestFront
  have hle := ((nodup_points_paretoSet objectives _).subperm hpoints).length_le
  rwa [List.length_map, List.length_map] at hle

end Selection

namespace Genetic

variable {τ γ : Type} [Source γ] {p : Problem τ} {settings : Settings} {objectives : List Objective}
  {o : Objective} {source : γ} {t t' : τ} {last : List Individual}
  {history : List GenerationSummary}

/-- The last summary of a breeding is that of the last population. -/
lemma getLast?_of_returns_breed {remaining generation : Nat} {elite : List Individual}
    {chromosomes : List Chromosome}
    (h : Returns (breed p settings objectives o remaining generation source elite chromosomes) t
      (last, history) t') :
    ∃ summary ∈ history.getLast?,
      summary.frontSize = (paretoSet objectives (last.map (·.solution))).length := by
  induction remaining generalizing generation source elite chromosomes history t with
  | zero =>
    obtain ⟨-, rfl⟩ := select_of_returns_breed h
    exact ⟨_, rfl, rfl⟩
  | succ remaining ih =>
    obtain ⟨population, t₁, children, source', later, -, -, hrest, rfl⟩ := steps_of_returns_breed h
    obtain ⟨summary, hsummary, hsize⟩ := ih hrest
    exact ⟨summary, List.mem_getLast?_cons hsummary, hsize⟩

lemma getLast?_of_returns_evolve {seeds : List Chromosome}
    (h : Returns (evolve p settings objectives o seeds source) t (last, history) t') :
    ∃ summary ∈ history.getLast?,
      summary.frontSize = (paretoSet objectives (last.map (·.solution))).length := by
  obtain ⟨⟨chromosomes, source'⟩, t₁, -, h⟩ := returns_bind.mp h
  exact getLast?_of_returns_breed h

end Genetic

section Run

variable {σ γ : Type} [Source γ] {engine : Engine σ γ} {request : Request} {cache cache' : Cache σ}
  {result : OptimisationResult} {history : List GenerationSummary}

lemma Grid.frontSize_of_returns_run {settings : Grid.Settings}
    (h : Returns (Grid.run engine settings request) cache result cache')
    (hhistory : result.history = some history) :
    ∃ last ∈ history.getLast?, last.frontSize = result.solutions.length := by
  obtain ⟨-, prepared, trial, evaluated, count, -, -, hreported⟩ := Grid.steps_of_returns_run h
  cases hhistory.symm.trans hreported.history_eq
  refine ⟨_, rfl, ?_⟩
  rw [hreported.solutions_eq, paretoSet_bestFront]
  rfl

lemma Nested.frontSize_of_returns_run {settings : Nested.Settings}
    (h : Returns (Nested.run engine settings request) cache result cache')
    (hhistory : result.history = some history) :
    ∃ last ∈ history.getLast?, result.solutions.length ≤ last.frontSize := by
  obtain ⟨fronts, count, cache₁, outcome, -, hevolve, hreported⟩ := Nested.steps_of_returns_run h
  have hkept := hreported.history_eq
  rw [hhistory] at hkept
  split at hkept
  · cases hkept
    obtain ⟨last, hlast, hsize⟩ :=
      Nsga2.frontSize_of_returns_evolve (Nested.FrontProblem.countsOnce _ count) hevolve
    refine ⟨last, hlast, ?_⟩
    rw [hreported.solutions_eq, paretoSet_bestFront, hsize]
    exact length_bestFront_le_length _ _
  · cases hkept

lemma Genetic.frontSize_of_returns_run {settings : Genetic.Settings}
    (h : Returns (Genetic.run engine settings request) cache result cache')
    (hhistory : result.history = some history) :
    ∃ last ∈ history.getLast?, ∃ population,
      (∀ x ∈ population, Optimiser.Considers engine request cache x (.genetic settings)) ∧
      result.solutions = bestFront request.objectives population ∧
      last.frontSize = (paretoSet request.objectives population).length := by
  obtain ⟨-, o, prepared, trial, last, found, count, ho, hbuild, hevolve, hreported⟩ :=
    Genetic.steps_of_returns_run h
  have hkept := hreported.history_eq
  rw [hhistory] at hkept
  split at hkept
  · cases hkept
    obtain ⟨summary, hsummary, hsize⟩ := Genetic.getLast?_of_returns_evolve hevolve
    refine ⟨summary, hsummary, last.map (·.solution), fun x hx => ?_, ?_, hsize⟩
    · exact ⟨o, prepared, trial, last, history, _, ho, hbuild, hevolve, hx⟩
    · rw [hreported.solutions_eq, paretoSet_bestFront]
  · cases hkept

end Run

/-- A run whose outcome has a history returns with it. -/
lemma exists_history_of_isSome {σ : Type} {m : Search (Cache σ) OptimisationResult}
    {cache : Cache σ} (h : ((m.run.run cache).1.toOption.bind (·.history)).isSome) :
    ∃ result cache' history, Returns m cache result cache' ∧ result.history = some history := by
  unfold Returns
  generalize m.run.run cache = outcome at h
  obtain ⟨result, cache'⟩ := outcome
  cases result with
  | error reason => cases h
  | ok result =>
    obtain ⟨history, hhistory⟩ := Option.isSome_iff_exists.mp h
    exact ⟨result, cache', history, rfl, hhistory⟩

/-- At the depot no candidate of the genetic algorithm has a violation. -/
lemma defined_of_considered_depot {x : PortfolioSolution}
    (h : Optimiser.Considers depotEngine depotRequest (.start ()) x
      (.genetic Genetic.depotSettings)) :
    x.Defined [.capex] ∧ Number.larger x.violation 0.0 = 0.0 := by
  obtain ⟨o, prepared, trial, last, history, trial', ho, hbuild, hevolve, hx⟩ := h
  cases ho
  obtain ⟨rfl, rfl⟩ := hbuild.unique returns_build_depot
  obtain ⟨journal, hlogged⟩ := Genetic.exists_returns_logged _ _ _ _ hevolve
  obtain ⟨chromosomes, source, -, hkept⟩ := Genetic.kept_of_returns_evolve (P := fun _ => True)
    (by decide) (by decide +kernel) (fun _ _ _ _ _ => trivial) hlogged
  have hjournal : journal = ((Genetic.evolve (depotProblem.problem depotSimulator).logged
      Genetic.depotSettings [.capex] .capex [] (ChaCha.ofSeed 0)).run.run (depotTrial, [])).2.2 := by
    change Returns (Genetic.evolve (depotProblem.problem depotSimulator).logged _ [.capex] .capex []
      (ChaCha.ofSeed 0)) _ _ _ at hlogged
    rw [hlogged]
  have hall : ∀ e ∈ journal, e.2.Defined [.capex] ∧ Number.larger e.2.violation 0.0 = 0.0 := by
    rw [hjournal]
    decide +kernel
  obtain ⟨i, hi, rfl⟩ := List.mem_map.mp hx
  exact hall _ (hkept.led.seen i hi)

/-- What the last front size of a history says of the reported solutions. On a grid it is their
number. A search on the fronts of the sites reports no more solutions than it says. The genetic
algorithm reports the best front of its last population and summarises the Pareto set of it; where
all costs and violations are numbers, it reports no more solutions than the size says, unless a
member dominates one of them and has more violation. -/
theorem last_front_covers_solutions {σ γ : Type} [Source γ] (engine : Engine σ γ)
    (request : Request) (cache cache' : Cache σ) (result : OptimisationResult)
    (history : List GenerationSummary) (hhistory : result.history = some history) :
    (∀ settings, Returns (Grid.run engine settings request) cache result cache' →
      ∃ last ∈ history.getLast?, last.frontSize = result.solutions.length) ∧
    (∀ settings, Returns (Nested.run engine settings request) cache result cache' →
      ∃ last ∈ history.getLast?, result.solutions.length ≤ last.frontSize) ∧
    ∀ settings, Returns (Genetic.run engine settings request) cache result cache' →
      ∃ last ∈ history.getLast?, ∃ population,
        (∀ x ∈ population, Optimiser.Considers engine request cache x (.genetic settings)) ∧
        result.solutions = bestFront request.objectives population ∧
        last.frontSize = (paretoSet request.objectives population).length ∧
        ((∀ x ∈ population, x.Defined request.objectives) →
          (∀ s ∈ result.solutions, ∀ t ∈ population,
            dominates (t.costs request.objectives) (s.costs request.objectives) →
              Number.larger t.violation 0.0 ≤ Number.larger s.violation 0.0) →
          result.solutions.length ≤ last.frontSize) := by
  refine ⟨fun settings h => Grid.frontSize_of_returns_run h hhistory,
    fun settings h => Nested.frontSize_of_returns_run h hhistory, fun settings h => ?_⟩
  obtain ⟨last, hlast, population, hconsidered, hsolutions, hsize⟩ :=
    Genetic.frontSize_of_returns_run h hhistory
  refine ⟨last, hlast, population, hconsidered, hsolutions, hsize, fun hdefined hviolation => ?_⟩
  rw [hsolutions] at hviolation ⊢
  rw [hsize]
  exact length_bestFront_le hdefined hviolation

/-- The depot as a grid, by its front, and by the genetic algorithm. -/
theorem last_front_covers_solutions_depot :
    (∃ result cache history,
      Returns (Grid.run depotEngine (.default 1) depotRequest) (.start ()) result cache ∧
      result.history = some history ∧
      ∃ last ∈ history.getLast?, last.frontSize = result.solutions.length) ∧
    (∃ result cache history,
      Returns (Nested.run depotEngine ⟨⟨Nsga2.depotSettings, 4⟩, Nsga2.depotSettings⟩ depotRequest)
        (.start ()) result cache ∧
      result.history = some history ∧
      ∃ last ∈ history.getLast?, result.solutions.length ≤ last.frontSize) ∧
    ∃ result cache history,
      Returns (Genetic.run depotEngine Genetic.depotSettings depotRequest) (.start ()) result cache ∧
      result.history = some history ∧
      ∃ last ∈ history.getLast?, result.solutions.length ≤ last.frontSize := by
  refine ⟨?_, ?_, ?_⟩
  · obtain ⟨result, cache, history, hrun, hhistory⟩ := exists_history_of_isSome (by decide +kernel :
      (((Grid.run depotEngine (.default 1) depotRequest).run.run (.start ())).1.toOption.bind
        (·.history)).isSome)
    exact ⟨result, cache, history, hrun, hhistory,
      (last_front_covers_solutions _ _ _ _ _ history hhistory).1 _ hrun⟩
  · obtain ⟨result, cache, history, hrun, hhistory⟩ := exists_history_of_isSome (by decide +kernel :
      (((Nested.run depotEngine ⟨⟨Nsga2.depotSettings, 4⟩, Nsga2.depotSettings⟩
        depotRequest).run.run (.start ())).1.toOption.bind (·.history)).isSome)
    exact ⟨result, cache, history, hrun, hhistory,
      (last_front_covers_solutions _ _ _ _ _ history hhistory).2.1 _ hrun⟩
  · obtain ⟨result, cache, history, hrun, hhistory⟩ := exists_history_of_isSome (by decide +kernel :
      (((Genetic.run depotEngine Genetic.depotSettings depotRequest).run.run
        (.start ())).1.toOption.bind (·.history)).isSome)
    obtain ⟨last, hlast, population, hconsidered, hsolutions, -, hcovers⟩ :=
      (last_front_covers_solutions _ _ _ _ _ history hhistory).2.2 _ hrun
    have hall := fun x hx => defined_of_considered_depot (hconsidered x hx)
    refine ⟨result, cache, history, hrun, hhistory, last, hlast,
      hcovers (fun x hx => (hall x hx).1) ?_⟩
    intro s hs t ht _
    rw [hsolutions] at hs
    rw [(hall t ht).2, (hall s (mem_of_mem_bestFront hs)).2]
    decide +kernel

/-! ## A house that needs a roof -/

namespace Genetic

/-- With a single generation the population is the fittest of the first candidates. -/
lemma steps_of_single_generation {τ γ : Type} [Source γ] {p : Problem τ} {settings : Settings}
    {objectives : List Objective} {o : Objective} {seeds : List Chromosome} {source : γ} {t t' : τ}
    {last : List Individual} {history : List GenerationSummary} (hone : settings.generations = 1)
    (h : Returns (evolve p settings objectives o seeds source) t (last, history) t') :
    ∃ chromosomes source' solutions,
      Returns (firstBrood settings p.genes seeds) source chromosomes source' ∧
      Returns (p.evaluateAll chromosomes) t solutions t' ∧
      last = fittest o settings.populationSize (chromosomes.zipWith (⟨·, ·⟩) solutions) := by
  obtain ⟨⟨chromosomes, source'⟩, t₁, hdraw, h⟩ := returns_bind.mp h
  obtain ⟨hbrood, rfl⟩ := returns_draw.mp hdraw
  dsimp only at h
  rw [hone] at h
  obtain ⟨hselect, -⟩ := select_of_returns_breed h
  obtain ⟨solutions, t₂, hsolutions, h⟩ := returns_bind.mp hselect
  obtain ⟨rfl, rfl⟩ := returns_pure.mp h
  exact ⟨chromosomes, source', solutions, hbrood, hsolutions, rfl⟩

/-- Individuals that are sorted and have their places stay as they are. -/
lemma fittest_eq_self {o : Objective} {places : Nat} {individuals : List Individual}
    (hsorted : individuals.Pairwise fun a b => fitter o a.solution b.solution)
    (hplaces : individuals.length ≤ places) : fittest o places individuals = individuals := by
  unfold fittest
  rw [List.mergeSort_of_pairwise hsorted, List.take_of_length_le hplaces]

end Genetic

/-- Tiles and slates cost something, either at once or every year. -/
def shelterOutcome (scenario : Scenario) : Except Fault (Totals Amount) :=
  let (capex, annualisedCost) :=
    match (scenario.assets.get? "roof").bind (·.get? "kind") with
    | some (.text "tile") => (1.0, 2.0)
    | some (.text "slate") => (2.0, 1.0)
    | _ => (0.0, 0.0)
  .ok (((Totals.fill 0).set .capex (.ofFloat capex)).set .annualisedCost (.ofFloat annualisedCost))

def shelterEngine : Engine Unit ChaCha :=
  { depotEngine with simulate := fun scenario world => (shelterOutcome scenario, world) }

/-- At least one pound is to be spent, so the house needs a roof. -/
def shelterRequest : Request :=
  ⟨[.capex, .annualisedCost], PerObjective.none.set .capex (some (.atLeast 1.0)),
    [house ["none", "tile", "slate"]], []⟩

/-- A seed with which all roofs are in the first generation, the fittest first. -/
def shelterSettings : Genetic.Settings :=
  { Genetic.Settings.default 1 with populationSize := 3, generations := 1, seed := some 14 }

def shelterProblem : PortfolioProblem :=
  returnedOr (PortfolioProblem.build shelterEngine.simulate shelterRequest.portfolio
    shelterRequest.constraints) ⟨.start (), 0⟩ ⟨[], ⟨[]⟩, .none⟩

def shelterTrial : Trial Unit :=
  ((PortfolioProblem.build shelterEngine.simulate shelterRequest.portfolio
    shelterRequest.constraints).run.run ⟨.start (), 0⟩).2

lemma returns_build_shelter : Returns (PortfolioProblem.build shelterEngine.simulate
    shelterRequest.portfolio shelterRequest.constraints) ⟨.start (), 0⟩ shelterProblem
    shelterTrial :=
  returns_of_isOk _ (by decide +kernel)

/-- The chromosomes of the three roofs. -/
def shelterBrood : List Chromosome :=
  returnedOr (Genetic.firstBrood shelterSettings shelterProblem.space.genes []) (ChaCha.ofSeed 14) []

/-- The house with each of the roofs. -/
def shelters : List PortfolioSolution :=
  returnedOr ((shelterProblem.problem shelterEngine.simulate).evaluateAll shelterBrood) shelterTrial
    []

/-- All three houses are in the population. -/
lemma solutions_of_returns_evolve_shelter {last : List Genetic.Individual}
    {history : List GenerationSummary} {trial : Trial Unit}
    (h : Returns (Genetic.evolve (shelterProblem.problem shelterEngine.simulate) shelterSettings
      [.capex, .annualisedCost] .capex [] (ChaCha.ofSeed 14)) shelterTrial (last, history) trial) :
    last.map (·.solution) = shelters := by
  obtain ⟨chromosomes, source, solutions, hbrood, hsolutions, rfl⟩ :=
    Genetic.steps_of_single_generation rfl h
  have hchromosomes : chromosomes = shelterBrood :=
    (hbrood.unique (returns_of_isOk [] (by decide +kernel))).1
  rw [hchromosomes] at hsolutions
  have hshelters : solutions = shelters :=
    (hsolutions.unique (returns_of_isOk [] (by decide +kernel))).1
  have hsorted : (shelterBrood.zipWith (fun c x => (⟨c, x⟩ : Genetic.Individual)) shelters).Pairwise
      fun a b => Genetic.fitter .capex a.solution b.solution := by
    decide +kernel
  rw [hchromosomes, hshelters, Genetic.fittest_eq_self hsorted (by decide +kernel),
    ← List.map_uncurry_zip_eq_zipWith, List.map_map]
  exact List.map_snd_zip (by decide +kernel)

/-- The house without a roof costs least. It violates the constraint, and still it hides the two
reported houses from the front that is summarised. -/
theorem roofless_house_hides_front : ∃ result cache history,
    Returns (Genetic.run shelterEngine shelterSettings shelterRequest) (.start ()) result cache ∧
    (∀ x, Optimiser.Considers shelterEngine shelterRequest (.start ()) x (.genetic shelterSettings) →
      x.Defined shelterRequest.objectives) ∧
    result.history = some history ∧
    ∃ last ∈ history.getLast?, last.frontSize = 1 ∧ result.solutions.length = 2 := by
  have hrun := returns_of_isOk ⟨[], 0, ⟨0, 0⟩, none⟩ (by decide +kernel :
    ((Genetic.run shelterEngine shelterSettings shelterRequest).run.run (.start ())).1.isOk)
  obtain ⟨-, o, prepared, trial, last, history, count, ho, hbuild, hevolve, hreported⟩ :=
    Genetic.steps_of_returns_run hrun
  cases ho
  obtain ⟨rfl, rfl⟩ := hbuild.unique returns_build_shelter
  have hshelters := solutions_of_returns_evolve_shelter hevolve
  obtain ⟨summary, hsummary, hsize⟩ := Genetic.getLast?_of_returns_evolve hevolve
  refine ⟨_, _, history, hrun, ?_, hreported.history_eq, summary, hsummary, ?_, ?_⟩
  · rintro x ⟨o, prepared, trial, last, history, trial', ho, hbuild, hevolve, hx⟩
    cases ho
    obtain ⟨rfl, rfl⟩ := hbuild.unique returns_build_shelter
    rw [solutions_of_returns_evolve_shelter hevolve] at hx
    have hdefined : ∀ x ∈ shelters, x.Defined [.capex, .annualisedCost] := by decide +kernel
    exact hdefined x hx
  · rw [hsize, hshelters]
    decide +kernel
  · rw [hreported.solutions_eq, hshelters]
    decide +kernel

end Retrofit
