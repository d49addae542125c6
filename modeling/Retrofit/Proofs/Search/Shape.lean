import Retrofit.Proofs.Pareto.Gaps
import Retrofit.Proofs.Pareto.Selection
import Retrofit.Proofs.Search.Journal
import Retrofit.Proofs.Search.Reports

/-!
# The shape of every result

If all candidates that a result is chosen from (`Optimiser.Considers`) are defined, the result is
well shaped, whichever of the five searches found it and whatever the simulator answers
(`Optimiser.wellShaped_run`). NSGA-II ends with the Pareto set of its members of rank zero, which are
on one level; every other search chooses the best front (`Optimiser.Chooses`) of its last
population, of the points of a grid, or of the merged combinations.
-/

namespace Retrofit

open Retrofit.Random PortfolioSolution

variable {τ σ γ : Type}

/-! ## Every candidate is judged by its violation -/

lemma PortfolioProblem.yields_judged (simulate : Simulator σ) (p : PortfolioProblem) :
    (p.problem simulate).Yields (fun _ => True) (fun _ x => x.Judged) := by
  intro c t x t' _ _ hx
  obtain ⟨⟨entries, -, rfl⟩, -⟩ := returns_evaluate_of_answers (answers_of_any simulate) trivial hx
  exact ⟨judged_ofSites _ _, trivial⟩

lemma Nested.FrontProblem.yields_judged (p : FrontProblem) (evaluations : Nat) :
    (p.problem evaluations : Problem τ).Yields (fun _ => True) (fun _ x => x.Judged) := by
  intro c t x t' hlength _ hx
  obtain ⟨picked, -, rfl⟩ :=
    forall₂_of_combine?_eq_some (hlength.trans (List.length_map _)) (returns_evaluate hx).1
  exact ⟨judged_ofSites _ _, trivial⟩

/-! ## Evolution ends on one level -/

namespace Nsga2

variable [Source γ] {p : Problem τ} {settings : Settings} {objectives : List Objective}

/-- The members of a population are in the journal. If all of it is defined, those of rank zero have
one penalty; and there is one of them unless the population is empty. -/
structure Leveled (objectives : List Objective) (population : List Member) (journal : Journal) :
    Prop where
  evaluated : ∀ m ∈ population, (m.chromosome, m.solution) ∈ journal
  penalty_eq : (∀ e ∈ journal, e.2.Defined objectives) →
    ∀ m ∈ population, ∀ m' ∈ population, m.rank = 0 → m'.rank = 0 →
      (m.solution.judgement objectives).penalty = (m'.solution.judgement objectives).penalty
  exists_first : population ≠ [] → ∃ m ∈ population, m.rank = 0

lemma leveled_of_returns_select {population next : List Member} {chromosomes : List Chromosome}
    {state state' : τ × Journal} (hplaces : settings.populationSize ≠ 0)
    (hleveled : Leveled objectives population state.2)
    (h : Returns (select p.logged settings objectives population chromosomes) state next state') :
    Leveled objectives next state'.2 := by
  obtain ⟨solutions, hsolutions, rfl⟩ := returns_select h
  obtain ⟨-, hjournal⟩ := returns_logged_evaluateAll p hsolutions
  rw [hjournal]
  generalize hpool : population ++ chromosomes.zipWith (fun c x => (⟨c, x, 0, 0.0⟩ : Member))
    solutions = pool
  have hmem : ∀ m ∈ dedupe pool,
      (m.chromosome, m.solution) ∈ state.2 ++ chromosomes.zip solutions := fun m hm =>
    mem_pairs_of_mem_pool hleveled.evaluated (hpool ▸ mem_of_mem_distinctBy hm)
  refine ⟨fun m hm => ?_, fun hdefined m hm m' hm' hrank hrank' => ?_, fun hne => ?_⟩
  · obtain ⟨m₀, hm₀, hsame, -⟩ := mem_survive hm
    rw [hsame.1, hsame.2]
    exact hmem m₀ hm₀
  · obtain ⟨m₀, hm₀, hsame, hfirst⟩ := mem_survive hm
    obtain ⟨m₁, hm₁, hsame', hfirst'⟩ := mem_survive hm'
    rw [hsame.2, hsame'.2]
    exact penalty_eq_of_unbeaten (fun d hd => hdefined _ (hmem d hd)) (hfirst hrank)
      (hfirst' hrank')
  · obtain ⟨m, hm⟩ := List.exists_mem_of_ne_nil _ hne
    obtain ⟨m₀, hm₀, -⟩ := mem_survive hm
    exact exists_rank_zero hplaces (List.ne_nil_of_mem hm₀)

/-- With genes the outcome of an evolution is the first front of a last population, which is
leveled. -/
lemma leveled_of_returns_evolve {seeds : List Chromosome} {source : γ} {outcome : Outcome} {t t' : τ}
    {journal : Journal} (hgenes : p.genes ≠ [])
    (h : Returns (evolve p.logged settings objectives seeds source) (t, []) outcome (t', journal)) :
    ∃ last, Leveled objectives last journal ∧ last ≠ [] ∧
      outcome.front = (last.filter (·.rank = 0)).map (·.solution) := by
  have hplaces := (ne_zero_of_returns_evolve h).1
  have hnone : Leveled objectives [] ([] : Journal) :=
    ⟨fun m hm => absurd hm List.not_mem_nil, fun _ m hm => absurd hm List.not_mem_nil,
      fun hne => absurd rfl hne⟩
  exact @evolve_induction objectives _ _ _ p.logged settings
    (fun population state => Leveled objectives population state.2) (t, []) (t', journal) seeds
    source outcome hgenes hnone
    (fun _ _ _ _ _ hleveled _ hselect => leveled_of_returns_select hplaces hleveled hselect) h

/-- The solutions that an evolution evaluates. -/
def Evaluates (p : Problem τ) (settings : Settings) (objectives : List Objective)
    (seeds : List Chromosome) (source : γ) (t : τ) (x : PortfolioSolution) : Prop :=
  ∃ outcome t' journal, Returns (evolve p.logged settings objectives seeds source) (t, []) outcome
    (t', journal) ∧ x ∈ journal.map Prod.snd

/-- The outcome of an evolution is not empty, and all of it was evaluated. -/
theorem evaluates_of_returns_evolve {seeds : List Chromosome} {source : γ} {outcome : Outcome}
    {t t' : τ} (h : Returns (evolve p settings objectives seeds source) t outcome t') :
    outcome.front ≠ [] ∧
      ∀ x ∈ outcome.front, Evaluates p settings objectives seeds source t x := by
  obtain ⟨journal, hlogged⟩ := exists_returns_logged p settings objectives h
  by_cases hgenes : p.genes = []
  · obtain ⟨x, hx, hfront⟩ := evolve_of_no_genes (p := p.logged) hgenes hlogged
    obtain ⟨-, rfl⟩ := returns_logged_evaluateAll p hx
    rw [hfront]
    exact ⟨List.cons_ne_nil _ _,
      List.forall_mem_singleton.mpr ⟨outcome, t', _, hlogged, List.mem_cons_self⟩⟩
  · obtain ⟨last, hleveled, hne, hfront⟩ := leveled_of_returns_evolve hgenes hlogged
    rw [hfront]
    constructor
    · obtain ⟨m, hm, hrank⟩ := hleveled.exists_first hne
      exact List.ne_nil_of_mem
        (List.mem_map_of_mem (List.mem_filter.mpr ⟨hm, decide_eq_true hrank⟩))
    · refine List.forall_mem_map.mpr fun m hm => ⟨outcome, t', journal, hlogged, ?_⟩
      exact List.mem_map_of_mem (hleveled.evaluated m (List.mem_filter.mp hm).1)

/-- If all evaluated solutions are defined, the outcome of an evolution is on one level. -/
theorem level_of_returns_evolve {seeds : List Chromosome} {source : γ} {outcome : Outcome}
    {t t' : τ} (hp : p.Yields (fun _ => True) fun _ x => x.Judged)
    (hdefined : ∀ x, Evaluates p settings objectives seeds source t x → x.Defined objectives)
    (h : Returns (evolve p settings objectives seeds source) t outcome t') :
    Level objectives outcome.front := by
  obtain ⟨hne, hevaluates⟩ := evaluates_of_returns_evolve h
  obtain ⟨hjudged, -⟩ := of_returns_evolve hp trivial h
  refine ⟨hne, fun x hx => hdefined x (hevaluates x hx),
    fun x hx => (hjudged x hx).choose_spec.2, fun x hx y hy => ?_⟩
  obtain ⟨journal, hlogged⟩ := exists_returns_logged p settings objectives h
  by_cases hgenes : p.genes = []
  · obtain ⟨z, -, hfront⟩ := evolve_of_no_genes hgenes h
    rw [hfront] at hx hy
    rw [List.mem_singleton.mp hx, List.mem_singleton.mp hy]
  · obtain ⟨last, hleveled, -, hfront⟩ := leveled_of_returns_evolve hgenes hlogged
    rw [hfront] at hx hy
    obtain ⟨m, hm, rfl⟩ := List.mem_map.mp hx
    obtain ⟨m', hm', rfl⟩ := List.mem_map.mp hy
    obtain ⟨hm, hrank⟩ := List.mem_filter.mp hm
    obtain ⟨hm', hrank'⟩ := List.mem_filter.mp hm'
    exact hleveled.penalty_eq
      (fun e he => hdefined e.2 ⟨outcome, t', journal, hlogged, List.mem_map_of_mem he⟩)
      m hm m' hm' (of_decide_eq_true hrank) (of_decide_eq_true hrank')

end Nsga2

/-! ## A grid has points -/

namespace Grid

variable [Source γ]

lemma always_points_ne_nil {axes : List Axis} {limit : Nat} (h : ∀ axis ∈ axes, 0 < axis.size)
    (hlimit : limit ≠ 0) : Always (points axes limit : Draw γ (List Chromosome)) (· ≠ []) := by
  intro s
  obtain ⟨kept, hrun, -, hgrid⟩ := exists_kept axes limit s
  rw [hrun, ← List.length_pos_iff, List.length_map]
  exact (hgrid h).2 (Nat.pos_of_ne_zero hlimit)

end Grid

/-! ## Merging keeps some combination -/

namespace Separated

variable {objectives : List Objective} {limit : Nat}

/-- All combinations that are compared while the fronts of sites are merged. -/
def combinations (objectives : List Objective) (limit : Nat) :
    List (Site × List SiteSolution) → List (Dict SiteSolution) → List PortfolioSolution
  | [], _ => []
  | (site, front) :: rest, partials =>
    let extended := extend site.siteId front partials
    let kept := leastCrowded objectives limit (bestFront objectives extended)
    extended ++ combinations objectives limit rest (kept.map (·.sites))

/-- Some combination is left unless costs are undefined on two objectives. -/
theorem mergeFrom_ne_nil {gap : Objective} (hlimit : limit ≠ 0)
    {choices : List (Site × List SiteSolution)} {partials : List (Dict SiteSolution)}
    (hpartials : partials ≠ []) (hchoices : ∀ choice ∈ choices, choice.2 ≠ [])
    (hdefined : ∀ x ∈ combinations objectives limit choices partials,
      x.DefinedBut gap objectives) :
    mergeFrom objectives limit choices partials ≠ [] := by
  induction choices generalizing partials with
  | nil => exact hpartials
  | cons choice rest ih =>
    obtain ⟨site, front⟩ := choice
    obtain ⟨hfront, hrest⟩ := List.forall_mem_cons.mp hchoices
    obtain ⟨hextended, hlater⟩ := List.forall_mem_append.mp hdefined
    obtain ⟨sites, hsites⟩ := List.exists_mem_of_ne_nil _ hpartials
    obtain ⟨s, hs⟩ := List.exists_mem_of_ne_nil _ hfront
    have hne : extend site.siteId front partials ≠ [] :=
      List.ne_nil_of_mem (List.mem_flatMap.mpr ⟨sites, hsites, List.mem_map_of_mem hs⟩)
    have hbest := bestFront_ne_nil hne hextended
    refine ih (fun hnil => ?_) hrest hlater
    have hlength := length_leastCrowded objectives limit
      (bestFront objectives (extend site.siteId front partials))
    rw [List.map_eq_nil_iff.mp hnil, List.length_nil] at hlength
    have hpos := List.length_pos_iff.mpr hbest
    omega

lemma ne_nil_of_returns_siteFronts [Source γ] {engine : Engine σ γ} {settings : Settings}
    {request : Request} {place : Nat} {sites : List Site} {fronts : List (List SiteSolution)}
    {count : Nat} {cache cache' : Cache σ}
    (h : Returns (siteFronts engine settings request place sites) cache (fronts, count) cache') :
    ∀ choice ∈ sites.zip fronts, choice.2 ≠ [] := by
  obtain ⟨hall, -⟩ := forall₂_of_returns_siteFronts (I := fun _ => True)
    (R := fun _ front => front ≠ []) (fun _ _ _ _ _ _ _ _ hfront => by
      obtain ⟨_, _, _, -, -, -, hne⟩ := returns_siteFront hfront
      exact ⟨hne, trivial⟩) trivial h
  exact fun choice hchoice => List.forall₂_zip hall hchoice

end Separated

/-! ## Whole runs -/

namespace Optimiser

/-- Whether the settings are accepted. -/
def check : Optimiser → Except ParameterError Unit
  | nsga2 settings => settings.check
  | genetic settings => settings.check
  | gridSearch settings => settings.check
  | separated settings => settings.check
  | nested settings => settings.check

variable [Source γ]

/-- The candidates that the result of a run is chosen from: what an evolution evaluates, the last
population of the genetic algorithm, the points of a grid, and what is combined from the fronts of
the sites. -/
def Considers (engine : Engine σ γ) (request : Request) (cache : Cache σ) (x : PortfolioSolution) :
    Optimiser → Prop
  | nsga2 settings => ∃ prepared trial,
    Returns (PortfolioProblem.build engine.simulate request.portfolio request.constraints)
      ⟨cache, 0⟩ prepared trial ∧
    Nsga2.Evaluates (prepared.problem engine.simulate) settings request.objectives
      (prepared.seeds request.existing) (engine.source settings.seed) trial x
  | genetic settings => ∃ o prepared trial last history trial',
    settings.objective.or request.objectives.head? = some o ∧
    Returns (PortfolioProblem.build engine.simulate request.portfolio request.constraints)
      ⟨cache, 0⟩ prepared trial ∧
    Returns (Genetic.evolve (prepared.problem engine.simulate) settings request.objectives o
      (prepared.seeds request.existing) (engine.source settings.seed)) trial (last, history) trial' ∧
    x ∈ last.map (·.solution)
  | gridSearch settings => ∃ prepared trial evaluated trial',
    Returns (PortfolioProblem.build engine.simulate request.portfolio request.constraints)
      ⟨cache, 0⟩ prepared trial ∧
    Returns ((prepared.problem engine.simulate).evaluateAll
      ((Grid.points (prepared.space.genes.map (Grid.Axis.ofGene settings.continuousSteps))
        settings.maxEvaluations).run (engine.source settings.seed)).1) trial evaluated trial' ∧
    x ∈ evaluated
  | separated settings => ∃ fronts count cache',
    Returns (Separated.siteFronts engine settings request 0 request.portfolio) cache
      (fronts, count) cache' ∧
    (x ∈ Separated.combinations request.objectives settings.maxFrontSize
        (request.portfolio.zip fronts) [.empty] ∨
      ∃ y ∈ Separated.merge request.objectives settings.maxFrontSize request.portfolio fronts,
        x = .ofSites y.sites request.constraints)
  | nested settings => ∃ fronts count cache',
    Returns (Separated.siteFronts engine settings.separated request 0 request.portfolio) cache
      (fronts, count) cache' ∧
    let choice := Nested.FrontProblem.ofFronts request.portfolio fronts request.constraints
    let merged := Separated.merge request.objectives settings.separated.maxFrontSize
      request.portfolio fronts
    Nsga2.Evaluates (choice.problem count) settings.portfolio request.objectives
      (merged.filterMap choice.encode ++ request.existing.filterMap choice.encode)
      (engine.source settings.portfolio.seed) cache' x

variable {engine : Engine σ γ} {request : Request} {cache cache' : Cache σ}
  {result : OptimisationResult}

lemma wellShaped_nsga2 {settings : Nsga2.Settings}
    (hdefined : ∀ x, Considers engine request cache x (.nsga2 settings) →
      x.Defined request.objectives)
    (h : Returns (Nsga2.run engine settings request) cache result cache') :
    WellShaped request.objectives result.solutions := by
  obtain ⟨prepared, trial, found, count, hbuild, hevolve, hreported⟩ :=
    Nsga2.steps_of_returns_run h
  have hlevel := Nsga2.level_of_returns_evolve
    (PortfolioProblem.yields_judged engine.simulate prepared)
    (fun x hx => hdefined x ⟨prepared, trial, hbuild, hx⟩) hevolve
  rw [hreported.solutions_eq]
  exact hlevel.wellShaped_paretoSet

/-- The solutions are the best front of candidates that the search considers. -/
def Chooses (engine : Engine σ γ) (request : Request) (cache : Cache σ) (optimiser : Optimiser)
    (solutions : List PortfolioSolution) : Prop :=
  ∃ candidates, candidates ≠ [] ∧
    (∀ x ∈ candidates, optimiser.Considers engine request cache x ∧ x.Judged) ∧
    solutions = bestFront request.objectives candidates

lemma Chooses.wellShaped {optimiser : Optimiser} {solutions : List PortfolioSolution}
    (hdefined : ∀ x, optimiser.Considers engine request cache x → x.Defined request.objectives)
    (h : optimiser.Chooses engine request cache solutions) :
    WellShaped request.objectives solutions := by
  obtain ⟨candidates, hne, hconsidered, rfl⟩ := h
  have hlevel := level_firstFront hne (fun x hx => hdefined x (hconsidered x hx).1)
    fun x hx => (hconsidered x hx).2
  exact hlevel.wellShaped_paretoSet

lemma chooses_genetic {settings : Genetic.Settings}
    (h : Returns (Genetic.run engine settings request) cache result cache') :
    (genetic settings).Chooses engine request cache result.solutions := by
  obtain ⟨hcheck, o, prepared, trial, last, history, count, ho, hbuild, hevolve, hreported⟩ :=
    Genetic.steps_of_returns_run h
  obtain ⟨hjudged, hne⟩ := Genetic.of_returns_evolve
    (PortfolioProblem.yields_judged engine.simulate prepared) hcheck
    (fun seed hseed => PortfolioProblem.length_of_mem_seeds hseed) trivial hevolve
  refine ⟨last.map (·.solution), mt List.map_eq_nil_iff.mp hne, fun x hx => ⟨?_, ?_⟩, ?_⟩
  · exact ⟨o, prepared, trial, last, history, _, ho, hbuild, hevolve, hx⟩
  · obtain ⟨i, hi, rfl⟩ := List.mem_map.mp hx
    exact (hjudged i hi).2
  · exact hreported.solutions_eq.trans (paretoSet_bestFront _ _)

lemma chooses_gridSearch {settings : Grid.Settings}
    (h : Returns (Grid.run engine settings request) cache result cache') :
    (gridSearch settings).Chooses engine request cache result.solutions := by
  obtain ⟨hcheck, prepared, trial, evaluated, count, hbuild, hevaluated, hreported⟩ :=
    Grid.steps_of_returns_run h
  obtain ⟨hlimit, hsteps⟩ := Grid.ne_zero_of_check hcheck
  have hspace := (PortfolioProblem.returns_build_of_answers (answers_of_any _) trivial hbuild).1
  have hsizes := Grid.size_axes_pos hspace hsteps
  have hpoints := @Grid.always_points_ne_nil γ _ _ _ (List.forall_mem_map.mpr hsizes) hlimit
    (engine.source settings.seed)
  have hvalues := @Grid.always_points γ (fun _ _ => True) _ _ _ hsizes (fun _ _ _ _ => trivial)
    settings.maxEvaluations (engine.source settings.seed)
  obtain ⟨hjudged, -⟩ := (PortfolioProblem.yields_judged engine.simulate prepared).on.evaluateAll
    hvalues trivial hevaluated
  refine ⟨evaluated, ?_, fun x hx => ⟨?_, ?_⟩, ?_⟩
  · rintro rfl
    exact hpoints (List.forall₂_nil_right_iff.mp hjudged)
  · exact ⟨prepared, trial, evaluated, _, hbuild, hevaluated, hx⟩
  · obtain ⟨c, -, hx⟩ := exists_of_mem_right hjudged hx
    exact hx
  · exact hreported.solutions_eq.trans (paretoSet_bestFront _ _)

lemma chooses_separated {settings : Separated.Settings} {gap : Objective}
    (hcheck : settings.check = .ok ())
    (hdefined : ∀ x, Considers engine request cache x (.separated settings) →
      x.DefinedBut gap request.objectives)
    (h : Returns (Separated.run engine settings request) cache result cache') :
    (separated settings).Chooses engine request cache result.solutions := by
  obtain ⟨-, fronts, count, hfronts, hreported⟩ := Separated.steps_of_returns_run h
  have hlimit : settings.maxFrontSize ≠ 0 := by
    intro hzero
    rw [Separated.Settings.check, if_pos hzero] at hcheck
    cases hcheck
  have hmerged := Separated.mergeFrom_ne_nil hlimit (List.cons_ne_nil Dict.empty [])
    (Separated.ne_nil_of_returns_siteFronts hfronts)
    (fun x hx => hdefined x ⟨fronts, count, cache', hfronts, Or.inl hx⟩)
  refine ⟨_, ?_, ?_, hreported.solutions_eq⟩
  · exact mt List.map_eq_nil_iff.mp (mt List.map_eq_nil_iff.mp hmerged)
  · exact List.forall_mem_map.mpr fun y hy =>
      ⟨⟨fronts, count, cache', hfronts, Or.inr ⟨y, hy, rfl⟩⟩, judged_ofSites _ _⟩

lemma chooses_nested {settings : Nested.Settings}
    (h : Returns (Nested.run engine settings request) cache result cache') :
    (nested settings).Chooses engine request cache result.solutions := by
  obtain ⟨fronts, count, cache₁, found, hfronts, hevolve, hreported⟩ :=
    Nested.steps_of_returns_run h
  obtain ⟨hne, hevaluates⟩ := Nsga2.evaluates_of_returns_evolve hevolve
  obtain ⟨hjudged, -⟩ :=
    Nsga2.of_returns_evolve (Nested.FrontProblem.yields_judged _ count) trivial hevolve
  refine ⟨found.front, hne, fun x hx => ⟨?_, (hjudged x hx).choose_spec.2⟩, ?_⟩
  · exact ⟨fronts, count, cache₁, hfronts, hevaluates x hx⟩
  · exact hreported.solutions_eq.trans (paretoSet_bestFront _ _)

/-- Every result of a search with accepted settings is well shaped, as long as all candidates that
it is chosen from are defined. -/
theorem wellShaped_run {optimiser : Optimiser} (hcheck : optimiser.check = .ok ())
    (hdefined : ∀ x, optimiser.Considers engine request cache x → x.Defined request.objectives)
    (h : Returns (optimiser.run engine request) cache result cache') :
    WellShaped request.objectives result.solutions := by
  cases optimiser with
  | nsga2 settings => exact wellShaped_nsga2 hdefined h
  | genetic settings => exact (chooses_genetic h).wellShaped hdefined
  | gridSearch settings => exact (chooses_gridSearch h).wellShaped hdefined
  | separated settings =>
    have hchooses := chooses_separated hcheck (fun x hx => (hdefined x hx).definedBut .capex) h
    exact hchooses.wellShaped hdefined
  | nested settings => exact (chooses_nested h).wellShaped hdefined

/-- The site-by-site search reports a well-shaped result for the depot. -/
theorem wellShaped_run_depot : ∃ result cache,
    Returns ((separated ⟨Nsga2.depotSettings, 4⟩).run depotEngine depotRequest) (.start ()) result
      cache ∧ WellShaped [.capex] result.solutions := by
  have hrun := returns_of_isOk ⟨[], 0, ⟨0, 0⟩, none⟩ (by decide +kernel :
    (((separated ⟨Nsga2.depotSettings, 4⟩).run depotEngine depotRequest).run.run (.start ())).1.isOk)
  refine ⟨_, _, hrun, wellShaped_run (by decide +kernel) ?_ hrun⟩
  rintro x ⟨fronts, count, cache, hfronts, hx⟩
  obtain ⟨cache', hfronts'⟩ := returns_siteFronts_depot
  obtain ⟨heq, -⟩ := hfronts.unique hfronts'
  rw [Prod.mk.injEq] at heq
  rw [heq.1] at hx
  rcases hx with hx | ⟨y, hy, rfl⟩
  · have hall : ∀ x ∈ Separated.combinations [.capex] 4 ([depot].zip depotFronts.1) [.empty],
        x.Defined [.capex] := by
      decide +kernel
    exact hall x hx
  · have hall : ∀ y ∈ Separated.merge [.capex] 4 [depot] depotFronts.1,
        (ofSites y.sites .none).Defined [.capex] := by
      decide +kernel
    exact hall y hy

end Optimiser

end Retrofit
