import Retrofit.Proofs.Search.Meetings
import Retrofit.Proofs.Search.Transparency

/-!
# Evaluations are accounted for

The reported number of evaluations is the number of candidates with something new, and no greater
than the budget of the settings; the simulator is called once for every scenario that was met and
was not known (`Optimiser.accounting`). The calls are seen by a simulator that keeps a record of
them, and a run with the record ends like the run without.
-/

namespace Retrofit

open Retrofit.Random

variable {σ : Type}

/-! ## Whole runs -/

section Runs

variable {γ : Type} [Source γ] {engine : Engine σ γ} {request : Request} {cache cache' : Cache σ}
  {result : OptimisationResult}

namespace Separated

/-- The searches of all sites are accounted for, keep to the places of their generations, and what
they end with is in the cache. -/
lemma tallies_of_returns_siteFronts {settings : Settings} {place : Nat} {sites : List Site}
    {fronts : List (List SiteSolution)} {count : Nat}
    (h : Returns (siteFronts engine settings request place sites) cache (fronts, count) cache') :
    Tallies cache (siteMeetings engine settings request place sites cache) cache' count ∧
      count ≤ settings.site.populationSize * settings.site.generations * sites.length ∧
      ∀ front ∈ fronts, ∀ s ∈ front, cache'.knows s.scenario := by
  induction sites generalizing place fronts count cache with
  | nil =>
    obtain ⟨heq, rfl⟩ := returns_pure.mp h
    cases heq
    exact ⟨.refl _, Nat.zero_le _, fun front hfront => absurd hfront List.not_mem_nil⟩
  | cons site rest ih =>
    obtain ⟨⟨front, spent⟩, cache₁, hfront, h⟩ := returns_bind.mp h
    obtain ⟨⟨others, later⟩, cache₂, hothers, h⟩ := returns_bind.mp h
    obtain ⟨heq, rfl⟩ := returns_pure.mp h
    cases heq
    obtain ⟨prepared, outcome, trial, hbuild, hevolve, rfl, -⟩ := returns_siteFront hfront
    obtain ⟨htallies, hle, hknown⟩ := Nsga2.tallies_of_returns_evolve hbuild hevolve
    obtain ⟨htallies', hle', hknown'⟩ := ih hothers
    refine ⟨?_, ?_, List.forall_mem_cons.mpr ⟨fun s hs => ?_, hknown'⟩⟩
    · rw [siteMeetings, hfront]
      exact htallies.append htallies'
    · rw [List.length_cons, Nat.mul_succ, Nat.add_comm spent]
      exact Nat.add_le_add hle' hle
    · obtain ⟨x, hx, hs⟩ := List.mem_filterMap.mp hs
      have hmem := mem_of_mem_bestFront hx
      exact (htallies'.knows_iff _).mpr (Or.inl (hknown x hmem _ _ hs))

end Separated

lemma Tallies.of_known {met : List Meeting} (h : ∀ scenario ∈ metScenarios met, cache.knows scenario) :
    Tallies cache met cache 0 := by
  refine ⟨fun scenario => ⟨Or.inl, fun hknown => hknown.elim id (h scenario)⟩, ?_⟩
  induction met with
  | nil => rfl
  | cons m met ih =>
    have hfirst : ∀ scenario ∈ m.scenarios, cache.knows scenario :=
      fun scenario hmem => h scenario (List.mem_append_left _ hmem)
    have hsame : (fun scenario => cache.knows scenario || m.scenarios.contains scenario) =
        cache.knows := by
      funext scenario
      rw [Bool.eq_iff_iff, Bool.or_eq_true, List.contains_iff_mem]
      exact or_iff_left_of_imp (hfirst scenario)
    have hfresh : m.fresh cache.knows = 0 := by
      cases m with
      | baseline scenario => rfl
      | candidate scenarios => exact if_pos (List.all_eq_true.mpr hfirst)
    rw [newCandidates, hfresh, hsame, Nat.zero_add]
    exact ih fun scenario hmem => h scenario (List.mem_append_right _ hmem)

namespace Nested

/-- A combination has no scenarios but those of the fronts. -/
lemma FrontProblem.exists_of_mem_scenarios {p : FrontProblem} {c : Chromosome}
    {x : PortfolioSolution} (hlength : c.length = p.choices.length) (h : p.combine? c = some x)
    {scenario : Scenario} (hmem : scenario ∈ x.scenarios.values) :
    ∃ choice ∈ p.choices, ∃ s ∈ choice.front, s.scenario = scenario := by
  obtain ⟨picked, hpicked, rfl⟩ := forall₂_of_combine?_eq_some hlength h
  obtain ⟨⟨k, _⟩, hentry, rfl⟩ := List.mem_map.mp hmem
  have hget := Dict.get?_eq_some_iff.mpr hentry
  change ((Dict.ofList picked).map _).get? k = _ at hget
  rw [Dict.get?_map] at hget
  obtain ⟨s, hs, heq⟩ := Option.map_eq_some_iff.mp hget
  obtain ⟨choice, hchoice, -, hfront⟩ := exists_of_mem_right hpicked (Dict.mem_of_get?_ofList hs)
  exact ⟨choice, hchoice, s, hfront, heq⟩

/-- The second search meets nothing new. -/
lemma tallies_of_returns_evolve {settings : Settings} {fronts : List (List SiteSolution)}
    {count : Nat} {cache₁ : Cache σ} {outcome : Nsga2.Outcome}
    (hfronts : Returns (Separated.siteFronts engine settings.separated request 0 request.portfolio)
      cache (fronts, count) cache₁)
    (hknown : ∀ front ∈ fronts, ∀ s ∈ front, cache₁.knows s.scenario)
    (h : Returns (Nsga2.evolve
      ((FrontProblem.ofFronts request.portfolio fronts request.constraints).problem count)
      settings.portfolio request.objectives
      ((Separated.merge request.objectives settings.separated.maxFrontSize request.portfolio
          fronts).filterMap
          (FrontProblem.ofFronts request.portfolio fronts request.constraints).encode ++
        request.existing.filterMap
          (FrontProblem.ofFronts request.portfolio fronts request.constraints).encode)
      (engine.source settings.portfolio.seed)) cache₁ outcome cache') :
    Tallies cache₁ (combinationMeetings engine settings request cache) cache' 0 := by
  obtain ⟨journal, hlogged⟩ := Nsga2.exists_returns_logged _ _ _ h
  generalize hchoice : FrontProblem.ofFronts request.portfolio fronts request.constraints = choice
    at h hlogged
  have hyields : (choice.problem count : Problem (Cache σ)).Yields (· = cache₁)
      (choice.combine? · = some ·) := by
    intro c t x t' _ ht hx
    obtain ⟨hcombine, rfl⟩ := FrontProblem.returns_evaluate hx
    exact ⟨hcombine, ht⟩
  obtain ⟨rfl, hentries⟩ := Nsga2.known_of_returns_evolve hyields rfl hlogged
  have hmeetings : combinationMeetings engine settings request cache =
      journal.map fun e => .candidate e.2.scenarios.values := by
    unfold combinationMeetings
    rw [hfronts]
    dsimp only
    rw [hchoice, hlogged]
  rw [hmeetings]
  apply Tallies.of_known
  intro scenario hscenario
  obtain ⟨m, hm, hmem⟩ := List.mem_flatMap.mp hscenario
  obtain ⟨e, he, rfl⟩ := List.mem_map.mp hm
  obtain ⟨hlength, hcombine⟩ := hentries e he
  obtain ⟨own, hown, s, hs, rfl⟩ :=
    FrontProblem.exists_of_mem_scenarios (hlength.trans (List.length_map _)) hcombine hmem
  rw [← hchoice] at hown
  change own ∈ request.portfolio.zipWith _ fronts at hown
  rw [← List.map_uncurry_zip_eq_zipWith] at hown
  obtain ⟨pair, hpair, rfl⟩ := List.mem_map.mp hown
  exact hknown _ (List.of_mem_zip hpair).2 s hs

end Nested

namespace Optimiser

/-- A run that returns is accounted for and keeps to its budget. -/
theorem tallies_of_returns_run (optimiser : Optimiser)
    (h : Returns (optimiser.run engine request) cache result cache') :
    Tallies cache (optimiser.meetings engine request cache) cache' result.evaluations ∧
      result.evaluations ≤ optimiser.budget request.portfolio.length ∧
      result.elapsed = engine.elapsed ∧ engine.elapsed.toNanos ≠ 0 := by
  cases optimiser with
  | nsga2 settings =>
    obtain ⟨prepared, trial, outcome, count, hbuild, hevolve, hreported⟩ :=
      Nsga2.steps_of_returns_run h
    obtain ⟨htallies, hle, -⟩ := Nsga2.tallies_of_returns_evolve hbuild hevolve
    rw [hreported.evaluations_eq]
    exact ⟨htallies, hle, hreported.elapsed_eq, hreported.elapsed_ne_zero⟩
  | genetic settings =>
    obtain ⟨hcheck, o, prepared, trial, last, history, count, ho, hbuild, hevolve, hreported⟩ :=
      Genetic.steps_of_returns_run h
    obtain ⟨htallies, hle⟩ := Genetic.tallies_of_returns_evolve hcheck hbuild hevolve
    rw [hreported.evaluations_eq, meetings, ho]
    exact ⟨htallies, hle, hreported.elapsed_eq, hreported.elapsed_ne_zero⟩
  | gridSearch settings =>
    obtain ⟨-, prepared, trial, evaluated, count, hbuild, hevaluated, hreported⟩ :=
      Grid.steps_of_returns_run h
    obtain ⟨htallies, hle⟩ := Grid.tallies_of_returns_evaluateAll hbuild hevaluated
    rw [hreported.evaluations_eq]
    exact ⟨htallies, hle, hreported.elapsed_eq, hreported.elapsed_ne_zero⟩
  | separated settings =>
    obtain ⟨-, fronts, count, hfronts, hreported⟩ := Separated.steps_of_returns_run h
    obtain ⟨htallies, hle, -⟩ := Separated.tallies_of_returns_siteFronts hfronts
    rw [hreported.evaluations_eq]
    exact ⟨htallies, hle, hreported.elapsed_eq, hreported.elapsed_ne_zero⟩
  | nested settings =>
    obtain ⟨fronts, count, cache₁, outcome, hfronts, hevolve, hreported⟩ :=
      Nested.steps_of_returns_run h
    obtain ⟨htallies, hle, hknown⟩ := Separated.tallies_of_returns_siteFronts hfronts
    have hsecond := Nested.tallies_of_returns_evolve hfronts hknown hevolve
    rw [hreported.evaluations_eq]
    exact ⟨htallies.append hsecond, hle, hreported.elapsed_eq, hreported.elapsed_ne_zero⟩

end Optimiser

end Runs

/-! ## Recorded calls -/

/-- The simulator with a record of its calls. -/
def Simulator.recorded (simulate : Simulator σ) : Simulator (σ × List Scenario) :=
  fun scenario world =>
    let (answer, own) := simulate scenario world.1
    (answer, (own, world.2 ++ [scenario]))

/-- The engine with a record of the calls of its simulator. -/
def Engine.recorded {γ : Type} (engine : Engine σ γ) : Engine (σ × List Scenario) γ :=
  ⟨engine.simulate.recorded, engine.source, engine.elapsed⟩

/-- The cache of a recorded simulator. -/
def Cache.recorded (cache : Cache σ) (calls : List Scenario) : Cache (σ × List Scenario) :=
  ⟨cache.slots, cache.evaluations, (cache.world, calls)⟩

/-- One cache has a record of its calls, which are the scenarios that it has come to know. -/
def Records (start cache : Cache σ) (cache' : Cache (σ × List Scenario)) : Prop :=
  ∃ calls, cache' = cache.recorded calls ∧ calls.Nodup ∧ (∀ scenario ∈ calls, ¬ start.knows scenario) ∧
    ∀ scenario, cache.knows scenario ↔ start.knows scenario ∨ scenario ∈ calls

lemma answersAlike_recorded (simulate : Simulator σ) (start : Cache σ) :
    simulate.AnswersAlike (Records start) .exact simulate.recorded := by
  rintro scenario cache _ ⟨calls, rfl, hnodup, hnew, hknows⟩
  cases hfind : cache.find? scenario with
  | some result =>
    have hfind' : (cache.recorded calls).find? scenario = some result := hfind
    rw [Cache.evaluate_of_find?_eq_some hfind, Cache.evaluate_of_find?_eq_some hfind']
    exact Or.inl ⟨_, _, rfl, rfl, ⟨rfl, fun _ => rfl⟩, calls, rfl, hnodup, hnew, hknows⟩
  | none =>
    have hfind' : (cache.recorded calls).find? scenario = none := hfind
    have hunknown : ¬ cache.knows scenario := by
      unfold Cache.knows
      rw [hfind]
      exact Bool.false_ne_true
    rcases hanswer : simulate scenario cache.world with ⟨answer, world⟩
    have hanswer' : simulate.recorded scenario (cache.recorded calls).world =
        (answer, (world, calls ++ [scenario])) := by
      change (match simulate scenario cache.world with
        | (answer, own) => (answer, (own, calls ++ [scenario]))) = _
      rw [hanswer]
    cases answer with
    | error fault =>
      rw [Cache.evaluate_of_fault hfind hanswer, Cache.evaluate_of_fault hfind' hanswer']
      exact Or.inr ⟨fault, rfl, rfl⟩
    | ok result =>
      rw [Cache.evaluate_of_answer hfind hanswer, Cache.evaluate_of_answer hfind' hanswer']
      refine Or.inl ⟨_, _, rfl, rfl, ⟨rfl, fun _ => rfl⟩, calls ++ [scenario], rfl, ?_, ?_, ?_⟩
      · refine List.nodup_append.mpr ⟨hnodup, List.nodup_singleton _, ?_⟩
        rintro s hs _ hlast rfl
        rw [List.mem_singleton.mp hlast] at hs
        exact hunknown ((hknows scenario).mpr (Or.inr hs))
      · refine List.forall_mem_append.mpr ⟨hnew, List.forall_mem_singleton.mpr fun hstart => ?_⟩
        exact hunknown ((hknows scenario).mpr (Or.inl hstart))
      · intro scenario'
        rw [Cache.knows_fill, hknows, List.mem_append, List.mem_singleton, or_assoc]

namespace Optimiser

variable {γ : Type} [Source γ] {engine : Engine σ γ} {request : Request} {cache cache' : Cache σ}
  {result : OptimisationResult}

/-- The accounts of a run that returns. With a record of the calls of its simulator it returns the
same: the simulator was called once for every scenario that was met and that the cache did not know
before. The reported number of evaluations is the number of candidates with a scenario that neither
the cache knew before nor a baseline or an earlier candidate had, and it keeps to the budget. -/
theorem accounting (optimiser : Optimiser)
    (h : Returns (optimiser.run engine request) cache result cache') :
    (∃ calls, Returns (optimiser.run engine.recorded request) (cache.recorded []) result
        (cache'.recorded calls) ∧ calls.Nodup ∧
      ∀ scenario, scenario ∈ calls ↔
        scenario ∈ metScenarios (optimiser.meetings engine request cache) ∧
          ¬ cache.knows scenario) ∧
    result.evaluations = newCandidates cache.knows (optimiser.meetings engine request cache) ∧
    result.evaluations ≤ optimiser.budget request.portfolio.length := by
  obtain ⟨htallies, hbudget, helapsed, hpositive⟩ := tallies_of_returns_run optimiser h
  refine ⟨?_, htallies.count_eq, hbudget⟩
  have hstart : Records cache cache (cache.recorded []) :=
    ⟨[], rfl, List.nodup_nil, fun _ hmem => absurd hmem List.not_mem_nil,
      fun _ => (or_iff_left List.not_mem_nil).symm⟩
  have hengines : engine.Alike (Records cache) .exact engine.recorded :=
    ⟨answersAlike_recorded engine.simulate cache, hpositive, hpositive⟩
  have hends : Concludes (Records cache) (fun _ _ => False) .exact
      ((optimiser.run engine request).run.run cache)
      ((optimiser.run engine.recorded request).run.run (cache.recorded [])) :=
    paired_run hengines optimiser (fun _ _ => rfl) cache (cache.recorded []) hstart
  obtain ⟨result', _, hrun, halike, calls, rfl, hnodup, hnew, hknows⟩ :=
    hends.exists_returns nofun h
  obtain ⟨-, -, helapsed', -⟩ := tallies_of_returns_run optimiser hrun
  obtain rfl := halike.eq (helapsed.trans helapsed'.symm)
  refine ⟨calls, hrun, hnodup, fun scenario => ⟨fun hmem => ?_, fun ⟨hmet, hunknown⟩ => ?_⟩⟩
  · have hafter := (htallies.knows_iff scenario).mp ((hknows scenario).mpr (Or.inr hmem))
    exact ⟨hafter.resolve_left (hnew scenario hmem), hnew scenario hmem⟩
  · have hafter := (hknows scenario).mp ((htallies.knows_iff scenario).mpr (Or.inr hmet))
    exact hafter.resolve_left hunknown

/-- The depot is searched from an empty cache: its baseline is simulated, and no more candidates than
two generations of two. -/
theorem accounting_depot : ∃ result, ∃ cache : Cache Unit, ∃ calls : List Scenario,
    Returns ((nested ⟨⟨Nsga2.depotSettings, 4⟩, Nsga2.depotSettings⟩).run depotEngine.recorded
      depotRequest) ((Cache.start ()).recorded []) result (cache.recorded calls) ∧
    calls.Nodup ∧ depot.baselineScenario ∈ calls ∧ result.evaluations ≤ 4 := by
  have hrun := returns_of_isOk ⟨[], 0, ⟨0, 0⟩, none⟩ (by decide +kernel :
    (((nested ⟨⟨Nsga2.depotSettings, 4⟩, Nsga2.depotSettings⟩).run depotEngine
      depotRequest).run.run (.start ())).1.isOk)
  obtain ⟨⟨calls, hrecorded, hnodup, hcalls⟩, -, hbudget⟩ := accounting _ hrun
  refine ⟨_, _, calls, hrecorded, hnodup, (hcalls _).mpr ?_, hbudget⟩
  decide +kernel

end Optimiser

end Retrofit
