import Retrofit.Optimiser.Basic
import Retrofit.Proofs.Search.Replay
import Retrofit.Proofs.Search.Reports
import Retrofit.Proofs.Search.Tally

/-!
# What a run meets

`Optimiser.meetings` lists what a run meets: the baselines and the candidates of every site or of
the whole portfolio, in the order in which they are evaluated. Each of the searches on the sites of
a portfolio is accounted for: it tallies what it meets, and evaluates no more candidates than its
settings have places for.
-/

namespace Retrofit

open Retrofit.Random

variable {σ : Type}

/-! ## What a run meets -/

/-- The baselines of a portfolio. -/
def baselines (portfolio : List Site) : List Meeting :=
  portfolio.map fun site => .baseline site.baselineScenario

/-- The candidates of a journal. -/
def PortfolioProblem.candidates (p : PortfolioProblem) (journal : Journal) : List Meeting :=
  journal.map fun e => .candidate (p.space.decode e.1)

/-- What a search on the sites of a portfolio meets, if it keeps a journal. -/
def passMeetings {α : Type} (simulate : Simulator σ) (portfolio : List Site)
    (constraints : Constraints) (search : PortfolioProblem → Search (Trial σ × Journal) α)
    (cache : Cache σ) : List Meeting :=
  match (PortfolioProblem.build simulate portfolio constraints).run.run ⟨cache, 0⟩ with
  | (.ok prepared, trial) =>
    baselines portfolio ++
      prepared.candidates ((search prepared).run.run (trial, [])).2.2
  | (.error _, _) => []

section Meetings

variable {γ : Type} [Source γ]

/-- What the searches of the sites from a place on meet, each from the cache that the one before it
leaves. -/
def siteMeetings (engine : Engine σ γ) (s : Separated.Settings) (request : Request) :
    (place : Nat) → List Site → Cache σ → List Meeting
  | _, [], _ => []
  | place, site :: rest, cache =>
    let own := Separated.settingsAt s.site place
    passMeetings engine.simulate [site] .none (fun prepared =>
        Nsga2.evolve (prepared.problem engine.simulate).logged own request.objectives
          (prepared.seeds request.existing) (engine.source own.seed)) cache ++
      siteMeetings engine s request (place + 1) rest
        ((Separated.siteFront engine own request site).run.run cache).2

/-- The combinations that the second search of a nested search evaluates. -/
def combinationMeetings (engine : Engine σ γ) (s : Nested.Settings) (request : Request)
    (cache : Cache σ) : List Meeting :=
  match (Separated.siteFronts engine s.separated request 0 request.portfolio).run.run cache with
  | (.ok (fronts, evaluations), cache) =>
    let merged := Separated.merge request.objectives s.separated.maxFrontSize request.portfolio fronts
    let choice := Nested.FrontProblem.ofFronts request.portfolio fronts request.constraints
    let seeds := merged.filterMap choice.encode ++ request.existing.filterMap choice.encode
    let evolution := Nsga2.evolve (choice.problem evaluations).logged s.portfolio request.objectives
      seeds (engine.source s.portfolio.seed)
    (evolution.run.run (cache, [])).2.2.map fun e => .candidate e.2.scenarios.values
  | (.error _, _) => []

/-- What a run meets, in order. -/
def Optimiser.meetings (engine : Engine σ γ) (request : Request) (cache : Cache σ) :
    Optimiser → List Meeting
  | nsga2 s => passMeetings engine.simulate request.portfolio request.constraints (fun prepared =>
      Nsga2.evolve (prepared.problem engine.simulate).logged s request.objectives
        (prepared.seeds request.existing) (engine.source s.seed)) cache
  | genetic s =>
    match s.objective.or request.objectives.head? with
    | some o => passMeetings engine.simulate request.portfolio request.constraints (fun prepared =>
        Genetic.evolve (prepared.problem engine.simulate).logged s request.objectives o
          (prepared.seeds request.existing) (engine.source s.seed)) cache
    | none => []
  | gridSearch s => passMeetings engine.simulate request.portfolio request.constraints
      (fun prepared => (prepared.problem engine.simulate).logged.evaluateAll
        ((Grid.points (prepared.space.genes.map (Grid.Axis.ofGene s.continuousSteps))
          s.maxEvaluations).run (engine.source s.seed)).1) cache
  | separated s => siteMeetings engine s request 0 request.portfolio cache
  | nested s => siteMeetings engine s.separated request 0 request.portfolio cache ++
      combinationMeetings engine s request cache

/-- The most candidates that a run may have to simulate for a number of sites. -/
def Optimiser.budget (sites : Nat) : Optimiser → Nat
  | nsga2 s => s.populationSize * s.generations
  | genetic s => s.populationSize * s.generations
  | gridSearch s => s.maxEvaluations
  | separated s => s.site.populationSize * s.site.generations * sites
  | nested s => s.separated.site.populationSize * s.separated.site.generations * sites

end Meetings

/-! ## A search on the sites of a portfolio -/

section Pass

variable {simulate : Simulator σ} {portfolio : List Site} {constraints : Constraints}
  {cache : Cache σ} {prepared : PortfolioProblem} {trial trial' : Trial σ}

lemma sum_size_pass (portfolio : List Site) (p : PortfolioProblem) (journal : Journal) :
    ((baselines portfolio ++ p.candidates journal).map Meeting.size).sum = journal.length := by
  have hbaselines : ((baselines portfolio).map Meeting.size).sum = 0 := by
    unfold baselines
    rw [List.map_map]
    induction portfolio with
    | nil => rfl
    | cons site rest ih => rw [List.map_cons, List.sum_cons, ih]; rfl
  have hcandidates : ((p.candidates journal).map Meeting.size).sum = journal.length := by
    unfold PortfolioProblem.candidates
    rw [List.map_map]
    induction journal with
    | nil => rfl
    | cons e rest ih =>
      rw [List.map_cons, List.sum_cons, ih, List.length_cons, Nat.add_comm]
      rfl
  rw [List.map_append, List.sum_append, hbaselines, hcandidates, Nat.zero_add]

/-- Preparing the sites is meeting their baselines. -/
lemma tallies_of_returns_build
    (h : Returns (PortfolioProblem.build simulate portfolio constraints) trial prepared trial') :
    Tallies trial.cache (baselines portfolio) trial'.cache 0 ∧
      trial'.evaluations = trial.evaluations := by
  obtain ⟨-, -, hsites⟩ := PortfolioProblem.steps_of_returns_build h
  generalize prepared.sites = sites at hsites
  clear h
  induction portfolio generalizing trial sites with
  | nil =>
    obtain ⟨-, rfl⟩ := returns_pure.mp hsites
    exact ⟨.refl _, rfl⟩
  | cons site rest ih =>
    rw [List.mapM_cons] at hsites
    obtain ⟨entry, trial₁, hsite, hsites⟩ := returns_bind.mp hsites
    obtain ⟨⟨baseline, called⟩, trial₂, hask, hsite⟩ := returns_bind.mp hsite
    obtain ⟨-, rfl⟩ := returns_pure.mp hsite
    obtain ⟨others, trial₃, hothers, hsites⟩ := returns_bind.mp hsites
    obtain ⟨-, rfl⟩ := returns_pure.mp hsites
    obtain ⟨hknows, -, hcount⟩ := Trial.knows_of_returns_ask hask
    obtain ⟨hrest, hcount'⟩ := ih others hothers
    have hfirst : Tallies trial.cache [.baseline site.baselineScenario] trial₂.cache 0 := by
      refine ⟨fun scenario => ?_, rfl⟩
      rw [hknows]
      exact or_congr_right List.mem_singleton.symm
    exact ⟨hfirst.append hrest, hcount'.trans hcount⟩

lemma length_decode_of_returns_build
    (h : Returns (PortfolioProblem.build simulate portfolio constraints) trial prepared trial')
    (c : Chromosome) : (prepared.space.decode c).length = prepared.sites.length := by
  obtain ⟨hspace, -, -⟩ := PortfolioProblem.steps_of_returns_build h
  have hsites := congrArg List.length (PortfolioProblem.fst_sites_of_returns_build h)
  rw [List.length_map] at hsites
  rw [Space.decode, Space.length_decodeFrom, Space.length_sites hspace, hsites]

/-- The baselines and the journal are what was met from a cache on. -/
def Accounted (cache : Cache σ) (portfolio : List Site) (p : PortfolioProblem)
    (state : Trial σ × Journal) : Prop :=
  Tallies cache (baselines portfolio ++ p.candidates state.2) state.1.cache state.1.evaluations

lemma accounted_of_returns_build
    (h : Returns (PortfolioProblem.build simulate portfolio constraints) ⟨cache, 0⟩ prepared trial) :
    Accounted cache portfolio prepared (trial, []) := by
  obtain ⟨htallies, hcount⟩ := tallies_of_returns_build h
  change Tallies cache (baselines portfolio ++ []) trial.cache trial.evaluations
  rw [List.append_nil, hcount]
  exact htallies

lemma accounted_of_returns_evaluate {c : Chromosome} {x : PortfolioSolution}
    {state state' : Trial σ × Journal}
    (hlength : ∀ c, (prepared.space.decode c).length = prepared.sites.length)
    (haccounted : Accounted cache portfolio prepared state)
    (h : Returns ((prepared.problem simulate).logged.evaluate c) state x state') :
    Accounted cache portfolio prepared state' := by
  obtain ⟨t, journal⟩ := state
  obtain ⟨t', journal'⟩ := state'
  obtain ⟨hx, rfl⟩ := returns_logged_evaluate _ h
  obtain ⟨n, htallies, hcount⟩ := PortfolioProblem.tallies_of_returns_evaluate (hlength c) hx
  unfold Accounted
  dsimp only
  rw [hcount, PortfolioProblem.candidates, List.map_append, ← List.append_assoc]
  exact haccounted.append htallies

/-- A pass is accounted for: its meetings are tallied, and as many candidates counted as its journal
has at most. -/
lemma tallies_pass {α : Type} (search : PortfolioProblem → Search (Trial σ × Journal) α) {a : α}
    {journal : Journal}
    (hbuild : Returns (PortfolioProblem.build simulate portfolio constraints) ⟨cache, 0⟩ prepared
      trial)
    (hsearch : Returns (search prepared) (trial, []) a (trial', journal))
    (haccounted : Accounted cache portfolio prepared (trial', journal)) :
    Tallies cache (passMeetings simulate portfolio constraints search cache) trial'.cache
      trial'.evaluations ∧ trial'.evaluations ≤ journal.length := by
  have hmeetings : passMeetings simulate portfolio constraints search cache =
      baselines portfolio ++ prepared.candidates journal := by
    unfold passMeetings
    rw [hbuild]
    dsimp only
    rw [hsearch]
  refine ⟨hmeetings ▸ haccounted, ?_⟩
  rw [haccounted.count_eq, ← sum_size_pass portfolio prepared journal]
  exact newCandidates_le _ _

end Pass

section Searches

variable {γ : Type} [Source γ] {simulate : Simulator σ} {portfolio : List Site}
  {constraints : Constraints} {cache : Cache σ} {prepared : PortfolioProblem}
  {trial trial' : Trial σ} {objectives : List Objective} {existing : List PortfolioSolution}
  {source : γ}

lemma yields_accounted
    (hbuild : Returns (PortfolioProblem.build simulate portfolio constraints) ⟨cache, 0⟩ prepared
      trial) : (prepared.problem simulate).logged.Yields (Accounted cache portfolio prepared)
        (fun _ _ => True) :=
  fun _ _ _ _ _ hbefore hx => ⟨trivial,
    accounted_of_returns_evaluate (length_decode_of_returns_build hbuild) hbefore hx⟩

/-- The scenarios of an evaluated candidate are those that its chromosome stands for. -/
lemma PortfolioProblem.scenario_mem_decode {p : PortfolioProblem} {c : Chromosome}
    {x : PortfolioSolution} {k : String} {s : SiteSolution} (hs : x.sites.get? k = some s)
    (h : Returns (p.evaluate simulate c) trial x trial') : s.scenario ∈ p.space.decode c := by
  obtain ⟨⟨entries, hentries, rfl⟩, -⟩ :=
    returns_evaluate_of_answers (answers_of_any simulate) trivial h
  obtain ⟨w, hw, r, -, heq⟩ := exists_of_mem_right hentries (Dict.mem_of_get?_ofList hs)
  cases heq
  exact (List.of_mem_zip hw).1

/-- An evolution on the sites of a portfolio is accounted for, keeps to the places of its
generations, and what it ends with is in the cache. -/
lemma Nsga2.tallies_of_returns_evolve {settings : Nsga2.Settings} {outcome : Nsga2.Outcome}
    (hbuild : Returns (PortfolioProblem.build simulate portfolio constraints) ⟨cache, 0⟩ prepared
      trial)
    (h : Returns (evolve (prepared.problem simulate) settings objectives
      (prepared.seeds existing) source) trial outcome trial') :
    Tallies cache (passMeetings simulate portfolio constraints (fun prepared =>
        evolve (prepared.problem simulate).logged settings objectives (prepared.seeds existing)
          source) cache) trial'.cache trial'.evaluations ∧
      trial'.evaluations ≤ settings.populationSize * settings.generations ∧
      ∀ x ∈ outcome.front, ∀ k s, x.sites.get? k = some s → trial'.cache.knows s.scenario := by
  obtain ⟨journal, hlogged⟩ := exists_returns_logged _ _ _ h
  obtain ⟨-, haccounted⟩ :=
    of_returns_evolve (yields_accounted hbuild) (accounted_of_returns_build hbuild) hlogged
  obtain ⟨htallies, hle⟩ := tallies_pass (fun prepared =>
    evolve (prepared.problem simulate).logged settings objectives (prepared.seeds existing) source)
    hbuild hlogged haccounted
  refine ⟨htallies, Nat.le_trans hle (length_journal_le hlogged), fun x hx k s hs => ?_⟩
  obtain ⟨c, hc⟩ := mem_journal_of_mem_front hlogged hx
  have hyields : (prepared.problem simulate).Yields (fun _ => True)
      (fun c x => ∀ k s, x.sites.get? k = some s → s.scenario ∈ prepared.space.decode c) :=
    fun _ _ _ _ _ _ hx => ⟨fun _ _ hs => PortfolioProblem.scenario_mem_decode hs hx, trivial⟩
  obtain ⟨-, hscenario⟩ := (known_of_returns_evolve hyields trivial hlogged).entries (c, x) hc
  apply (haccounted.knows_iff s.scenario).mpr
  rw [metScenarios_append]
  refine Or.inr (List.mem_append_right _ (List.mem_flatMap.mpr
    ⟨.candidate (prepared.space.decode c), ?_, hscenario k s hs⟩))
  exact List.mem_map.mpr ⟨(c, x), hc, rfl⟩

namespace Genetic

variable {settings : Settings} {o : Objective}

lemma length_of_returns_select {τ : Type} {p : Problem τ} {elite next : List Individual}
    {chromosomes : List Chromosome} {state state' : τ × Journal}
    (h : Returns (select p.logged settings o elite chromosomes) state next state') :
    state'.2.length = state.2.length + chromosomes.length := by
  obtain ⟨solutions, state₁, hsolutions, h⟩ := returns_bind.mp h
  obtain ⟨-, rfl⟩ := returns_pure.mp h
  obtain ⟨-, hjournal⟩ := returns_logged_evaluateAll p hsolutions
  have hlength := Nsga2.length_of_returns_evaluateAll hsolutions
  rw [hjournal, List.length_append, List.length_zip, ← hlength, Nat.min_self]

lemma length_of_returns_breed {τ : Type} {p : Problem τ} {remaining generation : Nat}
    {elite last : List Individual} {history : List GenerationSummary}
    {chromosomes : List Chromosome} {state state' : τ × Journal}
    (h : Returns (breed p.logged settings objectives o remaining generation source elite chromosomes)
      state (last, history) state') :
    state'.2.length = state.2.length + chromosomes.length +
      remaining * (settings.populationSize - settings.eliteCount) := by
  induction remaining generalizing generation source elite chromosomes history state with
  | zero =>
    rw [Nat.zero_mul]
    exact length_of_returns_select (select_of_returns_breed h).1
  | succ remaining ih =>
    obtain ⟨population, state₁, children, source', later, hpopulation, hbrood, hrest, -⟩ :=
      steps_of_returns_breed h
    have hchildren := (forall_of_returns_several (P := fun _ => True)
      (fun _ _ _ _ => trivial) hbrood).1
    rw [ih hrest, length_of_returns_select hpopulation, hchildren, Nat.succ_mul]
    omega

/-- An evolution evaluates no more candidates than its generations have places. -/
lemma length_journal_le {τ : Type} {p : Problem τ} {seeds : List Chromosome}
    {found : List Individual × List GenerationSummary} {t t' : τ} {journal : Journal}
    (hcheck : settings.check = .ok ()) (hseeds : ∀ seed ∈ seeds, seed.length = p.genes.length)
    (h : Returns (evolve p.logged settings objectives o seeds source) (t, []) found (t', journal)) :
    journal.length ≤ settings.populationSize * settings.generations := by
  obtain ⟨⟨chromosomes, source'⟩, state₁, hdraw, h⟩ := returns_bind.mp h
  obtain ⟨hbrood, rfl⟩ := returns_draw.mp hdraw
  obtain ⟨hcount, -⟩ := of_returns_firstBrood (Gene.kept_true p.genes)
    (fun seed hseed => forall₂_true_iff.mpr (hseeds seed hseed).symm) hbrood
  have hgenerations : settings.generations ≠ 0 := by
    unfold Settings.check at hcheck
    split_ifs at hcheck with hsize
    exact fun hzero => hsize (Or.inr hzero)
  obtain ⟨generations, hsucc⟩ := Nat.exists_eq_succ_of_ne_zero hgenerations
  have hlength := length_of_returns_breed h
  rw [hlength, hcount, hsucc, Nat.succ_sub_one, Nat.mul_succ, Nat.mul_comm settings.populationSize,
    List.length_nil, Nat.zero_add, Nat.add_comm]
  exact Nat.add_le_add_right (Nat.mul_le_mul_left _ (Nat.sub_le _ _)) _

/-- An evolution on the sites of a portfolio is accounted for, and keeps to the places of its
generations. -/
lemma tallies_of_returns_evolve {found : List Individual × List GenerationSummary}
    (hcheck : settings.check = .ok ())
    (hbuild : Returns (PortfolioProblem.build simulate portfolio constraints) ⟨cache, 0⟩ prepared
      trial)
    (h : Returns (evolve (prepared.problem simulate) settings objectives o
      (prepared.seeds existing) source) trial found trial') :
    Tallies cache (passMeetings simulate portfolio constraints (fun prepared =>
        evolve (prepared.problem simulate).logged settings objectives o (prepared.seeds existing)
          source) cache) trial'.cache trial'.evaluations ∧
      trial'.evaluations ≤ settings.populationSize * settings.generations := by
  have hseeds : ∀ seed ∈ prepared.seeds existing, seed.length = prepared.space.genes.length :=
    fun seed hseed => PortfolioProblem.length_of_mem_seeds hseed
  obtain ⟨journal, hlogged⟩ := exists_returns_logged _ _ _ _ h
  obtain ⟨hlast, -⟩ := of_returns_evolve_on (Gene.kept_true _) (yields_accounted hbuild).on hcheck
    (fun seed hseed => forall₂_true_iff.mpr (hseeds seed hseed).symm)
    (accounted_of_returns_build hbuild) hlogged
  obtain ⟨htallies, hle⟩ := tallies_pass (fun prepared =>
    evolve (prepared.problem simulate).logged settings objectives o (prepared.seeds existing)
      source) hbuild hlogged hlast.state
  exact ⟨htallies, Nat.le_trans hle (length_journal_le hcheck hseeds hlogged)⟩

end Genetic

namespace Grid

/-- No more points are chosen than the limit says. -/
theorem always_length_points (axes : List Axis) (limit : Nat) :
    Always (points axes limit : Draw γ (List Chromosome)) (·.length ≤ limit) := by
  intro s
  obtain ⟨kept, hrun, hmost, -⟩ := exists_kept axes limit s
  rwa [hrun, List.length_map]

/-- A search of chosen points of a portfolio is accounted for, and keeps to the limit. -/
lemma tallies_of_returns_evaluateAll {settings : Settings} {evaluated : List PortfolioSolution}
    (hbuild : Returns (PortfolioProblem.build simulate portfolio constraints) ⟨cache, 0⟩ prepared
      trial)
    (h : Returns ((prepared.problem simulate).evaluateAll
      ((points (prepared.space.genes.map (Axis.ofGene settings.continuousSteps))
        settings.maxEvaluations).run source).1) trial evaluated trial') :
    Tallies cache (passMeetings simulate portfolio constraints (fun prepared =>
        (prepared.problem simulate).logged.evaluateAll
          ((points (prepared.space.genes.map (Axis.ofGene settings.continuousSteps))
            settings.maxEvaluations).run source).1) cache) trial'.cache trial'.evaluations ∧
      trial'.evaluations ≤ settings.maxEvaluations := by
  obtain ⟨⟨_, journal⟩, hlogged, rfl⟩ :=
    (mirrors_logged_evaluateAll _ _).exists_returns (trial, []) h
  obtain ⟨-, haccounted⟩ := forall₂_of_returns_mapM (R := fun _ _ => True)
    (fun _ _ _ _ _ hbefore hx => ⟨trivial, accounted_of_returns_evaluate
      (length_decode_of_returns_build hbuild) hbefore hx⟩)
    (accounted_of_returns_build hbuild) hlogged
  obtain ⟨htallies, hle⟩ := tallies_pass (fun prepared =>
    (prepared.problem simulate).logged.evaluateAll
      ((points (prepared.space.genes.map (Axis.ofGene settings.continuousSteps))
        settings.maxEvaluations).run source).1) hbuild hlogged haccounted
  obtain ⟨-, hjournal⟩ := returns_logged_evaluateAll _ hlogged
  have hlength : journal.length ≤ settings.maxEvaluations := by
    rw [hjournal, List.nil_append, List.length_zip]
    exact Nat.le_trans (Nat.min_le_left _ _) (always_length_points _ _ _)
  exact ⟨htallies, Nat.le_trans hle hlength⟩

end Grid

end Searches

end Retrofit
