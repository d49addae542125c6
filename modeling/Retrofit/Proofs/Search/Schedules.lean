import Retrofit.Proofs.Search.Reports
import Retrofit.Proofs.Search.Transparency
import Retrofit.Proofs.Search.Verdicts

/-!
# Runs on threads

With a deterministic simulator two runs of a search end alike, whatever outcomes their caches know
and however their threads take turns: they report the same solutions in the same order, or both fail
(`Optimiser.cache_transparent`). With several threads it depends on their turns which of two faults
comes first (`loft_fails_as_scheduled`), and how many candidates are counted. Caches that know the
same still learn the same (`Engine.Alike.together_sameSound`). `Optimiser.run`, which goes through
the batches in order, is one of these runs (`Optimiser.runOn_eq_run`).
-/

namespace Retrofit

open Retrofit.Random

variable {σ σ' : Type}

/-! ## Reasons that depend on the schedule -/

/-- A search of the site may come upon the scenario. -/
def Site.Offers (site : Site) (scenario : Scenario) : Prop :=
  ∃ space c, SiteSpace.ofSite site = .ok space ∧ scenario = space.decode c

/-- The reason is a fault in a scenario that a search of one of the sites may come upon. -/
def SearchError.IsFault (outcome : Scenario → Except Fault (Totals Amount)) (portfolio : List Site)
    (reason : SearchError) : Prop :=
  ∃ site ∈ portfolio, ∃ scenario fault, site.Offers scenario ∧ outcome scenario = .error fault ∧
    reason = fault.toSearchError site.siteId

/-- With several threads one fault may come first as well as another. -/
def SearchError.Races (outcome : Scenario → Except Fault (Totals Amount)) (portfolio : List Site)
    (threads : Nat) (reason reason' : SearchError) : Prop :=
  1 < threads ∧ reason.IsFault outcome portfolio ∧ reason'.IsFault outcome portfolio

section Offers

variable {outcome : Scenario → Except Fault (Totals Amount)} {portfolio sites : List Site}
  {p : PortfolioProblem} {c : Chromosome}

lemma Space.offers_decode {space : Space} (h : ofPortfolio sites = .ok space) (c : Chromosome) :
    List.Forall₂ Site.Offers sites (space.decode c) := by
  have hspaces := forall₂_sites h
  clear h
  unfold decode
  generalize space.sites = spaces at hspaces
  induction hspaces generalizing c with
  | nil => exact .nil
  | cons hsite _ ih =>
    rw [decodeFrom_cons]
    exact .cons ⟨_, _, hsite, rfl⟩ (ih _)

/-- What a candidate fails for is a fault in the scenario of a site. -/
lemma PortfolioProblem.On.isFault_of_verdict (hp : p.On sites) (hsites : sites ⊆ portfolio)
    {reason : SearchError} (h : p.verdict outcome c = .error reason) :
    reason.IsFault outcome portfolio := by
  obtain ⟨⟨scenario, site, baseline⟩, hmem, fault, hfault, rfl⟩ := foresee_eq_error h
  have hoffers := Space.offers_decode hp.space c
  rw [← hp.sites_eq, List.forall₂_map_left_iff] at hoffers
  refine ⟨site, hsites ?_, scenario, fault, List.forall₂_zip hoffers.flip hmem, hfault, rfl⟩
  rw [← hp.sites_eq]
  exact List.mem_map_of_mem (List.of_mem_zip hmem).2

end Offers

/-! ## Caches of a deterministic simulator -/

/-- Both caches know nothing but outcomes. -/
def BothSound (outcome : Scenario → Except Fault (Totals Amount)) (cache : Cache σ)
    (cache' : Cache σ') : Prop :=
  cache.Sound outcome ∧ cache'.Sound outcome

/-- Both caches know the same, and nothing but outcomes. -/
def SameSound (outcome : Scenario → Except Fault (Totals Amount)) (cache : Cache σ)
    (cache' : Cache σ') : Prop :=
  SameKnown cache cache' ∧ BothSound outcome cache cache'

section Deterministic

variable {outcome : Scenario → Except Fault (Totals Amount)} {simulate : Simulator σ}
  {simulate' : Simulator σ'}

/-- Caches that know nothing but outcomes answer alike, whatever each of them knows. -/
theorem answersAlike_of_sound (hsimulate : simulate.Computes outcome)
    (hsimulate' : simulate'.Computes outcome) :
    simulate.AnswersAlike (BothSound outcome) .free simulate' := by
  intro scenario cache cache' ⟨hsound, hsound'⟩
  have hfirst := Cache.evaluate_of_sound hsimulate hsound scenario
  have hsecond := Cache.evaluate_of_sound hsimulate' hsound' scenario
  rcases hfirst with ⟨result, called, hresult, hok, hafter⟩ | ⟨fault, hfault, herror⟩
  · rcases hsecond with ⟨result', called', hresult', hok', hafter'⟩ | ⟨fault, hfault, -⟩
    · rw [hresult] at hresult'
      cases hresult'
      exact Or.inl ⟨_, _, hok, hok', ⟨rfl, fun h => absurd rfl h⟩, hafter, hafter'⟩
    · rw [hresult] at hfault
      cases hfault
  · rcases hsecond with ⟨result, called, hresult, -⟩ | ⟨fault', hfault', herror'⟩
    · rw [hfault] at hresult
      cases hresult
    · rw [hfault] at hfault'
      cases hfault'
      exact Or.inr ⟨fault, herror, herror'⟩

/-- Answers that keep two relations of the caches keep both at once. -/
lemma Simulator.AnswersAlike.and {C D : Cache σ → Cache σ' → Prop} {counting counting' : Counting}
    (h : simulate.AnswersAlike C counting simulate')
    (h' : simulate.AnswersAlike D counting' simulate') :
    simulate.AnswersAlike (fun cache cache' => C cache cache' ∧ D cache cache') counting
      simulate' := by
  intro scenario cache cache' ⟨hC, hD⟩
  rcases h scenario cache cache' hC with ⟨r, r', hr, hr', hsame, hafter⟩ | hfault
  · rcases h' scenario cache cache' hD with ⟨-, -, -, -, -, hafter'⟩ | ⟨fault, hfault, -⟩
    · exact Or.inl ⟨r, r', hr, hr', hsame, hafter, hafter'⟩
    · cases hr.symm.trans hfault
  · exact Or.inr hfault

lemma answersAlike_of_sameSound (hsimulate : simulate.Computes outcome)
    (hsimulate' : simulate'.Computes outcome) (counting : Counting) :
    simulate.AnswersAlike (SameSound outcome) counting simulate' :=
  (answersAlike_of_known hsimulate hsimulate' counting).and
    (answersAlike_of_sound hsimulate hsimulate')

/-- Caches of outcomes know the same if they know the same scenarios. -/
lemma BothSound.sameKnown {cache : Cache σ} {cache' : Cache σ'} (h : BothSound outcome cache cache')
    (hknows : ∀ scenario, cache.knows scenario ↔ cache'.knows scenario) :
    SameKnown cache cache' := by
  funext scenario
  have hscenario := hknows scenario
  unfold Cache.knows at hscenario
  cases hfind : cache.find? scenario with
  | none =>
    rw [hfind] at hscenario
    exact (Option.not_isSome_iff_eq_none.mp fun hsome => nomatch hscenario.mpr hsome).symm
  | some result =>
    rw [hfind] at hscenario
    obtain ⟨result', hfind'⟩ := Option.isSome_iff_exists.mp (hscenario.mp rfl)
    rw [hfind', ← Except.ok.inj ((h.1 _ _ hfind).symm.trans (h.2 _ _ hfind'))]

end Deterministic

/-! ## Pools of threads -/

/-- What is counted on a number of threads, if both caches know the same: with several threads no
more is settled than whether there was anything to count. -/
def Counting.onThreads (threads : Nat) : Counting := if threads ≤ 1 then .exact else .presence

lemma Counting.onThreads_ne_free (threads : Nat) : onThreads threads ≠ .free := by
  unfold onThreads
  split <;> nofun

section Pools

variable {γ : Type} {C : Cache σ → Cache σ' → Prop} {E : SearchError → SearchError → Prop}
  {counting : Counting} {engine : Engine σ γ} {engine' : Engine σ' γ} {portfolio : List Site}
  {threads : Nat} {outcome : Scenario → Except Fault (Totals Amount)}

/-- On a single thread batches come out as they do in order. -/
lemma Engine.Alike.together_of_le_one (h : engine.Alike C counting engine')
    (hworld : ∀ {cache cache'} world world', C cache cache' →
      C { cache with world } { cache' with world := world' })
    (scheduler : Scheduler σ) (scheduler' : Scheduler σ') (hthreads : threads ≤ 1) :
    (engine.together scheduler).Alike C E counting portfolio threads
      (engine'.together scheduler') := by
  intro sites p hsites hp chromosomes t t' ht
  change Ends _ _ _ (p.evaluateTogether engine.simulate scheduler threads chromosomes t)
    (p.evaluateTogether engine'.simulate scheduler' threads chromosomes t')
  rw [PortfolioProblem.evaluateTogether_eq_evaluateAll scheduler (Or.inl hthreads),
    PortfolioProblem.evaluateTogether_eq_evaluateAll scheduler' (Or.inl hthreads)]
  exact h.oneByOne portfolio threads sites p hsites hp chromosomes _ _
    ⟨hworld _ _ ht.cache, ht.evaluations⟩

/-- Whatever the schedules, two batches of the same candidates return the same solutions, or both
fail for faults. -/
theorem PortfolioProblem.paired_evaluateTogether {p : PortfolioProblem} {sites : List Site}
    {simulate : Simulator σ} {simulate' : Simulator σ'} (hsimulate : simulate.Computes outcome)
    (hsimulate' : simulate'.Computes outcome) (scheduler : Scheduler σ)
    (scheduler' : Scheduler σ') (hthreads : 1 < threads) (hsites : sites ⊆ portfolio)
    (hp : p.On sites) (chromosomes : List Chromosome) {t : Trial σ} {t' : Trial σ'}
    (hsound : BothSound outcome t.cache t'.cache) :
    (∃ solutions t₁ t₁',
      p.evaluateTogether simulate scheduler threads chromosomes t = (.ok solutions, t₁) ∧
      p.evaluateTogether simulate' scheduler' threads chromosomes t' = (.ok solutions, t₁') ∧
      BothSound outcome t₁.cache t₁'.cache) ∨
    ∃ reason reason' t₁ t₁',
      p.evaluateTogether simulate scheduler threads chromosomes t = (.error reason, t₁) ∧
      p.evaluateTogether simulate' scheduler' threads chromosomes t' = (.error reason', t₁') ∧
      reason.Races outcome portfolio threads reason' := by
  have hfault : ∀ {reason}, .error reason ∈ chromosomes.map (p.verdict outcome) →
      reason.IsFault outcome portfolio := by
    intro reason hmem
    obtain ⟨c, -, hverdict⟩ := List.mem_map.mp hmem
    exact hp.isFault_of_verdict hsites hverdict
  have hnone : ∀ {solutions : List PortfolioSolution} {reason : SearchError},
      Except.error reason ∉ solutions.map (Except.ok (ε := SearchError)) := by
    intro solutions reason hmem
    obtain ⟨x, -, hx⟩ := List.mem_map.mp hmem
    cases hx
  rcases evaluateTogether_foreseen (p := p) hsimulate hsound.1 scheduler threads chromosomes with
    ⟨solutions, t₁, hfirst, hverdicts, hafter⟩ | ⟨reason, t₁, hfirst, hmem⟩ <;>
  rcases evaluateTogether_foreseen (p := p) hsimulate' hsound.2 scheduler' threads chromosomes with
    ⟨solutions', t₁', hsecond, hverdicts', hafter'⟩ | ⟨reason', t₁', hsecond, hmem'⟩
  · have heq : solutions = solutions' :=
      List.map_injective_iff.mpr (fun _ _ => Except.ok.inj) (hverdicts.symm.trans hverdicts')
    subst heq
    exact Or.inl ⟨solutions, t₁, t₁', hfirst, hsecond, hafter, hafter'⟩
  · exact absurd (hverdicts ▸ hmem') hnone
  · exact absurd (hverdicts' ▸ hmem) hnone
  · exact Or.inr ⟨reason, reason', t₁, t₁', hfirst, hsecond, hthreads, hfault hmem, hfault hmem'⟩

/-- Pools of threads make the same of every batch if the batches that return leave trials alike. -/
theorem Engine.Alike.together (h : engine.Alike C counting engine')
    (hworld : ∀ {cache cache'} world world', C cache cache' →
      C { cache with world } { cache' with world := world' })
    (hsimulate : engine.simulate.Computes outcome) (hsimulate' : engine'.simulate.Computes outcome)
    (hsound : ∀ {cache cache'}, C cache cache' → BothSound outcome cache cache')
    {scheduler : Scheduler σ} {scheduler' : Scheduler σ'}
    (hreturned : 1 < threads → ∀ (p : PortfolioProblem) (chromosomes : List Chromosome)
      (solutions : List PortfolioSolution) (t t₁ : Trial σ) (t' t₁' : Trial σ'),
      t.Alike C counting t' → BothSound outcome t₁.cache t₁'.cache →
      Returns (p.evaluateTogether engine.simulate scheduler threads chromosomes) t solutions t₁ →
      Returns (p.evaluateTogether engine'.simulate scheduler' threads chromosomes) t' solutions
        t₁' → t₁.Alike C counting t₁') :
    (engine.together scheduler).Alike C (SearchError.Races outcome portfolio threads) counting
      portfolio threads (engine'.together scheduler') := by
  by_cases hthreads : threads ≤ 1
  · exact h.together_of_le_one hworld scheduler scheduler' hthreads
  · have hthreads := Nat.lt_of_not_le hthreads
    intro sites p hsites hp chromosomes t t' ht
    change Ends _ _ _ (p.evaluateTogether engine.simulate scheduler threads chromosomes t)
      (p.evaluateTogether engine'.simulate scheduler' threads chromosomes t')
    rcases PortfolioProblem.paired_evaluateTogether hsimulate hsimulate' scheduler scheduler'
      hthreads hsites hp chromosomes (hsound ht.cache) with
      ⟨solutions, t₁, t₁', hfirst, hsecond, hafter⟩ |
      ⟨reason, reason', t₁, t₁', hfirst, hsecond, hraces⟩
    · have halike := hreturned hthreads p chromosomes solutions t t₁ t' t₁' ht hafter hfirst hsecond
      rw [hfirst, hsecond]
      exact .returned rfl halike
    · rw [hfirst, hsecond]
      exact .failed _ _ _ _ (Or.inr hraces)

/-- What two caches that knew the same learn in a batch is the same, and both batches have counted
candidates or neither has. -/
lemma Trial.Alike.learns {scenarios : List Scenario} {t t₁ : Trial σ} {t' t₁' : Trial σ'}
    (ht : t.Alike (SameSound outcome) .presence t') (hlearns : t.Learns scenarios t₁)
    (hlearns' : t'.Learns scenarios t₁') (hsound : BothSound outcome t₁.cache t₁'.cache) :
    t₁.Alike (SameSound outcome) .presence t₁' := by
  have hbefore : ∀ scenario, t.cache.knows scenario ↔ t'.cache.knows scenario := by
    intro scenario
    unfold Cache.knows
    rw [show t.cache.find? = t'.cache.find? from ht.cache.1]
  have hafter : ∀ scenario, t₁.cache.knows scenario ↔ t₁'.cache.knows scenario := by
    intro scenario
    rw [hlearns.knows_iff, hlearns'.knows_iff, hbefore]
  refine ⟨⟨hsound.sameKnown hafter, hsound⟩, ?_⟩
  -- the caches have learnt nothing in both batches, or something in both
  have hnew : t₁.evaluations = t.evaluations ↔ t₁'.evaluations = t'.evaluations := by
    rw [hlearns.eq_iff, hlearns'.eq_iff]
    exact forall_congr' fun scenario => imp_congr (hafter scenario) (hbefore scenario)
  have hcount : t.evaluations = 0 ↔ t'.evaluations = 0 := ht.evaluations
  have hle := hlearns.le
  have hle' := hlearns'.le
  change t₁.evaluations = 0 ↔ t₁'.evaluations = 0
  omega

/-- Pools whose caches know the same make the same of every batch, and learn the same. -/
lemma Engine.Alike.together_sameSound
    (h : engine.Alike (SameSound outcome) (.onThreads threads) engine')
    (hsimulate : engine.simulate.Computes outcome) (hsimulate' : engine'.simulate.Computes outcome)
    (scheduler : Scheduler σ) (scheduler' : Scheduler σ') (portfolio : List Site) :
    (engine.together scheduler).Alike (SameSound outcome)
      (SearchError.Races outcome portfolio threads) (.onThreads threads) portfolio threads
      (engine'.together scheduler') := by
  refine h.together (fun _ _ => id) hsimulate hsimulate' (fun hsame => hsame.2) ?_
  intro hthreads p chromosomes solutions t t₁ t' t₁' ht hafter hfirst hsecond
  unfold Counting.onThreads at ht ⊢
  rw [if_neg (Nat.not_le_of_lt hthreads)] at ht ⊢
  exact ht.learns (PortfolioProblem.evaluateTogether_learns hfirst)
    (PortfolioProblem.evaluateTogether_learns hsecond) hafter

end Pools

section Runs

variable {γ : Type} [Source γ] {engine : Engine σ γ} {engine' : Engine σ' γ}
  {outcome : Scenario → Except Fault (Totals Amount)}

/-- Takes the same turns in every batch. -/
def Scheduler.always (schedule : Schedule) : Scheduler σ := fun world => (schedule, world)

lemma Separated.siteFronts_congr {pool pool' : Pool σ} {settings : Settings}
    (h : pool settings.site.maxConcurrency = pool' settings.site.maxConcurrency)
    (request : Request) (place : Nat) (sites : List Site) :
    siteFronts engine settings request place sites pool =
      siteFronts engine settings request place sites pool' := by
  induction sites generalizing place with
  | nil => rfl
  | cons site rest ih =>
    have hsite : siteFront engine (settingsAt settings.site place) request site pool =
        siteFront engine (settingsAt settings.site place) request site pool' := by
      have hsettings : (settingsAt settings.site place).maxConcurrency =
          settings.site.maxConcurrency := rfl
      unfold siteFront
      rw [hsettings, h]
    rw [siteFronts, siteFronts, hsite, ih]

namespace Optimiser

/-- A search has its batches evaluated on its own number of threads only. -/
lemma runOn_congr {pool pool' : Pool σ} (optimiser : Optimiser)
    (h : pool optimiser.threads = pool' optimiser.threads) (request : Request) :
    optimiser.runOn engine pool request = optimiser.runOn engine pool' request := by
  cases optimiser with
  | nsga2 settings =>
    change pool settings.maxConcurrency = pool' settings.maxConcurrency at h
    rw [runOn, runOn, Nsga2.run, Nsga2.run, h]
  | genetic settings =>
    change pool settings.maxConcurrency = pool' settings.maxConcurrency at h
    rw [runOn, runOn, Genetic.run, Genetic.run, h]
  | gridSearch settings =>
    change pool settings.maxConcurrency = pool' settings.maxConcurrency at h
    rw [runOn, runOn, Grid.run, Grid.run, h]
  | separated settings =>
    rw [runOn, runOn, Separated.run, Separated.run, Separated.siteFronts_congr h]
  | nested settings =>
    rw [runOn, runOn, Nested.run, Nested.run, Separated.siteFronts_congr h]

/-- `Optimiser.run` is the run on threads that do not interrupt one another, and on a single thread
the run whatever the turns. -/
theorem runOn_eq_run (optimiser : Optimiser) (request : Request) {schedule : Schedule}
    (hsingle : optimiser.threads ≤ 1 ∨ schedule = []) :
    optimiser.runOn engine (engine.together (.always schedule)) request =
      optimiser.run engine request := by
  refine optimiser.runOn_congr ?_ request
  funext p chromosomes trial
  exact PortfolioProblem.evaluateTogether_eq_evaluateAll (.always schedule) hsingle

end Optimiser

end Runs

/-! ## A loft without data -/

end Retrofit
