import Retrofit.Proofs.Search.Replay

/-!
# Evolution keeps an archive while it fits

If in every generation the first front has a place for all of its members, the first front of the
last population is an archive of the whole evolution (`archive_survives_evolution`): no candidate
that was evaluated at any time beats one of its members, and for every such candidate it has a
member that beats it or is as good. One generation carries this over to its candidates, because a
candidate that leaves the population leaves it for one that covers it.
-/

namespace Retrofit

open Retrofit.Random

/-- A front that no evaluated candidate beats, with a member for every one of them that beats it or
has the same costs and the same excess over the constraints. -/
structure Archives (objectives : List Objective) (seen front : List PortfolioSolution) : Prop where
  unbeaten : ∀ x ∈ front, ∀ y ∈ seen,
    ¬ (y.judgement objectives).beats (x.judgement objectives)
  covered : ∀ y ∈ seen, ∃ x ∈ front, (x.judgement objectives).beats (y.judgement objectives) ∨
    x.costs objectives = y.costs objectives ∧
      Number.larger x.violation 0.0 = Number.larger y.violation 0.0

namespace PortfolioSolution

variable {objectives : List Objective} {x y z : PortfolioSolution}

/-- A solution stands for another if it is the same or beats it. -/
def Covers (objectives : List Objective) (x y : PortfolioSolution) : Prop :=
  x = y ∨ (x.judgement objectives).beats (y.judgement objectives)

lemma Covers.trans (hx : x.Defined objectives) (hy : y.Defined objectives)
    (hz : z.Defined objectives) (hxy : x.Covers objectives y) (hyz : y.Covers objectives z) :
    x.Covers objectives z := by
  rcases hxy with rfl | hxy
  · exact hyz
  · rcases hyz with rfl | hyz
    · exact Or.inr hxy
    · exact Or.inr (Judgement.beats_trans hx hy hz hxy hyz)

/-- What a covered solution beats its cover beats as well. -/
lemma Covers.beats (hx : x.Defined objectives) (hy : y.Defined objectives)
    (hz : z.Defined objectives) (hxy : x.Covers objectives y)
    (hyz : (y.judgement objectives).beats (z.judgement objectives)) :
    (x.judgement objectives).beats (z.judgement objectives) := by
  rcases hxy with rfl | hxy
  · exact hyz
  · exact Judgement.beats_trans hx hy hz hxy hyz

end PortfolioSolution

open PortfolioSolution

namespace Nsga2

variable {objectives : List Objective}

lemma exists_mem_place (objectives : List Objective) (rank : Nat) {front : List Member}
    {m₀ : Member} (h : m₀ ∈ front) :
    ∃ m ∈ place objectives rank front, m.rank = rank ∧ m.Same m₀ := by
  obtain ⟨i, hi, rfl⟩ := List.mem_iff_getElem.mp h
  have hplaced : i < (place objectives rank front).length := by rwa [length_place]
  unfold place at hplaced ⊢
  refine ⟨_, List.getElem_mem hplaced, ?_⟩
  rw [List.getElem_zipWith]
  exact ⟨rfl, rfl, rfl⟩

/-- If the first front fits, all of it survives. -/
theorem exists_mem_survive {places : Nat} {members : List Member} {m₀ : Member}
    (hfit : (firstFront (·.solution.judgement objectives) members).length ≤ places)
    (h : m₀ ∈ firstFront (·.solution.judgement objectives) members) :
    ∃ m ∈ survive objectives places members, m.rank = 0 ∧ m.Same m₀ := by
  have hplaces : places ≠ 0 := by
    have hpos := List.length_pos_of_mem h
    omega
  obtain ⟨rest, hfronts⟩ := exists_fronts_eq_cons (fun m : Member => m.solution.judgement objectives)
    (List.ne_nil_of_mem (mem_of_mem_firstFront h))
  obtain ⟨m, hm, hrank, hsame⟩ := exists_mem_place objectives 0 h
  refine ⟨m, ?_, hrank, hsame⟩
  unfold survive
  rw [hfronts, fill, if_neg hplaces]
  dsimp only
  rw [length_place, if_pos hfit]
  exact List.mem_append_left _ hm

/-! ## The invariant -/

/-- The members of a population are in the journal, nothing in it beats those of rank zero, and these
cover all of it. -/
structure Archive (objectives : List Objective) (journal : Journal) (population : List Member) :
    Prop where
  evaluated : ∀ m ∈ population, (m.chromosome, m.solution) ∈ journal
  unbeaten : ∀ m ∈ population, m.rank = 0 → ∀ e ∈ journal,
    ¬ (e.2.judgement objectives).beats (m.solution.judgement objectives)
  covered : ∀ e ∈ journal, ∃ m ∈ population, m.rank = 0 ∧ m.solution.Covers objectives e.2

lemma archive_nil : Archive objectives [] [] where
  evaluated _ hm := absurd hm List.not_mem_nil
  unbeaten _ hm := absurd hm List.not_mem_nil
  covered _ he := absurd he List.not_mem_nil

lemma Sane.mono {journal journal' : Journal} (hsub : ∀ e ∈ journal, e ∈ journal')
    (h : Sane objectives journal') : Sane objectives journal :=
  ⟨fun e he => h.defined e (hsub e he),
    fun e he e' he' => h.consistent e (hsub e he) e' (hsub e' he')⟩

lemma Archive.archives {journal : Journal} {population : List Member}
    (h : Archive objectives journal population) :
    Archives objectives (journal.map Prod.snd)
      ((population.filter (·.rank = 0)).map (·.solution)) where
  unbeaten := by
    intro x hx
    obtain ⟨m, hm, rfl⟩ := List.mem_map.mp hx
    obtain ⟨hm, hrank⟩ := List.mem_filter.mp hm
    exact List.forall_mem_map.mpr (h.unbeaten m hm (of_decide_eq_true hrank))
  covered := by
    intro y hy
    obtain ⟨e, he, rfl⟩ := List.mem_map.mp hy
    obtain ⟨m, hm, hrank, hcovers⟩ := h.covered e he
    refine ⟨m.solution, List.mem_map.mpr ⟨m, List.mem_filter.mpr ⟨hm, ?_⟩, rfl⟩, ?_⟩
    · exact decide_eq_true hrank
    · rcases hcovers with heq | hbeats
      · exact Or.inr ⟨by rw [heq], by rw [heq]⟩
      · exact Or.inl hbeats

section Generation

variable {population : List Member} {journal entries : Journal}

/-- Every candidate so far is covered by a contestant of the next selection. -/
lemma exists_contestant (hsane : Sane objectives (journal ++ entries))
    (h : Archive objectives journal population) :
    ∀ e ∈ journal ++ entries, ∃ d ∈ contestants population entries,
      d.solution.Covers objectives e.2 := by
  -- A contestant that was dropped has the scenarios, and so the solution, of one that stayed.
  have hkept : ∀ m ∈ population ++ newcomers entries, (m.chromosome, m.solution) ∈
      journal ++ entries → ∃ d ∈ contestants population entries, d.solution = m.solution := by
    intro m hm hmem
    obtain ⟨d, hd, heq⟩ := @exists_mem_distinctBy _ _ _ (·.solution.scenarios) _ _ hm
    exact ⟨d, hd, hsane.consistent _ (mem_of_mem_contestants h.evaluated hd) _ hmem heq⟩
  intro e he
  rcases List.mem_append.mp he with hold | hnew
  · obtain ⟨m, hm, -, hcovers⟩ := h.covered e hold
    obtain ⟨d, hd, heq⟩ := hkept m (List.mem_append_left _ hm)
      (List.mem_append_left _ (h.evaluated m hm))
    exact ⟨d, hd, heq ▸ hcovers⟩
  · obtain ⟨d, hd, heq⟩ := hkept ⟨e.1, e.2, 0, 0.0⟩
      (List.mem_append_right _ (List.mem_map.mpr ⟨e, hnew, rfl⟩)) he
    exact ⟨d, hd, Or.inl heq⟩

/-- A generation whose first front fits keeps the archive. -/
theorem archive_survive {places : Nat} (hsane : Sane objectives (journal ++ entries))
    (h : Archive objectives journal population)
    (hfit : (firstFront (·.solution.judgement objectives)
      (contestants population entries)).length ≤ places) :
    Archive objectives (journal ++ entries)
      (survive objectives places (contestants population entries)) := by
  have hmem : ∀ d ∈ contestants population entries, (d.chromosome, d.solution) ∈ journal ++ entries :=
    fun d hd => mem_of_mem_contestants h.evaluated hd
  have hdefined : ∀ d ∈ contestants population entries, d.solution.Defined objectives :=
    fun d hd => hsane.defined _ (hmem d hd)
  refine ⟨fun m hm => ?_, fun m hm hrank e he hbeats => ?_, fun e he => ?_⟩
  · obtain ⟨d, hd, hsame, -⟩ := mem_survive hm
    rw [hsame.1, hsame.2]
    exact hmem d hd
  · obtain ⟨d, hd, hsame, hfirst⟩ := mem_survive hm
    obtain ⟨-, hfree⟩ := (mem_firstFront hdefined).mp (hfirst hrank)
    obtain ⟨c, hc, hcovers⟩ := exists_contestant hsane h e he
    rw [hsame.2] at hbeats
    exact hfree c hc
      (hcovers.beats (hdefined c hc) (hsane.defined e he) (hdefined d hd) hbeats)
  · obtain ⟨c, hc, hcovers⟩ := exists_contestant hsane h e he
    obtain ⟨d, hd, hfree, hdc⟩ := exists_best hdefined hc
    obtain ⟨m, hm, hrank, hsame⟩ :=
      exists_mem_survive hfit ((mem_firstFront hdefined).mpr ⟨hd, hfree⟩)
    have hbest : d.solution.Covers objectives c.solution :=
      hdc.imp (congrArg Member.solution) id
    refine ⟨m, hm, hrank, ?_⟩
    rw [hsame.2]
    exact hbest.trans (hdefined d hd) (hdefined c hc) (hsane.defined e he) hcovers

end Generation

/-- All generations keep the archive if the first front of each fits. -/
theorem archive_lastPopulation {places generations : Nat} {population : List Member}
    {journal entries : Journal} (hsane : Sane objectives (journal ++ entries))
    (h : Archive objectives journal population) (hlength : entries.length = generations * places)
    (hfit : ∀ pool ∈ pools objectives places generations population entries,
      (firstFront (·.solution.judgement objectives) pool).length ≤ places) :
    Archive objectives (journal ++ entries)
      (lastPopulation objectives places generations population entries) := by
  induction generations generalizing population journal entries with
  | zero =>
    rw [Nat.zero_mul] at hlength
    rw [List.eq_nil_of_length_eq_zero hlength, List.append_nil]
    exact h
  | succ generations ih =>
    obtain ⟨hfirst, hrest⟩ := List.forall_mem_cons.mp hfit
    have hsplit : journal ++ entries.take places ++ entries.drop places = journal ++ entries := by
      rw [List.append_assoc, List.take_append_drop]
    have hbefore : Sane objectives (journal ++ entries.take places) := by
      refine hsane.mono fun e he => ?_
      rw [← hsplit]
      exact List.mem_append_left _ he
    rw [← hsplit] at hsane ⊢
    refine ih hsane (archive_survive hbefore h hfirst) ?_ hrest
    rw [List.length_drop, hlength, Nat.succ_mul, Nat.add_sub_cancel]

/-! ## Whole evolutions -/

section Run

variable {τ γ : Type} [Source γ] {p : Problem τ} {settings : Settings} {I : τ → Prop}
  {R : Chromosome → PortfolioSolution → Prop}

/-- The evolution that gave an outcome, watched with a journal: if all candidates that it evaluated
are defined and the first front of every generation fits, the front of the outcome is an archive of
all of them. -/
def KeepsArchive (p : Problem τ) (settings : Settings) (objectives : List Objective)
    (seeds : List Chromosome) (source : γ) (t : τ) (outcome : Outcome) (t' : τ) : Prop :=
  ∃ journal, Returns (evolve p.logged settings objectives seeds source) (t, []) outcome
      (t', journal) ∧
    ((∀ e ∈ journal, e.2.Defined objectives) →
      (∀ pool ∈ pools objectives settings.populationSize settings.generations [] journal,
        (firstFront (·.solution.judgement objectives) pool).length ≤ settings.populationSize) →
      Archives objectives (journal.map Prod.snd) outcome.front)

/-- An evolution keeps an archive of all its generations, provided that portfolios with the same
scenarios are evaluated to the same solution. -/
theorem keepsArchive_of_returns_evolve {seeds : List Chromosome} {source : γ} {outcome : Outcome}
    {t t' : τ} (hp : p.Yields I R) (hconsistent : p.Consistent R) (ht : I t)
    (h : Returns (evolve p settings objectives seeds source) t outcome t') :
    KeepsArchive p settings objectives seeds source t outcome t' := by
  obtain ⟨journal, hlogged⟩ := exists_returns_logged p settings objectives h
  refine ⟨journal, hlogged, fun hdefined hfit => ?_⟩
  have hsane := sane_of_known hconsistent (known_of_returns_evolve hp ht hlogged) hdefined
  by_cases hgenes : p.genes = []
  · obtain ⟨x, hx, hfront⟩ := evolve_of_no_genes (p := p.logged) hgenes hlogged
    obtain ⟨-, rfl⟩ := returns_logged_evaluateAll p hx
    have hself := Judgement.not_beats_self (x.judgement objectives)
    rw [hfront]
    refine ⟨fun y hy z hz => ?_, fun z hz => ⟨x, List.mem_cons_self, Or.inr ?_⟩⟩
    · rw [List.mem_singleton.mp hy, List.mem_singleton.mp hz]
      exact hself
    · rw [List.mem_singleton.mp hz]
      exact ⟨rfl, rfl⟩
  · obtain ⟨hlength, hfront⟩ := replay_of_returns_evolve hgenes hlogged
    rw [hfront]
    exact (archive_lastPopulation hsane archive_nil hlength hfit).archives

end Run

/-- The archive of all generations is kept while it fits. This holds of an evolution on the sites of
a portfolio, if the simulator is deterministic, and of an evolution on fronts that were found site by
site. -/
theorem archive_survives_evolution {σ τ γ : Type} [Source γ] (settings : Settings)
    (objectives : List Objective) (seeds : List Chromosome) (source : γ) (found : Outcome) :
    (∀ (simulate : Simulator σ) (outcome : Scenario → Except Fault (Totals Amount))
      (portfolio : List Site) (constraints : Constraints) (prepared : PortfolioProblem)
      (start t t' : Trial σ), simulate.Computes outcome → start.cache.Sound outcome →
      Returns (PortfolioProblem.build simulate portfolio constraints) start prepared t →
      Returns (evolve (prepared.problem simulate) settings objectives seeds source) t found t' →
        KeepsArchive (prepared.problem simulate) settings objectives seeds source t found t') ∧
    ∀ (engine : Engine σ γ) (separated : Separated.Settings) (request : Request)
      (constraints : Constraints) (cache cache' : Cache σ) (fronts : List (List SiteSolution))
      (evaluations : Nat) (t t' : τ),
      Returns (Separated.siteFronts engine separated request 0 request.portfolio) cache
        (fronts, evaluations) cache' →
      Returns (evolve ((Nested.FrontProblem.ofFronts request.portfolio fronts constraints).problem
        evaluations) settings objectives seeds source) t found t' →
        KeepsArchive ((Nested.FrontProblem.ofFronts request.portfolio fronts constraints).problem
          evaluations) settings objectives seeds source t found t' := by
  constructor
  · intro simulate outcome portfolio constraints prepared start t t' hsimulate hstart hbuild h
    obtain ⟨hbuilt, hsound⟩ := PortfolioProblem.returns_build hsimulate hstart hbuild
    exact keepsArchive_of_returns_evolve (PortfolioProblem.yields hsimulate hbuilt)
      (consistent_of_builtFor hbuilt) hsound h
  · intro engine separated request constraints cache cache' fronts evaluations t t' hfronts h
    exact keepsArchive_of_returns_evolve (Nested.FrontProblem.yields _ evaluations)
      (consistent_frontProblem evaluations (Separated.unambiguous_of_returns_siteFronts hfronts))
      trivial h

/-- Two generations on the depot, and two on its front. All first fronts fit. -/
theorem archive_survives_evolution_depot :
    (∃ found t journal,
      Returns (evolve (depotProblem.problem depotSimulator).logged depotSettings [.capex]
        [[2.0], [0.0]] (ChaCha.ofSeed 0)) (depotTrial, []) found (t, journal) ∧
      Archives [.capex] (journal.map Prod.snd) found.front) ∧
    ∃ found t journal,
      Returns (evolve depotChoice.logged depotSettings [.capex] [] (ChaCha.ofSeed 0)) ((), []) found
        (t, journal) ∧
      Archives [.capex] (journal.map Prod.snd) found.front := by
  constructor
  · have hevolve := returns_of_isOk ⟨[], []⟩ (by decide +kernel :
      ((evolve (depotProblem.problem depotSimulator) depotSettings [.capex] [[2.0], [0.0]]
        (ChaCha.ofSeed 0)).run.run depotTrial).1.isOk)
    obtain ⟨journal, hlogged, harchive⟩ := (@archive_survives_evolution Unit Unit ChaCha _
      depotSettings [.capex] [[2.0], [0.0]] (ChaCha.ofSeed 0) _).1 depotSimulator depotOutcome
      [depot] .none depotProblem ⟨.start (), 0⟩ depotTrial _ computes_depotSimulator
      (Cache.sound_start _ _) returns_build_depot hevolve
    have hjournal : journal = ((evolve (depotProblem.problem depotSimulator).logged depotSettings
        [.capex] [[2.0], [0.0]] (ChaCha.ofSeed 0)).run.run (depotTrial, [])).2.2 := by
      rw [hlogged]
    refine ⟨_, _, journal, hlogged, harchive ?_ ?_⟩ <;> rw [hjournal]
    · decide +kernel
    · decide +kernel
  · obtain ⟨cache, hfronts⟩ := returns_siteFronts_depot
    have hevolve := returns_of_isOk ⟨[], []⟩ (by decide +kernel :
      ((evolve depotChoice depotSettings [.capex] [] (ChaCha.ofSeed 0)).run.run ()).1.isOk)
    obtain ⟨journal, hlogged, harchive⟩ := (@archive_survives_evolution Unit Unit ChaCha _
      depotSettings [.capex] [] (ChaCha.ofSeed 0) _).2 depotEngine ⟨depotSettings, 4⟩ depotRequest
      .none (.start ()) cache depotFronts.1 depotFronts.2 () _ hfronts hevolve
    change Returns (evolve depotChoice.logged _ _ _ _) _ _ _ at hlogged
    have hjournal : journal = ((evolve depotChoice.logged depotSettings [.capex] []
        (ChaCha.ofSeed 0)).run.run ((), [])).2.2 := by
      rw [hlogged]
    refine ⟨_, _, journal, hlogged, harchive ?_ ?_⟩ <;> rw [hjournal]
    · decide +kernel
    · decide +kernel

end Nsga2

end Retrofit
