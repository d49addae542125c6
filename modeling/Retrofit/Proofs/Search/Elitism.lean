import Retrofit.Proofs.Search.Journal
import Retrofit.Proofs.Search.SiteFronts

/-!
# Evolution never loses the best candidate

The first front of the last population is optimal among all candidates that were evaluated in any
generation (`optimum_survives_evolution`): the violation is the least of all, and with a single
objective so is the cost among the candidates of that violation. The invariant is that every member
of rank zero leads the journal and that there is such a member.
-/

namespace Retrofit

open Retrofit.Random

/-- A solution that no evaluated candidate improves on: its violation is the least, and with a single
objective its cost is the least among the candidates of that violation. -/
structure Optimal (objectives : List Objective) (seen : List PortfolioSolution)
    (x : PortfolioSolution) : Prop where
  evaluated : x ∈ seen
  least_violation : ∀ y ∈ seen, Number.larger x.violation 0.0 ≤ Number.larger y.violation 0.0
  least_cost : ∀ o, objectives = [o] → ∀ y ∈ seen,
    Number.larger y.violation 0.0 ≤ Number.larger x.violation 0.0 →
      o.cost (x.metric o) ≤ o.cost (y.metric o)

/-! ## Leading solutions -/

namespace PortfolioSolution

variable {objectives : List Objective} {x y z : PortfolioSolution}

/-- The penalty of a solution. -/
def penalty (x : PortfolioSolution) : Int := max (Number.units x.violation) 0

/-- At least as good by the penalty, then by the cost if it is the only one. -/
def Leads (objectives : List Objective) (x y : PortfolioSolution) : Prop :=
  x.penalty ≤ y.penalty ∧ ∀ o, objectives = [o] → x.penalty = y.penalty →
    (o.cost (x.metric o)).units ≤ (o.cost (y.metric o)).units

lemma Leads.refl (x : PortfolioSolution) : x.Leads objectives x :=
  ⟨Int.le_refl _, fun _ _ _ => Int.le_refl _⟩

lemma Leads.trans (hxy : x.Leads objectives y) (hyz : y.Leads objectives z) :
    x.Leads objectives z := by
  refine ⟨Int.le_trans hxy.1 hyz.1, fun o ho heq => ?_⟩
  have hfirst := hxy.1
  have hsecond := hyz.1
  exact Int.le_trans (hxy.2 o ho (by omega)) (hyz.2 o ho (by omega))

/-- A solution leads what does not beat it. -/
lemma leads_of_not_beats (hx : x.Defined objectives) (hy : y.Defined objectives)
    (h : ¬ (y.judgement objectives).beats (x.judgement objectives)) : x.Leads objectives y := by
  rw [Judgement.beats_iff hy hx] at h
  change ¬ (y.penalty < x.penalty ∨ y.penalty = x.penalty ∧
    List.Forall₂ (· ≤ ·) (rowUnits (y.costs objectives)) (rowUnits (x.costs objectives)) ∧
      rowUnits (y.costs objectives) ≠ rowUnits (x.costs objectives)) at h
  refine ⟨by omega, ?_⟩
  rintro o rfl heq
  apply Int.not_lt.mp
  intro hlt
  refine h (Or.inr ⟨heq.symm, .cons (Int.le_of_lt hlt) .nil, fun hsame => ?_⟩)
  have hunits : (o.cost (y.metric o)).units = (o.cost (x.metric o)).units :=
    List.head_eq_of_cons_eq hsame
  omega

lemma larger_violation (hx : x.Defined objectives) :
    Number.IsNumber (Number.larger x.violation 0.0) ∧
      Number.units (Number.larger x.violation 0.0) = x.penalty :=
  Number.larger_zero_of_isNumber hx.violation

lemma larger_violation_le_iff (hx : x.Defined objectives) (hy : y.Defined objectives) :
    Number.larger x.violation 0.0 ≤ Number.larger y.violation 0.0 ↔ x.penalty ≤ y.penalty := by
  obtain ⟨hnx, hux⟩ := larger_violation hx
  obtain ⟨hny, huy⟩ := larger_violation hy
  rw [Number.le_iff_units hnx hny, hux, huy]

end PortfolioSolution

open PortfolioSolution

lemma optimal_of_leads {objectives : List Objective} {seen : List PortfolioSolution}
    {x : PortfolioSolution} (hdefined : ∀ y ∈ seen, y.Defined objectives) (hx : x ∈ seen)
    (h : ∀ y ∈ seen, x.Leads objectives y) : Optimal objectives seen x := by
  have hdx := hdefined x hx
  refine ⟨hx, fun y hy => ?_, ?_⟩
  · exact (larger_violation_le_iff hdx (hdefined y hy)).mpr (h y hy).1
  · rintro o rfl y hy hle
    have hpenalty := (larger_violation_le_iff (hdefined y hy) hdx).mp hle
    have hfirst := (h y hy).1
    have hcost := (h y hy).2 o rfl (by omega)
    have hnx : (o.cost (x.metric o)).IsNumber := hdx.numbers _ List.mem_cons_self
    have hny : (o.cost (y.metric o)).IsNumber := (hdefined y hy).numbers _ List.mem_cons_self
    exact (Number.le_iff_units hnx hny).mpr hcost

/-! ## The invariant -/

/-- Candidates that fit the genes and have the same scenarios are evaluated to the same solution. -/
def Problem.Consistent {τ : Type} (p : Problem τ) (R : Chromosome → PortfolioSolution → Prop) :
    Prop :=
  ∀ c x c' x', c.length = p.genes.length → c'.length = p.genes.length → R c x → R c' x' →
    x.scenarios = x'.scenarios → x = x'

namespace Nsga2

variable {τ γ : Type} [Source γ] {p : Problem τ} {settings : Settings}
  {objectives : List Objective}

/-- The candidates of a journal are defined, and those with the same scenarios are the same. -/
structure Sane (objectives : List Objective) (journal : Journal) : Prop where
  defined : ∀ e ∈ journal, e.2.Defined objectives
  consistent : ∀ e ∈ journal, ∀ e' ∈ journal, e.2.scenarios = e'.2.scenarios → e.2 = e'.2

/-- The members of a population are in the journal, those of rank zero lead all of it, and there is
one of them as soon as there is a candidate. -/
structure Elite (objectives : List Objective) (journal : Journal) (population : List Member) :
    Prop where
  evaluated : ∀ m ∈ population, (m.chromosome, m.solution) ∈ journal
  leads : ∀ m ∈ population, m.rank = 0 → ∀ e ∈ journal, m.solution.Leads objectives e.2
  exists_leader : journal ≠ [] → ∃ m ∈ population, m.rank = 0

/-- A generation keeps an elite. -/
theorem elite_of_returns_select {population next : List Member} {chromosomes : List Chromosome}
    {t t' : τ} {journal journal' : Journal} (hplaces : settings.populationSize ≠ 0)
    (hsane : Sane objectives journal') (helite : Elite objectives journal population)
    (h : Returns (select p.logged settings objectives population chromosomes) (t, journal) next
      (t', journal')) : Elite objectives journal' next := by
  obtain ⟨solutions, hsolutions, rfl⟩ := returns_select h
  obtain ⟨-, rfl⟩ := returns_logged_evaluateAll p hsolutions
  have hlength := length_of_returns_evaluateAll hsolutions
  generalize hnew : chromosomes.zipWith (fun c x => (⟨c, x, 0, 0.0⟩ : Member)) solutions = new
  have hmem : ∀ m ∈ population ++ new,
      (m.chromosome, m.solution) ∈ journal ++ chromosomes.zip solutions :=
    fun m hm => mem_pairs_of_mem_pool helite.evaluated (hnew ▸ hm)
  -- Every candidate of the journal is led by a member that takes part in the selection.
  have hcover : ∀ e ∈ journal ++ chromosomes.zip solutions, ∃ m ∈ population ++ new,
      m.solution.Leads objectives e.2 := by
    intro e he
    rcases List.mem_append.mp he with he | he
    · obtain ⟨m, hm, hrank⟩ := helite.exists_leader (List.ne_nil_of_mem he)
      exact ⟨m, List.mem_append_left _ hm, helite.leads m hm hrank e he⟩
    · refine ⟨⟨e.1, e.2, 0, 0.0⟩, List.mem_append_right _ ?_, Leads.refl e.2⟩
      rw [← hnew, ← List.map_uncurry_zip_eq_zipWith]
      exact List.mem_map.mpr ⟨e, he, rfl⟩
  have hdistinct : ∀ m ∈ population ++ new, ∃ d ∈ dedupe (population ++ new),
      d.solution = m.solution := by
    intro m hm
    obtain ⟨d, hd, heq⟩ := @exists_mem_distinctBy _ _ _ (·.solution.scenarios) _ _ hm
    refine ⟨d, hd, ?_⟩
    exact hsane.consistent _ (hmem d (mem_of_mem_distinctBy hd)) _ (hmem m hm) heq
  have hdefined : ∀ d ∈ dedupe (population ++ new), d.solution.Defined objectives :=
    fun d hd => hsane.defined _ (hmem d (mem_of_mem_distinctBy hd))
  refine ⟨fun m hm => ?_, fun m hm hrank e he => ?_, fun hne => ?_⟩
  · obtain ⟨m₀, hm₀, hsame, -⟩ := mem_survive hm
    rw [hsame.1, hsame.2]
    exact hmem m₀ (mem_of_mem_distinctBy hm₀)
  · obtain ⟨m₀, hm₀, hsame, hfirst⟩ := mem_survive hm
    obtain ⟨l, hl, hleads⟩ := hcover e he
    obtain ⟨d, hd, heq⟩ := hdistinct l hl
    have hbest := (mem_firstFront hdefined).mp (hfirst hrank)
    have hnot := leads_of_not_beats (hdefined m₀ hm₀) (hdefined d hd) (hbest.2 d hd)
    rw [hsame.2]
    exact hnot.trans (heq ▸ hleads)
  · obtain ⟨e, he⟩ := List.exists_mem_of_ne_nil _ hne
    obtain ⟨l, hl, -⟩ := hcover e he
    obtain ⟨d, hd, -⟩ := hdistinct l hl
    exact exists_rank_zero hplaces (List.ne_nil_of_mem hd)

/-- Members and evaluations stay within what is known of single evaluations. -/
structure Known (p : Problem τ) (I : τ → Prop) (R : Chromosome → PortfolioSolution → Prop)
    (t : τ) (journal : Journal) : Prop where
  state : I t
  entries : ∀ e ∈ journal, e.1.length = p.genes.length ∧ R e.1 e.2

variable {I : τ → Prop} {R : Chromosome → PortfolioSolution → Prop}

lemma known_of_returns_evaluateAll {chromosomes : List Chromosome} {t t' : τ}
    {journal journal' : Journal} {solutions : List PortfolioSolution}
    (hp : p.Yields I R) (hchromosomes : ∀ c ∈ chromosomes, c.length = p.genes.length)
    (hknown : Known p I R t journal)
    (h : Returns (p.logged.evaluateAll chromosomes) (t, journal) solutions (t', journal')) :
    Known p I R t' journal' := by
  obtain ⟨hevaluated, rfl⟩ := returns_logged_evaluateAll p h
  obtain ⟨hall, hI⟩ := hp.evaluateAll hchromosomes hknown.state hevaluated
  refine ⟨hI, fun e he => ?_⟩
  rcases List.mem_append.mp he with he | he
  · exact hknown.entries e he
  · exact ⟨hchromosomes _ (List.of_mem_zip he).1, List.forall₂_zip hall he⟩

lemma sane_of_known {t : τ} {journal : Journal} (hconsistent : p.Consistent R)
    (hknown : Known p I R t journal) (hdefined : ∀ e ∈ journal, e.2.Defined objectives) :
    Sane objectives journal := by
  refine ⟨hdefined, fun e he e' he' heq => ?_⟩
  obtain ⟨hlength, hR⟩ := hknown.entries e he
  obtain ⟨hlength', hR'⟩ := hknown.entries e' he'
  exact hconsistent _ _ _ _ hlength hlength' hR hR' heq

/-- What every generation upholds. The population keeps an elite as long as all candidates are
defined. -/
structure Upheld (p : Problem τ) (I : τ → Prop) (R : Chromosome → PortfolioSolution → Prop)
    (objectives : List Objective) (population : List Member) (state : τ × Journal) : Prop where
  known : Known p I R state.1 state.2
  elite : (∀ e ∈ state.2, e.2.Defined objectives) → Elite objectives state.2 population

lemma upheld_nil {t : τ} (ht : I t) : Upheld p I R objectives [] (t, []) := by
  refine ⟨⟨ht, fun e he => absurd he List.not_mem_nil⟩, fun _ => ⟨?_, ?_, ?_⟩⟩
  · exact fun m hm => absurd hm List.not_mem_nil
  · exact fun m hm => absurd hm List.not_mem_nil
  · exact fun hne => absurd rfl hne

lemma upheld_of_returns_select {population next : List Member} {chromosomes : List Chromosome}
    {state state' : τ × Journal} (hp : p.Yields I R) (hconsistent : p.Consistent R)
    (hplaces : settings.populationSize ≠ 0) (hupheld : Upheld p I R objectives population state)
    (hchromosomes : ∀ c ∈ chromosomes, c.length = p.genes.length)
    (h : Returns (select p.logged settings objectives population chromosomes) state next state') :
    Upheld p I R objectives next state' := by
  obtain ⟨solutions, hsolutions, -⟩ := returns_select h
  have hknown := known_of_returns_evaluateAll hp hchromosomes hupheld.known hsolutions
  refine ⟨hknown, fun hdefined => ?_⟩
  obtain ⟨-, heq⟩ := returns_logged_evaluateAll p hsolutions
  have hbefore : ∀ e ∈ state.2, e.2.Defined objectives := by
    intro e he
    exact hdefined e (heq ▸ List.mem_append_left _ he)
  exact elite_of_returns_select hplaces (sane_of_known hconsistent hknown hdefined)
    (hupheld.elite hbefore) h

/-- The evolution that gave an outcome, watched with a journal: if all candidates that it evaluated
are defined, the solutions of the outcome are optimal among all of them. -/
def KeepsBest (p : Problem τ) (settings : Settings) (objectives : List Objective)
    (seeds : List Chromosome) (source : γ) (t : τ) (outcome : Outcome) (t' : τ) : Prop :=
  ∃ journal, Returns (evolve p.logged settings objectives seeds source) (t, []) outcome
      (t', journal) ∧
    ((∀ e ∈ journal, e.2.Defined objectives) →
      ∀ x ∈ outcome.front, Optimal objectives (journal.map Prod.snd) x)

/-- An evolution keeps the best of all its generations, provided that portfolios with the same
scenarios are evaluated to the same solution. -/
theorem keepsBest_of_returns_evolve {seeds : List Chromosome} {source : γ} {outcome : Outcome}
    {t t' : τ} (hp : p.Yields I R) (hconsistent : p.Consistent R) (ht : I t)
    (h : Returns (evolve p settings objectives seeds source) t outcome t') :
    KeepsBest p settings objectives seeds source t outcome t' := by
  obtain ⟨journal, hlogged⟩ := exists_returns_logged p settings objectives h
  refine ⟨journal, hlogged, fun hdefined => ?_⟩
  by_cases hgenes : p.genes = []
  · obtain ⟨x, hx, hfront⟩ := evolve_of_no_genes (p := p.logged) hgenes hlogged
    obtain ⟨-, rfl⟩ := returns_logged_evaluateAll p hx
    rw [hfront]
    intro y hy
    rw [List.mem_singleton.mp hy]
    apply optimal_of_leads
    · intro z hz
      rw [List.mem_singleton.mp hz]
      exact hdefined ([], x) List.mem_cons_self
    · exact List.mem_cons_self
    · intro z hz
      rw [List.mem_singleton.mp hz]
      exact Leads.refl x
  · have hplaces := (ne_zero_of_returns_evolve h).1
    obtain ⟨last, hupheld, -, hfront⟩ := @evolve_induction objectives _ _ _ p.logged settings
      (Upheld p I R objectives) (t, []) _ seeds source outcome hgenes (upheld_nil ht)
      (fun _ _ _ _ _ hupheld hfits hselect =>
        upheld_of_returns_select hp hconsistent hplaces hupheld hfits hselect) hlogged
    have helite := hupheld.elite hdefined
    rw [hfront]
    intro x hx
    obtain ⟨m, hm, rfl⟩ := List.mem_map.mp hx
    obtain ⟨hm, hrank⟩ := List.mem_filter.mp hm
    apply optimal_of_leads
    · exact List.forall_mem_map.mpr hdefined
    · exact List.mem_map.mpr ⟨_, helite.evaluated m hm, rfl⟩
    · exact List.forall_mem_map.mpr (helite.leads m hm (of_decide_eq_true hrank))

/-! ## The problems of the library -/

section Problems

variable {σ : Type} {simulate : Simulator σ} {outcome : Scenario → Except Fault (Totals Amount)}
  {portfolio : List Site} {constraints : Constraints}

lemma consistent_of_builtFor {prepared : PortfolioProblem}
    (hbuilt : prepared.BuiltFor outcome portfolio constraints) :
    (prepared.problem simulate).Consistent
      (appraise outcome prepared.space portfolio constraints · = some ·) :=
  fun _ _ _ _ _ _ h h' heq => eq_of_appraise_eq_some hbuilt.space h h' heq

lemma consistent_frontProblem {fronts : List (List SiteSolution)} (evaluations : Nat)
    (hfronts : ∀ front ∈ fronts, Unambiguous front) :
    ((Nested.FrontProblem.ofFronts portfolio fronts constraints).problem evaluations :
      Problem τ).Consistent
        ((Nested.FrontProblem.ofFronts portfolio fronts constraints).combine? · = some ·) := by
  intro c x c' x' hc hc' h h' heq
  refine Nested.FrontProblem.eq_of_combine?_eq_some (fun choice hchoice => ?_)
    (hc.trans (List.length_map _)) (hc'.trans (List.length_map _)) h h' heq
  change choice ∈ portfolio.zipWith _ fronts at hchoice
  rw [← List.map_uncurry_zip_eq_zipWith] at hchoice
  obtain ⟨e, he, rfl⟩ := List.mem_map.mp hchoice
  exact hfronts _ (List.of_mem_zip he).2

end Problems

/-- The best of all generations is kept. This holds of an evolution on the sites of a portfolio, if
the simulator is deterministic, and of an evolution on fronts that were found site by site. -/
theorem optimum_survives_evolution {σ : Type} (settings : Settings) (objectives : List Objective)
    (seeds : List Chromosome) (source : γ) (found : Outcome) :
    (∀ (simulate : Simulator σ) (outcome : Scenario → Except Fault (Totals Amount))
      (portfolio : List Site) (constraints : Constraints) (prepared : PortfolioProblem)
      (start t t' : Trial σ), simulate.Computes outcome → start.cache.Sound outcome →
      Returns (PortfolioProblem.build simulate portfolio constraints) start prepared t →
      Returns (evolve (prepared.problem simulate) settings objectives seeds source) t found t' →
        KeepsBest (prepared.problem simulate) settings objectives seeds source t found t') ∧
    ∀ (engine : Engine σ γ) (separated : Separated.Settings) (request : Request)
      (constraints : Constraints) (cache cache' : Cache σ) (fronts : List (List SiteSolution))
      (evaluations : Nat) (t t' : τ),
      Returns (Separated.siteFronts engine separated request 0 request.portfolio) cache
        (fronts, evaluations) cache' →
      Returns (evolve ((Nested.FrontProblem.ofFronts request.portfolio fronts constraints).problem
        evaluations) settings objectives seeds source) t found t' →
        KeepsBest ((Nested.FrontProblem.ofFronts request.portfolio fronts constraints).problem
          evaluations) settings objectives seeds source t found t' := by
  constructor
  · intro simulate outcome portfolio constraints prepared start t t' hsimulate hstart hbuild h
    obtain ⟨hbuilt, hsound⟩ := PortfolioProblem.returns_build hsimulate hstart hbuild
    exact keepsBest_of_returns_evolve (PortfolioProblem.yields hsimulate hbuilt)
      (consistent_of_builtFor hbuilt) hsound h
  · intro engine separated request constraints cache cache' fronts evaluations t t' hfronts h
    exact keepsBest_of_returns_evolve (Nested.FrontProblem.yields _ evaluations)
      (consistent_frontProblem evaluations (Separated.unambiguous_of_returns_siteFronts hfronts))
      trivial h

/-- Two generations on the depot, and two on its front. All candidates are defined. -/
theorem optimum_survives_evolution_depot :
    (∃ found t journal,
      Returns (evolve (depotProblem.problem depotSimulator).logged depotSettings [.capex]
        [[2.0], [0.0]] (ChaCha.ofSeed 0)) (depotTrial, []) found (t, journal) ∧
      ∀ x ∈ found.front, Optimal [.capex] (journal.map Prod.snd) x) ∧
    ∃ found t journal,
      Returns (evolve depotChoice.logged depotSettings [.capex] [] (ChaCha.ofSeed 0)) ((), []) found
        (t, journal) ∧
      ∀ x ∈ found.front, Optimal [.capex] (journal.map Prod.snd) x := by
  constructor
  · have hevolve := returns_of_isOk ⟨[], []⟩ (by decide +kernel :
      ((evolve (depotProblem.problem depotSimulator) depotSettings [.capex] [[2.0], [0.0]]
        (ChaCha.ofSeed 0)).run.run depotTrial).1.isOk)
    obtain ⟨journal, hlogged, hbest⟩ := (@optimum_survives_evolution Unit ChaCha _ Unit
      depotSettings [.capex] [[2.0], [0.0]] (ChaCha.ofSeed 0) _).1 depotSimulator depotOutcome
      [depot] .none depotProblem ⟨.start (), 0⟩ depotTrial _ computes_depotSimulator
      (Cache.sound_start _ _) returns_build_depot hevolve
    have hjournal : journal = ((evolve (depotProblem.problem depotSimulator).logged depotSettings
        [.capex] [[2.0], [0.0]] (ChaCha.ofSeed 0)).run.run (depotTrial, [])).2.2 := by
      rw [hlogged]
    refine ⟨_, _, journal, hlogged, hbest ?_⟩
    rw [hjournal]
    decide +kernel
  · obtain ⟨cache, hfronts⟩ := returns_siteFronts_depot
    have hevolve := returns_of_isOk ⟨[], []⟩ (by decide +kernel :
      ((evolve depotChoice depotSettings [.capex] [] (ChaCha.ofSeed 0)).run.run ()).1.isOk)
    obtain ⟨journal, hlogged, hbest⟩ := (@optimum_survives_evolution Unit ChaCha _ Unit
      depotSettings [.capex] [] (ChaCha.ofSeed 0) _).2 depotEngine ⟨depotSettings, 4⟩ depotRequest
      .none (.start ()) cache depotFronts.1 depotFronts.2 () _ hfronts hevolve
    change Returns (evolve depotChoice.logged _ _ _ _) _ _ _ at hlogged
    have hjournal : journal = ((evolve depotChoice.logged depotSettings [.capex] []
        (ChaCha.ofSeed 0)).run.run ((), [])).2.2 := by
      rw [hlogged]
    refine ⟨_, _, journal, hlogged, hbest ?_⟩
    rw [hjournal]
    decide +kernel

end Nsga2

end Retrofit
