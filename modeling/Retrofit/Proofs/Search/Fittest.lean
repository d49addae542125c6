import Retrofit.Proofs.Feasibility
import Retrofit.Proofs.Search.Journal
import Retrofit.Proofs.Search.Pipeline
import Retrofit.Proofs.Search.SiteFronts

/-!
# The genetic algorithm keeps its fittest candidate

The first individual of a sorted population is at least as fit as all candidates that were evaluated
so far (`Led`), because the elite hands it over to the next generation. Fitness compares the places
of numbers in their total order. Violations are never negative zeros, so for defined candidates it
compares the values. The front that is reported orders solutions by dominance on all objectives; it
has the least violation of all candidates, and the least cost among those with this violation
(`fittest_survives_run`).
-/

namespace Retrofit

open Retrofit.Random

namespace Genetic

variable {o : Objective} {s t u : PortfolioSolution}

/-! ## Fitness -/

lemma fitter_iff : fitter o s t ↔ (fitness o s).1 < (fitness o t).1 ∨
    (fitness o s).1 = (fitness o t).1 ∧ (fitness o s).2 ≤ (fitness o t).2 := by
  unfold fitter
  dsimp only
  rw [Bool.or_eq_true, Bool.and_eq_true, decide_eq_true_eq, decide_eq_true_eq, decide_eq_true_eq]

lemma fitter_refl (o : Objective) (s : PortfolioSolution) : fitter o s s :=
  fitter_iff.mpr (Or.inr ⟨rfl, Int.le_refl _⟩)

lemma fitter_trans (hst : fitter o s t) (htu : fitter o t u) : fitter o s u := by
  rw [fitter_iff] at hst htu ⊢
  omega

lemma fitter_total (o : Objective) (s t : PortfolioSolution) : fitter o s t ∨ fitter o t s := by
  rw [fitter_iff, fitter_iff]
  omega

/-- A solution whose violation is not negative, and with a number as its cost. -/
structure Fair (o : Objective) (s : PortfolioSolution) : Prop where
  violation : Number.Unsigned s.violation
  cost : (s.cost o).IsNumber

lemma larger_zero_of_unsigned {v : Float} (hv : Number.Unsigned v) : Number.larger v 0.0 = v := by
  have hnan : v.isNaN = false := hv.isNumber
  have hnot : ¬ v < 0.0 := by
    rw [Number.lt_iff_units hv.isNumber Number.isNumber_zero, Number.units_zero, Int.not_lt]
    exact hv.nonneg
  unfold Number.larger
  rw [hnan, Bool.false_or, decide_eq_false hnot, if_neg Bool.false_ne_true]

lemma fitness_of_isNumber (hs : (s.cost o).IsNumber) : fitness o s =
    (Number.rank (Number.larger s.violation 0.0), Number.rank (s.cost o).value) := by
  have hnan : (o.cost (s.metric o)).value.isNaN = false := hs
  unfold fitness
  dsimp only
  rw [hnan, if_neg Bool.false_ne_true]
  rfl

lemma fitness_of_fair (hs : Fair o s) :
    fitness o s = (Number.rank s.violation, Number.rank (s.cost o).value) := by
  rw [fitness_of_isNumber hs.cost, larger_zero_of_unsigned hs.violation]

/-- Whoever is fitter has no greater violation, and with the same violation no greater cost. -/
theorem le_of_fitter (hs : Fair o s) (ht : Fair o t) (h : fitter o s t) :
    Number.units s.violation ≤ Number.units t.violation ∧
      (Number.units t.violation ≤ Number.units s.violation →
        (s.cost o).units ≤ (t.cost o).units) := by
  have hle := hs.violation.rank_le_iff ht.violation
  have hge := ht.violation.rank_le_iff hs.violation
  rw [fitter_iff, fitness_of_fair hs, fitness_of_fair ht] at h
  dsimp only at h
  rcases h with hlt | ⟨heq, hcost⟩
  · exact ⟨hle.mp (by omega), fun hback => absurd (hge.mpr hback) (by omega)⟩
  · exact ⟨hle.mp (by omega), fun _ => Number.units_le_of_rank_le hs.cost ht.cost hcost⟩

/-! ## Sorted populations -/

lemma pairwise_sorted (o : Objective) (individuals : List Individual) :
    (individuals.mergeSort fun a b => fitter o a.solution b.solution).Pairwise
      fun a b => fitter o a.solution b.solution := by
  refine List.pairwise_mergeSort ?_ ?_ individuals
  · exact fun a b c hab hbc => fitter_trans hab hbc
  · exact fun a b => (Bool.or_eq_true ..).mpr (fitter_total o a.solution b.solution)

/-- The first of the fittest is at least as fit as everybody. -/
lemma exists_head_fittest {places : Nat} {individuals : List Individual} {i : Individual}
    (hplaces : places ≠ 0) (hi : i ∈ individuals) :
    ∃ first, (fittest o places individuals).head? = some first ∧
      fitter o first.solution i.solution := by
  have hsorted := pairwise_sorted o individuals
  have hmem := (List.mergeSort_perm individuals fun a b =>
    fitter o a.solution b.solution).mem_iff.mpr hi
  unfold fittest
  generalize individuals.mergeSort _ = sorted at hsorted hmem ⊢
  cases sorted with
  | nil => exact absurd hmem List.not_mem_nil
  | cons first rest =>
    obtain ⟨places, rfl⟩ := Nat.exists_eq_succ_of_ne_zero hplaces
    refine ⟨first, rfl, ?_⟩
    rcases List.mem_cons.mp hmem with rfl | hmem
    · exact fitter_refl o _
    · exact (List.pairwise_cons.mp hsorted).1 i hmem

/-- All individuals of a population were seen, and its first one is at least as fit as everybody who
was. -/
structure Led (o : Objective) (population : List Individual) (journal : Journal) : Prop where
  seen : ∀ i ∈ population, (i.chromosome, i.solution) ∈ journal
  leader : ∀ e ∈ journal, ∃ first, population.head? = some first ∧ fitter o first.solution e.2

lemma led_nil (o : Objective) : Led o [] [] :=
  ⟨fun _ hi => absurd hi List.not_mem_nil, fun _ he => absurd he List.not_mem_nil⟩

/-- An elite of at least one individual is led by the same one. -/
lemma Led.take {population : List Individual} {journal : Journal} (h : Led o population journal)
    {count : Nat} (hcount : 1 ≤ count) : Led o (population.take count) journal := by
  refine ⟨fun i hi => h.seen i (List.mem_of_mem_take hi), fun e he => ?_⟩
  obtain ⟨first, hfirst, hfitter⟩ := h.leader e he
  refine ⟨first, ?_, hfitter⟩
  rw [List.head?_take, if_neg (by omega), hfirst]

section Generations

variable {τ γ : Type} [Source γ] {p : Problem τ} {settings : Settings} {objectives : List Objective}
  {elite next last : List Individual} {chromosomes : List Chromosome} {t t' : τ}
  {journal journal' : Journal}

/-- The fittest of an elite and of new candidates are led by one of them. -/
theorem led_of_returns_select (hplaces : settings.populationSize ≠ 0) (helite : Led o elite journal)
    (h : Returns (select p.logged settings o elite chromosomes) (t, journal) next (t', journal')) :
    Led o next journal' := by
  obtain ⟨solutions, state, hsolutions, h⟩ := returns_bind.mp h
  obtain ⟨rfl, rfl⟩ := returns_pure.mp h
  obtain ⟨-, rfl⟩ := returns_logged_evaluateAll p hsolutions
  have hnew : ∀ i, i ∈ chromosomes.zipWith (fun c x => (⟨c, x⟩ : Individual)) solutions ↔
      (i.chromosome, i.solution) ∈ chromosomes.zip solutions := by
    intro i
    rw [← List.map_uncurry_zip_eq_zipWith]
    refine ⟨fun hi => ?_, fun hi => List.mem_map.mpr ⟨_, hi, rfl⟩⟩
    obtain ⟨e, he, rfl⟩ := List.mem_map.mp hi
    exact he
  refine ⟨fun i hi => ?_, fun e he => ?_⟩
  · rcases List.mem_append.mp (mem_fittest hi) with hi | hi
    · exact List.mem_append_left _ (helite.seen i hi)
    · exact List.mem_append_right _ ((hnew i).mp hi)
  · rcases List.mem_append.mp he with he | he
    · obtain ⟨leader, hleader, hfitter⟩ := helite.leader e he
      obtain ⟨first, hfirst, hfitter'⟩ := exists_head_fittest (o := o) hplaces
        (List.mem_append_left _ (List.mem_of_mem_head? hleader))
      exact ⟨first, hfirst, fitter_trans hfitter' hfitter⟩
    · exact exists_head_fittest (i := ⟨e.1, e.2⟩) hplaces
        (List.mem_append_right elite ((hnew _).mpr he))

/-- What every selection keeps, and what is kept when the elite goes on, holds at the end if it holds
after the first selection. -/
theorem breed_induction {J : List Individual → τ → Prop} {remaining generation : Nat} {source : γ}
    {history : List GenerationSummary}
    (hselect : ∀ {elite chromosomes t next t'}, J elite t →
      Returns (select p settings o elite chromosomes) t next t' → J next t')
    (helite : ∀ {population t}, J population t → J (population.take settings.eliteCount) t)
    (h : Returns (breed p settings objectives o remaining generation source elite chromosomes) t
      (last, history) t') :
    ∃ first t₁, Returns (select p settings o elite chromosomes) t first t₁ ∧
      (J first t₁ → J last t') := by
  induction remaining generalizing generation source elite chromosomes history t with
  | zero => exact ⟨last, t', (select_of_returns_breed h).1, id⟩
  | succ remaining ih =>
    obtain ⟨population, t₁, children, source', later, hfirst, -, hrest, -⟩ :=
      steps_of_returns_breed h
    obtain ⟨second, t₂, hsecond, hlast⟩ := ih hrest
    exact ⟨population, t₁, hfirst, fun hJ => hlast (hselect (helite hJ) hsecond)⟩

/-- What is known of the population and the journal after a generation: all solutions in the journal
are as `P` says, and the chromosomes of the first generation are among its candidates. -/
structure Kept (o : Objective) (P : PortfolioSolution → Prop) (firsts : List Chromosome)
    (population : List Individual) (journal : Journal) : Prop where
  led : Led o population journal
  solutions : ∀ e ∈ journal, P e.2
  firsts : ∀ c ∈ firsts, c ∈ journal.map Prod.fst

variable {P : PortfolioSolution → Prop} {firsts : List Chromosome}

/-- A selection keeps what is known and evaluates all of its chromosomes. -/
lemma kept_of_returns_select (hplaces : settings.populationSize ≠ 0)
    (hp : ∀ c t x t', Returns (p.evaluate c) t x t' → P x)
    (helite : Kept o P firsts elite journal)
    (h : Returns (select p.logged settings o elite chromosomes) (t, journal) next (t', journal')) :
    Kept o P (firsts ++ chromosomes) next journal' := by
  have hled := led_of_returns_select hplaces helite.led h
  obtain ⟨solutions, state, hsolutions, h⟩ := returns_bind.mp h
  obtain ⟨-, rfl⟩ := returns_pure.mp h
  obtain ⟨hevaluated, rfl⟩ := returns_logged_evaluateAll p hsolutions
  obtain ⟨hall, -⟩ := forall₂_of_returns_mapM (I := fun _ => True) (R := fun _ x => P x)
    (fun c _ t x t' _ hx => ⟨hp c t x t' hx, trivial⟩) trivial hevaluated
  refine ⟨hled, fun e he => ?_, fun c hc => ?_⟩
  · rcases List.mem_append.mp he with he | he
    · exact helite.solutions e he
    · exact List.forall₂_zip hall he
  · rw [List.map_append, List.map_fst_zip hall.length_eq.le]
    rcases List.mem_append.mp hc with hc | hc
    · exact List.mem_append_left _ (helite.firsts c hc)
    · exact List.mem_append_right _ hc

end Generations

/-- The first chromosomes are not none, and the seeds that there is place for are among them. -/
lemma seeds_of_returns_firstBrood {γ : Type} [Source γ] {settings : Settings} {genes : List Gene}
    {seeds chromosomes : List Chromosome} {source source' : γ}
    (hplaces : settings.populationSize ≠ 0)
    (h : Returns (firstBrood settings genes seeds) source chromosomes source') :
    seeds.take settings.populationSize ⊆ chromosomes ∧ chromosomes ≠ [] := by
  obtain ⟨others, source₁, hothers, h⟩ := returns_bind.mp h
  obtain ⟨rfl, rfl⟩ := returns_pure.mp h
  obtain ⟨hcount, -⟩ :=
    forall_of_returns_several (P := fun _ => True) (fun _ _ _ _ => trivial) hothers
  refine ⟨List.subset_append_left _ _, List.ne_nil_of_length_pos ?_⟩
  rw [List.length_append, hcount]
  omega

/-- At the end of an evolution the population is led by its first individual, and the journal has
the chromosomes of the first generation. -/
theorem kept_of_returns_evolve {τ γ : Type} [Source γ] {p : Problem τ} {settings : Settings}
    {objectives : List Objective} {seeds : List Chromosome} {source : γ} {t t' : τ}
    {last : List Individual} {history : List GenerationSummary} {journal : Journal}
    {P : PortfolioSolution → Prop} (hplaces : settings.populationSize ≠ 0)
    (helite : 1 ≤ settings.eliteCount) (hp : ∀ c t x t', Returns (p.evaluate c) t x t' → P x)
    (h : Returns (evolve p.logged settings objectives o seeds source) (t, []) (last, history)
      (t', journal)) :
    ∃ chromosomes source', Returns (firstBrood settings p.genes seeds) source chromosomes source' ∧
      Kept o P chromosomes last journal := by
  obtain ⟨⟨chromosomes, source'⟩, t₁, hdraw, h⟩ := returns_bind.mp h
  obtain ⟨hbrood, rfl⟩ := returns_draw.mp hdraw
  refine ⟨chromosomes, source', hbrood, ?_⟩
  obtain ⟨first, ⟨t₂, journal₂⟩, hfirst, hlast⟩ := breed_induction (p := p.logged)
    (J := fun population state => Kept o P chromosomes population state.2)
    (fun hkept hselect => by
      have hnext := kept_of_returns_select hplaces hp hkept hselect
      exact ⟨hnext.led, hnext.solutions, fun c hc => hnext.firsts c (List.mem_append_left _ hc)⟩)
    (fun hkept => ⟨hkept.led.take helite, hkept.solutions, hkept.firsts⟩) h
  have hnone : Kept o P [] [] [] :=
    ⟨led_nil o, fun _ he => absurd he List.not_mem_nil, fun _ hc => absurd hc List.not_mem_nil⟩
  exact hlast (kept_of_returns_select hplaces hp hnone hfirst)

/-! ## The reported front -/

section Front

variable {objectives : List Objective} {population : List Individual} {journal : Journal}

lemma cost_le_of_forall₂ (h : List.Forall₂ (· ≤ ·) (rowUnits (s.costs objectives))
    (rowUnits (t.costs objectives))) (ho : o ∈ objectives) :
    (s.cost o).units ≤ (t.cost o).units := by
  unfold rowUnits PortfolioSolution.costs at h
  rw [List.map_map, List.map_map, List.forall₂_map_left_iff, List.forall₂_map_right_iff,
    List.forall₂_same] at h
  exact h o ho

/-- Every candidate of the journal has defined costs and a violation that is not negative. -/
structure Clear (objectives : List Objective) (journal : Journal) : Prop where
  defined : ∀ e ∈ journal, e.2.Defined objectives
  unsigned : ∀ e ∈ journal, Number.Unsigned e.2.violation

lemma Clear.fair (h : Clear objectives journal) (ho : o ∈ objectives)
    {e : Chromosome × PortfolioSolution} (he : e ∈ journal) : Fair o e.2 :=
  ⟨h.unsigned e he, PortfolioSolution.numbers_costs.mp (h.defined e he).numbers o ho⟩

lemma Clear.larger_le_iff (h : Clear objectives journal) {e e' : Chromosome × PortfolioSolution}
    (he : e ∈ journal) (he' : e' ∈ journal) :
    Number.larger e.2.violation 0.0 ≤ Number.larger e'.2.violation 0.0 ↔
      Number.units e.2.violation ≤ Number.units e'.2.violation := by
  rw [larger_zero_of_unsigned (h.unsigned e he), larger_zero_of_unsigned (h.unsigned e' he')]
  exact Number.le_iff_units (h.unsigned e he).isNumber (h.unsigned e' he').isNumber

lemma penalty_of_unsigned (h : Number.Unsigned s.violation) :
    (s.judgement objectives).penalty = Number.units s.violation :=
  Int.max_eq_left h.nonneg

section Clear

variable (hclear : Clear objectives journal) (ho : o ∈ objectives)
  (hled : Led o population journal)

include hclear ho hled

/-- The leader of a journal has the least violation, and the least cost of those with it. -/
lemma exists_leader (hjournal : journal ≠ []) : ∃ leader ∈ population,
    (leader.chromosome, leader.solution) ∈ journal ∧ ∀ e ∈ journal,
      Number.units leader.solution.violation ≤ Number.units e.2.violation ∧
        (Number.units e.2.violation ≤ Number.units leader.solution.violation →
          (leader.solution.cost o).units ≤ (e.2.cost o).units) := by
  obtain ⟨e₀, he₀⟩ := List.exists_mem_of_ne_nil _ hjournal
  obtain ⟨leader, hhead, -⟩ := hled.leader e₀ he₀
  have hleader := List.mem_of_mem_head? hhead
  have hseen := hled.seen leader hleader
  refine ⟨leader, hleader, hseen, fun e he => ?_⟩
  obtain ⟨first, hfirst, hfitter⟩ := hled.leader e he
  cases hhead.symm.trans hfirst
  exact le_of_fitter (hclear.fair ho hseen) (hclear.fair ho he) hfitter

omit ho in
lemma defined_of_mem (hs : s ∈ population.map (·.solution)) :
    s.Defined objectives ∧ Number.Unsigned s.violation ∧ s ∈ journal.map Prod.snd := by
  obtain ⟨i, hi, rfl⟩ := List.mem_map.mp hs
  have hseen := hled.seen i hi
  exact ⟨hclear.defined _ hseen, hclear.unsigned _ hseen, List.mem_map_of_mem (f := Prod.snd) hseen⟩

/-- The best front of a population has candidates of the journal, none with more violation than
any. -/
theorem violation_le_of_mem_bestFront
    (hs : s ∈ bestFront objectives (population.map (·.solution))) :
    s ∈ journal.map Prod.snd ∧
      ∀ e ∈ journal, Number.units s.violation ≤ Number.units e.2.violation := by
  obtain ⟨hmem, hfree⟩ :=
    unbeaten_of_mem_bestFront (fun t ht => (defined_of_mem hclear hled ht).1) hs
  obtain ⟨hdefined, hunsigned, hseen⟩ := defined_of_mem hclear hled hmem
  refine ⟨hseen, fun e he => ?_⟩
  obtain ⟨leader, hleader, hentry, hleast⟩ :=
    exists_leader hclear ho hled (List.ne_nil_of_mem he)
  have hnot := hfree _ (List.mem_map_of_mem hleader)
  rw [Judgement.beats_iff (hclear.defined _ hentry) hdefined, not_or,
    penalty_of_unsigned (hclear.unsigned _ hentry), penalty_of_unsigned hunsigned] at hnot
  exact Int.le_trans (Int.not_lt.mp hnot.1) (hleast e he).1

/-- One of the best front costs no more than any candidate of the same violation. -/
theorem exists_cheapest_of_bestFront (hjournal : journal ≠ []) :
    ∃ s ∈ bestFront objectives (population.map (·.solution)),
      ∀ e ∈ journal, Number.units e.2.violation ≤ Number.units s.violation →
        (s.cost o).units ≤ (e.2.cost o).units := by
  obtain ⟨leader, hleader, hentry, hleast⟩ := exists_leader hclear ho hled hjournal
  obtain ⟨t, ht, hfree, hbeats⟩ :=
    exists_best (fun t ht => (defined_of_mem hclear hled ht).1)
      (List.mem_map_of_mem (f := (·.solution)) hleader)
  obtain ⟨hdefined, hunsigned, hseen⟩ := defined_of_mem hclear hled ht
  obtain ⟨e, he, rfl⟩ := List.mem_map.mp hseen
  -- The unbeaten one that beats the leader does so by dominance.
  have hcost : (e.2.cost o).units ≤ (leader.solution.cost o).units := by
    rcases hbeats with heq | hbeats
    · rw [heq]
    · rw [Judgement.beats_iff hdefined (hclear.defined _ hentry), penalty_of_unsigned hunsigned,
        penalty_of_unsigned (hclear.unsigned _ hentry)] at hbeats
      rcases hbeats with hless | ⟨-, hdominates, -⟩
      · exact absurd (hleast e he).1 (Int.not_le.mpr hless)
      · exact cost_le_of_forall₂ hdominates ho
  obtain ⟨s, hs, hpoint⟩ := exists_mem_bestFront ht hfree
  obtain ⟨hreported, hviolation⟩ := violation_le_of_mem_bestFront hclear ho hled hs
  obtain ⟨e', he', rfl⟩ := List.mem_map.mp hreported
  have hsame : (e'.2.cost o).units = (e.2.cost o).units := by
    have hsum := PortfolioSolution.point_eq_point.mp hpoint o ho
    rw [← Amount.units_add_zero (hclear.fair ho he').cost, hsum,
      Amount.units_add_zero (hclear.fair ho he).cost]
  refine ⟨e'.2, hs, fun e'' he'' hle => ?_⟩
  rw [hsame]
  exact Int.le_trans hcost
    ((hleast e'' he'').2 (Int.le_trans hle (hviolation (_, leader.solution) hentry)))

end Clear

end Front

end Genetic

/-- What a portfolio is evaluated to has a violation of zero or more. -/
lemma PortfolioProblem.unsigned_of_returns_evaluate {σ : Type} {simulate : Simulator σ}
    {p : PortfolioProblem} {c : Chromosome} {trial trial' : Trial σ} {x : PortfolioSolution}
    (h : Returns (p.evaluate simulate c) trial x trial') : Number.Unsigned x.violation := by
  obtain ⟨⟨entries, hentries, rfl⟩, -⟩ :=
    returns_evaluate_of_answers (answers_of_any simulate) trivial h
  refine PortfolioSolution.unsigned_violation _ fun s hs => ?_
  obtain ⟨⟨k, s⟩, hentry, rfl⟩ := List.mem_map.mp hs
  have hget := Dict.get?_eq_some_iff.mpr hentry
  obtain ⟨w, -, r, -, heq⟩ := exists_of_mem_right hentries (Dict.mem_of_get?_ofList hget)
  cases heq
  exact w.2.1.nonNegative_violation _

namespace Genetic

variable {σ γ : Type} [Source γ] {engine : Engine σ γ} {settings : Settings} {request : Request}
  {cache cache' : Cache σ} {result : OptimisationResult}

/-- A run whose elite is not empty never loses its best candidate. All reported solutions have the
least violation of all evaluated candidates, among which are the known solutions that the first
population has places for, and one of them has the least cost of those with this violation. -/
theorem fittest_survives_run
    (hobjective : settings.objective.or request.objectives.head? = some o)
    (ho : o ∈ request.objectives) (helite : 1 ≤ settings.eliteCount)
    (h : Returns (run engine settings request) cache result cache') :
    ∃ prepared trial journal last history count,
      Returns (PortfolioProblem.build engine.simulate request.portfolio request.constraints)
        ⟨cache, 0⟩ prepared trial ∧
      Returns (evolve (prepared.problem engine.simulate).logged settings request.objectives o
        (prepared.seeds request.existing) (engine.source settings.seed)) (trial, [])
        (last, history) (⟨cache', count⟩, journal) ∧
      (prepared.seeds request.existing).take settings.populationSize ⊆ journal.map Prod.fst ∧
      ((∀ e ∈ journal, e.2.Defined request.objectives) →
        (∀ x ∈ result.solutions, x ∈ journal.map Prod.snd ∧
          ∀ e ∈ journal, Number.larger x.violation 0.0 ≤ Number.larger e.2.violation 0.0) ∧
        ∃ x ∈ result.solutions, ∀ e ∈ journal,
          Number.larger e.2.violation 0.0 ≤ Number.larger x.violation 0.0 →
            x.cost o ≤ e.2.cost o) := by
  obtain ⟨hcheck, o', prepared, trial, last, history, count, ho', hbuild, hevolve, hreported⟩ :=
    steps_of_returns_run h
  cases hobjective.symm.trans ho'
  have hplaces := (lt_of_check hcheck).1
  obtain ⟨journal, hlogged⟩ := exists_returns_logged _ _ _ _ hevolve
  obtain ⟨chromosomes, source', hbrood, hled, hunsigned, hfirsts⟩ :=
    kept_of_returns_evolve (P := fun x => Number.Unsigned x.violation) hplaces helite
      (fun _ _ _ _ => PortfolioProblem.unsigned_of_returns_evaluate) hlogged
  obtain ⟨hseeds, hne⟩ := seeds_of_returns_firstBrood hplaces hbrood
  refine ⟨prepared, trial, journal, last, history, count, hbuild, hlogged,
    fun seed hseed => hfirsts seed (hseeds hseed), fun hdefined => ?_⟩
  have hclear : Clear request.objectives journal := ⟨hdefined, hunsigned⟩
  have hjournal : journal ≠ [] := by
    obtain ⟨c, hc⟩ := List.exists_mem_of_ne_nil _ hne
    exact mt List.map_eq_nil_iff.mpr (List.ne_nil_of_mem (hfirsts c hc))
  rw [hreported.solutions_eq, paretoSet_bestFront]
  constructor
  · intro x hx
    obtain ⟨hseen, hleast⟩ := violation_le_of_mem_bestFront hclear ho hled hx
    obtain ⟨e', he', rfl⟩ := List.mem_map.mp hseen
    exact ⟨hseen, fun e he => (hclear.larger_le_iff he' he).mpr (hleast e he)⟩
  · obtain ⟨x, hx, hcheapest⟩ := exists_cheapest_of_bestFront hclear ho hled hjournal
    obtain ⟨hseen, -⟩ := violation_le_of_mem_bestFront hclear ho hled hx
    obtain ⟨e', he', rfl⟩ := List.mem_map.mp hseen
    refine ⟨e'.2, hx, fun e he hviolation => ?_⟩
    exact (Amount.le_iff_units (hclear.fair ho he').cost (hclear.fair ho he).cost).mpr
      (hcheapest e he ((hclear.larger_le_iff he he').mp hviolation))

/-- One generation of two individuals, of which one is the elite. -/
def depotSettings : Settings :=
  { Settings.default 1 with populationSize := 2, generations := 1, elitismRate := 0.5 }

theorem fittest_survives_run_depot :
    depotSettings.objective.or depotRequest.objectives.head? = some .capex ∧
    .capex ∈ depotRequest.objectives ∧ 1 ≤ depotSettings.eliteCount ∧
    ∃ (result : OptimisationResult) (last : List Individual) (history : List GenerationSummary)
      (trial : Trial Unit) (journal : Journal),
      Returns (evolve (depotProblem.problem depotSimulator).logged depotSettings [.capex] .capex []
        (ChaCha.ofSeed 0)) (depotTrial, []) (last, history) (trial, journal) ∧
      (∀ e ∈ journal, e.2.Defined [.capex]) ∧
      (∀ x ∈ result.solutions, ∀ e ∈ journal,
        Number.larger x.violation 0.0 ≤ Number.larger e.2.violation 0.0) ∧
      ∃ x ∈ result.solutions, ∀ e ∈ journal,
        Number.larger e.2.violation 0.0 ≤ Number.larger x.violation 0.0 →
          x.cost .capex ≤ e.2.cost .capex := by
  have helite : 1 ≤ depotSettings.eliteCount := by decide +kernel
  have hrun := returns_of_isOk ⟨[], 0, ⟨0, 0⟩, none⟩ (by decide +kernel :
    ((run depotEngine depotSettings depotRequest).run.run (.start ())).1.isOk)
  obtain ⟨prepared, trial, journal, last, history, count, hbuild, hlogged, -, hfittest⟩ :=
    fittest_survives_run rfl List.mem_cons_self helite hrun
  obtain ⟨rfl, rfl⟩ := hbuild.unique returns_build_depot
  change Returns (evolve (depotProblem.problem depotSimulator).logged _ [.capex] .capex []
    (ChaCha.ofSeed 0)) _ _ _ at hlogged
  have hjournal : journal = ((evolve (depotProblem.problem depotSimulator).logged depotSettings
      [.capex] .capex [] (ChaCha.ofSeed 0)).run.run (depotTrial, [])).2.2 := by
    rw [hlogged]
  have hdefined : ∀ e ∈ journal, e.2.Defined [.capex] := by
    rw [hjournal]
    decide +kernel
  obtain ⟨hleast, hcheapest⟩ := hfittest hdefined
  exact ⟨rfl, List.mem_cons_self, helite, _, last, history, _, journal, hlogged, hdefined,
    fun x hx => (hleast x hx).2, hcheapest⟩

end Genetic

end Retrofit
