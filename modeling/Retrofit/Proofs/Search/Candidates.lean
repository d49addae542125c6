import Retrofit.Proofs.Search.Evolution

/-!
# Members are evaluated candidates

Whatever is known of the evaluation of chromosomes whose values have some property is known of the
members that an evolution ends with, by NSGA-II (`Nsga2.of_returns_evolve_on`) and by the genetic
algorithm (`Genetic.of_returns_evolve_on`), if breeding keeps that property. Every evolution keeps
to the number of genes.
-/

namespace Retrofit

open Retrofit.Random

variable {τ : Type}

/-- Evaluating a chromosome whose values have the property `Q` keeps `I` of the state and
establishes `R`. -/
def Problem.YieldsOn (p : Problem τ) (Q : Gene → Float → Prop) (I : τ → Prop)
    (R : Chromosome → PortfolioSolution → Prop) : Prop :=
  ∀ c t x t', List.Forall₂ Q p.genes c → I t → Returns (p.evaluate c) t x t' → R c x ∧ I t'

/-- Evaluating a chromosome that fits the genes keeps `I` of the state and establishes `R`. -/
def Problem.Yields (p : Problem τ) (I : τ → Prop) (R : Chromosome → PortfolioSolution → Prop) :
    Prop :=
  ∀ c t x t', c.length = p.genes.length → I t → Returns (p.evaluate c) t x t' → R c x ∧ I t'

variable {p : Problem τ} {Q : Gene → Float → Prop} {I : τ → Prop}
  {R : Chromosome → PortfolioSolution → Prop} {t t' : τ} {chromosomes : List Chromosome}
  {solutions : List PortfolioSolution}

lemma Problem.YieldsOn.evaluateAll (hp : p.YieldsOn Q I R)
    (hchromosomes : ∀ c ∈ chromosomes, List.Forall₂ Q p.genes c) (ht : I t)
    (h : Returns (p.evaluateAll chromosomes) t solutions t') :
    List.Forall₂ R chromosomes solutions ∧ I t' :=
  forall₂_of_returns_mapM (fun c hc t x t' ht hx => hp c t x t' (hchromosomes c hc) ht hx) ht h

lemma Problem.Yields.on (hp : p.Yields I R) : p.YieldsOn Q I R :=
  fun c t x t' hc => hp c t x t' hc.length_eq.symm

lemma Problem.Yields.evaluateAll (hp : p.Yields I R)
    (hchromosomes : ∀ c ∈ chromosomes, c.length = p.genes.length) (ht : I t)
    (h : Returns (p.evaluateAll chromosomes) t solutions t') :
    List.Forall₂ R chromosomes solutions ∧ I t' :=
  (hp.on (Q := fun _ _ => True)).evaluateAll
    (fun c hc => forall₂_true_iff.mpr (hchromosomes c hc).symm) ht h

variable {γ : Type} [Source γ] {source : γ} {seeds : List Chromosome} {objectives : List Objective}

namespace Nsga2

variable {settings : Settings}

/-- All members of a population are evaluated candidates. -/
structure Evaluated (p : Problem τ) (Q : Gene → Float → Prop) (I : τ → Prop)
    (R : Chromosome → PortfolioSolution → Prop) (population : List Member) (t : τ) : Prop where
  state : I t
  members : ∀ m ∈ population, List.Forall₂ Q p.genes m.chromosome ∧ R m.chromosome m.solution

lemma evaluated_of_returns_select {population next : List Member} (hp : p.YieldsOn Q I R)
    (hpopulation : Evaluated p Q I R population t)
    (hchromosomes : ∀ c ∈ chromosomes, List.Forall₂ Q p.genes c)
    (h : Returns (select p settings objectives population chromosomes) t next t') :
    Evaluated p Q I R next t' := by
  obtain ⟨solutions, hsolutions, rfl⟩ := returns_select h
  obtain ⟨hall, hI⟩ := hp.evaluateAll hchromosomes hpopulation.state hsolutions
  refine ⟨hI, fun m hm => ?_⟩
  obtain ⟨m₀, hm₀, hsame, -⟩ := mem_survive hm
  rw [hsame.1, hsame.2]
  rcases List.mem_append.mp (mem_of_mem_distinctBy hm₀) with hm₀ | hm₀
  · exact hpopulation.members m₀ hm₀
  · obtain ⟨hc, hzip⟩ := exists_of_mem_zipWith hm₀
    exact ⟨hchromosomes _ hc, List.forall₂_zip hall hzip⟩

/-- The first front of an evolution holds evaluated candidates with the property of its values. -/
theorem of_returns_evolve_on {outcome : Outcome} (hQ : Gene.Kept γ p.genes Q)
    (hseeds : ∀ seed ∈ seeds, seed.length = p.genes.length →
      List.Forall₂ Q p.genes (p.genes.zipWith Gene.clip seed)) (hp : p.YieldsOn Q I R) (ht : I t)
    (h : Returns (evolve p settings objectives seeds source) t outcome t') :
    (∀ x ∈ outcome.front, ∃ c, List.Forall₂ Q p.genes c ∧ R c x) ∧ I t' := by
  by_cases hgenes : p.genes = []
  · obtain ⟨x, hx, hfront⟩ := evolve_of_no_genes hgenes h
    have hempty : List.Forall₂ Q p.genes [] := by
      rw [hgenes]
      exact .nil
    obtain ⟨hall, hI⟩ :=
      hp.evaluateAll (fun c hc => List.mem_singleton.mp hc ▸ hempty) ht hx
    refine ⟨fun y hy => ?_, hI⟩
    rw [hfront] at hy
    rw [List.mem_singleton.mp hy]
    cases hall with
    | cons hR _ => exact ⟨[], hempty, hR⟩
  · have hnone : Evaluated p Q I R [] t := ⟨ht, fun m hm => absurd hm List.not_mem_nil⟩
    obtain ⟨last, hlast, -, hfront⟩ := evolve_reaches hQ hseeds hgenes hnone
      (fun _ _ _ _ _ hpopulation hchromosomes hselect =>
        evaluated_of_returns_select hp hpopulation hchromosomes hselect) h
    refine ⟨fun x hx => ?_, hlast.state⟩
    rw [hfront] at hx
    obtain ⟨m, hm, rfl⟩ := List.mem_map.mp hx
    exact ⟨m.chromosome, hlast.members m (List.mem_filter.mp hm).1⟩

/-- The first front of an evolution holds evaluated candidates. -/
theorem of_returns_evolve {outcome : Outcome} (hp : p.Yields I R) (ht : I t)
    (h : Returns (evolve p settings objectives seeds source) t outcome t') :
    (∀ x ∈ outcome.front, ∃ c, c.length = p.genes.length ∧ R c x) ∧ I t' := by
  obtain ⟨hfront, hI⟩ := of_returns_evolve_on (Gene.kept_true p.genes)
    (fun _ _ => Gene.forall₂_true_clip) hp.on ht h
  refine ⟨fun x hx => ?_, hI⟩
  obtain ⟨c, hc, hR⟩ := hfront x hx
  exact ⟨c, hc.length_eq.symm, hR⟩

end Nsga2

namespace Genetic

variable {settings : Settings} {o : Objective}

/-- All individuals of a population are evaluated candidates. -/
structure Evaluated (p : Problem τ) (Q : Gene → Float → Prop) (I : τ → Prop)
    (R : Chromosome → PortfolioSolution → Prop) (population : List Individual) (t : τ) : Prop where
  state : I t
  individuals : ∀ i ∈ population, List.Forall₂ Q p.genes i.chromosome ∧ R i.chromosome i.solution

lemma mem_fittest {places : Nat} {individuals : List Individual} {i : Individual}
    (h : i ∈ fittest o places individuals) : i ∈ individuals :=
  (List.mergeSort_perm _ _).mem_iff.mp (List.mem_of_mem_take h)

lemma fittest_ne_nil {places : Nat} {individuals : List Individual} (hplaces : places ≠ 0)
    (h : individuals ≠ []) : fittest o places individuals ≠ [] := by
  intro hnil
  rcases List.take_eq_nil_iff.mp hnil with hzero | hnil
  · exact hplaces hzero
  · have hperm := List.mergeSort_perm individuals fun a b => fitter o a.solution b.solution
    rw [hnil] at hperm
    exact h (List.nil_perm.mp hperm)

lemma of_returns_select {elite next : List Individual} (hp : p.YieldsOn Q I R)
    (hplaces : settings.populationSize ≠ 0) (helite : Evaluated p Q I R elite t)
    (hne : chromosomes ≠ []) (hchromosomes : ∀ c ∈ chromosomes, List.Forall₂ Q p.genes c)
    (h : Returns (select p settings o elite chromosomes) t next t') :
    Evaluated p Q I R next t' ∧ next ≠ [] := by
  obtain ⟨solutions, t₁, hsolutions, h⟩ := returns_bind.mp h
  obtain ⟨rfl, rfl⟩ := returns_pure.mp h
  obtain ⟨hall, hI⟩ := hp.evaluateAll hchromosomes helite.state hsolutions
  refine ⟨⟨hI, fun i hi => ?_⟩, fittest_ne_nil hplaces ?_⟩
  · rcases List.mem_append.mp (mem_fittest hi) with hi | hi
    · exact helite.individuals i hi
    · rw [← List.map_uncurry_zip_eq_zipWith] at hi
      obtain ⟨e, he, rfl⟩ := List.mem_map.mp hi
      exact ⟨hchromosomes _ (List.of_mem_zip he).1, List.forall₂_zip hall he⟩
  · have hlength := hall.length_eq
    have hpos := List.length_pos_iff.mpr hne
    apply List.ne_nil_of_length_pos
    rw [List.length_append, List.length_zipWith]
    omega

lemma select_of_returns_breed {generation : Nat} {elite last : List Individual}
    {history : List GenerationSummary}
    (h : Returns (breed p settings objectives o 0 generation source elite chromosomes) t
      (last, history) t') :
    Returns (select p settings o elite chromosomes) t last t' ∧
      history = [summarise generation (p.evaluations t') objectives last] := by
  rw [breed] at h
  obtain ⟨population, t₁, hselect, h⟩ := returns_bind.mp h
  obtain ⟨evaluations, t₂, hspent, h⟩ := returns_bind.mp h
  obtain ⟨rfl, rfl⟩ := returns_spent.mp hspent
  obtain ⟨heq, rfl⟩ := returns_pure.mp h
  cases heq
  exact ⟨hselect, rfl⟩

lemma steps_of_returns_breed {remaining generation : Nat} {elite last : List Individual}
    {history : List GenerationSummary}
    (h : Returns (breed p settings objectives o (remaining + 1) generation source elite chromosomes)
      t (last, history) t') :
    ∃ population t₁ children source' later,
      Returns (select p settings o elite chromosomes) t population t₁ ∧
      Returns (brood settings p.genes population) source children source' ∧
      Returns (breed p settings objectives o remaining (generation + 1) source'
        (population.take settings.eliteCount) children) t₁ (last, later) t' ∧
      history = summarise generation (p.evaluations t₁) objectives population :: later := by
  rw [breed] at h
  obtain ⟨population, t₁, hselect, h⟩ := returns_bind.mp h
  obtain ⟨evaluations, t₂, hspent, h⟩ := returns_bind.mp h
  obtain ⟨rfl, rfl⟩ := returns_spent.mp hspent
  obtain ⟨⟨children, source'⟩, t₃, hdraw, h⟩ := returns_bind.mp h
  obtain ⟨hbrood, rfl⟩ := returns_draw.mp hdraw
  obtain ⟨⟨last', later⟩, t₄, hrest, h⟩ := returns_bind.mp h
  obtain ⟨heq, rfl⟩ := returns_pure.mp h
  cases heq
  exact ⟨population, t₁, children, source', later, hselect, hbrood, hrest, rfl⟩

lemma of_returns_breed {remaining generation : Nat} {elite last : List Individual}
    {history : List GenerationSummary} (hQ : Gene.Kept γ p.genes Q) (hp : p.YieldsOn Q I R)
    (hplaces : settings.populationSize ≠ 0)
    (hchildren : settings.eliteCount < settings.populationSize)
    (helite : Evaluated p Q I R elite t) (hne : chromosomes ≠ [])
    (hchromosomes : ∀ c ∈ chromosomes, List.Forall₂ Q p.genes c)
    (h : Returns (breed p settings objectives o remaining generation source elite chromosomes) t
      (last, history) t') : Evaluated p Q I R last t' ∧ last ≠ [] := by
  induction remaining generalizing generation source elite chromosomes history t with
  | zero =>
    exact of_returns_select hp hplaces helite hne hchromosomes (select_of_returns_breed h).1
  | succ remaining ih =>
    obtain ⟨population, t₁, children, source', later, hselect, hbrood, hrest, -⟩ :=
      steps_of_returns_breed h
    obtain ⟨hpopulation, hnonempty⟩ :=
      of_returns_select hp hplaces helite hne hchromosomes hselect
    obtain ⟨hcount, hvalues⟩ := of_returns_brood hQ hnonempty
      (fun i hi => (hpopulation.individuals i hi).1) hbrood
    refine ih ⟨hpopulation.state, fun i hi => ?_⟩ ?_ hvalues hrest
    · exact hpopulation.individuals i (List.mem_of_mem_take hi)
    · apply List.ne_nil_of_length_pos
      omega

lemma lt_of_check (h : settings.check = .ok ()) :
    settings.populationSize ≠ 0 ∧ settings.eliteCount < settings.populationSize := by
  unfold Settings.check at h
  split_ifs at h with hsize
  exact ⟨fun hzero => hsize (Or.inl hzero), by omega⟩

/-- The last population of an evolution holds evaluated candidates with the property of its values,
and it is not empty. -/
theorem of_returns_evolve_on {last : List Individual} {history : List GenerationSummary}
    (hQ : Gene.Kept γ p.genes Q) (hp : p.YieldsOn Q I R) (hcheck : settings.check = .ok ())
    (hseeds : ∀ seed ∈ seeds, List.Forall₂ Q p.genes seed) (ht : I t)
    (h : Returns (evolve p settings objectives o seeds source) t (last, history) t') :
    Evaluated p Q I R last t' ∧ last ≠ [] := by
  obtain ⟨hplaces, hchildren⟩ := lt_of_check hcheck
  obtain ⟨⟨chromosomes, source'⟩, t₁, hdraw, h⟩ := returns_bind.mp h
  obtain ⟨hbrood, rfl⟩ := returns_draw.mp hdraw
  obtain ⟨hcount, hvalues⟩ := of_returns_firstBrood hQ hseeds hbrood
  have hne : chromosomes ≠ [] := by
    apply List.ne_nil_of_length_pos
    omega
  exact of_returns_breed hQ hp hplaces hchildren ⟨ht, fun i hi => absurd hi List.not_mem_nil⟩ hne
    hvalues h

/-- The last population of an evolution holds evaluated candidates, and it is not empty. -/
theorem of_returns_evolve {last : List Individual} {history : List GenerationSummary}
    (hp : p.Yields I R) (hcheck : settings.check = .ok ())
    (hseeds : ∀ seed ∈ seeds, seed.length = p.genes.length) (ht : I t)
    (h : Returns (evolve p settings objectives o seeds source) t (last, history) t') :
    (∀ i ∈ last, i.chromosome.length = p.genes.length ∧ R i.chromosome i.solution) ∧
      last ≠ [] := by
  obtain ⟨hlast, hne⟩ := of_returns_evolve_on (Gene.kept_true p.genes) hp.on hcheck
    (fun seed hseed => forall₂_true_iff.mpr (hseeds seed hseed).symm) ht h
  refine ⟨fun i hi => ?_, hne⟩
  obtain ⟨hlength, hR⟩ := hlast.individuals i hi
  exact ⟨hlength.length_eq.symm, hR⟩

end Genetic

end Retrofit
