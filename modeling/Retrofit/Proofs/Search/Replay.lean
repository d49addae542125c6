import Retrofit.Proofs.Search.Elitism

/-!
# An evolution replayed from its journal

The random numbers of an evolution only decide which candidates are evaluated. Given these in their
order, as many for each generation as there are places, the populations follow: `lastPopulation`
chooses them again, and `pools` are the members that each generation chooses from.
-/

namespace Retrofit

open Retrofit.Random

namespace Nsga2

/-- Evaluated candidates as members that have no place yet. -/
def newcomers (entries : Journal) : List Member :=
  entries.map fun e => ⟨e.1, e.2, 0, 0.0⟩

/-- The deduplicated parents and offspring that the next population is chosen from. -/
def contestants (population : List Member) (entries : Journal) : List Member :=
  dedupe (population ++ newcomers entries)

/-- What the given number of generations choose from, if a journal holds their candidates. -/
def pools (objectives : List Objective) (places : Nat) :
    (generations : Nat) → List Member → Journal → List (List Member)
  | 0, _, _ => []
  | generations + 1, population, journal =>
    let pool := contestants population (journal.take places)
    pool :: pools objectives places generations (survive objectives places pool)
      (journal.drop places)

/-- The population after the given number of generations, if a journal holds their candidates. -/
def lastPopulation (objectives : List Objective) (places : Nat) :
    (generations : Nat) → List Member → Journal → List Member
  | 0, population, _ => population
  | generations + 1, population, journal =>
    lastPopulation objectives places generations
      (survive objectives places (contestants population (journal.take places)))
      (journal.drop places)

section Split

variable {objectives : List Objective} {population : List Member} {first later : Journal}

lemma lastPopulation_append (generations : Nat) :
    lastPopulation objectives first.length (generations + 1) population (first ++ later) =
      lastPopulation objectives first.length generations
        (survive objectives first.length (contestants population first)) later := by
  rw [lastPopulation, List.take_left, List.drop_left]

end Split

/-! ## What is in a population -/

section Members

variable {objectives : List Objective} {population : List Member} {journal entries : Journal}

lemma mem_of_mem_contestants (hpopulation : ∀ m ∈ population, (m.chromosome, m.solution) ∈ journal)
    {d : Member} (hd : d ∈ contestants population entries) :
    (d.chromosome, d.solution) ∈ journal ++ entries := by
  rcases List.mem_append.mp (mem_of_mem_distinctBy hd) with hd | hd
  · exact List.mem_append_left _ (hpopulation d hd)
  · obtain ⟨e, he, rfl⟩ := List.mem_map.mp hd
    exact List.mem_append_right _ he

/-- The members of the last population are among the first ones and what the journal holds. -/
lemma mem_of_mem_lastPopulation {places generations : Nat} {m : Member}
    (hpopulation : ∀ m ∈ population, (m.chromosome, m.solution) ∈ journal)
    (hm : m ∈ lastPopulation objectives places generations population entries) :
    (m.chromosome, m.solution) ∈ journal ++ entries := by
  induction generations generalizing population journal entries with
  | zero => exact List.mem_append_left _ (hpopulation m hm)
  | succ generations ih =>
    have hnext : ∀ m' ∈ survive objectives places (contestants population (entries.take places)),
        (m'.chromosome, m'.solution) ∈ journal ++ entries.take places := by
      intro m' hm'
      obtain ⟨d, hd, hsame, -⟩ := mem_survive hm'
      rw [hsame.1, hsame.2]
      exact mem_of_mem_contestants hpopulation hd
    have hmem := ih hnext hm
    rwa [List.append_assoc, List.take_append_drop] at hmem

end Members

/-! ## Evolutions -/

variable {τ γ : Type} [Source γ] {p : Problem τ} {settings : Settings}
  {objectives : List Objective} {population next : List Member} {chromosomes : List Chromosome}
  {source : γ} {t t' : τ} {journal journal' : Journal}

lemma length_of_returns_brood {genes : List Gene} {s s' : γ}
    (h : Returns (brood settings genes population) s chromosomes s') :
    chromosomes.length = settings.populationSize :=
  (forall_of_returns_several (P := fun _ => True) (fun _ _ _ _ => trivial) h).1

/-- A generation chooses from the contestants that its entries of the journal give. -/
lemma contestants_of_returns_select
    (h : Returns (select p.logged settings objectives population chromosomes) (t, journal) next
      (t', journal')) :
    ∃ entries, journal' = journal ++ entries ∧ entries.length = chromosomes.length ∧
      next = survive objectives settings.populationSize (contestants population entries) := by
  obtain ⟨solutions, hsolutions, rfl⟩ := returns_select h
  obtain ⟨-, rfl⟩ := returns_logged_evaluateAll p hsolutions
  have hlength := length_of_returns_evaluateAll hsolutions
  refine ⟨chromosomes.zip solutions, rfl, ?_, ?_⟩
  · rw [List.length_zip, ← hlength, Nat.min_self]
  · unfold contestants newcomers
    rw [← List.map_uncurry_zip_eq_zipWith]
    rfl

/-- Breeding adds to the journal what its populations follow from. -/
lemma replay_of_returns_breed {remaining generation : Nat} {last : List Member}
    {history : List GenerationSummary}
    (h : Returns (breed p.logged settings objectives remaining generation source population)
      (t, journal) (last, history) (t', journal')) :
    ∃ entries, journal' = journal ++ entries ∧
      entries.length = remaining * settings.populationSize ∧
      last = lastPopulation objectives settings.populationSize remaining population entries := by
  induction remaining generalizing generation source population history t journal with
  | zero =>
    obtain ⟨heq, hstate⟩ := returns_pure.mp h
    cases heq
    cases hstate
    exact ⟨[], (List.append_nil _).symm, (Nat.zero_mul _).symm, rfl⟩
  | succ remaining ih =>
    obtain ⟨children, source', next, ⟨t₁, journal₁⟩, later, hbrood, hselect, hrest, -⟩ :=
      steps_of_returns_breed h
    obtain ⟨first, rfl, hfirst, rfl⟩ := contestants_of_returns_select hselect
    obtain ⟨rest, rfl, hlength, rfl⟩ := ih hrest
    have hplaces := hfirst.trans (length_of_returns_brood hbrood)
    refine ⟨first ++ rest, List.append_assoc _ _ _, ?_, ?_⟩
    · rw [List.length_append, hplaces, hlength, Nat.succ_mul, Nat.add_comm]
    · rw [← hplaces, lastPopulation_append]

/-- An evolution evaluates as many candidates in every generation as there are places, and the
journal of them determines its outcome. -/
theorem replay_of_returns_evolve {seeds : List Chromosome} {outcome : Outcome}
    (hgenes : p.genes ≠ [])
    (h : Returns (evolve p.logged settings objectives seeds source) (t, []) outcome (t', journal)) :
    journal.length = settings.generations * settings.populationSize ∧
      outcome.front = ((lastPopulation objectives settings.populationSize settings.generations []
        journal).filter (·.rank = 0)).map (·.solution) := by
  have hgenerations := (ne_zero_of_returns_evolve h).2
  obtain ⟨chromosomes, source', population, ⟨t₁, journal₁⟩, last, later, hbrood, hselect, hrest,
    hfront, -⟩ := steps_of_returns_evolve (p := p.logged) hgenes h
  obtain ⟨first, rfl, hfirst, rfl⟩ := contestants_of_returns_select hselect
  obtain ⟨rest, rfl, hlength, rfl⟩ := replay_of_returns_breed hrest
  obtain ⟨hcount, -⟩ := of_returns_firstBrood (Gene.kept_true p.genes)
    (fun _ _ => Gene.forall₂_true_clip) hbrood
  have hplaces := hfirst.trans hcount
  obtain ⟨generations, hsucc⟩ := Nat.exists_eq_succ_of_ne_zero hgenerations
  rw [hsucc, Nat.succ_eq_add_one, Nat.add_sub_cancel] at hlength hfront
  rw [hsucc, Nat.succ_eq_add_one]
  constructor
  · rw [List.length_append, hplaces, hlength, Nat.succ_mul, Nat.add_comm]
  · rw [hfront, ← hplaces, lastPopulation_append]

/-- An evolution evaluates no more candidates than its generations have places. -/
lemma length_journal_le {seeds : List Chromosome} {outcome : Outcome}
    (h : Returns (evolve p.logged settings objectives seeds source) (t, []) outcome (t', journal)) :
    journal.length ≤ settings.populationSize * settings.generations := by
  by_cases hgenes : p.genes = []
  · obtain ⟨hplaces, hgenerations⟩ := ne_zero_of_returns_evolve h
    obtain ⟨x, hx, -⟩ := evolve_of_no_genes (p := p.logged) hgenes h
    obtain ⟨-, rfl⟩ := returns_logged_evaluateAll p hx
    exact Nat.mul_pos (Nat.pos_of_ne_zero hplaces) (Nat.pos_of_ne_zero hgenerations)
  · have hlength := (replay_of_returns_evolve hgenes h).1
    exact Nat.le_of_eq (hlength.trans (Nat.mul_comm _ _))

/-- The outcome of an evolution has been evaluated. -/
theorem mem_journal_of_mem_front {seeds : List Chromosome} {outcome : Outcome}
    (h : Returns (evolve p.logged settings objectives seeds source) (t, []) outcome (t', journal))
    {x : PortfolioSolution} (hx : x ∈ outcome.front) : ∃ c, (c, x) ∈ journal := by
  by_cases hgenes : p.genes = []
  · obtain ⟨y, hy, hfront⟩ := evolve_of_no_genes (p := p.logged) hgenes h
    obtain ⟨-, rfl⟩ := returns_logged_evaluateAll p hy
    rw [hfront] at hx
    rw [List.mem_singleton.mp hx]
    exact ⟨[], List.mem_cons_self⟩
  · obtain ⟨-, hfront⟩ := replay_of_returns_evolve hgenes h
    rw [hfront] at hx
    obtain ⟨m, hm, rfl⟩ := List.mem_map.mp hx
    have hnone : ∀ m ∈ ([] : List Member), (m.chromosome, m.solution) ∈ ([] : Journal) :=
      fun m hm => absurd hm List.not_mem_nil
    exact ⟨m.chromosome, mem_of_mem_lastPopulation hnone (List.mem_filter.mp hm).1⟩

/-- The journal of an evolution stays within what is known of single evaluations. -/
lemma known_of_returns_evolve {I : τ → Prop} {R : Chromosome → PortfolioSolution → Prop}
    {seeds : List Chromosome} {outcome : Outcome} (hp : p.Yields I R) (ht : I t)
    (h : Returns (evolve p.logged settings objectives seeds source) (t, []) outcome (t', journal)) :
    Known p I R t' journal := by
  have hnone : Known p I R t [] := ⟨ht, fun e he => absurd he List.not_mem_nil⟩
  by_cases hgenes : p.genes = []
  · obtain ⟨x, hx, -⟩ := evolve_of_no_genes (p := p.logged) hgenes h
    refine known_of_returns_evaluateAll hp (fun c hc => ?_) hnone hx
    rw [List.mem_singleton.mp hc, hgenes]
    rfl
  · obtain ⟨last, hknown, -⟩ := @evolve_induction objectives _ _ _ p.logged settings
      (fun _ state => Known p I R state.1 state.2) (t, []) _ seeds source outcome hgenes hnone
      (fun _ _ _ _ _ hknown hfits hselect => by
        obtain ⟨solutions, hsolutions, -⟩ := returns_select hselect
        exact known_of_returns_evaluateAll hp hfits hknown hsolutions) h
    exact hknown

end Nsga2

end Retrofit
