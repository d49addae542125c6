import Retrofit.Proofs.Pareto.Crowding
import Retrofit.Proofs.Pareto.Peeling
import Retrofit.Proofs.Search.Breeding

/-!
# Generations of NSGA-II

One generation evaluates new chromosomes and keeps members of the old population or the new ones,
the first front before all others (`mem_survive`, `exists_rank_zero`). What a generation preserves
holds at the end of a whole evolution (`evolve_induction`).
-/

namespace Retrofit

open Retrofit.Random

namespace Nsga2

variable {objectives : List Objective}

/-- Two members that differ in their places only. -/
def Member.Same (a b : Member) : Prop := a.chromosome = b.chromosome ∧ a.solution = b.solution

lemma mem_place {rank : Nat} {front : List Member} {m : Member}
    (h : m ∈ place objectives rank front) : m.rank = rank ∧ ∃ m₀ ∈ front, m.Same m₀ := by
  unfold place at h
  obtain ⟨i, hi, rfl⟩ := List.mem_iff_getElem.mp h
  rw [List.getElem_zipWith]
  exact ⟨rfl, _, List.getElem_mem _, rfl, rfl⟩

lemma length_place (objectives : List Objective) (rank : Nat) (front : List Member) :
    (place objectives rank front).length = front.length := by
  unfold place
  rw [List.length_zipWith, length_crowding, List.length_map, Nat.min_self]

lemma mem_fill {free rank : Nat} {fronts : List (List Member)} {m : Member}
    (h : m ∈ fill objectives free rank fronts) :
    rank ≤ m.rank ∧ ∃ front ∈ fronts, (∃ m₀ ∈ front, m.Same m₀) ∧
      (m.rank = rank → some front = fronts.head?) := by
  induction fronts generalizing free rank with
  | nil => exact nomatch h
  | cons front rest ih =>
    have hplaced : ∀ {m}, m ∈ place objectives rank front → rank ≤ m.rank ∧
        ∃ front' ∈ front :: rest, (∃ m₀ ∈ front', m.Same m₀) ∧
          (m.rank = rank → some front' = (front :: rest).head?) := by
      intro m hm
      obtain ⟨hrank, hsame⟩ := mem_place hm
      exact ⟨Nat.le_of_eq hrank.symm, front, List.mem_cons_self, hsame, fun _ => rfl⟩
    unfold fill at h
    split at h
    · exact nomatch h
    · dsimp only at h
      split at h
      · rcases List.mem_append.mp h with h | h
        · exact hplaced h
        · obtain ⟨hrank, front', hfront', hsame, -⟩ := ih h
          exact ⟨by omega, front', List.mem_cons_of_mem _ hfront', hsame, by omega⟩
      · exact hplaced ((List.mergeSort_perm _ _).mem_iff.mp (List.mem_of_mem_take h))

/-- Survivors are old members in new places, and those of rank zero come from the first front. -/
theorem mem_survive {places : Nat} {members : List Member} {m : Member}
    (h : m ∈ survive objectives places members) :
    ∃ m₀ ∈ members, m.Same m₀ ∧
      (m.rank = 0 → m₀ ∈ firstFront (·.solution.judgement objectives) members) := by
  obtain ⟨-, front, hfront, ⟨m₀, hm₀, hsame⟩, hfirst⟩ := mem_fill h
  refine ⟨m₀, mem_of_mem_fronts hfront hm₀, hsame, fun hrank => ?_⟩
  have hhead := hfirst hrank
  rw [head?_fronts] at hhead
  split at hhead
  · cases hhead
  · rw [← Option.some.inj hhead]
    exact hm₀

/-- Some member of rank zero survives. -/
theorem exists_rank_zero {places : Nat} {members : List Member} (hplaces : places ≠ 0)
    (hmembers : members ≠ []) : ∃ m ∈ survive objectives places members, m.rank = 0 := by
  obtain ⟨rest, hfronts⟩ :=
    exists_fronts_eq_cons (fun m : Member => m.solution.judgement objectives) hmembers
  have hne : place objectives 0 (firstFront (·.solution.judgement objectives) members) ≠ [] := by
    intro hnil
    apply firstFront_ne_nil (fun m : Member => m.solution.judgement objectives) hmembers
    apply List.eq_nil_of_length_eq_zero
    rw [← length_place objectives 0, hnil]
    rfl
  obtain ⟨m, hm⟩ : ∃ m, m ∈ survive objectives places members ∧
      m ∈ place objectives 0 (firstFront (·.solution.judgement objectives) members) := by
    unfold survive
    rw [hfronts, fill, if_neg hplaces]
    dsimp only
    split
    · obtain ⟨m, hm⟩ := List.exists_mem_of_ne_nil _ hne
      exact ⟨m, List.mem_append_left _ hm, hm⟩
    · rename_i hlong
      generalize hsorted : (place objectives 0 _).mergeSort _ = sorted
      have hperm := hsorted ▸ List.mergeSort_perm _ _
      have htake : sorted.take places ≠ [] := by
        intro hnil
        rcases List.take_eq_nil_iff.mp hnil with h | h
        · exact hplaces h
        · rw [h] at hperm
          exact hne (List.nil_perm.mp hperm)
      obtain ⟨m, hm⟩ := List.exists_mem_of_ne_nil _ htake
      exact ⟨m, hm, hperm.mem_iff.mp (List.mem_of_mem_take hm)⟩
  exact ⟨m, hm.1, (mem_place hm.2).1⟩

/-! ## One generation -/

section Generation

variable {τ : Type} {p : Problem τ} {settings : Settings} {population next : List Member}
  {chromosomes : List Chromosome} {t t' : τ}

lemma exists_of_mem_zipWith {solutions : List PortfolioSolution} {m : Member}
    (h : m ∈ chromosomes.zipWith (fun c x => ⟨c, x, 0, 0.0⟩) solutions) :
    m.chromosome ∈ chromosomes ∧ (m.chromosome, m.solution) ∈ chromosomes.zip solutions := by
  rw [← List.map_uncurry_zip_eq_zipWith] at h
  obtain ⟨e, he, rfl⟩ := List.mem_map.mp h
  exact ⟨(List.of_mem_zip he).1, he⟩

/-- If the members of a population are among some pairs, those of the pool of the next generation are
among these and the new ones. -/
lemma mem_pairs_of_mem_pool {pairs : List (Chromosome × PortfolioSolution)}
    {solutions : List PortfolioSolution} {m : Member}
    (hpopulation : ∀ m ∈ population, (m.chromosome, m.solution) ∈ pairs)
    (h : m ∈ population ++ chromosomes.zipWith (fun c x => ⟨c, x, 0, 0.0⟩) solutions) :
    (m.chromosome, m.solution) ∈ pairs ++ chromosomes.zip solutions := by
  rcases List.mem_append.mp h with h | h
  · exact List.mem_append_left _ (hpopulation m h)
  · exact List.mem_append_right _ (exists_of_mem_zipWith h).2

lemma returns_select (h : Returns (select p settings objectives population chromosomes) t next t') :
    ∃ solutions, Returns (p.evaluateAll chromosomes) t solutions t' ∧
      next = survive objectives settings.populationSize
        (dedupe (population ++ chromosomes.zipWith (fun c x => ⟨c, x, 0, 0.0⟩) solutions)) := by
  obtain ⟨members, t₁, hmembers, h⟩ := returns_bind.mp h
  obtain ⟨rfl, rfl⟩ := returns_pure.mp h
  obtain ⟨solutions, t₂, hsolutions, h⟩ := returns_bind.mp hmembers
  obtain ⟨rfl, rfl⟩ := returns_pure.mp h
  exact ⟨solutions, hsolutions, rfl⟩

lemma length_of_returns_evaluateAll {solutions : List PortfolioSolution}
    (h : Returns (p.evaluateAll chromosomes) t solutions t') :
    chromosomes.length = solutions.length :=
  (forall₂_of_returns_mapM (I := fun _ => True) (R := fun _ _ => True)
    (fun _ _ _ _ _ _ _ => ⟨trivial, trivial⟩) trivial h).1.length_eq

/-- All chromosomes of a population have values with a property. -/
def Fits (P : Gene → Float → Prop) (p : Problem τ) (population : List Member) : Prop :=
  ∀ m ∈ population, List.Forall₂ P p.genes m.chromosome

lemma fits_of_returns_select {P : Gene → Float → Prop} (hpopulation : Fits P p population)
    (hchromosomes : ∀ c ∈ chromosomes, List.Forall₂ P p.genes c)
    (h : Returns (select p settings objectives population chromosomes) t next t') :
    Fits P p next := by
  obtain ⟨solutions, -, rfl⟩ := returns_select h
  intro m hm
  obtain ⟨m₀, hm₀, hsame, -⟩ := mem_survive hm
  rw [hsame.1]
  rcases List.mem_append.mp (mem_of_mem_distinctBy hm₀) with hm₀ | hm₀
  · exact hpopulation m₀ hm₀
  · exact hchromosomes _ (exists_of_mem_zipWith hm₀).1

lemma ne_nil_of_returns_select (hplaces : settings.populationSize ≠ 0)
    (hlength : chromosomes.length = settings.populationSize)
    (h : Returns (select p settings objectives population chromosomes) t next t') :
    next ≠ [] := by
  obtain ⟨solutions, hsolutions, rfl⟩ := returns_select h
  have hcount := length_of_returns_evaluateAll hsolutions
  have hne : dedupe (population ++ chromosomes.zipWith (fun c x => ⟨c, x, 0, 0.0⟩) solutions) ≠
      [] := by
    have hnew : chromosomes.zipWith (fun c x => (⟨c, x, 0, 0.0⟩ : Member)) solutions ≠ [] := by
      apply List.ne_nil_of_length_pos
      rw [List.length_zipWith]
      omega
    obtain ⟨m, hm⟩ := List.exists_mem_of_ne_nil _ hnew
    obtain ⟨m', hm', -⟩ := @exists_mem_distinctBy _ _ _ (·.solution.scenarios) _ _
      (List.mem_append_right population hm)
    exact List.ne_nil_of_mem hm'
  obtain ⟨m, hm, -⟩ := exists_rank_zero hplaces hne
  exact List.ne_nil_of_mem hm

end Generation

/-! ## Whole runs -/

section Run

variable {τ γ : Type} [Source γ] {p : Problem τ} {settings : Settings}
  {P : List Member → τ → Prop} {t t' : τ}

lemma steps_of_returns_breed {remaining generation : Nat} {objectives : List Objective}
    {source : γ} {population last : List Member} {history : List GenerationSummary}
    (h : Returns (breed p settings objectives (remaining + 1) generation source population) t
      (last, history) t') :
    ∃ children source' next t₁ later,
      Returns (brood settings p.genes population) source children source' ∧
      Returns (select p settings objectives population children) t next t₁ ∧
      Returns (breed p settings objectives remaining (generation + 1) source' next) t₁
        (last, later) t' ∧
      history = summarise generation (p.evaluations t₁) objectives next :: later := by
  obtain ⟨⟨children, source'⟩, t₁, hdraw, h⟩ := returns_bind.mp h
  obtain ⟨hbrood, rfl⟩ := returns_draw.mp hdraw
  obtain ⟨next, t₂, hselect, h⟩ := returns_bind.mp h
  obtain ⟨evaluations, t₃, hspent, h⟩ := returns_bind.mp h
  obtain ⟨rfl, rfl⟩ := returns_spent.mp hspent
  obtain ⟨⟨last', later⟩, t₄, hrest, h⟩ := returns_bind.mp h
  obtain ⟨heq, rfl⟩ := returns_pure.mp h
  cases heq
  exact ⟨children, source', next, t₂, later, hbrood, hselect, hrest, rfl⟩

/-- What a generation on chromosomes with a property preserves holds after breeding. -/
lemma breed_reaches {Q : Gene → Float → Prop} (hQ : Gene.Kept γ p.genes Q)
    (hplaces : settings.populationSize ≠ 0)
    (step : ∀ population chromosomes t next t', P population t →
      (∀ c ∈ chromosomes, List.Forall₂ Q p.genes c) →
        Returns (select p settings objectives population chromosomes) t next t' → P next t')
    {remaining generation : Nat} {source : γ} {population last : List Member}
    {history : List GenerationSummary} (hP : P population t) (hfits : Fits Q p population)
    (hne : population ≠ [])
    (h : Returns (breed p settings objectives remaining generation source population) t
      (last, history) t') : P last t' ∧ last ≠ [] := by
  induction remaining generalizing generation source population history t with
  | zero =>
    obtain ⟨heq, rfl⟩ := returns_pure.mp h
    cases heq
    exact ⟨hP, hne⟩
  | succ remaining ih =>
    obtain ⟨children, source', next, t₁, later, hbrood, hselect, hrest, -⟩ :=
      steps_of_returns_breed h
    obtain ⟨hlength, hchildren⟩ := of_returns_brood hQ hne hfits hbrood
    exact ih (step population children t next t₁ hP hchildren hselect)
      (fits_of_returns_select hfits hchildren hselect)
      (ne_nil_of_returns_select hplaces hlength hselect) hrest

lemma Settings.ne_zero_of_check (h : settings.check = .ok ()) :
    settings.populationSize ≠ 0 ∧ settings.generations ≠ 0 := by
  unfold Settings.check at h
  split_ifs at h with hplaces hgenerations
  exact ⟨hplaces, hgenerations⟩

section Evolve

variable {objectives : List Objective} {seeds : List Chromosome} {source : γ} {outcome : Outcome}

lemma ne_zero_of_returns_evolve
    (h : Returns (evolve p settings objectives seeds source) t outcome t') :
    settings.populationSize ≠ 0 ∧ settings.generations ≠ 0 := by
  obtain ⟨-, h⟩ := returns_ite_throw.mp h
  split at h
  · exact absurd h not_returns_throw
  · rename_i hcheck
    exact Settings.ne_zero_of_check hcheck

/-- With genes the first population is bred for the other generations, and its last one is the
outcome. -/
lemma steps_of_returns_evolve (hgenes : p.genes ≠ [])
    (h : Returns (evolve p settings objectives seeds source) t outcome t') :
    ∃ chromosomes source' population t₁ last later,
      Returns (firstBrood settings p.genes seeds) source chromosomes source' ∧
      Returns (select p settings objectives [] chromosomes) t population t₁ ∧
      Returns (breed p settings objectives (settings.generations - 1) 1 source' population) t₁
        (last, later) t' ∧
      outcome.front = (last.filter (·.rank = 0)).map (·.solution) ∧
      outcome.history = summarise 0 (p.evaluations t₁) objectives population :: later := by
  obtain ⟨-, h⟩ := returns_ite_throw.mp h
  split at h
  · exact absurd h not_returns_throw
  · rw [List.isEmpty_eq_false_iff.mpr hgenes, if_neg (by decide)] at h
    obtain ⟨⟨chromosomes, source'⟩, t₁, hdraw, h⟩ := returns_bind.mp h
    obtain ⟨hbrood, rfl⟩ := returns_draw.mp hdraw
    obtain ⟨population, t₂, hselect, h⟩ := returns_bind.mp h
    obtain ⟨evaluations, t₃, hspent, h⟩ := returns_bind.mp h
    obtain ⟨rfl, rfl⟩ := returns_spent.mp hspent
    obtain ⟨⟨last, later⟩, t₄, hrest, h⟩ := returns_bind.mp h
    obtain ⟨rfl, rfl⟩ := returns_pure.mp h
    exact ⟨chromosomes, source', population, t₂, last, later, hbrood, hselect, hrest, rfl, rfl⟩

end Evolve

/-- What holds without members, and is preserved by every generation on chromosomes with a property,
holds of the last population, whose first front is the outcome. -/
theorem evolve_reaches {Q : Gene → Float → Prop} (hQ : Gene.Kept γ p.genes Q)
    {seeds : List Chromosome}
    (hseeds : ∀ seed ∈ seeds, seed.length = p.genes.length →
      List.Forall₂ Q p.genes (p.genes.zipWith Gene.clip seed))
    {source : γ} {outcome : Outcome} (hgenes : p.genes ≠ []) (init : P [] t)
    (step : ∀ population chromosomes t next t', P population t →
      (∀ c ∈ chromosomes, List.Forall₂ Q p.genes c) →
        Returns (select p settings objectives population chromosomes) t next t' → P next t')
    (h : Returns (evolve p settings objectives seeds source) t outcome t') :
    ∃ last, P last t' ∧ last ≠ [] ∧
      outcome.front = (last.filter (·.rank = 0)).map (·.solution) := by
  have hplaces := (ne_zero_of_returns_evolve h).1
  obtain ⟨chromosomes, source', population, t₁, last, later, hbrood, hselect, hrest, hfront, -⟩ :=
    steps_of_returns_evolve hgenes h
  obtain ⟨hlength, hchromosomes⟩ := of_returns_firstBrood hQ hseeds hbrood
  have hnone : Fits Q p [] := fun m hm => absurd hm List.not_mem_nil
  obtain ⟨hlast, hne⟩ := breed_reaches hQ hplaces step
    (step [] chromosomes t population t₁ init hchromosomes hselect)
    (fits_of_returns_select hnone hchromosomes hselect)
    (ne_nil_of_returns_select hplaces hlength hselect) hrest
  exact ⟨last, hlast, hne, hfront⟩

/-- What holds without members, and is preserved by every generation, holds of the last population,
whose first front is the outcome. -/
theorem evolve_induction {seeds : List Chromosome} {source : γ} {outcome : Outcome}
    (hgenes : p.genes ≠ []) (init : P [] t)
    (step : ∀ population chromosomes t next t', P population t →
      (∀ c ∈ chromosomes, c.length = p.genes.length) →
        Returns (select p settings objectives population chromosomes) t next t' → P next t')
    (h : Returns (evolve p settings objectives seeds source) t outcome t') :
    ∃ last, P last t' ∧ last ≠ [] ∧
      outcome.front = (last.filter (·.rank = 0)).map (·.solution) := by
  refine evolve_reaches (Gene.kept_true p.genes) (fun _ _ => Gene.forall₂_true_clip) hgenes init
    (fun population chromosomes t next t' hP hchromosomes => ?_) h
  exact step population chromosomes t next t' hP fun c hc => (hchromosomes c hc).length_eq.symm

/-- Without genes the one candidate is the outcome. -/
lemma evolve_of_no_genes {seeds : List Chromosome} {source : γ} {outcome : Outcome}
    (hgenes : p.genes = []) (h : Returns (evolve p settings objectives seeds source) t outcome t') :
    ∃ x, Returns (p.evaluateAll [[]]) t [x] t' ∧ outcome.front = [x] := by
  obtain ⟨-, h⟩ := returns_ite_throw.mp h
  split at h
  · exact absurd h not_returns_throw
  · rw [hgenes, List.isEmpty_nil, if_pos rfl] at h
    obtain ⟨members, t₁, hmembers, h⟩ := returns_bind.mp h
    obtain ⟨evaluations, t₂, hspent, h⟩ := returns_bind.mp h
    obtain ⟨-, rfl⟩ := returns_spent.mp hspent
    obtain ⟨rfl, rfl⟩ := returns_pure.mp h
    obtain ⟨solutions, t₃, hsolutions, h⟩ := returns_bind.mp hmembers
    obtain ⟨rfl, rfl⟩ := returns_pure.mp h
    obtain ⟨x, rfl⟩ := List.length_eq_one_iff.mp (length_of_returns_evaluateAll hsolutions).symm
    exact ⟨x, hsolutions, rfl⟩

end Run

end Nsga2

end Retrofit
