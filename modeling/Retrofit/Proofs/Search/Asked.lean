import Retrofit.Proofs.Search.Agreement
import Retrofit.Proofs.Search.Candidates

/-!
# What a search asks for

`Problem.watched` writes down every chromosome that is to be evaluated, also if the evaluation ends
the search; the search ends as it does without that (`Nsga2.ends_watched`, `Genetic.ends_watched`).
A property of the values of genes that breeding keeps is a property of all chromosomes that an
evolution asks for, whether it returns or not (`Nsga2.forall_asked`, `Genetic.forall_asked`).
-/

namespace Retrofit

open Retrofit.Random

variable {τ α β γ : Type}

/-- The problem with a record of the chromosomes that it was asked to evaluate. -/
def Problem.watched (p : Problem τ) : Problem (τ × List Chromosome) where
  genes := p.genes
  evaluate c := fun state =>
    let (outcome, t) := (p.evaluate c).run.run state.1
    (outcome, (t, state.2 ++ [c]))
  evaluations state := p.evaluations state.1

/-- A watched problem evaluates as the problem does. -/
theorem Problem.alike_watched (p : Problem τ) :
    p.watched.Alike (fun state t => state.1 = t) (fun _ _ => False) .exact p.watched.evaluateAll p
      p.evaluateAll := by
  refine alike_of_evaluate rfl (fun c => ?_) fun state t hstate => congrArg p.evaluations hstate
  rintro ⟨t, record⟩ _ rfl
  change Ends _ _ _ (((p.evaluate c).run.run t).1, (((p.evaluate c).run.run t).2, record ++ [c]))
    ((p.evaluate c).run.run t)
  generalize (p.evaluate c).run.run t = outcome
  obtain ⟨result, t'⟩ := outcome
  cases result with
  | error reason => exact .failed _ _ _ _ (Or.inl rfl)
  | ok x => exact .returned rfl rfl

/-! ## What a search keeps -/

/-- The search keeps `I` of the state, whether it returns or not. -/
def Keeps (I : τ → Prop) (m : Search τ α) : Prop := ∀ t, I t → I (m.run.run t).2

section Rules

variable {I : τ → Prop}

lemma keeps_pure (a : α) : Keeps I (pure a) := fun _ ht => ht

lemma keeps_throw (reason : SearchError) : Keeps I (throw reason : Search τ α) := fun _ ht => ht

lemma keeps_bind {m : Search τ α} {f : α → Search τ β} (hm : Keeps I m)
    (hf : ∀ t a t', Returns m t a t' → Keeps I (f a)) : Keeps I (m >>= f) := by
  intro t ht
  have hfirst := hm t ht
  have hrest := hf t
  unfold Returns at hrest
  rw [run_bind]
  generalize m.run.run t = outcome at hfirst hrest
  obtain ⟨result, t'⟩ := outcome
  cases result with
  | error reason => exact hfirst
  | ok a => exact hrest a t' rfl t' hfirst

lemma keeps_mapM {f : α → Search τ β} {l : List α} (hf : ∀ a ∈ l, Keeps I (f a)) :
    Keeps I (l.mapM f) := by
  induction l with
  | nil => exact keeps_pure []
  | cons a l ih =>
    obtain ⟨hfirst, hrest⟩ := List.forall_mem_cons.mp hf
    rw [List.mapM_cons]
    refine keeps_bind hfirst fun _ b _ _ => ?_
    exact keeps_bind (ih hrest) fun _ bs _ _ => keeps_pure (b :: bs)

lemma keeps_draw (attempt : DrawAttempt γ α) (source : γ) :
    Keeps I (Search.draw attempt source) := by
  unfold Search.draw
  split
  · exact keeps_pure _
  · exact keeps_throw _

lemma keeps_spent (p : Problem τ) : Keeps I p.spent := fun _ ht => ht

end Rules

/-! ## Evolutions -/

section Evolution

variable [Source γ] {p : Problem τ} {Q : Gene → Float → Prop} {I : τ → Prop}
  {objectives : List Objective} {source : γ} {chromosomes seeds : List Chromosome}

/-- Evaluations of chromosomes whose values have a property keep `I`. -/
def Problem.KeepsOn (p : Problem τ) (Q : Gene → Float → Prop) (I : τ → Prop) : Prop :=
  ∀ c, List.Forall₂ Q p.genes c → Keeps I (p.evaluate c)

lemma Problem.KeepsOn.evaluateAll (hp : p.KeepsOn Q I)
    (hchromosomes : ∀ c ∈ chromosomes, List.Forall₂ Q p.genes c) :
    Keeps I (p.evaluateAll chromosomes) :=
  keeps_mapM fun c hc => hp c (hchromosomes c hc)

namespace Nsga2

variable {settings : Settings}

lemma keeps_select {population : List Member} (hp : p.KeepsOn Q I)
    (hchromosomes : ∀ c ∈ chromosomes, List.Forall₂ Q p.genes c) :
    Keeps I (select p settings objectives population chromosomes) :=
  keeps_bind (keeps_bind (hp.evaluateAll hchromosomes) fun _ _ _ _ => keeps_pure _)
    fun _ _ _ _ => keeps_pure _

lemma keeps_breed {remaining generation : Nat} {population : List Member} (hp : p.KeepsOn Q I)
    (hQ : Gene.Kept γ p.genes Q) (hplaces : settings.populationSize ≠ 0)
    (hfits : Fits Q p population) (hne : population ≠ []) :
    Keeps I (breed p settings objectives remaining generation source population) := by
  induction remaining generalizing generation source population with
  | zero => exact keeps_pure _
  | succ remaining ih =>
    refine keeps_bind (keeps_draw _ _) ?_
    rintro t ⟨children, source'⟩ t' hdraw
    obtain ⟨hlength, hchildren⟩ := of_returns_brood hQ hne hfits (returns_draw.mp hdraw).1
    refine keeps_bind (keeps_select hp hchildren) fun t₁ next t₂ hselect => ?_
    refine keeps_bind (keeps_spent p) fun _ _ _ _ => ?_
    refine keeps_bind (ih ?_ ?_) fun _ _ _ _ => keeps_pure _
    · exact fits_of_returns_select hfits hchildren hselect
    · exact ne_nil_of_returns_select hplaces hlength hselect

/-- What the evaluations of bred chromosomes keep, a whole evolution keeps. -/
theorem keeps_evolve (hp : p.KeepsOn Q I) (hQ : Gene.Kept γ p.genes Q)
    (hseeds : ∀ seed ∈ seeds, seed.length = p.genes.length →
      List.Forall₂ Q p.genes (p.genes.zipWith Gene.clip seed)) :
    Keeps I (evolve p settings objectives seeds source) := by
  unfold evolve
  dsimp only
  split
  · exact keeps_throw _
  · split
    · exact keeps_throw _
    · rename_i hcheck
      have hplaces := (Settings.ne_zero_of_check hcheck).1
      split
      · rename_i hgenes
        have hempty : List.Forall₂ Q p.genes [] := by
          rw [List.isEmpty_iff.mp hgenes]
          exact .nil
        refine keeps_bind (keeps_bind (hp.evaluateAll ?_) fun _ _ _ _ => keeps_pure _) ?_
        · exact fun c hc => List.mem_singleton.mp hc ▸ hempty
        · exact fun _ _ _ _ => keeps_bind (keeps_spent p) fun _ _ _ _ => keeps_pure _
      · refine keeps_bind (keeps_draw _ _) ?_
        rintro t ⟨first, source'⟩ t' hdraw
        obtain ⟨hlength, hfirst⟩ := of_returns_firstBrood hQ hseeds (returns_draw.mp hdraw).1
        have hnone : Fits Q p [] := fun m hm => absurd hm List.not_mem_nil
        refine keeps_bind (keeps_select hp hfirst) fun t₁ population t₂ hselect => ?_
        refine keeps_bind (keeps_spent p) fun _ _ _ _ => ?_
        refine keeps_bind (keeps_breed hp hQ hplaces ?_ ?_) fun _ _ _ _ => keeps_pure _
        · exact fits_of_returns_select hnone hfirst hselect
        · exact ne_nil_of_returns_select hplaces hlength hselect

end Nsga2

namespace Genetic

variable {settings : Settings} {o : Objective}

lemma keeps_select {elite : List Individual} (hp : p.KeepsOn Q I)
    (hchromosomes : ∀ c ∈ chromosomes, List.Forall₂ Q p.genes c) :
    Keeps I (select p settings o elite chromosomes) :=
  keeps_bind (hp.evaluateAll hchromosomes) fun _ _ _ _ => keeps_pure _

/-- All chromosomes of a population have values with a property. -/
def Fits (Q : Gene → Float → Prop) (p : Problem τ) (population : List Individual) : Prop :=
  ∀ i ∈ population, List.Forall₂ Q p.genes i.chromosome

lemma fits_of_returns_select {elite next : List Individual} {t t' : τ}
    (hplaces : settings.populationSize ≠ 0) (helite : Fits Q p elite) (hne : chromosomes ≠ [])
    (hchromosomes : ∀ c ∈ chromosomes, List.Forall₂ Q p.genes c)
    (h : Returns (select p settings o elite chromosomes) t next t') :
    Fits Q p next ∧ next ≠ [] := by
  have hyields : p.YieldsOn Q (fun _ => True) fun _ _ => True :=
    fun _ _ _ _ _ _ _ => ⟨trivial, trivial⟩
  obtain ⟨hnext, hsome⟩ := of_returns_select hyields hplaces
    ⟨trivial, fun i hi => ⟨helite i hi, trivial⟩⟩ hne hchromosomes h
  exact ⟨fun i hi => (hnext.individuals i hi).1, hsome⟩

lemma keeps_breed {remaining generation : Nat} {elite : List Individual} (hp : p.KeepsOn Q I)
    (hQ : Gene.Kept γ p.genes Q) (hplaces : settings.populationSize ≠ 0)
    (hchildren : settings.eliteCount < settings.populationSize) (helite : Fits Q p elite)
    (hne : chromosomes ≠ []) (hchromosomes : ∀ c ∈ chromosomes, List.Forall₂ Q p.genes c) :
    Keeps I (breed p settings objectives o remaining generation source elite chromosomes) := by
  induction remaining generalizing generation source elite chromosomes with
  | zero =>
    unfold breed
    refine keeps_bind (keeps_select hp hchromosomes) fun _ _ _ _ => ?_
    exact keeps_bind (keeps_spent p) fun _ _ _ _ => keeps_pure _
  | succ remaining ih =>
    unfold breed
    refine keeps_bind (keeps_select hp hchromosomes) fun t population t' hselect => ?_
    obtain ⟨hpopulation, hsome⟩ := fits_of_returns_select hplaces helite hne hchromosomes hselect
    refine keeps_bind (keeps_spent p) fun _ _ _ _ => keeps_bind (keeps_draw _ _) ?_
    rintro t₁ ⟨children, source'⟩ t₂ hdraw
    obtain ⟨hcount, hvalues⟩ := of_returns_brood hQ hsome hpopulation (returns_draw.mp hdraw).1
    refine keeps_bind (ih (fun i hi => ?_) ?_ hvalues) fun _ _ _ _ => keeps_pure _
    · exact hpopulation i (List.mem_of_mem_take hi)
    · apply List.ne_nil_of_length_pos
      omega

/-- What the evaluations of bred chromosomes keep, a whole evolution keeps. -/
theorem keeps_evolve (hp : p.KeepsOn Q I) (hQ : Gene.Kept γ p.genes Q)
    (hcheck : settings.check = .ok ()) (hseeds : ∀ seed ∈ seeds, List.Forall₂ Q p.genes seed) :
    Keeps I (evolve p settings objectives o seeds source) := by
  obtain ⟨hplaces, hchildren⟩ := lt_of_check hcheck
  refine keeps_bind (keeps_draw _ _) ?_
  rintro t ⟨first, source'⟩ t' hdraw
  obtain ⟨hcount, hfirst⟩ := of_returns_firstBrood hQ hseeds (returns_draw.mp hdraw).1
  refine keeps_breed hp hQ hplaces hchildren (fun i hi => absurd hi List.not_mem_nil) ?_ hfirst
  apply List.ne_nil_of_length_pos
  omega

end Genetic

/-! ## The chromosomes that are asked for -/

/-- Watching keeps it that all chromosomes have values with a property. -/
lemma Problem.keepsOn_watched (p : Problem τ) (Q : Gene → Float → Prop) :
    p.watched.KeepsOn Q fun state => ∀ c ∈ state.2, List.Forall₂ Q p.genes c := by
  intro c hc state hstate
  exact List.forall_mem_append.mpr ⟨hstate, List.forall_mem_singleton.mpr hc⟩

/-- The chromosomes that an evolution by NSGA-II asks for, also if one of them ends it. -/
def Nsga2.asked (p : Problem τ) (settings : Settings) (objectives : List Objective)
    (seeds : List Chromosome) (source : γ) (t : τ) : List Chromosome :=
  ((evolve p.watched settings objectives seeds source).run.run (t, [])).2.2

/-- An evolution ends like it does when it is not watched. -/
theorem Nsga2.ends_watched {settings : Settings} (t : τ) :
    Ends (fun state t => state.1 = t) (fun _ _ => False) (Outcome.Alike .exact)
      ((evolve p.watched settings objectives seeds source).run.run (t, []))
      ((evolve p settings objectives seeds source).run.run t) :=
  paired_evolve p.alike_watched (t, []) t rfl

theorem Nsga2.forall_asked {settings : Settings} (hQ : Gene.Kept γ p.genes Q)
    (hseeds : ∀ seed ∈ seeds, seed.length = p.genes.length →
      List.Forall₂ Q p.genes (p.genes.zipWith Gene.clip seed)) (t : τ) :
    ∀ c ∈ asked p settings objectives seeds source t, List.Forall₂ Q p.genes c :=
  keeps_evolve (p := p.watched) (p.keepsOn_watched Q) hQ hseeds (t, [])
    fun _ hc => absurd hc List.not_mem_nil

/-- The chromosomes that an evolution of the genetic algorithm asks for, also if one of them ends
it. -/
def Genetic.asked (p : Problem τ) (settings : Settings) (objectives : List Objective)
    (o : Objective) (seeds : List Chromosome) (source : γ) (t : τ) : List Chromosome :=
  ((evolve p.watched settings objectives o seeds source).run.run (t, [])).2.2

/-- An evolution ends like it does when it is not watched. -/
theorem Genetic.ends_watched {settings : Settings} {o : Objective} (t : τ) :
    Ends (fun state t => state.1 = t) (fun _ _ => False) (AlikeWithHistory .exact)
      ((evolve p.watched settings objectives o seeds source).run.run (t, []))
      ((evolve p settings objectives o seeds source).run.run t) :=
  paired_evolve p.alike_watched (t, []) t rfl

theorem Genetic.forall_asked {settings : Settings} {o : Objective} (hQ : Gene.Kept γ p.genes Q)
    (hcheck : settings.check = .ok ()) (hseeds : ∀ seed ∈ seeds, List.Forall₂ Q p.genes seed)
    (t : τ) : ∀ c ∈ asked p settings objectives o seeds source t, List.Forall₂ Q p.genes c :=
  keeps_evolve (p := p.watched) (p.keepsOn_watched Q) hQ hcheck hseeds (t, [])
    fun _ hc => absurd hc List.not_mem_nil

end Evolution

end Retrofit
