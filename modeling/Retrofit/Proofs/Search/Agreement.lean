import Retrofit.Proofs.Search.Run
import Retrofit.Search.Genetic
import Retrofit.Search.Nsga2

/-!
# Two searches side by side

Rules for two searches that run over related states. Both agree if they return related values and
leave related states, or if both fail, for one reason or for two that are set against each other;
then so do the two evolutions on problems that agree in every batch (`Nsga2.paired_evolve`,
`Genetic.paired_evolve`). How much of the counts of evaluated candidates is the same is a matter of
its own (`Counting`).
-/

namespace Retrofit

open Retrofit.Random

variable {τ τ' α β α' β' : Type}

/-- What two searches end with if they agree: related values in related states, or a reason each. The
reasons are the same, or as `E` says. -/
inductive Ends (I : τ → τ' → Prop) (E : SearchError → SearchError → Prop) (V : α → α' → Prop) :
    Except SearchError α × τ → Except SearchError α' × τ' → Prop
  | returned {a : α} {a' : α'} {t : τ} {t' : τ'} :
      V a a' → I t t' → Ends I E V (.ok a, t) (.ok a', t')
  | failed (reason reason' : SearchError) (t : τ) (t' : τ') :
      reason = reason' ∨ E reason reason' → Ends I E V (.error reason, t) (.error reason', t')

/-- From related states the ends of two searches are as `O` says. -/
def Paired (I : τ → τ' → Prop) (O : Except SearchError α × τ → Except SearchError α' × τ' → Prop)
    (m : Search τ α) (m' : Search τ' α') : Prop :=
  ∀ t t', I t t' → O (m.run.run t) (m'.run.run t')

section Rules

variable {I J : τ → τ' → Prop} {E : SearchError → SearchError → Prop} {V : α → α' → Prop}

lemma paired_pure {a : α} {a' : α'} (h : V a a') : Paired I (Ends I E V) (pure a) (pure a') :=
  fun _ _ ht => .returned h ht

lemma paired_throw (reason : SearchError) :
    Paired I (Ends J E V) (throw reason) (throw reason) :=
  fun t t' _ => .failed reason reason t t' (Or.inl rfl)

/-- After two searches that agree come two that end as `O` says, if `O` allows for a failure on both
sides. -/
theorem paired_bind {O : Except SearchError β × τ → Except SearchError β' × τ' → Prop}
    {m : Search τ α} {m' : Search τ' α'} {f : α → Search τ β} {f' : α' → Search τ' β'}
    (hfailed : ∀ reason reason' t t', reason = reason' ∨ E reason reason' →
      O (.error reason, t) (.error reason', t'))
    (hm : Paired I (Ends J E V) m m') (hf : ∀ a a', V a a' → Paired J O (f a) (f' a')) :
    Paired I O (m >>= f) (m' >>= f') := by
  intro t t' ht
  have hends := hm t t' ht
  rw [run_bind, run_bind]
  generalize m.run.run t = first at hends
  generalize m'.run.run t' = first' at hends
  cases hends with
  | returned hV hJ => exact hf _ _ hV _ _ hJ
  | failed reason reason' t₁ t₁' h => exact hfailed reason reason' t₁ t₁' h

/-- The rule for searches with equal values. -/
lemma paired_bind_eq {O : Except SearchError β × τ → Except SearchError β' × τ' → Prop}
    {m : Search τ α} {m' : Search τ' α} {f : α → Search τ β} {f' : α → Search τ' β'}
    (hfailed : ∀ reason reason' t t', reason = reason' ∨ E reason reason' →
      O (.error reason, t) (.error reason', t'))
    (hm : Paired I (Ends J E Eq) m m') (hf : ∀ a, Paired J O (f a) (f' a)) :
    Paired I O (m >>= f) (m' >>= f') := by
  refine paired_bind hfailed hm fun a a' heq => ?_
  rw [← heq]
  exact hf a

/-- Searches that agree one by one agree in a row, and what all values are like they are like. -/
lemma paired_mapM {Q : β → α → Prop} {f : β → Search τ α} {f' : β → Search τ' α}
    (hf : ∀ b, Paired I (Ends I E fun a a' => a = a' ∧ Q b a) (f b) (f' b)) (l : List β) :
    Paired I (Ends I E fun as as' => as = as' ∧ List.Forall₂ Q l as) (l.mapM f) (l.mapM f') := by
  induction l with
  | nil => exact paired_pure ⟨rfl, .nil⟩
  | cons b l ih =>
    rw [List.mapM_cons, List.mapM_cons]
    refine paired_bind .failed (hf b) ?_
    rintro a _ ⟨rfl, ha⟩
    refine paired_bind .failed ih ?_
    rintro as _ ⟨rfl, has⟩
    exact paired_pure ⟨rfl, .cons ha has⟩

lemma paired_draw {γ : Type} (attempt : DrawAttempt γ α) (source : γ) :
    Paired I (Ends I E Eq) (Search.draw attempt source) (Search.draw attempt source) := by
  unfold Search.draw
  split
  · exact paired_pure rfl
  · exact paired_throw _

/-- Values that are related in one way are related in a weaker one. -/
lemma Paired.mono {W : α → α' → Prop} {m : Search τ α} {m' : Search τ' α'}
    (h : Paired I (Ends J E V) m m') (hV : ∀ a a', V a a' → W a a') :
    Paired I (Ends J E W) m m' := by
  intro t t' ht
  have hends := h t t' ht
  generalize m.run.run t = first at hends ⊢
  generalize m'.run.run t' = first' at hends ⊢
  cases hends with
  | returned ha hJ => exact .returned (hV _ _ ha) hJ
  | failed reason reason' t₁ t₁' hreasons => exact .failed reason reason' t₁ t₁' hreasons

/-- What holds of two searches that agree and both return. -/
lemma Ends.of_returns {m : Search τ α} {m' : Search τ' α'} {t t₁ : τ} {t' t₁' : τ'} {a : α} {a' : α'}
    (h : Ends I E V (m.run.run t) (m'.run.run t')) (hm : Returns m t a t₁)
    (hm' : Returns m' t' a' t₁') : V a a' ∧ I t₁ t₁' := by
  unfold Returns at hm hm'
  rw [hm, hm'] at h
  cases h with
  | returned hV ht => exact ⟨hV, ht⟩

end Rules

/-! ## Problems that agree -/

/-- How much of two counts of evaluated candidates is the same. -/
inductive Counting where
  /-- Nothing. -/
  | free
  /-- Whether there were any. -/
  | presence
  | exact
deriving DecidableEq

/-- Counts that are as much the same. -/
def SameCount : Counting → Nat → Nat → Prop
  | .free, _, _ => True
  | .presence, n, n' => n = 0 ↔ n' = 0
  | .exact, n, n' => n = n'

namespace SameCount

variable {counting : Counting} {n n' k k' : Nat}

lemma refl (counting : Counting) (n : Nat) : SameCount counting n n := by
  cases counting with
  | free => trivial
  | presence => exact Iff.rfl
  | exact => rfl

lemma add (h : SameCount counting n n') (h' : SameCount counting k k') :
    SameCount counting (n + k) (n' + k') := by
  cases counting with
  | free => trivial
  | presence =>
    change n + k = 0 ↔ n' + k' = 0
    rw [Nat.add_eq_zero_iff, Nat.add_eq_zero_iff]
    exact and_congr h h'
  | exact => exact congrArg₂ (· + ·) h h'

/-- As far as counts are compared at all, both are zero or neither is. -/
lemma eq_zero_iff (hcounting : counting ≠ .free) (h : SameCount counting n n') :
    n = 0 ↔ n' = 0 := by
  cases counting with
  | free => exact absurd rfl hcounting
  | presence => exact h
  | exact => rw [show n = n' from h]

end SameCount

/-- Two problems and ways to evaluate batches of them that agree in every batch. -/
structure Problem.Alike (I : τ → τ' → Prop) (E : SearchError → SearchError → Prop)
    (counting : Counting) (p : Problem τ) (evaluator : Evaluator τ) (p' : Problem τ')
    (evaluator' : Evaluator τ') : Prop where
  genes_eq : p.genes = p'.genes
  batch : ∀ chromosomes, Paired I (Ends I E Eq) (evaluator chromosomes) (evaluator' chromosomes)
  evaluations : ∀ t t', I t t' → SameCount counting (p.evaluations t) (p'.evaluations t')

/-- Summaries that are the same, up to the counts of evaluated candidates. -/
structure GenerationSummary.Alike (counting : Counting) (s s' : GenerationSummary) : Prop where
  evaluations : SameCount counting s.evaluations s'.evaluations
  others_eq : s = { s' with evaluations := s.evaluations }

lemma GenerationSummary.Alike.of_sameCount {counting : Counting} {n n' generation frontSize : Nat}
    {objectives : List Objective} {population : List PortfolioSolution}
    (h : SameCount counting n n') :
    Alike counting (ofPopulation generation frontSize n objectives population)
      (ofPopulation generation frontSize n' objectives population) :=
  ⟨h, rfl⟩

/-- Histories of which each summary is the same, up to the counts. -/
def HistoriesAlike (counting : Counting) : List GenerationSummary → List GenerationSummary → Prop :=
  List.Forall₂ (GenerationSummary.Alike counting)

/-- Two values of which one is the same and the other is a history. -/
def AlikeWithHistory (counting : Counting) (r r' : α × List GenerationSummary) : Prop :=
  r.1 = r'.1 ∧ HistoriesAlike counting r.2 r'.2

section Evolution

variable {γ : Type} [Source γ] {I : τ → τ' → Prop} {E : SearchError → SearchError → Prop}
  {counting : Counting} {p : Problem τ} {evaluator : Evaluator τ} {p' : Problem τ'}
  {evaluator' : Evaluator τ'} {objectives : List Objective} {source : γ}

/-- Problems that agree in every evaluation agree in every batch that is evaluated in order. -/
lemma Problem.alike_of_evaluate (hgenes : p.genes = p'.genes)
    (hevaluate : ∀ c, Paired I (Ends I E Eq) (p.evaluate c) (p'.evaluate c))
    (hevaluations : ∀ t t', I t t' → SameCount counting (p.evaluations t) (p'.evaluations t')) :
    p.Alike I E counting p.evaluateAll p' p'.evaluateAll where
  genes_eq := hgenes
  batch chromosomes := by
    refine (paired_mapM (Q := fun _ _ => True) (fun c => ?_) chromosomes).mono fun _ _ h => h.1
    exact (hevaluate c).mono fun _ _ heq => ⟨heq, trivial⟩
  evaluations := hevaluations

lemma Problem.Alike.spent (h : p.Alike I E counting evaluator p' evaluator') :
    Paired I (Ends I E (SameCount counting)) p.spent p'.spent :=
  fun t t' ht => .returned (h.evaluations t t' ht) ht

namespace Nsga2

variable {settings : Settings}

lemma paired_evaluate (h : p.Alike I E counting evaluator p' evaluator')
    (chromosomes : List Chromosome) :
    Paired I (Ends I E Eq) (evaluate p chromosomes evaluator)
      (evaluate p' chromosomes evaluator') :=
  paired_bind_eq .failed (h.batch chromosomes) fun _ => paired_pure rfl

lemma paired_select (h : p.Alike I E counting evaluator p' evaluator') (population : List Member)
    (chromosomes : List Chromosome) :
    Paired I (Ends I E Eq) (select p settings objectives population chromosomes evaluator)
      (select p' settings objectives population chromosomes evaluator') :=
  paired_bind_eq .failed (paired_evaluate h chromosomes) fun _ => paired_pure rfl

lemma paired_breed (h : p.Alike I E counting evaluator p' evaluator') {remaining generation : Nat}
    {population : List Member} :
    Paired I (Ends I E (AlikeWithHistory counting))
      (breed p settings objectives remaining generation source population evaluator)
      (breed p' settings objectives remaining generation source population evaluator') := by
  induction remaining generalizing generation source population with
  | zero => exact paired_pure ⟨rfl, .nil⟩
  | succ remaining ih =>
    unfold breed
    rw [h.genes_eq]
    refine paired_bind_eq .failed (paired_draw _ _) fun drawn => ?_
    refine paired_bind_eq .failed (paired_select h _ _) fun next => ?_
    refine paired_bind .failed h.spent fun n n' hcount => ?_
    refine paired_bind .failed ih ?_
    rintro ⟨last, later⟩ ⟨last', later'⟩ ⟨hlast, hlater⟩
    exact paired_pure ⟨hlast, .cons (.of_sameCount hcount) hlater⟩

/-- Outcomes that are the same, up to the counts in the history. -/
structure Outcome.Alike (counting : Counting) (o o' : Outcome) : Prop where
  front_eq : o.front = o'.front
  history : HistoriesAlike counting o.history o'.history

/-- Evolutions on problems that agree have the same outcome. -/
theorem paired_evolve (h : p.Alike I E counting evaluator p' evaluator')
    {seeds : List Chromosome} :
    Paired I (Ends I E (Outcome.Alike counting))
      (evolve p settings objectives seeds source evaluator)
      (evolve p' settings objectives seeds source evaluator') := by
  unfold evolve
  dsimp only
  split
  · exact paired_throw _
  · split
    · exact paired_throw _
    · rw [h.genes_eq]
      split
      · refine paired_bind_eq .failed (paired_evaluate h _) fun members => ?_
        refine paired_bind .failed h.spent fun n n' hcount => ?_
        exact paired_pure ⟨rfl, .cons (.of_sameCount hcount) .nil⟩
      · refine paired_bind_eq .failed (paired_draw _ _) fun drawn => ?_
        refine paired_bind_eq .failed (paired_select h _ _) fun population => ?_
        refine paired_bind .failed h.spent fun n n' hcount => ?_
        refine paired_bind .failed (paired_breed h) ?_
        rintro ⟨last, later⟩ ⟨last', later'⟩ ⟨hlast, hlater⟩
        cases hlast
        exact paired_pure ⟨rfl, .cons (.of_sameCount hcount) hlater⟩

end Nsga2

namespace Genetic

variable {settings : Settings} {o : Objective}

lemma paired_select (h : p.Alike I E counting evaluator p' evaluator') (elite : List Individual)
    (chromosomes : List Chromosome) :
    Paired I (Ends I E Eq) (select p settings o elite chromosomes evaluator)
      (select p' settings o elite chromosomes evaluator') :=
  paired_bind_eq .failed (h.batch chromosomes) fun _ => paired_pure rfl

lemma paired_breed (h : p.Alike I E counting evaluator p' evaluator') {remaining generation : Nat}
    {elite : List Individual} {chromosomes : List Chromosome} :
    Paired I (Ends I E (AlikeWithHistory counting))
      (breed p settings objectives o remaining generation source elite chromosomes evaluator)
      (breed p' settings objectives o remaining generation source elite chromosomes
        evaluator') := by
  induction remaining generalizing generation source elite chromosomes with
  | zero =>
    unfold breed
    refine paired_bind_eq .failed (paired_select h _ _) fun population => ?_
    refine paired_bind .failed h.spent fun n n' hcount => ?_
    exact paired_pure ⟨rfl, .cons (.of_sameCount hcount) .nil⟩
  | succ remaining ih =>
    unfold breed
    rw [h.genes_eq]
    refine paired_bind_eq .failed (paired_select h _ _) fun population => ?_
    refine paired_bind .failed h.spent fun n n' hcount => ?_
    refine paired_bind_eq .failed (paired_draw _ _) fun drawn => ?_
    refine paired_bind .failed ih ?_
    rintro ⟨last, later⟩ ⟨last', later'⟩ ⟨hlast, hlater⟩
    exact paired_pure ⟨hlast, .cons (.of_sameCount hcount) hlater⟩

/-- Evolutions on problems that agree have the same last population. -/
theorem paired_evolve (h : p.Alike I E counting evaluator p' evaluator')
    {seeds : List Chromosome} :
    Paired I (Ends I E (AlikeWithHistory counting))
      (evolve p settings objectives o seeds source evaluator)
      (evolve p' settings objectives o seeds source evaluator') := by
  unfold evolve
  rw [h.genes_eq]
  exact paired_bind_eq .failed (paired_draw _ _) fun _ => paired_breed h

end Genetic

end Evolution

end Retrofit
