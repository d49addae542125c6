import Retrofit.Proofs.Search.Run
import Retrofit.Search.Genetic
import Retrofit.Search.Nsga2

/-!
# A journal of the evaluated candidates

`Problem.logged` writes every evaluated candidate into a journal beside the state. An evolution on
the logged problem is the evolution on the problem itself (`exists_returns_logged`), so the journal
tells which candidates an evolution has evaluated.
-/

namespace Retrofit

open Retrofit.Random

/-- The evaluated candidates in order. -/
abbrev Journal := List (Chromosome × PortfolioSolution)

/-- The problem with a journal of its evaluations. -/
def Problem.logged {τ : Type} (p : Problem τ) : Problem (τ × Journal) where
  genes := p.genes
  evaluate c := fun state =>
    match (p.evaluate c).run.run state.1 with
    | (.ok x, t) => (.ok x, (t, state.2 ++ [(c, x)]))
    | (.error reason, t) => (.error reason, (t, state.2))
  evaluations state := p.evaluations state.1

/-! ## Searches over a state with more to it -/

section Mirrors

variable {τ τ' α β : Type} {view : τ' → τ}

/-- A search over a richer state does what another search does on what is seen of the state. -/
def Mirrors (view : τ' → τ) (m' : Search τ' α) (m : Search τ α) : Prop :=
  ∀ t', m.run.run (view t') = ((m'.run.run t').1, view (m'.run.run t').2)

lemma mirrors_pure (a : α) : Mirrors view (pure a) (pure a) := fun _ => rfl

lemma mirrors_throw (reason : SearchError) :
    Mirrors view (throw reason : Search τ' α) (throw reason) := fun _ => rfl

lemma mirrors_bind {m' : Search τ' α} {m : Search τ α} {f' : α → Search τ' β}
    {f : α → Search τ β} (hm : Mirrors view m' m) (hf : ∀ a, Mirrors view (f' a) (f a)) :
    Mirrors view (m' >>= f') (m >>= f) := by
  intro t'
  rw [run_bind, run_bind, hm t']
  generalize m'.run.run t' = outcome
  obtain ⟨result, t₁⟩ := outcome
  cases result with
  | error reason => rfl
  | ok a => exact hf a t₁

lemma mirrors_throw_bind (reason : SearchError) (f' : α → Search τ' β) (f : α → Search τ β) :
    Mirrors view (throw reason >>= f') (throw reason >>= f) := fun _ => rfl

lemma mirrors_draw {γ : Type} (attempt : DrawAttempt γ α) (source : γ) :
    Mirrors view (Search.draw attempt source) (Search.draw attempt source) := by
  unfold Search.draw
  split
  · exact mirrors_pure _
  · exact mirrors_throw _

lemma mirrors_mapM {f' : α → Search τ' β} {f : α → Search τ β} (hf : ∀ a, Mirrors view (f' a) (f a))
    (l : List α) : Mirrors view (l.mapM f') (l.mapM f) := by
  induction l with
  | nil => exact mirrors_pure []
  | cons a l ih =>
    rw [List.mapM_cons, List.mapM_cons]
    refine mirrors_bind (hf a) fun b => ?_
    exact mirrors_bind ih fun bs => mirrors_pure (b :: bs)

/-- What a search returns, one that mirrors it returns. -/
lemma Mirrors.exists_returns {m' : Search τ' α} {m : Search τ α} (h : Mirrors view m' m) (t' : τ')
    {t : τ} {a : α} (hm : Returns m (view t') a t) : ∃ t₁, Returns m' t' a t₁ ∧ view t₁ = t := by
  have hmirror := h t'
  unfold Returns at hm ⊢
  rw [hm] at hmirror
  generalize m'.run.run t' = outcome at hmirror
  obtain ⟨result, t₁⟩ := outcome
  cases hmirror
  exact ⟨t₁, rfl, rfl⟩

end Mirrors

section Logged

variable {τ : Type} (p : Problem τ)

lemma run_logged_evaluate (c : Chromosome) (state : τ × Journal) :
    (p.logged.evaluate c).run.run state =
      match (p.evaluate c).run.run state.1 with
      | (.ok x, t) => (.ok x, (t, state.2 ++ [(c, x)]))
      | (.error reason, t) => (.error reason, (t, state.2)) :=
  rfl

lemma returns_logged_evaluate {c : Chromosome} {t t' : τ} {journal journal' : Journal}
    {x : PortfolioSolution} (h : Returns (p.logged.evaluate c) (t, journal) x (t', journal')) :
    Returns (p.evaluate c) t x t' ∧ journal' = journal ++ [(c, x)] := by
  unfold Returns at h ⊢
  rw [run_logged_evaluate] at h
  generalize (p.evaluate c).run.run t = outcome at h ⊢
  obtain ⟨result, t₁⟩ := outcome
  cases result with
  | error reason => cases h
  | ok y =>
    cases h
    exact ⟨rfl, rfl⟩

lemma returns_logged_evaluateAll {chromosomes : List Chromosome} {t t' : τ}
    {journal journal' : Journal} {solutions : List PortfolioSolution}
    (h : Returns (p.logged.evaluateAll chromosomes) (t, journal) solutions (t', journal')) :
    Returns (p.evaluateAll chromosomes) t solutions t' ∧
      journal' = journal ++ chromosomes.zip solutions := by
  unfold Problem.evaluateAll at h ⊢
  induction chromosomes generalizing t journal solutions with
  | nil =>
    obtain ⟨rfl, heq⟩ := returns_pure.mp h
    cases heq
    exact ⟨returns_pure.mpr ⟨rfl, rfl⟩, (List.append_nil _).symm⟩
  | cons c rest ih =>
    rw [List.mapM_cons] at h ⊢
    obtain ⟨x, ⟨t₁, journal₁⟩, hlogged, h⟩ := returns_bind.mp h
    obtain ⟨xs, ⟨t₂, journal₂⟩, hrest, h⟩ := returns_bind.mp h
    obtain ⟨rfl, heq⟩ := returns_pure.mp h
    cases heq
    obtain ⟨hx, rfl⟩ := returns_logged_evaluate p hlogged
    obtain ⟨hxs, hjournal⟩ := ih hrest
    refine ⟨returns_bind.mpr ⟨x, t₁, hx, ?_⟩, ?_⟩
    · exact returns_bind.mpr ⟨xs, t', hxs, returns_pure.mpr ⟨rfl, rfl⟩⟩
    · rw [hjournal, List.append_assoc, List.zip_cons_cons]
      rfl

lemma mirrors_logged_evaluate (c : Chromosome) :
    Mirrors Prod.fst (p.logged.evaluate c) (p.evaluate c) := by
  intro state
  rw [run_logged_evaluate]
  generalize (p.evaluate c).run.run state.1 = outcome
  obtain ⟨result, t⟩ := outcome
  cases result <;> rfl

lemma mirrors_logged_spent : Mirrors Prod.fst p.logged.spent p.spent := fun _ => rfl

lemma mirrors_logged_evaluateAll (chromosomes : List Chromosome) :
    Mirrors Prod.fst (p.logged.evaluateAll chromosomes) (p.evaluateAll chromosomes) :=
  mirrors_mapM (mirrors_logged_evaluate p) chromosomes

end Logged

/-! ## Evolution with a journal -/

namespace Nsga2

variable {τ γ : Type} [Source γ] (p : Problem τ) (settings : Settings)
  (objectives : List Objective)

lemma mirrors_logged_members (chromosomes : List Chromosome) :
    Mirrors Prod.fst (evaluate p.logged chromosomes) (evaluate p chromosomes) :=
  mirrors_bind (mirrors_logged_evaluateAll p chromosomes) fun _ => mirrors_pure _

lemma mirrors_logged_select (population : List Member) (chromosomes : List Chromosome) :
    Mirrors Prod.fst (select p.logged settings objectives population chromosomes)
      (select p settings objectives population chromosomes) :=
  mirrors_bind (mirrors_logged_members p chromosomes) fun _ => mirrors_pure _

lemma mirrors_logged_breed (remaining generation : Nat) (source : γ) (population : List Member) :
    Mirrors Prod.fst (breed p.logged settings objectives remaining generation source population)
      (breed p settings objectives remaining generation source population) := by
  induction remaining generalizing generation source population with
  | zero => exact mirrors_pure _
  | succ remaining ih =>
    refine mirrors_bind (mirrors_draw _ _) fun drawn => ?_
    refine mirrors_bind (mirrors_logged_select p settings objectives _ _) fun next => ?_
    refine mirrors_bind (mirrors_logged_spent p) fun evaluations => ?_
    exact mirrors_bind (ih _ _ _) fun _ => mirrors_pure _

theorem mirrors_logged_evolve (seeds : List Chromosome) (source : γ) :
    Mirrors Prod.fst (evolve p.logged settings objectives seeds source)
      (evolve p settings objectives seeds source) := by
  unfold evolve
  dsimp only
  split
  · exact mirrors_throw_bind _ _ _
  · split
    · exact mirrors_throw _
    · change Mirrors _ (if p.genes.isEmpty then _ else _) _
      split
      · refine mirrors_bind (mirrors_logged_members p _) fun members => ?_
        exact mirrors_bind (mirrors_logged_spent p) fun _ => mirrors_pure _
      · refine mirrors_bind (mirrors_draw _ _) fun drawn => ?_
        refine mirrors_bind (mirrors_logged_select p settings objectives _ _) fun population => ?_
        refine mirrors_bind (mirrors_logged_spent p) fun evaluations => ?_
        exact mirrors_bind (mirrors_logged_breed p settings objectives _ _ _ _)
          fun _ => mirrors_pure _

/-- What an evolution returns it returns with a journal as well. -/
theorem exists_returns_logged {seeds : List Chromosome} {source : γ} {t t' : τ} {outcome : Outcome}
    (h : Returns (evolve p settings objectives seeds source) t outcome t') :
    ∃ journal, Returns (evolve p.logged settings objectives seeds source) (t, []) outcome
      (t', journal) := by
  obtain ⟨⟨_, journal⟩, hlogged, rfl⟩ :=
    (mirrors_logged_evolve p settings objectives seeds source).exists_returns (t, []) h
  exact ⟨journal, hlogged⟩

end Nsga2

namespace Genetic

variable {τ γ : Type} [Source γ] (p : Problem τ) (settings : Settings)
  (objectives : List Objective) (o : Objective)

lemma mirrors_logged_select (elite : List Individual) (chromosomes : List Chromosome) :
    Mirrors Prod.fst (select p.logged settings o elite chromosomes)
      (select p settings o elite chromosomes) :=
  mirrors_bind (mirrors_logged_evaluateAll p chromosomes) fun _ => mirrors_pure _

lemma mirrors_logged_breed (remaining generation : Nat) (source : γ) (elite : List Individual)
    (chromosomes : List Chromosome) :
    Mirrors Prod.fst
      (breed p.logged settings objectives o remaining generation source elite chromosomes)
      (breed p settings objectives o remaining generation source elite chromosomes) := by
  induction remaining generalizing generation source elite chromosomes with
  | zero =>
    unfold breed
    refine mirrors_bind (mirrors_logged_select p settings o _ _) fun population => ?_
    exact mirrors_bind (mirrors_logged_spent p) fun _ => mirrors_pure _
  | succ remaining ih =>
    unfold breed
    refine mirrors_bind (mirrors_logged_select p settings o _ _) fun population => ?_
    refine mirrors_bind (mirrors_logged_spent p) fun evaluations => ?_
    refine mirrors_bind (mirrors_draw _ _) fun drawn => ?_
    exact mirrors_bind (ih _ _ _ _) fun _ => mirrors_pure _

/-- What an evolution returns it returns with a journal as well. -/
theorem exists_returns_logged {seeds : List Chromosome} {source : γ} {t t' : τ}
    {found : List Individual × List GenerationSummary}
    (h : Returns (evolve p settings objectives o seeds source) t found t') :
    ∃ journal, Returns (evolve p.logged settings objectives o seeds source) (t, []) found
      (t', journal) := by
  have hmirrors : Mirrors Prod.fst (evolve p.logged settings objectives o seeds source)
      (evolve p settings objectives o seeds source) :=
    mirrors_bind (mirrors_draw _ _) fun _ => mirrors_logged_breed p settings objectives o _ _ _ _ _
  obtain ⟨⟨_, journal⟩, hlogged, rfl⟩ := hmirrors.exists_returns (t, []) h
  exact ⟨journal, hlogged⟩

end Genetic

end Retrofit
