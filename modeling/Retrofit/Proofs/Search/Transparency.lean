import Retrofit.Optimiser.Basic
import Retrofit.Proofs.Search.Agreement
import Retrofit.Proofs.Search.SiteFronts

/-!
# What a cache knows does not change what is found

A run asks its cache for every outcome it uses. So two runs whose caches give the same answers, and
whose pools make the same of every batch, end alike (`Optimiser.paired_runOn`): only what counts the
calls of the simulator may differ.
-/

namespace Retrofit

open Retrofit.Random

variable {σ σ' : Type}

/-! ## Caches that give the same answers -/

/-- Trials with related caches, and with counts that are as much the same. -/
structure Trial.Alike (C : Cache σ → Cache σ' → Prop) (counting : Counting) (t : Trial σ)
    (t' : Trial σ') : Prop where
  cache : C t.cache t'.cache
  evaluations : SameCount counting t.evaluations t'.evaluations

/-- The same value and, if calls are counted at all, the same call. -/
def SameCall {α : Type} (counting : Counting) (r r' : α × Bool) : Prop :=
  r.1 = r'.1 ∧ (counting ≠ .free → r.2 = r'.2)

/-- Whatever is asked of two related caches is answered alike, and leaves them related. -/
def Simulator.AnswersAlike (C : Cache σ → Cache σ' → Prop) (counting : Counting)
    (simulate : Simulator σ) (simulate' : Simulator σ') : Prop :=
  ∀ scenario cache cache', C cache cache' →
    (∃ r r', (Cache.evaluate simulate scenario cache).1 = .ok r ∧
      (Cache.evaluate simulate' scenario cache').1 = .ok r' ∧ SameCall counting r r' ∧
      C (Cache.evaluate simulate scenario cache).2 (Cache.evaluate simulate' scenario cache').2) ∨
    ∃ fault, (Cache.evaluate simulate scenario cache).1 = .error fault ∧
      (Cache.evaluate simulate' scenario cache').1 = .error fault

section Asking

variable {C : Cache σ → Cache σ' → Prop} {counting : Counting} {simulate : Simulator σ}
  {simulate' : Simulator σ'} {E : SearchError → SearchError → Prop}

lemma Simulator.AnswersAlike.ask (h : simulate.AnswersAlike C counting simulate')
    (siteId : String) (scenario : Scenario) :
    Paired (Trial.Alike C counting) (Ends (Trial.Alike C counting) E (SameCall counting))
      (Trial.ask simulate siteId scenario) (Trial.ask simulate' siteId scenario) := by
  intro t t' ht
  change Ends _ _ _ (Trial.ask simulate siteId scenario t) (Trial.ask simulate' siteId scenario t')
  have hstep := h scenario t.cache t'.cache ht.cache
  unfold Trial.ask
  generalize Cache.evaluate simulate scenario t.cache = answer at hstep
  generalize Cache.evaluate simulate' scenario t'.cache = answer' at hstep
  obtain ⟨result, cache⟩ := answer
  obtain ⟨result', cache'⟩ := answer'
  rcases hstep with ⟨r, r', rfl, rfl, hr, hC⟩ | ⟨fault, rfl, rfl⟩
  · exact .returned hr ⟨hC, ht.evaluations⟩
  · exact .failed _ _ _ _ (Or.inl rfl)

end Asking

/-- The caches know the same results. -/
def SameKnown (cache : Cache σ) (cache' : Cache σ') : Prop :=
  cache.find? = cache'.find?

/-- Caches that know the same call simulators with the same outcomes for the same scenarios. -/
lemma answersAlike_of_known {outcome : Scenario → Except Fault (Totals Amount)}
    {simulate : Simulator σ} {simulate' : Simulator σ'} (hsimulate : simulate.Computes outcome)
    (hsimulate' : simulate'.Computes outcome) (counting : Counting) :
    simulate.AnswersAlike SameKnown counting simulate' := by
  intro scenario cache cache' hknown
  have hfind := congrFun hknown scenario
  cases hresult : cache.find? scenario with
  | some result =>
    rw [Cache.evaluate_of_find?_eq_some hresult,
      Cache.evaluate_of_find?_eq_some (hfind.symm.trans hresult)]
    exact Or.inl ⟨_, _, rfl, rfl, ⟨rfl, fun _ => rfl⟩, hknown⟩
  | none =>
    have hanswer := hsimulate scenario cache.world
    have hanswer' := hsimulate' scenario cache'.world
    cases houtcome : outcome scenario with
    | ok result =>
      rw [houtcome] at hanswer hanswer'
      rw [Cache.evaluate_of_answer hresult (Prod.ext hanswer rfl),
        Cache.evaluate_of_answer (hfind.symm.trans hresult) (Prod.ext hanswer' rfl)]
      refine Or.inl ⟨_, _, rfl, rfl, ⟨rfl, fun _ => rfl⟩, funext fun scenario' => ?_⟩
      unfold Cache.find?
      rw [Slots.result?_fill_withSlot, Slots.result?_fill_withSlot]
      exact if_congr Iff.rfl rfl (congrFun hknown scenario')
    | error fault =>
      rw [houtcome] at hanswer hanswer'
      rw [Cache.evaluate_of_fault hresult (Prod.ext hanswer rfl),
        Cache.evaluate_of_fault (hfind.symm.trans hresult) (Prod.ext hanswer' rfl)]
      exact Or.inr ⟨fault, rfl, rfl⟩

/-! ## The problem of a portfolio -/

namespace PortfolioProblem

/-- A problem of these sites. -/
structure On (sites : List Site) (p : PortfolioProblem) : Prop where
  space : Space.ofPortfolio sites = .ok p.space
  sites_eq : p.sites.map Prod.fst = sites

variable {C : Cache σ → Cache σ' → Prop} {counting : Counting} {simulate : Simulator σ}
  {simulate' : Simulator σ'} {E : SearchError → SearchError → Prop}

lemma paired_liftExcept {α : Type} (e : Except SearchError α) :
    Paired (Trial.Alike C counting)
      (Ends (Trial.Alike C counting) E fun a a' => a = a' ∧ e = .ok a) (build.liftExcept e)
      (build.liftExcept e) := by
  unfold build.liftExcept
  split
  · exact paired_pure ⟨rfl, rfl⟩
  · exact paired_throw _

/-- The same problem of the sites is prepared. -/
lemma paired_build (h : simulate.AnswersAlike C counting simulate') (portfolio : List Site)
    (constraints : Constraints) :
    Paired (Trial.Alike C counting)
      (Ends (Trial.Alike C counting) E fun p p' => p = p' ∧ p.On portfolio)
      (build simulate portfolio constraints) (build simulate' portfolio constraints) := by
  unfold build
  dsimp only
  split
  · exact fun t t' _ => .failed _ _ t t' (Or.inl rfl)
  · refine paired_bind .failed (paired_liftExcept _) ?_
    rintro space _ ⟨rfl, hspace⟩
    refine paired_bind .failed
      (paired_mapM (Q := fun (site : Site) (e : Site × Totals Amount) => e.1 = site)
        (fun site => ?_) _) ?_
    · refine paired_bind .failed (h.ask _ _) ?_
      rintro ⟨baseline, called⟩ ⟨baseline', called'⟩ ⟨heq, -⟩
      cases heq
      exact paired_pure ⟨rfl, rfl⟩
    · rintro sites _ ⟨rfl, hsites⟩
      refine paired_pure ⟨rfl, hspace, ?_⟩
      rw [← List.forall₂_eq_eq_eq, List.forall₂_map_left_iff]
      exact hsites.flip

lemma paired_evaluateSites (h : simulate.AnswersAlike C counting simulate')
    {work : List (Scenario × Site × Totals Amount)} {solutions : Dict SiteSolution}
    {fresh fresh' : Bool} (hfresh : counting ≠ .free → fresh = fresh') :
    Paired (Trial.Alike C counting) (Ends (Trial.Alike C counting) E (SameCall counting))
      (evaluateSites simulate work solutions fresh)
      (evaluateSites simulate' work solutions fresh') := by
  induction work generalizing solutions fresh fresh' with
  | nil => exact paired_pure ⟨rfl, hfresh⟩
  | cons w rest ih =>
    refine paired_bind .failed (h.ask _ _) ?_
    rintro ⟨result, called⟩ ⟨result', called'⟩ ⟨heq, hcalled⟩
    cases heq
    refine ih fun hcounting => ?_
    rw [hfresh hcounting]
    exact congrArg (fresh' || ·) (hcalled hcounting)

/-- Counting leaves trials alike: if evaluations are counted at all, both sides count or neither
does. -/
lemma paired_count {α : Type} {fresh fresh' : Bool} (hfresh : counting ≠ .free → fresh = fresh')
    (a : α) :
    Paired (Trial.Alike C counting) (Ends (Trial.Alike C counting) E Eq)
      (if fresh then Trial.count >>= fun _ => pure a else pure a)
      (if fresh' then Trial.count >>= fun _ => pure a else pure a) := by
  have hruns : ∀ {σ : Type} (fresh : Bool) (t : Trial σ),
      (if fresh then Trial.count >>= fun _ => pure a else pure a : Search (Trial σ) α).run.run t =
        (.ok a, { t with evaluations := t.evaluations + if fresh then 1 else 0 }) := by
    intro σ fresh t
    cases fresh <;> rfl
  have hcounted : SameCount counting (if fresh then 1 else 0) (if fresh' then 1 else 0) := by
    by_cases hcounting : counting = .free
    · rw [hcounting]
      trivial
    · rw [hfresh hcounting]
      exact .refl _ _
  intro t t' ht
  rw [hruns, hruns]
  exact .returned rfl ⟨ht.cache, ht.evaluations.add hcounted⟩

lemma paired_evaluate (h : simulate.AnswersAlike C counting simulate') (p : PortfolioProblem)
    (c : Chromosome) :
    Paired (Trial.Alike C counting) (Ends (Trial.Alike C counting) E Eq) (p.evaluate simulate c)
      (p.evaluate simulate' c) := by
  refine paired_bind .failed (paired_evaluateSites h fun _ => rfl) ?_
  rintro ⟨solutions, fresh⟩ ⟨solutions', fresh'⟩ ⟨heq, hfresh⟩
  cases heq
  exact paired_count hfresh _

end PortfolioProblem

/-- Pools that make the same of every batch of candidates for sites of the portfolio. -/
def Pool.Alike (C : Cache σ → Cache σ' → Prop) (E : SearchError → SearchError → Prop)
    (counting : Counting) (portfolio : List Site) (threads : Nat) (pool : Pool σ)
    (pool' : Pool σ') : Prop :=
  ∀ sites p, sites ⊆ portfolio → p.On sites → ∀ chromosomes,
    Paired (Trial.Alike C counting) (Ends (Trial.Alike C counting) E Eq)
      (pool threads p chromosomes) (pool' threads p chromosomes)

section Pools

variable {C : Cache σ → Cache σ' → Prop} {E : SearchError → SearchError → Prop}
  {counting : Counting} {portfolio sites : List Site} {threads : Nat} {pool : Pool σ}
  {pool' : Pool σ'}

lemma Pool.Alike.problem (h : pool.Alike C E counting portfolio threads pool') {p : PortfolioProblem}
    (hsites : sites ⊆ portfolio) (hp : p.On sites) (simulate : Simulator σ)
    (simulate' : Simulator σ') :
    (p.problem simulate).Alike (Trial.Alike C counting) E counting (pool threads p)
      (p.problem simulate') (pool' threads p) where
  genes_eq := rfl
  batch := h sites p hsites hp
  evaluations _ _ ht := ht.evaluations

end Pools

lemma Nested.FrontProblem.alike_problem {τ τ' : Type} {I : τ → τ' → Prop}
    {E : SearchError → SearchError → Prop} {counting : Counting} (p : FrontProblem) {n n' : Nat}
    (h : SameCount counting n n') :
    (p.problem n : Problem τ).Alike I E counting (p.problem n).evaluateAll
      (p.problem n' : Problem τ') (p.problem n').evaluateAll := by
  refine Problem.alike_of_evaluate rfl (fun c => ?_) fun _ _ _ => h
  unfold problem
  dsimp only
  split
  · exact paired_pure rfl
  · exact paired_throw _

/-! ## Runs -/

/-- Results that are the same, up to the time and the counts of evaluated candidates. -/
structure OptimisationResult.Alike (counting : Counting) (r r' : OptimisationResult) : Prop where
  solutions_eq : r.solutions = r'.solutions
  evaluations : SameCount counting r.evaluations r'.evaluations
  history : Option.Rel (HistoriesAlike counting) r.history r'.history

lemma OptimisationResult.Alike.history_eq {r r' : OptimisationResult} (h : r.Alike .exact r') :
    r.history = r'.history := by
  have hsummary : ∀ {s s' : GenerationSummary}, s.Alike .exact s' → s = s' := by
    intro s s' hs
    rw [hs.others_eq, show s.evaluations = s'.evaluations from hs.evaluations]
  have hrel := h.history
  generalize r.history = history at hrel ⊢
  generalize r'.history = history' at hrel ⊢
  cases hrel with
  | none => rfl
  | some hsummaries =>
    congr 1
    exact List.forall₂_eq_eq_eq ▸ hsummaries.imp fun _ _ => hsummary

/-- Where evaluations are counted exactly nothing but the time can differ. -/
lemma OptimisationResult.Alike.eq {r r' : OptimisationResult} (h : r.Alike .exact r')
    (helapsed : r.elapsed = r'.elapsed) : r = r' := by
  obtain ⟨solutions, evaluations, elapsed, history⟩ := r
  obtain ⟨solutions', evaluations', elapsed', history'⟩ := r'
  congr 1
  · exact h.solutions_eq
  · exact h.evaluations
  · exact h.history_eq

/-- How two runs end together: they report alike, or both fail. If evaluations are not counted, one
of them may be rejected because it had nothing to evaluate. -/
inductive Concludes {τ τ' : Type} (I : τ → τ' → Prop) (E : SearchError → SearchError → Prop)
    (counting : Counting) :
    Except SearchError OptimisationResult × τ → Except SearchError OptimisationResult × τ' → Prop
  | reported {r r' : OptimisationResult} {t : τ} {t' : τ'} :
      r.Alike counting r' → I t t' → Concludes I E counting (.ok r, t) (.ok r', t')
  | failed (reason reason' : SearchError) (t : τ) (t' : τ') : reason = reason' ∨ E reason reason' →
      Concludes I E counting (.error reason, t) (.error reason', t')
  | firstRejected {r' : OptimisationResult} {t : τ} {t' : τ'} : counting = .free → I t t' →
      Concludes I E counting (.error (.invalidResult .noEvaluations), t) (.ok r', t')
  | secondRejected {r : OptimisationResult} {t : τ} {t' : τ'} : counting = .free → I t t' →
      Concludes I E counting (.ok r, t) (.error (.invalidResult .noEvaluations), t')

section Conclusions

variable {τ τ' : Type} {I : τ → τ' → Prop} {E : SearchError → SearchError → Prop}
  {counting : Counting} {m : Search τ OptimisationResult} {m' : Search τ' OptimisationResult}
  {t t₁ : τ} {t' t₁' : τ'} {r r' : OptimisationResult}

/-- What holds of two runs that end together and both return. -/
lemma Concludes.of_returns (h : Concludes I E counting (m.run.run t) (m'.run.run t'))
    (hr : Returns m t r t₁) (hr' : Returns m' t' r' t₁') : r.Alike counting r' ∧ I t₁ t₁' := by
  unfold Returns at hr hr'
  rw [hr, hr'] at h
  cases h with
  | reported halike ht => exact ⟨halike, ht⟩

/-- Where evaluations are counted, a run that returns goes with one that returns. -/
lemma Concludes.exists_returns (h : Concludes I E counting (m.run.run t) (m'.run.run t'))
    (hcounting : counting ≠ .free) (hr : Returns m t r t₁) :
    ∃ r' t₁', Returns m' t' r' t₁' ∧ r.Alike counting r' ∧ I t₁ t₁' := by
  unfold Returns at hr ⊢
  rw [hr] at h
  generalize m'.run.run t' = x' at h ⊢
  cases h with
  | reported halike ht => exact ⟨_, _, rfl, halike, ht⟩
  | secondRejected hfree _ => exact absurd hfree hcounting

end Conclusions

section Trials

variable {C : Cache σ → Cache σ' → Prop} {E : SearchError → SearchError → Prop}
  {counting : Counting}

variable (counting) in
lemma Trial.paired_run {α α' : Type} {V : α → α' → Prop} {m : Search (Trial σ) α}
    {m' : Search (Trial σ') α'}
    (h : Paired (Trial.Alike C counting) (Ends (Trial.Alike C counting) E V) m m') :
    Paired C (Ends C E V) (Trial.run m) (Trial.run m') := by
  intro cache cache' hC
  have hends := h ⟨cache, 0⟩ ⟨cache', 0⟩ ⟨hC, .refl counting 0⟩
  change Ends C E V ((m.run.run ⟨cache, 0⟩).1, (m.run.run ⟨cache, 0⟩).2.cache)
    ((m'.run.run ⟨cache', 0⟩).1, (m'.run.run ⟨cache', 0⟩).2.cache)
  generalize m.run.run ⟨cache, 0⟩ = x at hends ⊢
  generalize m'.run.run ⟨cache', 0⟩ = x' at hends ⊢
  cases hends with
  | returned hV ht => exact .returned hV ht.cache
  | failed reason reason' t t' h => exact .failed reason reason' _ _ h

lemma Trial.concludes_run {m : Search (Trial σ) OptimisationResult}
    {m' : Search (Trial σ') OptimisationResult}
    (h : Paired (Trial.Alike C counting) (Concludes (Trial.Alike C counting) E counting) m m') :
    Paired C (Concludes C E counting) (Trial.run m) (Trial.run m') := by
  intro cache cache' hC
  have hends := h ⟨cache, 0⟩ ⟨cache', 0⟩ ⟨hC, .refl counting 0⟩
  change Concludes C E counting ((m.run.run ⟨cache, 0⟩).1, (m.run.run ⟨cache, 0⟩).2.cache)
    ((m'.run.run ⟨cache', 0⟩).1, (m'.run.run ⟨cache', 0⟩).2.cache)
  generalize m.run.run ⟨cache, 0⟩ = x at hends ⊢
  generalize m'.run.run ⟨cache', 0⟩ = x' at hends ⊢
  cases hends with
  | reported hr ht => exact .reported hr ht.cache
  | failed reason reason' t t' h => exact .failed reason reason' _ _ h
  | firstRejected hfree ht => exact .firstRejected hfree ht.cache
  | secondRejected hfree ht => exact .secondRejected hfree ht.cache

end Trials

section Engines

variable {γ : Type} {C : Cache σ → Cache σ' → Prop} {E : SearchError → SearchError → Prop}
  {counting : Counting}

/-- Engines whose simulators answer alike, and whose runs take time. -/
structure Engine.Alike (C : Cache σ → Cache σ' → Prop) (counting : Counting) (engine : Engine σ γ)
    (engine' : Engine σ' γ) : Prop where
  simulate : engine.simulate.AnswersAlike C counting engine'.simulate
  elapsed : engine.elapsed.toNanos ≠ 0
  elapsed' : engine'.elapsed.toNanos ≠ 0

variable {engine : Engine σ γ} {engine' : Engine σ' γ} {request : Request} {pool : Pool σ}
  {pool' : Pool σ'}

/-- Evaluated in order, batches come out alike. -/
lemma Engine.Alike.oneByOne (h : engine.Alike C counting engine') (portfolio : List Site)
    (threads : Nat) :
    engine.oneByOne.Alike C E counting portfolio threads engine'.oneByOne := by
  intro _ p _ _
  have hproblem : (p.problem engine.simulate).Alike (Trial.Alike C counting) E counting _
      (p.problem engine'.simulate) _ :=
    Problem.alike_of_evaluate rfl (PortfolioProblem.paired_evaluate h.simulate p)
      fun _ _ ht => ht.evaluations
  exact hproblem.batch

lemma Engine.Alike.report {τ τ' : Type} {I : τ → τ' → Prop} (h : engine.Alike C counting engine')
    {solutions : List PortfolioSolution} {n n' : Nat}
    {history history' : Option (List GenerationSummary)} (hcount : SameCount counting n n')
    (hhistory : Option.Rel (HistoriesAlike counting) history history') :
    Paired I (Concludes I E counting) (engine.report solutions n history)
      (engine'.report solutions n' history') := by
  intro t t' ht
  unfold Engine.report OptimisationResult.accept
  rw [if_neg h.elapsed, if_neg h.elapsed']
  by_cases hn : n = 0 <;> by_cases hn' : n' = 0
  · rw [if_pos hn, if_pos hn']
    exact .failed _ _ t t' (Or.inl rfl)
  · rw [if_pos hn, if_neg hn']
    refine .firstRejected (Classical.byContradiction fun hcounting => ?_) ht
    exact hn' ((hcount.eq_zero_iff hcounting).mp hn)
  · rw [if_neg hn, if_pos hn']
    refine .secondRejected (Classical.byContradiction fun hcounting => ?_) ht
    exact hn ((hcount.eq_zero_iff hcounting).mpr hn')
  · rw [if_neg hn, if_neg hn']
    exact .reported ⟨rfl, hcount, hhistory⟩ ht

lemma Option.rel_ite {history history' : List GenerationSummary} (recorded : Bool)
    (h : HistoriesAlike counting history history') :
    Option.Rel (HistoriesAlike counting) (if recorded then some history else none)
      (if recorded then some history' else none) := by
  cases recorded with
  | false => exact .none
  | true => exact .some h

variable [Source γ]

lemma Nsga2.paired_run (h : engine.Alike C counting engine') {settings : Settings}
    (hpool : pool.Alike C E counting request.portfolio settings.maxConcurrency pool')
    (hsource : engine.source settings.seed = engine'.source settings.seed) :
    Paired C (Concludes C E counting) (Nsga2.run engine settings request pool)
      (Nsga2.run engine' settings request pool') := by
  refine Trial.concludes_run ?_
  rw [hsource]
  refine paired_bind .failed (PortfolioProblem.paired_build h.simulate _ _) ?_
  rintro prepared _ ⟨rfl, hprepared⟩
  have hproblem := hpool.problem (List.Subset.refl _) hprepared engine.simulate engine'.simulate
  refine paired_bind .failed (paired_evolve hproblem) fun outcome outcome' houtcome => ?_
  refine paired_bind .failed hproblem.spent fun n n' hcount => ?_
  rw [houtcome.front_eq]
  exact h.report hcount (Option.rel_ite _ houtcome.history)

lemma Genetic.paired_run (h : engine.Alike C counting engine') {settings : Settings}
    (hpool : pool.Alike C E counting request.portfolio settings.maxConcurrency pool')
    (hsource : engine.source settings.seed = engine'.source settings.seed) :
    Paired C (Concludes C E counting) (Genetic.run engine settings request pool)
      (Genetic.run engine' settings request pool') := by
  unfold run
  split
  · exact fun t t' _ => .failed _ _ t t' (Or.inl rfl)
  · exact fun t t' _ => .failed _ _ t t' (Or.inl rfl)
  · refine Trial.concludes_run ?_
    rw [hsource]
    refine paired_bind .failed (PortfolioProblem.paired_build h.simulate _ _) ?_
    rintro prepared _ ⟨rfl, hprepared⟩
    have hproblem := hpool.problem (List.Subset.refl _) hprepared engine.simulate engine'.simulate
    refine paired_bind .failed (paired_evolve hproblem) ?_
    rintro ⟨last, history⟩ ⟨last', history'⟩ ⟨hlast, hhistory⟩
    cases hlast
    refine paired_bind .failed hproblem.spent fun n n' hcount => ?_
    exact h.report hcount (Option.rel_ite _ hhistory)

lemma Grid.paired_run (h : engine.Alike C counting engine') {settings : Settings}
    (hpool : pool.Alike C E counting request.portfolio settings.maxConcurrency pool')
    (hsource : engine.source settings.seed = engine'.source settings.seed) :
    Paired C (Concludes C E counting) (Grid.run engine settings request pool)
      (Grid.run engine' settings request pool') := by
  unfold run
  split
  · exact fun t t' _ => .failed _ _ t t' (Or.inl rfl)
  · split
    · exact fun t t' _ => .failed _ _ t t' (Or.inl rfl)
    · refine Trial.concludes_run ?_
      rw [hsource]
      refine paired_bind .failed (PortfolioProblem.paired_build h.simulate _ _) ?_
      rintro prepared _ ⟨rfl, hprepared⟩
      have hproblem := hpool.problem (List.Subset.refl _) hprepared engine.simulate
        engine'.simulate
      dsimp only
      rw [hproblem.genes_eq]
      split
      · exact fun t t' _ => .failed _ _ t t' (Or.inl rfl)
      · refine paired_bind_eq .failed (hproblem.batch _) fun evaluated => ?_
        refine paired_bind .failed hproblem.spent fun n n' hcount => ?_
        exact h.report hcount (.some (.cons (.of_sameCount hcount) .nil))

namespace Separated

lemma paired_siteFront (h : engine.Alike C counting engine') {settings : Nsga2.Settings}
    {site : Site} (hsite : site ∈ request.portfolio)
    (hpool : pool.Alike C E counting request.portfolio settings.maxConcurrency pool')
    (hsource : engine.source settings.seed = engine'.source settings.seed) :
    Paired C (Ends C E fun r r' => r.1 = r'.1 ∧ SameCount counting r.2 r'.2)
      (siteFront engine settings request site pool)
      (siteFront engine' settings request site pool') := by
  refine Trial.paired_run counting ?_
  rw [hsource]
  refine paired_bind .failed (PortfolioProblem.paired_build h.simulate _ _) ?_
  rintro prepared _ ⟨rfl, hprepared⟩
  have hproblem := hpool.problem (List.cons_subset.mpr ⟨hsite, List.nil_subset _⟩) hprepared
    engine.simulate engine'.simulate
  refine paired_bind .failed (Nsga2.paired_evolve hproblem) fun outcome outcome' houtcome => ?_
  refine paired_bind .failed hproblem.spent fun n n' hcount => ?_
  rw [houtcome.front_eq]
  dsimp only
  split
  · exact fun t t' _ => .failed _ _ t t' (Or.inl rfl)
  · exact paired_pure ⟨rfl, hcount⟩

lemma paired_siteFronts (h : engine.Alike C counting engine') {settings : Settings} {place : Nat}
    {sites : List Site} (hsites : sites ⊆ request.portfolio)
    (hpool : pool.Alike C E counting request.portfolio settings.site.maxConcurrency pool')
    (hsource : ∀ place, engine.source (settingsAt settings.site place).seed =
      engine'.source (settingsAt settings.site place).seed) :
    Paired C (Ends C E fun r r' => r.1 = r'.1 ∧ SameCount counting r.2 r'.2)
      (siteFronts engine settings request place sites pool)
      (siteFronts engine' settings request place sites pool') := by
  induction sites generalizing place with
  | nil => exact paired_pure ⟨rfl, .refl counting 0⟩
  | cons site rest ih =>
    obtain ⟨hsite, hrest⟩ := List.cons_subset.mp hsites
    refine paired_bind .failed (paired_siteFront h hsite hpool (hsource place)) ?_
    rintro ⟨front, spent⟩ ⟨front', spent'⟩ ⟨hfront, hspent⟩
    refine paired_bind .failed (ih hrest) ?_
    rintro ⟨fronts, later⟩ ⟨fronts', later'⟩ ⟨hfronts, hlater⟩
    cases hfront
    cases hfronts
    exact paired_pure ⟨rfl, hspent.add hlater⟩

lemma paired_run (h : engine.Alike C counting engine') {settings : Settings}
    (hpool : pool.Alike C E counting request.portfolio settings.site.maxConcurrency pool')
    (hsource : ∀ place, engine.source (settingsAt settings.site place).seed =
      engine'.source (settingsAt settings.site place).seed) :
    Paired C (Concludes C E counting) (run engine settings request pool)
      (run engine' settings request pool') := by
  unfold run
  dsimp only
  split
  · exact fun t t' _ => .failed _ _ t t' (Or.inl rfl)
  · refine paired_bind .failed (paired_siteFronts h (List.Subset.refl _) hpool hsource) ?_
    rintro ⟨fronts, n⟩ ⟨fronts', n'⟩ ⟨hfronts, hcount⟩
    cases hfronts
    exact h.report hcount .none

end Separated

lemma Nested.paired_run (h : engine.Alike C counting engine') {settings : Settings}
    (hpool : pool.Alike C E counting request.portfolio settings.separated.site.maxConcurrency pool')
    (hsites : ∀ place, engine.source (Separated.settingsAt settings.separated.site place).seed =
      engine'.source (Separated.settingsAt settings.separated.site place).seed)
    (hportfolio : engine.source settings.portfolio.seed = engine'.source settings.portfolio.seed) :
    Paired C (Concludes C E counting) (run engine settings request pool)
      (run engine' settings request pool') := by
  unfold run
  dsimp only
  split
  · exact fun t t' _ => .failed _ _ t t' (Or.inl rfl)
  · refine paired_bind .failed
      (Separated.paired_siteFronts h (List.Subset.refl _) hpool hsites) ?_
    rintro ⟨fronts, n⟩ ⟨fronts', n'⟩ ⟨hfronts, hcount⟩
    cases hfronts
    rw [hportfolio]
    refine paired_bind .failed (Nsga2.paired_evolve (FrontProblem.alike_problem _ hcount)) ?_
    intro outcome outcome' houtcome
    rw [houtcome.front_eq]
    exact h.report hcount (Option.rel_ite _ houtcome.history)

namespace Optimiser

/-- Whether a search draws from the random source of a seed, or of no seed. -/
def Uses : Optimiser → Option Nat → Prop
  | nsga2 settings, seed => seed = settings.seed
  | genetic settings, seed => seed = settings.seed
  | gridSearch settings, seed => seed = settings.seed
  | separated settings, seed => ∃ place, seed = (Separated.settingsAt settings.site place).seed
  | nested settings, seed =>
    (∃ place, seed = (Separated.settingsAt settings.separated.site place).seed) ∨
      seed = settings.portfolio.seed

/-- Runs on engines that answer alike and pools that make the same of every batch, with the same
random numbers, end alike. -/
theorem paired_runOn (h : engine.Alike C counting engine') (optimiser : Optimiser)
    (hpool : pool.Alike C E counting request.portfolio optimiser.threads pool')
    (hsource : ∀ seed, optimiser.Uses seed → engine.source seed = engine'.source seed) :
    Paired C (Concludes C E counting) (optimiser.runOn engine pool request)
      (optimiser.runOn engine' pool' request) := by
  cases optimiser with
  | nsga2 settings => exact Nsga2.paired_run h hpool (hsource _ rfl)
  | genetic settings => exact Genetic.paired_run h hpool (hsource _ rfl)
  | gridSearch settings => exact Grid.paired_run h hpool (hsource _ rfl)
  | separated settings => exact Separated.paired_run h hpool fun place => hsource _ ⟨place, rfl⟩
  | nested settings =>
    exact Nested.paired_run h hpool (fun place => hsource _ (Or.inl ⟨place, rfl⟩))
      (hsource _ (Or.inr rfl))

/-- Runs whose batches are evaluated in order need no more than engines that answer alike. -/
lemma paired_run (h : engine.Alike C counting engine') (optimiser : Optimiser)
    (hsource : ∀ seed, optimiser.Uses seed → engine.source seed = engine'.source seed) :
    Paired C (Concludes C E counting) (optimiser.run engine request)
      (optimiser.run engine' request) :=
  paired_runOn h optimiser (h.oneByOne _ _) hsource

end Optimiser

end Engines

end Retrofit
