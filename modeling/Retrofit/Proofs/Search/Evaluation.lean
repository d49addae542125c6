import Mathlib.Data.List.Forall2
import Retrofit.Proofs.Outcome
import Retrofit.Proofs.Search.Run
import Retrofit.Proofs.Space.Discrete

/-!
# Evaluation with a deterministic simulator

A simulator that computes a function of the scenario (`Simulator.Computes`) makes the evaluation of a
chromosome a function as well, whatever its own state is and whatever the cache knows, as long as
the cache was filled by the same function (`Cache.Sound`). `appraise` is that function.
-/

namespace Retrofit

variable {σ : Type}

/-- The answers of the simulator depend on the scenario alone. -/
def Simulator.Computes (simulate : Simulator σ)
    (outcome : Scenario → Except Fault (Totals Amount)) : Prop :=
  ∀ scenario world, (simulate scenario world).1 = outcome scenario

/-- What the cache knows are outcomes. -/
def Cache.Sound (outcome : Scenario → Except Fault (Totals Amount)) (cache : Cache σ) : Prop :=
  ∀ scenario result, cache.find? scenario = some result → outcome scenario = .ok result

lemma Cache.sound_start (outcome : Scenario → Except Fault (Totals Amount)) (world : σ) :
    (Cache.start world).Sound outcome := by
  intro scenario result h
  change none = some result at h
  cases h

variable {simulate : Simulator σ} {outcome : Scenario → Except Fault (Totals Amount)}
  {trial trial' : Trial σ}

/-- A sound cache answers with the outcome, and stays sound. -/
theorem Cache.evaluate_of_sound {cache : Cache σ} (hsimulate : simulate.Computes outcome)
    (hsound : cache.Sound outcome) (scenario : Scenario) :
    (∃ result called, outcome scenario = .ok result ∧
      (evaluate simulate scenario cache).1 = .ok (result, called) ∧
      (evaluate simulate scenario cache).2.Sound outcome) ∨
    ∃ fault, outcome scenario = .error fault ∧
      (evaluate simulate scenario cache).1 = .error fault := by
  cases hfind : cache.find? scenario with
  | some result =>
    rw [evaluate_of_find?_eq_some hfind]
    exact Or.inl ⟨result, false, hsound scenario result hfind, rfl, hsound⟩
  | none =>
    have hcomputes := hsimulate scenario cache.world
    rcases hanswer : simulate scenario cache.world with ⟨answer, world⟩
    rw [hanswer] at hcomputes
    cases answer with
    | error fault =>
      rw [evaluate_of_fault hfind hanswer]
      exact Or.inr ⟨fault, hcomputes.symm, rfl⟩
    | ok result =>
      rw [evaluate_of_answer hfind hanswer]
      refine Or.inl ⟨result, true, hcomputes.symm, rfl, fun scenario' result' hfind' => ?_⟩
      rw [find?, Slots.result?_fill_withSlot] at hfind'
      split at hfind'
      · rename_i heq
        cases hfind'
        rw [heq]
        exact hcomputes.symm
      · exact hsound scenario' result' hfind'

theorem Trial.returns_ask {siteId : String} {scenario : Scenario} {result : Totals Amount}
    {called : Bool} (hsimulate : simulate.Computes outcome) (hsound : trial.cache.Sound outcome)
    (h : Returns (Trial.ask simulate siteId scenario) trial (result, called) trial') :
    outcome scenario = .ok result ∧ trial'.cache.Sound outcome := by
  have hask : Trial.ask simulate siteId scenario trial = (.ok (result, called), trial') := h
  have hanswer := Cache.evaluate_of_sound hsimulate hsound scenario
  unfold Trial.ask at hask
  generalize Cache.evaluate simulate scenario trial.cache = answer at hask hanswer
  obtain ⟨given, cache⟩ := answer
  rcases hanswer with ⟨result', called', hresult, rfl, hsound'⟩ | ⟨fault, -, rfl⟩
  · cases hask
    exact ⟨hresult, hsound'⟩
  · cases hask

/-- Whatever is asked while the cache is as `J` says is answered according to `Q`, and leaves the
cache as `J` says. -/
def Simulator.Answers (simulate : Simulator σ) (J : Cache σ → Prop)
    (Q : Scenario → Totals Amount → Prop) : Prop :=
  ∀ ⦃siteId scenario result called trial trial'⦄, J trial.cache →
    Returns (Trial.ask simulate siteId scenario) trial (result, called) trial' →
      Q scenario result ∧ J trial'.cache

lemma answers_of_computes (hsimulate : simulate.Computes outcome) :
    simulate.Answers (fun cache => cache.Sound outcome)
      (fun scenario result => outcome scenario = .ok result) :=
  fun _ _ _ _ _ _ hsound h => Trial.returns_ask hsimulate hsound h

/-- Nothing is known of the answers of any simulator. -/
lemma answers_of_any (simulate : Simulator σ) :
    simulate.Answers (fun _ => True) (fun _ _ => True) :=
  fun _ _ _ _ _ _ _ _ => ⟨trivial, trivial⟩

/-! ## Sites -/

/-- The entry of a site with a scenario, if its baseline and the scenario have outcomes. -/
def appraiseSite (outcome : Scenario → Except Fault (Totals Amount)) (site : Site)
    (scenario : Scenario) : Option (String × SiteSolution) := do
  let baseline ← (outcome site.baselineScenario).toOption
  let result ← (outcome scenario).toOption
  return (site.siteId, site.solution baseline scenario result)

/-- What a chromosome of a space is evaluated to, if all outcomes are there. -/
def appraise (outcome : Scenario → Except Fault (Totals Amount)) (space : Space)
    (portfolio : List Site) (constraints : Constraints) (c : Chromosome) :
    Option PortfolioSolution := do
  let entries ← (portfolio.zip (space.decode c)).mapM fun e => appraiseSite outcome e.1 e.2
  return .ofSites (Dict.ofList entries) constraints

lemma appraiseSite_eq_some {site : Site} {scenario : Scenario} {e : String × SiteSolution} :
    appraiseSite outcome site scenario = some e ↔
      ∃ baseline result, outcome site.baselineScenario = .ok baseline ∧
        outcome scenario = .ok result ∧
          e = (site.siteId, site.solution baseline scenario result) := by
  unfold appraiseSite
  cases outcome site.baselineScenario with
  | error fault => exact iff_of_false nofun (fun ⟨_, _, h, _⟩ => nomatch h)
  | ok baseline =>
    cases outcome scenario with
    | error fault => exact iff_of_false nofun (fun ⟨_, _, _, h, _⟩ => nomatch h)
    | ok result =>
      constructor
      · intro h
        exact ⟨baseline, result, rfl, rfl, (Option.some.inj h).symm⟩
      · rintro ⟨_, _, ⟨⟩, ⟨⟩, rfl⟩
        rfl

lemma appraise_eq_some {space : Space} {portfolio : List Site} {constraints : Constraints}
    {c : Chromosome} {x : PortfolioSolution} :
    appraise outcome space portfolio constraints c = some x ↔
      ∃ entries, List.Forall₂ (fun e b => appraiseSite outcome e.1 e.2 = some b)
          (portfolio.zip (space.decode c)) entries ∧
        x = .ofSites (Dict.ofList entries) constraints := by
  unfold appraise
  rw [Option.bind_eq_bind, Option.bind_eq_some_iff]
  constructor
  · rintro ⟨entries, hentries, h⟩
    exact ⟨entries, mapM_eq_some.mp hentries, (Option.some.inj h).symm⟩
  · rintro ⟨entries, hentries, rfl⟩
    exact ⟨entries, mapM_eq_some.mpr hentries, rfl⟩

/-! ## The problem of a portfolio -/

namespace PortfolioProblem

/-- A problem that was built for a portfolio with the outcomes of its baselines. -/
structure BuiltFor (outcome : Scenario → Except Fault (Totals Amount)) (portfolio : List Site)
    (constraints : Constraints) (p : PortfolioProblem) : Prop where
  space : Space.ofPortfolio portfolio = .ok p.space
  sites : List.Forall₂ (fun site e => e.1 = site ∧ outcome site.baselineScenario = .ok e.2)
    portfolio p.sites
  constraints_eq : p.constraints = constraints

section

variable {J : Cache σ → Prop} {Q : Scenario → Totals Amount → Prop}

/-- What was done to prepare the sites. -/
lemma steps_of_returns_build {portfolio : List Site} {constraints : Constraints}
    {p : PortfolioProblem} (h : Returns (build simulate portfolio constraints) trial p trial') :
    Space.ofPortfolio portfolio = .ok p.space ∧ p.constraints = constraints ∧
      Returns (portfolio.mapM fun site => do
        let (baseline, _) ← Trial.ask simulate site.siteId site.baselineScenario
        return (site, baseline)) trial p.sites trial' := by
  obtain ⟨-, h⟩ := returns_ite_throw.mp h
  obtain ⟨space, trial₁, hlift, h⟩ := returns_bind.mp h
  obtain ⟨sites, trial₂, hsites, h⟩ := returns_bind.mp h
  obtain ⟨rfl, rfl⟩ := returns_pure.mp h
  have hportfolio : Space.ofPortfolio portfolio = .ok space ∧ trial = trial₁ := by
    unfold build.liftExcept at hlift
    split at hlift
    · rename_i heq
      obtain ⟨rfl, rfl⟩ := returns_pure.mp hlift
      exact ⟨heq, rfl⟩
    · exact absurd hlift not_returns_throw
  obtain ⟨hspace, rfl⟩ := hportfolio
  exact ⟨hspace, rfl, hsites⟩

/-- What is known of a problem that was prepared, if the cache answers according to `Q`. -/
lemma returns_build_of_answers {portfolio : List Site} {constraints : Constraints}
    {p : PortfolioProblem} (hanswers : simulate.Answers J Q) (hJ : J trial.cache)
    (h : Returns (build simulate portfolio constraints) trial p trial') :
    Space.ofPortfolio portfolio = .ok p.space ∧
      List.Forall₂ (fun site e => e.1 = site ∧ Q site.baselineScenario e.2) portfolio p.sites ∧
      p.constraints = constraints ∧ J trial'.cache := by
  obtain ⟨hspace, hconstraints, hsites⟩ := steps_of_returns_build h
  obtain ⟨hall, hJ'⟩ := forall₂_of_returns_mapM (I := fun trial => J trial.cache)
    (R := fun (site : Site) (e : Site × Totals Amount) => e.1 = site ∧ Q site.baselineScenario e.2)
    (fun site _ t e t' ht h => by
      obtain ⟨⟨baseline, called⟩, t₁, hask, h⟩ := returns_bind.mp h
      obtain ⟨rfl, rfl⟩ := returns_pure.mp h
      obtain ⟨hbaseline, ht'⟩ := hanswers ht hask
      exact ⟨⟨rfl, hbaseline⟩, ht'⟩) hJ hsites
  exact ⟨hspace, hall, hconstraints, hJ'⟩

lemma returns_build {portfolio : List Site} {constraints : Constraints} {p : PortfolioProblem}
    (hsimulate : simulate.Computes outcome) (hsound : trial.cache.Sound outcome)
    (h : Returns (build simulate portfolio constraints) trial p trial') :
    p.BuiltFor outcome portfolio constraints ∧ trial'.cache.Sound outcome := by
  obtain ⟨hspace, hall, hconstraints, hsound'⟩ :=
    returns_build_of_answers (answers_of_computes hsimulate) hsound h
  exact ⟨⟨hspace, hall, hconstraints⟩, hsound'⟩

lemma returns_evaluateSites {work : List (Scenario × Site × Totals Amount)}
    {solutions result : Dict SiteSolution} {fresh fresh' : Bool}
    (hanswers : simulate.Answers J Q) (hJ : J trial.cache)
    (h : Returns (evaluateSites simulate work solutions fresh) trial (result, fresh') trial') :
    (∃ entries, List.Forall₂ (fun w e => ∃ r, Q w.1 r ∧
        e = (w.2.1.siteId, w.2.1.solution w.2.2 w.1 r)) work entries ∧
      result = entries.foldl (fun d e => d.insert e.1 e.2) solutions) ∧
      J trial'.cache := by
  induction work generalizing solutions fresh trial with
  | nil =>
    obtain ⟨heq, rfl⟩ := returns_pure.mp h
    cases heq
    exact ⟨⟨[], .nil, rfl⟩, hJ⟩
  | cons w rest ih =>
    obtain ⟨scenario, site, baseline⟩ := w
    obtain ⟨⟨r, called⟩, trial₁, hask, h⟩ := returns_bind.mp h
    obtain ⟨hr, hJ₁⟩ := hanswers hJ hask
    obtain ⟨⟨entries, hentries, hresult⟩, hJ'⟩ := ih hJ₁ h
    exact ⟨⟨_ :: entries, .cons ⟨r, hr, rfl⟩ hentries, hresult⟩, hJ'⟩

/-- An evaluated chromosome has an entry for every site of the problem. -/
lemma returns_evaluate_of_answers {p : PortfolioProblem} {c : Chromosome} {x : PortfolioSolution}
    (hanswers : simulate.Answers J Q) (hJ : J trial.cache)
    (h : Returns (p.evaluate simulate c) trial x trial') :
    (∃ entries, List.Forall₂ (fun w e => ∃ r, Q w.1 r ∧
        e = (w.2.1.siteId, w.2.1.solution w.2.2 w.1 r)) ((p.space.decode c).zip p.sites) entries ∧
      x = .ofSites (Dict.ofList entries) p.constraints) ∧ J trial'.cache := by
  obtain ⟨⟨solutions, fresh⟩, trial₁, hsites, h⟩ := returns_bind.mp h
  obtain ⟨⟨entries, hentries, heq⟩, hJ₁⟩ := returns_evaluateSites hanswers hJ hsites
  have hlast : x = .ofSites solutions p.constraints ∧ J trial'.cache := by
    dsimp only at h
    split at h
    · obtain ⟨_, trial₂, hcount, h⟩ := returns_bind.mp h
      obtain ⟨rfl, rfl⟩ := returns_pure.mp h
      cases hcount
      exact ⟨rfl, hJ₁⟩
    · obtain ⟨rfl, rfl⟩ := returns_pure.mp h
      exact ⟨rfl, hJ₁⟩
  refine ⟨⟨entries, hentries, ?_⟩, hlast.2⟩
  rw [hlast.1, heq]
  rfl

end

lemma forall₂_appraiseSite {portfolio : List Site} {sites : List (Site × Totals Amount)}
    {scenarios : List Scenario} {entries : List (String × SiteSolution)}
    (hsites : List.Forall₂ (fun site e => e.1 = site ∧ outcome site.baselineScenario = .ok e.2)
      portfolio sites)
    (h : List.Forall₂ (fun w e => ∃ r, outcome w.1 = .ok r ∧
      e = (w.2.1.siteId, w.2.1.solution w.2.2 w.1 r)) (scenarios.zip sites) entries) :
    List.Forall₂ (fun e b => appraiseSite outcome e.1 e.2 = some b) (portfolio.zip scenarios)
      entries := by
  induction hsites generalizing scenarios entries with
  | nil =>
    rw [List.zip_nil_right] at h
    cases h
    exact .nil
  | cons hsite _ ih =>
    cases scenarios with
    | nil =>
      cases h
      exact .nil
    | cons scenario scenarios =>
      cases h with
      | cons hentry hrest =>
        obtain ⟨r, hr, rfl⟩ := hentry
        obtain ⟨rfl, hbaseline⟩ := hsite
        exact .cons (appraiseSite_eq_some.mpr ⟨_, r, hbaseline, hr, rfl⟩) (ih hrest)

/-- Evaluating a chromosome is appraising it. -/
theorem returns_evaluate {portfolio : List Site} {constraints : Constraints}
    {p : PortfolioProblem} {c : Chromosome} {x : PortfolioSolution}
    (hsimulate : simulate.Computes outcome) (hp : p.BuiltFor outcome portfolio constraints)
    (hsound : trial.cache.Sound outcome)
    (h : Returns (p.evaluate simulate c) trial x trial') :
    appraise outcome p.space portfolio constraints c = some x ∧ trial'.cache.Sound outcome := by
  obtain ⟨⟨entries, hentries, hx⟩, hsound'⟩ :=
    returns_evaluate_of_answers (answers_of_computes hsimulate) hsound h
  refine ⟨appraise_eq_some.mpr ⟨entries, ?_, ?_⟩, hsound'⟩
  · exact forall₂_appraiseSite hp.sites hentries
  · rw [hx, hp.constraints_eq]

end PortfolioProblem

/-! ## A small portfolio -/

/-- A depot that may get up to two batteries. -/
def depot : Site where
  siteId := "depot"
  bundleId := "depot"
  baseline := .empty
  range := Dict.empty.insert "battery" ⟨true, Dict.empty.insert "units" (.stepped 0 2 1)⟩
  constraints := .none
  capexLimit := none

/-- Each battery costs one pound and emits nothing. -/
def depotOutcome (scenario : Scenario) : Except Fault (Totals Amount) :=
  match (scenario.assets.get? "battery").bind (·.get? "units") with
  | some (.int units) => .ok ((Totals.fill 0).set .capex (.ofFloat (Number.ofInt units)))
  | _ => .ok (Totals.fill 0)

def depotSimulator : Simulator Unit := fun scenario world => (depotOutcome scenario, world)

lemma computes_depotSimulator : depotSimulator.Computes depotOutcome := fun _ _ => rfl

/-- The problem of the depot, prepared with an empty cache, and the state after that. -/
def depotProblem : PortfolioProblem :=
  returnedOr (PortfolioProblem.build depotSimulator [depot] .none) ⟨.start (), 0⟩
    ⟨[], ⟨[]⟩, .none⟩

def depotTrial : Trial Unit :=
  ((PortfolioProblem.build depotSimulator [depot] .none).run.run ⟨.start (), 0⟩).2

lemma returns_build_depot : Returns (PortfolioProblem.build depotSimulator [depot] .none)
    ⟨.start (), 0⟩ depotProblem depotTrial :=
  returns_of_isOk _ (by decide +kernel)

end Retrofit
