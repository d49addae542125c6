import Mathlib.Data.List.Nodup
import Mathlib.Data.List.Perm.Subperm
import Retrofit.Proofs.Search.Consistency
import Retrofit.Random.ChaCha

/-!
# The fronts of the sites

A generation keeps no portfolio twice, so neither does the outcome of an evolution
(`nodup_scenarios_of_returns_evolve`). The front of a site that is searched on its own holds every
scenario at most once, whatever the simulator answers (`unambiguous_of_returns_siteFronts`).
-/

namespace Retrofit

open Retrofit.Random

namespace Nsga2

variable {objectives : List Objective}

lemma map_scenarios_place (objectives : List Objective) (rank : Nat) (front : List Member) :
    (place objectives rank front).map (·.solution.scenarios) =
      front.map (·.solution.scenarios) := by
  unfold place
  rw [List.map_zipWith]
  apply List.ext_getElem
  · rw [List.length_zipWith, List.length_map, length_crowding, List.length_map, Nat.min_self]
  · intro i hi hi'
    rw [List.getElem_map, List.getElem_zipWith]

lemma subperm_fill (free rank : Nat) (fronts : List (List Member)) :
    ((fill objectives free rank fronts).map (·.solution.scenarios)).Subperm
      (fronts.flatten.map (·.solution.scenarios)) := by
  induction fronts generalizing free rank with
  | nil => exact List.nil_subperm
  | cons front rest ih =>
    have hplaced : ((place objectives rank front).map (·.solution.scenarios)).Subperm
        ((front :: rest).flatten.map (·.solution.scenarios)) := by
      rw [map_scenarios_place, List.flatten_cons, List.map_append]
      exact (List.sublist_append_left _ _).subperm
    unfold fill
    split
    · exact List.nil_subperm
    · dsimp only
      split
      · rw [List.map_append, map_scenarios_place, List.flatten_cons, List.map_append]
        exact (List.subperm_append_left _).mpr (ih _ _)
      · refine List.Subperm.trans ?_ hplaced
        refine ((List.take_sublist free _).map _).subperm.trans ?_
        exact ((List.mergeSort_perm _ _).map _).subperm

/-- Portfolios survive no more often than they occur. -/
theorem nodup_scenarios_survive {places : Nat} {members : List Member}
    (h : (members.map (·.solution.scenarios)).Nodup) :
    ((survive objectives places members).map (·.solution.scenarios)).Nodup := by
  have hfill : ((survive objectives places members).map (·.solution.scenarios)).Subperm
      (members.map (·.solution.scenarios)) :=
    (subperm_fill _ _ _).trans ((perm_flatten_fronts _ _).map _).subperm
  obtain ⟨l, hperm, hsub⟩ := hfill
  exact hperm.nodup_iff.mp (hsub.nodup h)

/-- No portfolio occurs twice in the outcome of an evolution. -/
theorem nodup_scenarios_of_returns_evolve {τ γ : Type} [Source γ] {p : Problem τ}
    {settings : Settings} {seeds : List Chromosome} {source : γ} {outcome : Outcome} {t t' : τ}
    (h : Returns (evolve p settings objectives seeds source) t outcome t') :
    (outcome.front.map (·.scenarios)).Nodup := by
  by_cases hgenes : p.genes = []
  · obtain ⟨x, -, hfront⟩ := evolve_of_no_genes hgenes h
    rw [hfront]
    exact List.nodup_singleton _
  · obtain ⟨last, hlast, -, hfront⟩ := @evolve_induction objectives _ _ _ p settings
      (fun population _ => (population.map (·.solution.scenarios)).Nodup) t t' seeds source outcome
      hgenes List.nodup_nil (fun population chromosomes t next t' _ _ hselect => by
        obtain ⟨solutions, -, rfl⟩ := returns_select hselect
        apply nodup_scenarios_survive
        exact List.pairwise_map.mpr (pairwise_distinctBy _ _)) h
    rw [hfront, List.map_map]
    exact (List.filter_sublist.map _).nodup hlast

end Nsga2

/-! ## Which sites a solution has -/

namespace PortfolioProblem

variable {σ : Type} {simulate : Simulator σ} {trial trial' : Trial σ}

lemma fst_sites_of_returns_build {portfolio : List Site} {constraints : Constraints}
    {p : PortfolioProblem} (h : Returns (build simulate portfolio constraints) trial p trial') :
    p.sites.map Prod.fst = portfolio := by
  obtain ⟨-, hall, -, -⟩ := returns_build_of_answers (answers_of_any simulate) trivial h
  have hfst : List.Forall₂ (fun site (e : Site × Totals Amount) => site = e.1) portfolio p.sites :=
    hall.imp fun _ _ he => he.1.symm
  rw [← @List.forall₂_map_right_iff _ _ _ Eq, List.forall₂_eq_eq_eq] at hfst
  exact hfst.symm

/-- A solution has an entry for none but the sites of the problem. -/
lemma get?_of_returns_evaluate {p : PortfolioProblem} {c : Chromosome} {x : PortfolioSolution}
    {k : String} (hk : ∀ e ∈ p.sites, k ≠ e.1.siteId)
    (h : Returns (p.evaluate simulate c) trial x trial') : x.sites.get? k = none := by
  obtain ⟨⟨entries, hentries, rfl⟩, -⟩ :=
    returns_evaluate_of_answers (answers_of_any simulate) trivial h
  change (Dict.ofList entries).get? k = none
  cases hfound : (Dict.ofList entries).get? k with
  | none => rfl
  | some s =>
    obtain ⟨w, hw, r, -, heq⟩ := exists_of_mem_right hentries (Dict.mem_of_get?_ofList hfound)
    exact absurd (congrArg Prod.fst heq) (hk w.2 (List.of_mem_zip hw).2)

end PortfolioProblem

/-- Solutions of one site have the same scenarios if that site has the same scenario. -/
lemma PortfolioSolution.scenarios_eq_of_get? {x x' : PortfolioSolution} {siteId : String}
    {s s' : SiteSolution} (hx : ∀ k, k ≠ siteId → x.sites.get? k = none)
    (hx' : ∀ k, k ≠ siteId → x'.sites.get? k = none) (hs : x.sites.get? siteId = some s)
    (hs' : x'.sites.get? siteId = some s') (h : s.scenario = s'.scenario) :
    x.scenarios = x'.scenarios := by
  apply Dict.ext_get?
  intro k
  unfold PortfolioSolution.scenarios
  rw [Dict.get?_map, Dict.get?_map]
  by_cases hk : k = siteId
  · rw [hk, hs, hs', Option.map_some, Option.map_some, h]
  · rw [hx k hk, hx' k hk]

/-! ## Sites that are searched on their own -/

lemma Trial.returns_run {σ α : Type} {search : Search (Trial σ) α} {cache cache' : Cache σ} {a : α} :
    Returns (Trial.run search) cache a cache' ↔
      ∃ count, Returns search ⟨cache, 0⟩ a ⟨cache', count⟩ := by
  change ((search.run.run ⟨cache, 0⟩).1, (search.run.run ⟨cache, 0⟩).2.cache) =
    (Except.ok a, cache') ↔ _
  unfold Returns
  generalize search.run.run ⟨cache, 0⟩ = outcome
  obtain ⟨result, cache₁, count⟩ := outcome
  constructor
  · intro h
    cases h
    exact ⟨count, rfl⟩
  · rintro ⟨count, h⟩
    cases h
    rfl

namespace Separated

variable {σ γ : Type} [Source γ] {engine : Engine σ γ} {request : Request} {cache cache' : Cache σ}

/-- What the front of a site was chosen from. -/
lemma returns_siteFront {settings : Nsga2.Settings} {site : Site} {front : List SiteSolution}
    {count : Nat} (h : Returns (siteFront engine settings request site) cache (front, count) cache') :
    ∃ prepared outcome trial,
      Returns (PortfolioProblem.build engine.simulate [site] .none) ⟨cache, 0⟩ prepared trial ∧
      Returns (Nsga2.evolve (prepared.problem engine.simulate) settings request.objectives
        (prepared.seeds request.existing) (engine.source settings.seed)) trial outcome
        ⟨cache', count⟩ ∧
      front = (bestFront request.objectives outcome.front).filterMap
        (·.sites.get? site.siteId) ∧ front ≠ [] := by
  obtain ⟨evaluated, h⟩ := Trial.returns_run.mp h
  obtain ⟨prepared, trial, hbuild, h⟩ := returns_bind.mp h
  obtain ⟨outcome, trial', hevolve, h⟩ := returns_bind.mp h
  obtain ⟨evaluations, trial₁, hspent, h⟩ := returns_bind.mp h
  obtain ⟨rfl, rfl⟩ := returns_spent.mp hspent
  obtain ⟨hne, h⟩ := (returns_ite_throw (r := ())).mp h
  obtain ⟨heq, rfl⟩ := returns_pure.mp h
  cases heq
  exact ⟨prepared, outcome, trial, hbuild, hevolve, rfl, fun hnil => hne (hnil ▸ rfl)⟩

/-- What is established for the front of any site is established for all fronts. -/
lemma forall₂_of_returns_siteFronts {settings : Settings} {place : Nat} {sites : List Site}
    {fronts : List (List SiteSolution)} {count : Nat} {I : Cache σ → Prop}
    {R : Site → List SiteSolution → Prop}
    (step : ∀ s, ∀ site ∈ sites, ∀ cache front count cache', I cache →
      Returns (siteFront engine s request site) cache (front, count) cache' →
        R site front ∧ I cache') (hcache : I cache)
    (h : Returns (siteFronts engine settings request place sites) cache (fronts, count) cache') :
    List.Forall₂ R sites fronts ∧ I cache' := by
  induction sites generalizing place fronts count cache with
  | nil =>
    obtain ⟨heq, rfl⟩ := returns_pure.mp h
    cases heq
    exact ⟨.nil, hcache⟩
  | cons site rest ih =>
    obtain ⟨⟨front, spent⟩, cache₁, hfront, h⟩ := returns_bind.mp h
    obtain ⟨⟨others, later⟩, cache₂, hothers, h⟩ := returns_bind.mp h
    obtain ⟨heq, rfl⟩ := returns_pure.mp h
    cases heq
    obtain ⟨hR, hI⟩ := step _ site List.mem_cons_self _ _ _ _ hcache hfront
    obtain ⟨hall, hlast⟩ :=
      ih (fun s site hsite => step s site (List.mem_cons_of_mem _ hsite)) hI hothers
    exact ⟨.cons hR hall, hlast⟩

/-- The front of a site holds no scenario with two outcomes. -/
theorem unambiguous_of_returns_siteFront {settings : Nsga2.Settings} {site : Site}
    {front : List SiteSolution} {count : Nat}
    (h : Returns (siteFront engine settings request site) cache (front, count) cache') :
    Unambiguous front := by
  obtain ⟨prepared, outcome, trial, hbuild, hevolve, rfl, -⟩ := returns_siteFront h
  have hyields : (prepared.problem engine.simulate).Yields (fun _ => True)
      (fun _ x => ∀ k, k ≠ site.siteId → x.sites.get? k = none) := by
    intro c t x t' _ _ hx
    refine ⟨fun k hk => PortfolioProblem.get?_of_returns_evaluate (fun e he => ?_) hx, trivial⟩
    have hsite := List.mem_map_of_mem (f := Prod.fst) he
    rw [PortfolioProblem.fst_sites_of_returns_build hbuild, List.mem_singleton] at hsite
    rw [hsite]
    exact hk
  obtain ⟨hevaluated, -⟩ := Nsga2.of_returns_evolve hyields trivial hevolve
  have hnodup := Nsga2.nodup_scenarios_of_returns_evolve hevolve
  have horigin : ∀ x ∈ bestFront request.objectives outcome.front, x ∈ outcome.front :=
    fun x hx => mem_of_mem_bestFront hx
  intro s hs s' hs' heq
  obtain ⟨x, hx, hget⟩ := List.mem_filterMap.mp hs
  obtain ⟨x', hx', hget'⟩ := List.mem_filterMap.mp hs'
  have hx := horigin x hx
  have hx' := horigin x' hx'
  obtain ⟨c, -, hkeys⟩ := hevaluated x hx
  obtain ⟨c', -, hkeys'⟩ := hevaluated x' hx'
  have hscenarios := PortfolioSolution.scenarios_eq_of_get? hkeys hkeys' hget hget' heq
  have hsame := List.inj_on_of_nodup_map hnodup hx hx' hscenarios
  rw [hsame, hget'] at hget
  exact (Option.some.inj hget).symm

theorem unambiguous_of_returns_siteFronts {settings : Settings} {place : Nat} {sites : List Site}
    {fronts : List (List SiteSolution)} {count : Nat}
    (h : Returns (siteFronts engine settings request place sites) cache (fronts, count) cache') :
    ∀ front ∈ fronts, Unambiguous front := by
  obtain ⟨hall, -⟩ := forall₂_of_returns_siteFronts (I := fun _ => True)
    (R := fun _ front => Unambiguous front)
    (fun _ _ _ _ _ _ _ _ hfront => ⟨unambiguous_of_returns_siteFront hfront, trivial⟩) trivial h
  clear h
  induction hall with
  | nil => exact fun front hfront => absurd hfront List.not_mem_nil
  | cons hfirst _ ih => exact List.forall_mem_cons.mpr ⟨hfirst, ih⟩

end Separated

/-! ## The fronts of the depot -/

namespace Nsga2

/-- Two generations of two members. -/
def depotSettings : Settings :=
  { Settings.default 1 with populationSize := 2, generations := 2 }

end Nsga2

def depotEngine : Engine Unit ChaCha := ⟨depotSimulator, fun seed => .ofSeed (seed.getD 0), ⟨1, 0⟩⟩

def depotRequest : Request := ⟨[.capex], .none, [depot], []⟩

/-- The front of the depot, and the number of candidates that were simulated for it. -/
def depotFronts : List (List SiteSolution) × Nat :=
  returnedOr (Separated.siteFronts depotEngine ⟨Nsga2.depotSettings, 4⟩ depotRequest 0 [depot])
    (.start ()) ([], 0)

/-- The choice from the front of the depot. -/
def depotChoice : Problem Unit :=
  (Nested.FrontProblem.ofFronts depotRequest.portfolio depotFronts.1 .none).problem depotFronts.2

lemma returns_siteFronts_depot : ∃ cache, Returns
    (Separated.siteFronts depotEngine ⟨Nsga2.depotSettings, 4⟩ depotRequest 0 [depot]) (.start ())
    (depotFronts.1, depotFronts.2) cache := by
  rw [Prod.eta]
  exact ⟨_, returns_of_isOk _ (by decide +kernel)⟩

end Retrofit
