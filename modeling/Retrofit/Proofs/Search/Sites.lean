import Mathlib.Data.List.Dedup
import Retrofit.Proofs.Search.Reports
import Retrofit.Queue.Submission

/-!
# Every site of a portfolio has its entry

A solution is a dictionary by site id, while a portfolio is a list of sites. Whatever the simulator
answers and whichever search runs, a reported solution was gathered from one entry for each site in
the order of the portfolio (`Optimiser.gathered_run`). So no site is dropped if no two of them have
one id, and of sites with one id the last one stays (`Optimiser.entry_for_every_site`). Submission
does not compare the ids: a task with two sites of one id is accepted, and its solutions hold one of
them (`twinTask_loses_site`).
-/

namespace Retrofit

open Retrofit.Random

/-! ## Entries -/

/-- An entry of the site in a solution: some scenario of this site with its metrics. -/
def Site.Entry (site : Site) (e : String × SiteSolution) : Prop :=
  ∃ baseline scenario result, scenario.siteId = site.siteId ∧ scenario.bundleId = site.bundleId ∧
    e = (site.siteId, site.solution baseline scenario result)

/-- A solution that was put together from one entry for every site. -/
def Gathered (portfolio : List Site) (constraints : Constraints) (x : PortfolioSolution) : Prop :=
  ∃ entries, List.Forall₂ Site.Entry portfolio entries ∧
    x = .ofSites (Dict.ofList entries) constraints

lemma Site.fst_eq_of_entry {site : Site} {e : String × SiteSolution} (h : site.Entry e) :
    e.1 = site.siteId := by
  obtain ⟨_, _, _, -, -, rfl⟩ := h
  rfl

section Entries

variable {portfolio : List Site} {entries : List (String × SiteSolution)}
  (h : List.Forall₂ Site.Entry portfolio entries)
include h

lemma keys_of_entries : entries.map Prod.fst = portfolio.map (·.siteId) :=
  map_eq_map_of_forall₂ (h.flip.imp fun _ _ he => Site.fst_eq_of_entry he)

/-- The last site of an id has its entry in the dictionary. -/
lemma exists_get?_of_last {before after : List Site} {site : Site}
    (hportfolio : portfolio = before ++ site :: after)
    (hlast : ∀ later ∈ after, later.siteId ≠ site.siteId) :
    ∃ s, (Dict.ofList entries).get? site.siteId = some s ∧ site.Entry (site.siteId, s) := by
  subst hportfolio
  obtain ⟨earlier, rest, -, hrest, rfl⟩ := forall₂_append_left h
  obtain ⟨⟨k, s⟩, others, hentry, hothers, rfl⟩ := List.forall₂_cons_left_iff.mp hrest
  obtain rfl : k = site.siteId := Site.fst_eq_of_entry hentry
  refine ⟨s, Dict.get?_ofList_of_last earlier fun e he => ?_, hentry⟩
  obtain ⟨later, hlater, hlaterEntry⟩ := exists_of_mem_right hothers he
  rw [Site.fst_eq_of_entry hlaterEntry]
  exact hlast later hlater

end Entries

/-! ## The problem of a portfolio -/

namespace Space

/-- The scenarios that a chromosome stands for are those of the sites, one by one. -/
lemma forall₂_decode {portfolio : List Site} {space : Space}
    (h : Space.ofPortfolio portfolio = .ok space) (c : Chromosome) :
    List.Forall₂ (fun site scenario => scenario.siteId = site.siteId ∧
      scenario.bundleId = site.bundleId) portfolio (space.decode c) := by
  have hsites := forall₂_sites h
  unfold decode
  generalize space.sites = sites at hsites
  clear h
  induction hsites generalizing c with
  | nil => exact .nil
  | cons hown _ ih =>
    have hlaid := SiteSpace.laidOut_of_ofSite hown
    rw [decodeFrom_cons]
    exact .cons ⟨hlaid.siteId_eq, hlaid.bundleId_eq⟩ (ih _)

end Space

namespace PortfolioProblem

variable {σ : Type} {simulate : Simulator σ}

lemma forall₂_entry {portfolio : List Site} {sites : List (Site × Totals Amount)}
    {scenarios : List Scenario} {entries : List (String × SiteSolution)}
    (hsites : List.Forall₂ (fun site (e : Site × Totals Amount) => e.1 = site ∧ True) portfolio
      sites)
    (hscenarios : List.Forall₂ (fun site (scenario : Scenario) =>
      scenario.siteId = site.siteId ∧ scenario.bundleId = site.bundleId) portfolio scenarios)
    (h : List.Forall₂ (fun w e => ∃ r, True ∧ e = (w.2.1.siteId, w.2.1.solution w.2.2 w.1 r))
      (scenarios.zip sites) entries) : List.Forall₂ Site.Entry portfolio entries := by
  induction hsites generalizing scenarios entries with
  | nil =>
    rw [List.zip_nil_right] at h
    cases h
    exact .nil
  | cons hsite _ ih =>
    cases hscenarios with
    | cons hids hscenarios =>
      cases h with
      | cons hentry hrest =>
        obtain ⟨rfl, -⟩ := hsite
        obtain ⟨r, -, rfl⟩ := hentry
        exact .cons ⟨_, _, r, hids.1, hids.2, rfl⟩ (ih hscenarios hrest)

/-- Every evaluated candidate is gathered. -/
lemma yields_gathered {portfolio : List Site} {constraints : Constraints} {p : PortfolioProblem}
    {trial trial' : Trial σ}
    (h : Returns (build simulate portfolio constraints) trial p trial') :
    (p.problem simulate).Yields (fun _ => True) (fun _ x => Gathered portfolio constraints x) := by
  obtain ⟨hspace, hsites, hconstraints, -⟩ :=
    returns_build_of_answers (answers_of_any simulate) trivial h
  intro c t x t' _ _ hx
  obtain ⟨⟨entries, hentries, rfl⟩, -⟩ :=
    returns_evaluate_of_answers (answers_of_any simulate) trivial hx
  rw [hconstraints]
  exact ⟨⟨entries, forall₂_entry hsites (Space.forall₂_decode hspace c) hentries, rfl⟩, trivial⟩

end PortfolioProblem

/-! ## Whole runs -/

section Runs

variable {σ γ : Type} [Source γ] {engine : Engine σ γ} {request : Request} {cache cache' : Cache σ}
  {result : OptimisationResult}

namespace Separated

/-- The fronts of the sites hold entries of their sites. -/
lemma entries_of_returns_siteFronts {settings : Settings} {place : Nat} {sites : List Site}
    {fronts : List (List SiteSolution)} {count : Nat}
    (h : Returns (siteFronts engine settings request place sites) cache (fronts, count) cache') :
    List.Forall₂ (fun site front => ∀ s ∈ front, site.Entry (site.siteId, s)) sites fronts := by
  refine (forall₂_of_returns_siteFronts (I := fun _ => True) ?_ trivial h).1
  intro settings site hsite cache front count cache' _ hfront
  obtain ⟨prepared, found, trial, hbuild, hevolve, rfl, -⟩ := returns_siteFront hfront
  obtain ⟨hfound, -⟩ :=
    Nsga2.of_returns_evolve (PortfolioProblem.yields_gathered hbuild) trivial hevolve
  refine ⟨fun s hs => ?_, trivial⟩
  obtain ⟨x, hx, hget⟩ := List.mem_filterMap.mp hs
  obtain ⟨c, -, entries, hentries, rfl⟩ :=
    hfound x (mem_of_mem_bestFront hx)
  change (Dict.ofList entries).get? site.siteId = some s at hget
  obtain ⟨s', hget', hentry⟩ := exists_get?_of_last hentries (List.nil_append [site]).symm
    fun later hlater => absurd hlater List.not_mem_nil
  rw [hget, Option.some.injEq] at hget'
  rw [hget']
  exact hentry

lemma entries_of_picked {portfolio : List Site} {fronts : List (List SiteSolution)}
    {entries : List (String × SiteSolution)}
    (hfronts : List.Forall₂ (fun site front => ∀ s ∈ front, site.Entry (site.siteId, s)) portfolio
      fronts)
    (h : Picked (portfolio.zip fronts) entries) : List.Forall₂ Site.Entry portfolio entries := by
  unfold Picked at h
  induction hfronts generalizing entries with
  | nil =>
    cases h
    exact .nil
  | cons hfront _ ih =>
    cases h with
    | cons he hrest =>
      obtain ⟨hkey, hmem⟩ := he
      refine .cons ?_ (ih hrest)
      have hentry := hfront _ hmem
      rwa [← hkey] at hentry

end Separated

namespace Optimiser

lemma gathered_nsga2 {settings : Nsga2.Settings}
    (h : Returns (Nsga2.run engine settings request) cache result cache') :
    ∀ x ∈ result.solutions, Gathered request.portfolio request.constraints x := by
  obtain ⟨prepared, trial, found, count, hbuild, hevolve, hreported⟩ :=
    Nsga2.steps_of_returns_run h
  obtain ⟨hfront, -⟩ :=
    Nsga2.of_returns_evolve (PortfolioProblem.yields_gathered hbuild) trivial hevolve
  intro x hx
  rw [hreported.solutions_eq] at hx
  exact (hfront x (mem_of_mem_paretoSet hx)).choose_spec.2

lemma gathered_genetic {settings : Genetic.Settings}
    (h : Returns (Genetic.run engine settings request) cache result cache') :
    ∀ x ∈ result.solutions, Gathered request.portfolio request.constraints x := by
  obtain ⟨hcheck, o, prepared, trial, last, history, count, -, hbuild, hevolve, hreported⟩ :=
    Genetic.steps_of_returns_run h
  obtain ⟨hlast, -⟩ := Genetic.of_returns_evolve (PortfolioProblem.yields_gathered hbuild) hcheck
    (fun seed hseed => PortfolioProblem.length_of_mem_seeds hseed) trivial hevolve
  intro x hx
  rw [hreported.solutions_eq] at hx
  have hmem := mem_of_mem_bestFront (mem_of_mem_paretoSet hx)
  obtain ⟨i, hi, rfl⟩ := List.mem_map.mp hmem
  exact (hlast i hi).2

lemma gathered_grid {settings : Grid.Settings}
    (h : Returns (Grid.run engine settings request) cache result cache') :
    ∀ x ∈ result.solutions, Gathered request.portfolio request.constraints x := by
  obtain ⟨hcheck, prepared, trial, evaluated, count, hbuild, hevaluated, hreported⟩ :=
    Grid.steps_of_returns_run h
  have hspace := (PortfolioProblem.steps_of_returns_build hbuild).1
  have hpos := Grid.size_axes_pos hspace (Grid.ne_zero_of_check hcheck).2
  have hpoints := @Grid.always_points γ (fun _ _ => True) _ _ _ hpos (fun _ _ _ _ => trivial)
    settings.maxEvaluations (engine.source settings.seed)
  obtain ⟨hall, -⟩ :=
    (PortfolioProblem.yields_gathered hbuild).on.evaluateAll hpoints trivial hevaluated
  intro x hx
  rw [hreported.solutions_eq] at hx
  have hmem := mem_of_mem_bestFront (mem_of_mem_paretoSet hx)
  obtain ⟨c, -, hgathered⟩ := exists_of_mem_right hall hmem
  exact hgathered

lemma gathered_separated {settings : Separated.Settings}
    (h : Returns (Separated.run engine settings request) cache result cache') :
    ∀ x ∈ result.solutions, Gathered request.portfolio request.constraints x := by
  obtain ⟨-, fronts, count, hfronts, hreported⟩ := Separated.steps_of_returns_run h
  intro x hx
  rw [hreported.solutions_eq] at hx
  obtain ⟨merged, hmerged, rfl⟩ := List.mem_map.mp (mem_of_mem_bestFront hx)
  obtain ⟨entries, hpicked, rfl⟩ := Separated.picked_of_mem_merge hmerged
  exact ⟨entries,
    Separated.entries_of_picked (Separated.entries_of_returns_siteFronts hfronts) hpicked, rfl⟩

lemma gathered_nested {settings : Nested.Settings}
    (h : Returns (Nested.run engine settings request) cache result cache') :
    ∀ x ∈ result.solutions, Gathered request.portfolio request.constraints x := by
  obtain ⟨fronts, count, cache₁, found, hfronts, hevolve, hreported⟩ :=
    Nested.steps_of_returns_run h
  obtain ⟨hfound, -⟩ := Nsga2.of_returns_evolve (Nested.FrontProblem.yields _ _) trivial hevolve
  intro x hx
  rw [hreported.solutions_eq] at hx
  have hmem := mem_of_mem_bestFront (mem_of_mem_paretoSet hx)
  obtain ⟨c, hlength, hcombine⟩ := hfound x hmem
  obtain ⟨entries, hpicked, rfl⟩ :=
    Nested.FrontProblem.picked_of_combine?_eq_some (hlength.trans (List.length_map _)) hcombine
  exact ⟨entries,
    Separated.entries_of_picked (Separated.entries_of_returns_siteFronts hfronts) hpicked, rfl⟩

/-- Every reported solution was put together from one entry for every site. -/
theorem gathered_run {optimiser : Optimiser}
    (h : Returns (optimiser.run engine request) cache result cache') :
    ∀ x ∈ result.solutions, Gathered request.portfolio request.constraints x := by
  cases optimiser with
  | nsga2 settings => exact gathered_nsga2 h
  | genetic settings => exact gathered_genetic h
  | gridSearch settings => exact gathered_grid h
  | separated settings => exact gathered_separated h
  | nested settings => exact gathered_nested h

/-- A reported solution has an entry for every id of a site, that of the last site with this id;
its expenditure and its result are the sums over the entries. So if no two sites have one id, the
entries are those of all sites. -/
theorem entry_for_every_site {optimiser : Optimiser}
    (h : Returns (optimiser.run engine request) cache result cache') :
    ∀ x ∈ result.solutions,
      (∀ before site after, request.portfolio = before ++ site :: after →
        (∀ later ∈ after, later.siteId ≠ site.siteId) →
          ∃ s, x.sites.get? site.siteId = some s ∧ site.Entry (site.siteId, s)) ∧
      (x.sites.size = request.portfolio.length ↔ (request.portfolio.map (·.siteId)).Nodup) ∧
      ((request.portfolio.map (·.siteId)).Nodup → ∃ entries,
        List.Forall₂ Site.Entry request.portfolio entries ∧ x.sites.entries.Perm entries) ∧
      x.metrics.capex = total (x.sites.values.map (·.metrics)) .capex ∧
      x.result = .sum (x.sites.values.map (·.result)) := by
  intro x hx
  obtain ⟨entries, hentries, rfl⟩ := gathered_run h x hx
  have hkeys := keys_of_entries hentries
  refine ⟨fun before site after hportfolio hlast =>
    exists_get?_of_last hentries hportfolio hlast, ?_, fun hids => ⟨entries, hentries, ?_⟩, rfl, rfl⟩
  · change (Dict.ofList entries).size = _ ↔ _
    rw [hentries.length_eq, Dict.size_ofList_eq_length_iff, hkeys]
  · exact Dict.perm_entries_ofList (hkeys ▸ hids)

end Optimiser

end Runs

/-! ## Two sites with given batteries -/

/-- A site that gets a number of batteries. -/
def wing (siteId bundleId : String) (units : Int) : Site :=
  { depot with
    siteId, bundleId
    range := Dict.empty.insert "battery" ⟨true, Dict.empty.insert "units" (.fixed (.int units))⟩ }

/-- A task for some sites that asks for the least expenditure. -/
def wingTask (portfolio : List Site) : Task where
  id := ⟨1⟩
  clientId := "client"
  objectives := [.capex]
  optimiser := ⟨.gridSearch, .object []⟩
  portfolio := portfolio
  constraints := .none
  existing := none
  createdAt := ⟨0, 0⟩

def wingSearch : Optimiser := .gridSearch (.default 1)

/-- Two batteries in the north and three in the south cost five pounds. -/
theorem Optimiser.entry_for_every_site_wings : ∃ result cache,
    Returns (wingSearch.run depotEngine
      (wingTask [wing "north" "north" 2, wing "south" "south" 3]).request) (.start ()) result cache ∧
    result.solutions.map (·.metrics.capex) = [some (.number 5.0)] ∧
    ∀ x ∈ result.solutions, x.sites.size = 2 ∧
      ∃ s, x.sites.get? "north" = some s ∧ (wing "north" "north" 2).Entry ("north", s) := by
  have hreturns := returns_of_isOk ⟨[], 0, ⟨0, 0⟩, none⟩ (by decide +kernel :
    ((wingSearch.run depotEngine (wingTask [wing "north" "north" 2,
      wing "south" "south" 3]).request).run.run (.start ())).1.isOk)
  refine ⟨_, _, hreturns, by decide +kernel, fun x hx => ?_⟩
  obtain ⟨hlast, hsize, -⟩ := entry_for_every_site hreturns x hx
  exact ⟨hsize.mpr (by decide), hlast [] _ _ rfl (by decide)⟩

/-- Of two sites with one id the first is lost, along with its two batteries. -/
theorem twinTask_loses_site :
    let task := wingTask [wing "depot" "north" 2, wing "depot" "south" 3]
    let queue : WorkQueue := ⟨1, [], [], 1, []⟩
    (queue.submit .permissive ⟨0, 0⟩ task).toOption.map Prod.fst = some .queued ∧
    task.portfolio.length = 2 ∧
    ∃ result cache, Returns (wingSearch.run depotEngine task.request) (.start ()) result cache ∧
      result.solutions.map (fun x => (x.sites.size, x.metrics.capex)) = [(1, some (.number 3.0))] := by
  have hreturns := returns_of_isOk ⟨[], 0, ⟨0, 0⟩, none⟩ (by decide +kernel :
    ((wingSearch.run depotEngine (wingTask [wing "depot" "north" 2,
      wing "depot" "south" 3]).request).run.run (.start ())).1.isOk)
  exact ⟨by decide, rfl, _, _, hreturns, by decide +kernel⟩

end Retrofit
