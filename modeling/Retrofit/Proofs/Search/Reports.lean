import Mathlib.Data.List.Forall2
import Retrofit.Proofs.Search.Pipeline
import Retrofit.Proofs.Search.Points

/-!
# What the searches report

With a deterministic simulator every solution that any of the five searches reports is what some
chromosome of the portfolio's search space is evaluated to (`Optimiser.honest_run`), also where
the sites are searched on their own and then combined. If warm starts have values of some property,
and if clipping and the random steps of the searches keep it (`Site.Carries`), then that chromosome
has values of this property (`HonestOn`).
-/

namespace Retrofit

open Retrofit.Random

variable {σ γ : Type} {outcome : Scenario → Except Fault (Totals Amount)}
  {Q : Gene → Float → Prop}

/-- A solution that some chromosome of a space is evaluated to. -/
def Attained (outcome : Scenario → Except Fault (Totals Amount)) (space : Space)
    (portfolio : List Site) (constraints : Constraints) (x : PortfolioSolution) : Prop :=
  ∃ c : Chromosome, c.length = space.genes.length ∧
    appraise outcome space portfolio constraints c = some x

/-- A solution that some chromosome whose values have a property is evaluated to. -/
def AttainedOn (Q : Gene → Float → Prop) (outcome : Scenario → Except Fault (Totals Amount))
    (space : Space) (portfolio : List Site) (constraints : Constraints) (x : PortfolioSolution) :
    Prop :=
  ∃ c : Chromosome, List.Forall₂ Q space.genes c ∧
    appraise outcome space portfolio constraints c = some x

/-! ## Properties of values -/

/-- A property of the values of genes that warm starts have, and that clipping and the random steps
of the searches keep. -/
structure SiteSpace.Carries (γ : Type) [Source γ] (Q : Gene → Float → Prop) (space : SiteSpace) :
    Prop where
  kept : Gene.Kept γ space.genes Q
  clip : ∀ g ∈ space.genes, ∀ x, Q g x → Q g (g.clip x)
  position : ∀ l ∈ space.loci, ∀ assets x, l.position assets = some x → Q l.gene x

/-- The search space of the site, if it has one, carries the property. -/
def Site.Carries (γ : Type) [Source γ] (Q : Gene → Float → Prop) (site : Site) : Prop :=
  ∀ space, SiteSpace.ofSite site = .ok space → space.Carries γ Q

lemma Site.carries_true [Source γ] (site : Site) : site.Carries γ fun _ _ => True :=
  fun space _ => ⟨Gene.kept_true space.genes, fun _ _ _ _ => trivial, fun _ _ _ _ _ => trivial⟩

lemma SiteSpace.forall₂_of_encode {space : SiteSpace} {scenario : Scenario} {c : Chromosome}
    (hQ : ∀ l ∈ space.loci, ∀ assets x, l.position assets = some x → Q l.gene x)
    (h : space.encode scenario = some c) : List.Forall₂ Q space.genes c := by
  unfold SiteSpace.encode at h
  split at h
  · have hpositions := mapM_eq_some.mp h
    rw [SiteSpace.genes, List.forall₂_map_left_iff, List.forall₂_iff_zip]
    refine ⟨hpositions.length_eq, fun hmem => ?_⟩
    exact hQ _ (List.of_mem_zip hmem).1 _ _ (List.forall₂_zip hpositions hmem)
  · cases h

namespace Space

/-- The chromosome of a known solution has values of the property. -/
theorem forall₂_of_encode {space : Space} {x : PortfolioSolution} {c : Chromosome}
    (hQ : ∀ own ∈ space.sites, ∀ l ∈ own.loci, ∀ assets y, l.position assets = some y → Q l.gene y)
    (h : space.encode x = some c) : List.Forall₂ Q space.genes c := by
  obtain ⟨parts, hparts, heq⟩ := Option.bind_eq_some_iff.mp h
  rw [← Option.some.inj heq]
  have hall := mapM_eq_some.mp hparts
  unfold genes
  generalize space.sites = sites at hQ hall
  clear hparts heq h
  induction hall with
  | nil => exact .nil
  | cons hpart _ ih =>
    obtain ⟨hfirst, hrest⟩ := List.forall_mem_cons.mp hQ
    obtain ⟨found, -, hencode⟩ := Option.bind_eq_some_iff.mp hpart
    rw [List.flatMap_cons, List.flatten_cons]
    exact List.rel_append (SiteSpace.forall₂_of_encode hfirst hencode) (ih hrest)

lemma forall₂_sites {portfolio : List Site} {space : Space}
    (h : Space.ofPortfolio portfolio = .ok space) :
    List.Forall₂ (fun site own => SiteSpace.ofSite site = .ok own) portfolio space.sites := by
  obtain ⟨sites, hsites, heq⟩ := bind_eq_ok.mp h
  cases heq
  exact mapM_eq_ok.mp hsites

section

variable [Source γ] {portfolio : List Site} {space : Space}
  (h : Space.ofPortfolio portfolio = .ok space) (hQ : ∀ site ∈ portfolio, site.Carries γ Q)
include h hQ

lemma carries_of_mem_sites {own : SiteSpace} (hown : own ∈ space.sites) : own.Carries γ Q := by
  obtain ⟨site, hsite, hof⟩ := exists_of_mem_right (forall₂_sites h) hown
  exact hQ site hsite own hof

lemma exists_carries {g : Gene} (hg : g ∈ space.genes) :
    ∃ own : SiteSpace, own.Carries γ Q ∧ g ∈ own.genes := by
  obtain ⟨own, hown, hg⟩ := List.mem_flatMap.mp hg
  exact ⟨own, carries_of_mem_sites h hQ hown, hg⟩

lemma kept_genes : Gene.Kept γ space.genes Q := by
  refine ⟨fun g hg => ?_, fun g hg => ?_, fun g hg => ?_⟩
  · obtain ⟨own, hcarries, hg⟩ := exists_carries h hQ hg
    exact hcarries.kept.sample g hg
  · obtain ⟨own, hcarries, hg⟩ := exists_carries h hQ hg
    exact hcarries.kept.blend g hg
  · obtain ⟨own, hcarries, hg⟩ := exists_carries h hQ hg
    exact hcarries.kept.nudge g hg

lemma forall₂_clip {c : Chromosome} (hc : List.Forall₂ Q space.genes c) :
    List.Forall₂ Q space.genes (space.genes.zipWith Gene.clip c) := by
  refine Gene.forall₂_clip (fun g hg => ?_) hc
  obtain ⟨own, hcarries, hg⟩ := exists_carries h hQ hg
  exact hcarries.clip g hg

end

end Space

lemma PortfolioProblem.length_of_mem_seeds {p : PortfolioProblem}
    {existing : List PortfolioSolution} {seed : Chromosome} (h : seed ∈ p.seeds existing) :
    seed.length = p.space.genes.length := by
  obtain ⟨x, -, hencode⟩ := List.mem_filterMap.mp h
  exact (Space.forall₂_of_encode (Q := fun _ _ => True)
    (fun _ _ _ _ _ _ _ => trivial) hencode).length_eq.symm

lemma PortfolioProblem.forall₂_of_mem_seeds [Source γ] {portfolio : List Site}
    {p : PortfolioProblem} (hspace : Space.ofPortfolio portfolio = .ok p.space)
    (hQ : ∀ site ∈ portfolio, site.Carries γ Q) {existing : List PortfolioSolution}
    {seed : Chromosome} (h : seed ∈ p.seeds existing) : List.Forall₂ Q p.space.genes seed := by
  obtain ⟨x, -, hencode⟩ := List.mem_filterMap.mp h
  exact Space.forall₂_of_encode
    (fun own hown => (Space.carries_of_mem_sites hspace hQ hown).position) hencode

/-! ## Searches of the whole portfolio -/

section Whole

variable [Source γ] {engine : Engine σ γ} {request : Request} {cache cache' : Cache σ}
  {result : OptimisationResult}

/-- Every reported solution is attained. -/
def Honest (outcome : Scenario → Except Fault (Totals Amount)) (request : Request)
    (result : OptimisationResult) : Prop :=
  ∀ space, Space.ofPortfolio request.portfolio = .ok space →
    ∀ x ∈ result.solutions, Attained outcome space request.portfolio request.constraints x

/-- Every reported solution is attained by values of a property. -/
def HonestOn (Q : Gene → Float → Prop) (outcome : Scenario → Except Fault (Totals Amount))
    (request : Request) (result : OptimisationResult) : Prop :=
  ∀ x ∈ result.solutions, ∃ space, Space.ofPortfolio request.portfolio = .ok space ∧
    AttainedOn Q outcome space request.portfolio request.constraints x

lemma HonestOn.honest (h : HonestOn Q outcome request result) : Honest outcome request result := by
  intro space hspace x hx
  obtain ⟨space', hspace', c, hc, happraise⟩ := h x hx
  rw [hspace] at hspace'
  cases hspace'
  exact ⟨c, hc.length_eq.symm, happraise⟩

/-- The first front of an evolution of a portfolio is attained by values of a property. -/
lemma Nsga2.attainedOn_of_returns_evolve {portfolio : List Site} {constraints : Constraints}
    {existing : List PortfolioSolution} {settings : Nsga2.Settings} {objectives : List Objective}
    {source : γ} {simulate : Simulator σ} {prepared : PortfolioProblem} {trial trial' : Trial σ}
    {found : Nsga2.Outcome} (hsimulate : simulate.Computes outcome)
    (hQ : ∀ site ∈ portfolio, site.Carries γ Q)
    (hbuilt : prepared.BuiltFor outcome portfolio constraints) (hsound : trial.cache.Sound outcome)
    (h : Returns (Nsga2.evolve (prepared.problem simulate) settings objectives
      (prepared.seeds existing) source) trial found trial') :
    (∀ x ∈ found.front, AttainedOn Q outcome prepared.space portfolio constraints x) ∧
      trial'.cache.Sound outcome := by
  have hspace := hbuilt.space
  exact Nsga2.of_returns_evolve_on (Space.kept_genes hspace hQ)
    (fun seed hseed _ => Space.forall₂_clip hspace hQ
      (PortfolioProblem.forall₂_of_mem_seeds hspace hQ hseed))
    (PortfolioProblem.yields hsimulate hbuilt).on hsound h

lemma Nsga2.honestOn_run {settings : Nsga2.Settings} (hsimulate : engine.simulate.Computes outcome)
    (hcache : cache.Sound outcome) (hQ : ∀ site ∈ request.portfolio, site.Carries γ Q)
    (h : Returns (Nsga2.run engine settings request) cache result cache') :
    HonestOn Q outcome request result := by
  obtain ⟨prepared, trial, found, count, hbuild, hevolve, hreported⟩ :=
    Nsga2.steps_of_returns_run h
  obtain ⟨hbuilt, hsound⟩ := PortfolioProblem.returns_build hsimulate hcache hbuild
  obtain ⟨hfront, -⟩ := Nsga2.attainedOn_of_returns_evolve hsimulate hQ hbuilt hsound hevolve
  intro x hx
  rw [hreported.solutions_eq] at hx
  exact ⟨prepared.space, hbuilt.space, hfront x (mem_of_mem_paretoSet hx)⟩

lemma Genetic.honestOn_run {settings : Genetic.Settings}
    (hsimulate : engine.simulate.Computes outcome) (hcache : cache.Sound outcome)
    (hQ : ∀ site ∈ request.portfolio, site.Carries γ Q)
    (h : Returns (Genetic.run engine settings request) cache result cache') :
    HonestOn Q outcome request result := by
  obtain ⟨hcheck, o, prepared, trial, last, history, count, -, hbuild, hevolve, hreported⟩ :=
    Genetic.steps_of_returns_run h
  obtain ⟨hbuilt, hsound⟩ := PortfolioProblem.returns_build hsimulate hcache hbuild
  obtain ⟨hlast, -⟩ := Genetic.of_returns_evolve_on (Space.kept_genes hbuilt.space hQ)
    (PortfolioProblem.yields hsimulate hbuilt).on hcheck
    (fun seed hseed => PortfolioProblem.forall₂_of_mem_seeds hbuilt.space hQ hseed) hsound hevolve
  intro x hx
  rw [hreported.solutions_eq] at hx
  have hmem := mem_of_mem_bestFront (mem_of_mem_paretoSet hx)
  obtain ⟨i, hi, rfl⟩ := List.mem_map.mp hmem
  exact ⟨prepared.space, hbuilt.space, i.chromosome, hlast.individuals i hi⟩

namespace Grid

lemma ne_zero_of_check {settings : Settings} (h : settings.check = .ok ()) :
    settings.maxEvaluations ≠ 0 ∧ settings.continuousSteps ≠ 0 := by
  unfold Settings.check at h
  split_ifs at h with hmax hsteps
  exact ⟨hmax, hsteps⟩

lemma size_ofGene_pos {l : Locus} (hl : l.WellFormed) {steps : Nat} (hsteps : steps ≠ 0) :
    0 < (Axis.ofGene steps l.gene).size := by
  cases l with
  | presence asset => exact Nat.succ_pos _
  | choice asset attr values =>
    change 0 < ((values.length : Int) - 1 - 0 + 1).toNat
    have hlength : 2 ≤ values.length := hl
    omega
  | stepped asset attr min step last =>
    change 0 < (last - 0 + 1).toNat
    have hlast : 0 < last := hl.2.1
    omega
  | continuous asset attr min max => exact Nat.pos_of_ne_zero hsteps

lemma size_axes_pos {portfolio : List Site} {space : Space}
    (hspace : Space.ofPortfolio portfolio = .ok space) {steps : Nat} (hsteps : steps ≠ 0) :
    ∀ g ∈ space.genes, 0 < (Axis.ofGene steps g).size := by
  intro g hg
  obtain ⟨own, hown, hg⟩ := List.mem_flatMap.mp hg
  obtain ⟨l, hl, rfl⟩ := List.mem_map.mp hg
  exact size_ofGene_pos (Space.wellFormed_of_ofPortfolio hspace own hown l hl) hsteps

/-- The chosen points have values of a property if those of every axis do. -/
theorem always_points {genes : List Gene} {steps : Nat}
    (hpos : ∀ g ∈ genes, 0 < (Axis.ofGene steps g).size)
    (hQ : ∀ g ∈ genes, ∀ k < (Axis.ofGene steps g).size, Q g ((Axis.ofGene steps g).value k))
    (limit : Nat) : Always (points (genes.map (Axis.ofGene steps)) limit : Draw γ (List Chromosome))
      (∀ c ∈ ·, List.Forall₂ Q genes c) := by
  intro s c hc
  obtain ⟨kept, hrun, -, hgrid⟩ := exists_kept (genes.map (Axis.ofGene steps)) limit s
  rw [hrun] at hc
  obtain ⟨places, hplaces, rfl⟩ := List.mem_map.mp hc
  have hplaced := (hgrid (List.forall_mem_map.mpr hpos)).1 places hplaces
  clear hc hplaces hgrid hrun hpos
  unfold OnGrid at hplaced
  unfold pointAt
  rw [List.forall₂_map_left_iff] at hplaced
  induction hplaced with
  | nil => exact .nil
  | cons hk _ ih =>
    obtain ⟨hfirst, hrest⟩ := List.forall_mem_cons.mp hQ
    exact .cons (hfirst _ hk) (ih hrest)

/-- A grid search reports the best front of what the chosen points are evaluated to. -/
theorem returns_run {settings : Grid.Settings} (hsimulate : engine.simulate.Computes outcome)
    (hcache : cache.Sound outcome)
    (h : Returns (Grid.run engine settings request) cache result cache') :
    ∃ space evaluated, Space.ofPortfolio request.portfolio = .ok space ∧
      List.Forall₂
        (fun c x => appraise outcome space request.portfolio request.constraints c = some x)
        ((points (space.genes.map (Axis.ofGene settings.continuousSteps))
          settings.maxEvaluations).run (engine.source settings.seed)).1 evaluated ∧
      result.solutions = paretoSet request.objectives (bestFront request.objectives evaluated) := by
  obtain ⟨hcheck, prepared, trial, evaluated, count, hbuild, hevaluated, hreported⟩ :=
    steps_of_returns_run h
  obtain ⟨hbuilt, hsound⟩ := PortfolioProblem.returns_build hsimulate hcache hbuild
  have hpos := size_axes_pos hbuilt.space (ne_zero_of_check hcheck).2
  have hpoints := @always_points γ (fun _ _ => True) _ _ _ hpos (fun _ _ _ _ => trivial)
    settings.maxEvaluations (engine.source settings.seed)
  obtain ⟨hall, -⟩ :=
    (PortfolioProblem.yields hsimulate hbuilt).on.evaluateAll hpoints hsound hevaluated
  exact ⟨prepared.space, evaluated, hbuilt.space, hall, hreported.solutions_eq⟩

lemma honestOn_run {settings : Grid.Settings} (hsimulate : engine.simulate.Computes outcome)
    (hcache : cache.Sound outcome)
    (hQ : ∀ space, Space.ofPortfolio request.portfolio = .ok space → ∀ g ∈ space.genes,
      ∀ k < (Axis.ofGene settings.continuousSteps g).size,
        Q g ((Axis.ofGene settings.continuousSteps g).value k))
    (h : Returns (Grid.run engine settings request) cache result cache') :
    HonestOn Q outcome request result := by
  have hcheck := (steps_of_returns_run h).1
  obtain ⟨space, evaluated, hspace, hall, hsolutions⟩ := returns_run hsimulate hcache h
  have hpos := size_axes_pos hspace (ne_zero_of_check hcheck).2
  intro x hx
  rw [hsolutions] at hx
  have hmem := mem_of_mem_bestFront (mem_of_mem_paretoSet hx)
  obtain ⟨c, hc, happraise⟩ := exists_of_mem_right hall hmem
  have hvalues := always_points hpos (hQ space hspace) _ (engine.source settings.seed) c hc
  exact ⟨space, hspace, c, hvalues, happraise⟩

lemma honest_run {settings : Grid.Settings} (hsimulate : engine.simulate.Computes outcome)
    (hcache : cache.Sound outcome)
    (h : Returns (Grid.run engine settings request) cache result cache') :
    Honest outcome request result :=
  (honestOn_run (Q := fun _ _ => True) hsimulate hcache
    (fun _ _ _ _ _ _ => trivial) h).honest

end Grid

end Whole

/-! ## Searches of single sites -/

/-- A site's entry that a chromosome of the site's own space, with values of a property, leads
to. -/
def AttainedAt (Q : Gene → Float → Prop) (outcome : Scenario → Except Fault (Totals Amount))
    (site : Site) (e : String × SiteSolution) : Prop :=
  ∃ space c, SiteSpace.ofSite site = .ok space ∧ List.Forall₂ Q space.genes c ∧
    appraiseSite outcome site (space.decode c) = some e

/-- The solution of a portfolio of one site is an entry of that site. -/
lemma attainedAt_of_attainedOn {site : Site} {space : Space} {x : PortfolioSolution}
    {constraints : Constraints} {s : SiteSolution} (hspace : Space.ofPortfolio [site] = .ok space)
    (hx : AttainedOn Q outcome space [site] constraints x)
    (hs : x.sites.get? site.siteId = some s) : AttainedAt Q outcome site (site.siteId, s) := by
  obtain ⟨c, hc, happraise⟩ := hx
  obtain ⟨own, rest, hown, hrest, hsites⟩ :=
    List.forall₂_cons_left_iff.mp (Space.forall₂_sites hspace)
  rw [List.forall₂_nil_left_iff.mp hrest] at hsites
  rw [Space.genes, hsites, List.flatMap_singleton] at hc
  have hlength := hc.length_eq.symm.trans own.length_genes
  obtain ⟨entries, hentries, rfl⟩ := appraise_eq_some.mp happraise
  rw [Space.decode, hsites, Space.decodeFrom_cons, ← hlength, List.take_length,
    List.zip_cons_cons, List.zip_nil_left] at hentries
  obtain ⟨e, others, he, hothers, rfl⟩ := List.forall₂_cons_left_iff.mp hentries
  rw [List.forall₂_nil_left_iff] at hothers
  have hmem := Dict.mem_of_get?_ofList hs
  rw [hothers, List.mem_singleton] at hmem
  exact ⟨own, c, hown, hc, hmem ▸ he⟩

/-- Entries of all sites together are a solution of the portfolio: the chromosomes of the sites are
laid end to end. -/
theorem exists_forall₂_appraiseSite {portfolio : List Site} {spaces : List SiteSpace}
    {entries : List (String × SiteSolution)}
    (hspaces : List.Forall₂ (fun site own => SiteSpace.ofSite site = .ok own) portfolio spaces)
    (hentries : List.Forall₂ (AttainedAt Q outcome) portfolio entries) :
    ∃ c : Chromosome, List.Forall₂ Q (spaces.flatMap (·.genes)) c ∧
      List.Forall₂ (fun e b => appraiseSite outcome e.1 e.2 = some b)
        (portfolio.zip (Space.decodeFrom spaces c)) entries := by
  induction hspaces generalizing entries with
  | nil =>
    cases hentries
    exact ⟨[], .nil, .nil⟩
  | cons hown _ ih =>
    cases hentries with
    | cons he hrest =>
      obtain ⟨own, first, hown', hfirst, happraise⟩ := he
      rw [hown] at hown'
      cases hown'
      obtain ⟨others, hothers, hall⟩ := ih hrest
      refine ⟨first ++ others, ?_, ?_⟩
      · rw [List.flatMap_cons]
        exact List.rel_append hfirst hothers
      · have hlength := hfirst.length_eq.symm.trans (SiteSpace.length_genes _)
        rw [Space.decodeFrom_append _ _ others hlength]
        exact .cons happraise hall

lemma attainedOn_of_forall₂ {portfolio : List Site} {constraints : Constraints}
    {entries : List (String × SiteSolution)}
    (h : List.Forall₂ (AttainedAt Q outcome) portfolio entries) :
    ∃ space, Space.ofPortfolio portfolio = .ok space ∧ AttainedOn Q outcome space portfolio
      constraints (.ofSites (Dict.ofList entries) constraints) := by
  have hown : ∀ site ∈ portfolio, ∃ own, SiteSpace.ofSite site = .ok own := by
    intro site hsite
    obtain ⟨e, -, own, -, hown, -⟩ := exists_of_mem_left h hsite
    exact ⟨own, hown⟩
  obtain ⟨spaces, hspaces⟩ := exists_forall₂_of_forall hown
  obtain ⟨c, hc, hall⟩ := exists_forall₂_appraiseSite hspaces h
  refine ⟨⟨spaces⟩, bind_eq_ok.mpr ⟨spaces, mapM_eq_ok.mpr hspaces, rfl⟩, c, hc, ?_⟩
  exact appraise_eq_some.mpr ⟨entries, hall, rfl⟩

section Combined

variable [Source γ] {engine : Engine σ γ} {request : Request} {cache cache' : Cache σ}
  {result : OptimisationResult}

namespace Separated

/-- The fronts of the sites hold attained entries. -/
lemma attainedAt_of_returns_siteFronts {settings : Settings} {place : Nat} {sites : List Site}
    {fronts : List (List SiteSolution)} {count : Nat}
    (hsimulate : engine.simulate.Computes outcome) (hcache : cache.Sound outcome)
    (hQ : ∀ site ∈ sites, site.Carries γ Q)
    (h : Returns (siteFronts engine settings request place sites) cache (fronts, count) cache') :
    List.Forall₂ (fun site front => ∀ s ∈ front, AttainedAt Q outcome site (site.siteId, s)) sites
      fronts := by
  refine (forall₂_of_returns_siteFronts (I := (·.Sound outcome)) ?_ hcache h).1
  intro settings site hsite cache front count cache' hcache hfront
  obtain ⟨prepared, found, trial, hbuild, hevolve, rfl, -⟩ :=
    returns_siteFront hfront
  obtain ⟨hbuilt, hsound⟩ := PortfolioProblem.returns_build hsimulate hcache hbuild
  obtain ⟨hfound, hsound'⟩ := Nsga2.attainedOn_of_returns_evolve hsimulate
    (List.forall_mem_singleton.mpr (hQ site hsite)) hbuilt hsound hevolve
  refine ⟨fun s hs => ?_, hsound'⟩
  obtain ⟨x, hx, hget⟩ := List.mem_filterMap.mp hs
  have hmem := mem_of_mem_bestFront hx
  exact attainedAt_of_attainedOn hbuilt.space (hfound x hmem) hget

/-- A choice of one solution from the front of every site. -/
def Picked (choices : List (Site × List SiteSolution)) (entries : List (String × SiteSolution)) :
    Prop :=
  List.Forall₂ (fun choice e => e.1 = choice.1.siteId ∧ e.2 ∈ choice.2) choices entries

lemma attainedAt_of_picked {portfolio : List Site} {fronts : List (List SiteSolution)}
    {entries : List (String × SiteSolution)}
    (hfronts : List.Forall₂ (fun site front =>
      ∀ s ∈ front, AttainedAt Q outcome site (site.siteId, s)) portfolio fronts)
    (h : Picked (portfolio.zip fronts) entries) :
    List.Forall₂ (AttainedAt Q outcome) portfolio entries := by
  unfold Picked at h
  induction hfronts generalizing entries with
  | nil =>
    cases h
    exact .nil
  | cons hfront _ ih =>
    cases h with
    | cons he hrest =>
      obtain ⟨hkey, hmem⟩ := he
      refine .cons ?_ (ih hrest)
      have hattained := hfront _ hmem
      rwa [← hkey] at hattained

/-- What the merging of fronts keeps are choices. -/
theorem picked_of_mem_mergeFrom {objectives : List Objective} {limit : Nat}
    {done choices : List (Site × List SiteSolution)} {partials : List (Dict SiteSolution)}
    {d : Dict SiteSolution}
    (hpartials : ∀ d ∈ partials, ∃ entries, Picked done entries ∧ d = Dict.ofList entries)
    (hd : d ∈ mergeFrom objectives limit choices partials) :
    ∃ entries, Picked (done ++ choices) entries ∧ d = Dict.ofList entries := by
  induction choices generalizing done partials with
  | nil =>
    rw [List.append_nil]
    exact hpartials d hd
  | cons choice rest ih =>
    obtain ⟨site, front⟩ := choice
    rw [List.append_cons]
    refine ih (fun d' hd' => ?_) hd
    obtain ⟨x, hx, rfl⟩ := List.mem_map.mp hd'
    have hx := mem_of_mem_bestFront (mem_of_mem_leastCrowded hx)
    obtain ⟨before, hbefore, hx⟩ := List.mem_flatMap.mp hx
    obtain ⟨s, hs, rfl⟩ := List.mem_map.mp hx
    obtain ⟨entries, hentries, rfl⟩ := hpartials before hbefore
    refine ⟨entries ++ [(site.siteId, s)], ?_, ?_⟩
    · exact List.rel_append hentries (.cons ⟨rfl, hs⟩ .nil)
    · rw [Dict.ofList_append_singleton]
      rfl

lemma picked_of_mem_merge {objectives : List Objective} {limit : Nat} {portfolio : List Site}
    {fronts : List (List SiteSolution)} {x : PortfolioSolution}
    (h : x ∈ merge objectives limit portfolio fronts) :
    ∃ entries, Picked (portfolio.zip fronts) entries ∧ x = .ofSites (Dict.ofList entries) .none := by
  obtain ⟨d, hd, rfl⟩ := List.mem_map.mp h
  have hnone : ∀ d ∈ [Dict.empty], ∃ entries, Picked [] entries ∧ d = Dict.ofList entries :=
    List.forall_mem_singleton.mpr ⟨[], .nil, rfl⟩
  obtain ⟨entries, hentries, rfl⟩ := picked_of_mem_mergeFrom hnone hd
  exact ⟨entries, hentries, rfl⟩

lemma honestOn_run {settings : Settings} (hsimulate : engine.simulate.Computes outcome)
    (hcache : cache.Sound outcome) (hQ : ∀ site ∈ request.portfolio, site.Carries γ Q)
    (h : Returns (Separated.run engine settings request) cache result cache') :
    HonestOn Q outcome request result := by
  obtain ⟨-, fronts, count, hfronts, hreported⟩ := steps_of_returns_run h
  have hattained := attainedAt_of_returns_siteFronts hsimulate hcache hQ hfronts
  intro x hx
  rw [hreported.solutions_eq] at hx
  have hmem := mem_of_mem_bestFront hx
  obtain ⟨merged, hmerged, rfl⟩ := List.mem_map.mp hmem
  obtain ⟨entries, hentries, rfl⟩ := picked_of_mem_merge hmerged
  exact attainedOn_of_forall₂ (attainedAt_of_picked hattained hentries)

end Separated

/-- The combination that a chromosome stands for is a choice from the fronts. -/
lemma Nested.FrontProblem.picked_of_combine?_eq_some {portfolio : List Site}
    {fronts : List (List SiteSolution)} {constraints : Constraints} {c : Chromosome}
    {x : PortfolioSolution}
    (hlength : c.length = (ofFronts portfolio fronts constraints).choices.length)
    (h : (ofFronts portfolio fronts constraints).combine? c = some x) :
    ∃ entries, Separated.Picked (portfolio.zip fronts) entries ∧
      x = .ofSites (Dict.ofList entries) constraints := by
  obtain ⟨entries, hentries, hx⟩ := forall₂_of_combine?_eq_some hlength h
  refine ⟨entries, ?_, hx⟩
  change List.Forall₂ _ (portfolio.zipWith _ fronts) entries at hentries
  rw [← List.map_uncurry_zip_eq_zipWith, List.forall₂_map_left_iff] at hentries
  exact hentries

lemma Nested.honestOn_run {settings : Nested.Settings}
    (hsimulate : engine.simulate.Computes outcome) (hcache : cache.Sound outcome)
    (hQ : ∀ site ∈ request.portfolio, site.Carries γ Q)
    (h : Returns (Nested.run engine settings request) cache result cache') :
    HonestOn Q outcome request result := by
  obtain ⟨fronts, count, cache₁, found, hfronts, hevolve, hreported⟩ :=
    steps_of_returns_run h
  have hattained := Separated.attainedAt_of_returns_siteFronts hsimulate hcache hQ hfronts
  obtain ⟨hfound, -⟩ := Nsga2.of_returns_evolve (Nested.FrontProblem.yields _ _) trivial hevolve
  intro x hx
  rw [hreported.solutions_eq] at hx
  have hmem := mem_of_mem_bestFront (mem_of_mem_paretoSet hx)
  obtain ⟨c, hlength, hcombine⟩ := hfound x hmem
  obtain ⟨entries, hpicked, rfl⟩ :=
    Nested.FrontProblem.picked_of_combine?_eq_some (hlength.trans (List.length_map _)) hcombine
  exact attainedOn_of_forall₂ (Separated.attainedAt_of_picked hattained hpicked)

/-- Every solution that an optimiser reports is attained. -/
theorem Optimiser.honest_run {optimiser : Optimiser} (hsimulate : engine.simulate.Computes outcome)
    (hcache : cache.Sound outcome)
    (h : Returns (optimiser.run engine request) cache result cache') :
    Honest outcome request result := by
  have hQ : ∀ site ∈ request.portfolio, site.Carries γ fun _ _ => True :=
    fun site _ => site.carries_true
  cases optimiser with
  | nsga2 settings => exact (Nsga2.honestOn_run hsimulate hcache hQ h).honest
  | genetic settings => exact (Genetic.honestOn_run hsimulate hcache hQ h).honest
  | gridSearch settings => exact Grid.honest_run hsimulate hcache h
  | separated settings => exact (Separated.honestOn_run hsimulate hcache hQ h).honest
  | nested settings => exact (Nested.honestOn_run hsimulate hcache hQ h).honest

end Combined

end Retrofit
