import Retrofit.Proofs.Search.Replay
import Retrofit.Proofs.Search.Shape
import Retrofit.Proofs.Search.Transparency
import Retrofit.Proofs.Space.Genes

/-!
# The second pass keeps what the first found

Every combination that the site-by-site search merges is a seed of the search on fronts, and stands
there for the same solutions of the sites (`Nested.represents_of_mem_merge`). Seeds that have a place
in the first population are evaluated (`Nsga2.exists_mem_journal_of_mem_seeds`). So the nested search
never does worse than the site-by-site search with the same settings
(`Nested.no_worse_than_separated`).
-/

namespace Retrofit

open Retrofit.Random

/-! ## Seeds are evaluated -/

namespace Nsga2

variable {τ γ : Type} [Source γ] {p : Problem τ} {settings : Settings}
  {objectives : List Objective} {first others chromosomes : List Chromosome} {c : Chromosome}

lemma mem_of_returns_firstBrood {genes : List Gene} {s s' : γ}
    (hfits : ∀ c ∈ first, c.length = genes.length) (hplaces : first.length ≤ settings.populationSize)
    (hc : c ∈ first)
    (h : Returns (firstBrood settings genes (first ++ others)) s chromosomes s') :
    genes.zipWith Gene.clip c ∈ chromosomes := by
  obtain ⟨random, s₁, -, h⟩ := returns_bind.mp h
  obtain ⟨rfl, -⟩ := returns_pure.mp h
  have hkept : first.filter (·.length = genes.length) = first :=
    List.filter_eq_self.mpr fun c hc => decide_eq_true (hfits c hc)
  have hlength : (first.map (genes.zipWith Gene.clip ·)).length ≤ settings.populationSize := by
    rw [List.length_map]
    exact hplaces
  rw [List.filter_append, hkept, List.map_append, List.take_append, List.take_of_length_le hlength]
  exact List.mem_append_left _ (List.mem_append_left _ (List.mem_map_of_mem hc))

/-- The candidates of the first population come first in the journal. -/
lemma exists_mem_journal_of_mem_firstBrood {seeds : List Chromosome} {source : γ}
    {outcome : Outcome} {t t' : τ} {journal : Journal} (hgenes : p.genes ≠ [])
    (hbrood : ∀ chromosomes s', Returns (firstBrood settings p.genes seeds) source chromosomes s' →
      c ∈ chromosomes)
    (h : Returns (evolve p.logged settings objectives seeds source) (t, []) outcome (t', journal)) :
    ∃ x, (c, x) ∈ journal := by
  obtain ⟨chromosomes, source', population, ⟨t₁, journal₁⟩, last, later, hfirst, hselect, hrest, -⟩ :=
    steps_of_returns_evolve (p := p.logged) hgenes h
  obtain ⟨solutions, hsolutions, -⟩ := returns_select hselect
  obtain ⟨hevaluated, rfl⟩ := returns_logged_evaluateAll p hsolutions
  obtain ⟨rest, rfl, -⟩ := replay_of_returns_breed hrest
  have hzip : List.Forall₂ (fun c x => (c, x) ∈ chromosomes.zip solutions) chromosomes solutions :=
    List.forall₂_iff_zip.mpr ⟨length_of_returns_evaluateAll hevaluated, id⟩
  obtain ⟨x, -, hx⟩ := exists_of_mem_left hzip (hbrood _ _ hfirst)
  exact ⟨x, List.mem_append_left _ hx⟩

/-- Seeds that fit the genes and have a place in the first population are evaluated. -/
theorem exists_mem_journal_of_mem_seeds {source : γ} {outcome : Outcome} {t t' : τ}
    {journal : Journal} (hgenes : p.genes ≠ []) (hfits : ∀ c ∈ first, c.length = p.genes.length)
    (hplaces : first.length ≤ settings.populationSize) (hc : c ∈ first)
    (h : Returns (evolve p.logged settings objectives (first ++ others) source) (t, []) outcome
      (t', journal)) : ∃ x, (p.genes.zipWith Gene.clip c, x) ∈ journal :=
  exists_mem_journal_of_mem_firstBrood hgenes
    (fun _ _ hbrood => mem_of_returns_firstBrood hfits hplaces hc hbrood) h

end Nsga2

/-! ## Combinations of the fronts as seeds -/

namespace Nested

namespace FrontProblem

variable {p : FrontProblem} {entries : List (String × SiteSolution)}

/-- A solution of a front is found by its scenario, and the place that is found stands for it. -/
lemma exists_place {choice : FrontChoice} {s : SiteSolution} (hfront : Unambiguous choice.front)
    (hbound : choice.front.length ≤ 2 ^ 53) (hs : s ∈ choice.front) :
    ∃ place : Nat, (choice.front.findIdx? fun s' => s'.scenario = s.scenario) = some place ∧
      pick choice ((gene choice).clip (Number.ofInt place)) = some (choice.siteId, s) := by
  cases hfound : choice.front.findIdx? fun s' => s'.scenario = s.scenario with
  | none =>
    have hnone := List.findIdx?_eq_none_iff.mp hfound s hs
    simp at hnone
  | some place =>
    obtain ⟨hplace, hsame, -⟩ := List.findIdx?_eq_some_iff_getElem.mp hfound
    have heq : choice.front[place] = s :=
      hfront _ (List.getElem_mem hplace) s hs (of_decide_eq_true hsame)
    refine ⟨place, rfl, ?_⟩
    obtain ⟨n, hn⟩ := Nat.exists_eq_add_of_lt hplace
    have hgene : gene choice = .integer 0 ((place + n : Nat) : Int) := by
      unfold gene
      rw [hn, Int.natCast_succ, Int.add_sub_cancel]
    -- The value is clipped as a seed, and again when the place is looked up.
    have hnumber := (Gene.clip_of_isNumber (n := place + n) (Number.faithful_ofInt place).isNumber).1
    obtain ⟨hunits, -⟩ := Gene.clip_ofInt (by omega : place + n ≤ 2 ^ 53) (Nat.le_add_right place n)
    obtain ⟨-, hcount⟩ := Gene.clip_of_whole (by omega) (Nat.le_add_right place n) hnumber hunits
    unfold pick
    rw [hgene, hcount, List.getElem?_eq_getElem hplace, heq]
    rfl

/-- A solution that has a chromosome, which stands for the same solutions of the sites also after it
was clipped. -/
def Represents (p : FrontProblem) (x : PortfolioSolution) : Prop :=
  ∃ c, p.encode x = some c ∧ c.length = p.choices.length ∧
    p.combine? ((p.choices.map gene).zipWith Gene.clip c) = some (.ofSites x.sites p.constraints)

/-- A choice from unambiguous fronts is represented. -/
theorem represents_of_forall₂ {x : PortfolioSolution}
    (hpicked : List.Forall₂ (fun choice e => e.1 = choice.siteId ∧ e.2 ∈ choice.front) p.choices
      entries)
    (hids : (p.choices.map (·.siteId)).Nodup)
    (hfronts : ∀ choice ∈ p.choices, Unambiguous choice.front ∧ choice.front.length ≤ 2 ^ 53)
    (hx : x.sites = Dict.ofList entries) : p.Represents x := by
  have hkeys : p.choices.map (·.siteId) = entries.map Prod.fst :=
    map_eq_map_of_forall₂ (hpicked.imp fun _ _ h => h.1.symm)
  have hget : ∀ e ∈ entries, x.sites.get? e.1 = some e.2 := fun e he => by
    rw [hx]
    exact Dict.get?_ofList_of_nodup (hkeys ▸ hids) he
  have hsteps : ∃ c, p.encode x = some c ∧
      (p.choices.zip ((p.choices.map gene).zipWith Gene.clip c)).mapM (fun e => pick e.1 e.2) =
        some entries := by
    unfold encode
    simp only [mapM_eq_some]
    generalize p.choices = choices at hpicked hfronts
    clear hkeys hids hx
    induction hpicked with
    | nil => exact ⟨[], .nil, .nil⟩
    | @cons choice e choices entries hfirst _ ih =>
      obtain ⟨hfront, hothers⟩ := List.forall_mem_cons.mp hfronts
      obtain ⟨hentry, hrest⟩ := List.forall_mem_cons.mp hget
      obtain ⟨c, hencode, hpick⟩ := ih hrest hothers
      obtain ⟨place, hfound, hplace⟩ := exists_place hfront.1 hfront.2 hfirst.2
      refine ⟨Number.ofInt place :: c, .cons ?_ hencode, .cons ?_ hpick⟩
      · simp [← hfirst.1, hentry, hfound]
      · rw [hplace, ← hfirst.1]
  obtain ⟨c, hencode, hpick⟩ := hsteps
  refine ⟨c, hencode, (mapM_eq_some.mp hencode).length_eq.symm, ?_⟩
  unfold combine?
  rw [hpick, hx]
  rfl

/-- What is represented and has a place in the first population is evaluated. -/
theorem mem_journal_of_represents {τ γ : Type} [Source γ] {settings : Nsga2.Settings}
    {objectives : List Objective} {merged : List PortfolioSolution} {others : List Chromosome}
    {source : γ} {found : Nsga2.Outcome} {count : Nat} {t t' : τ} {journal : Journal}
    {x : PortfolioSolution} (hchoices : p.choices ≠ []) (hmerged : ∀ x ∈ merged, p.Represents x)
    (hplaces : merged.length ≤ settings.populationSize) (hx : x ∈ merged)
    (h : Returns (Nsga2.evolve (p.problem count).logged settings objectives
      (merged.filterMap p.encode ++ others) source) (t, []) found (t', journal)) :
    .ofSites x.sites p.constraints ∈ journal.map Prod.snd := by
  have hgenes : (p.problem count : Problem τ).genes ≠ [] := mt List.map_eq_nil_iff.mp hchoices
  have hfits : ∀ c ∈ merged.filterMap p.encode,
      c.length = (p.problem count : Problem τ).genes.length := by
    intro c hc
    obtain ⟨y, hy, hencode⟩ := List.mem_filterMap.mp hc
    obtain ⟨c', hencode', hlength, -⟩ := hmerged y hy
    rw [hencode] at hencode'
    rw [Option.some.inj hencode', hlength]
    exact (List.length_map _).symm
  obtain ⟨c, hencode, -, hcombine⟩ := hmerged x hx
  obtain ⟨z, hz⟩ := Nsga2.exists_mem_journal_of_mem_seeds hgenes hfits
    (Nat.le_trans (List.length_filterMap_le _ _) hplaces)
    (List.mem_filterMap.mpr ⟨x, hx, hencode⟩) h
  have hknown := Nsga2.known_of_returns_evolve (FrontProblem.yields p count) trivial h
  have hevaluated : p.combine? _ = some z := (hknown.entries _ hz).2
  change p.combine? ((p.choices.map gene).zipWith Gene.clip c) = some z at hevaluated
  rw [hcombine] at hevaluated
  rw [Option.some.inj hevaluated]
  exact List.mem_map_of_mem (f := Prod.snd) hz

end FrontProblem

/-! ## Both passes together -/

end Nested

/-- At most the violation of another solution and, with a single objective, at most its cost if the
violations are the same. -/
structure PortfolioSolution.NoWorse (objectives : List Objective) (x y : PortfolioSolution) :
    Prop where
  violation : Number.larger x.violation 0.0 ≤ Number.larger y.violation 0.0
  cost : ∀ o, objectives = [o] → Number.larger y.violation 0.0 ≤ Number.larger x.violation 0.0 →
    o.cost (x.metric o) ≤ o.cost (y.metric o)

namespace Nested

section Runs

variable {σ γ : Type} [Source γ] {engine : Engine σ γ} {settings : Settings} {request : Request}
  {fronts : List (List SiteSolution)}

lemma choices_ofFronts :
    (FrontProblem.ofFronts request.portfolio fronts request.constraints).choices =
      (request.portfolio.zip fronts).map fun e => ⟨e.1.siteId, e.2⟩ := by
  rw [List.map_zip_eq_zipWith]
  rfl

lemma siteIds_ofFronts (hlength : request.portfolio.length = fronts.length) :
    (FrontProblem.ofFronts request.portfolio fronts request.constraints).choices.map (·.siteId) =
      request.portfolio.map (·.siteId) := by
  have hfst : (request.portfolio.zip fronts).map Prod.fst = request.portfolio :=
    List.map_fst_zip (Nat.le_of_eq hlength)
  rw [choices_ofFronts, List.map_map]
  conv_rhs => rw [← hfst, List.map_map]
  rfl

/-- Merged combinations of unambiguous fronts are represented. -/
lemma represents_of_mem_merge {limit : Nat} {x : PortfolioSolution}
    (hlength : request.portfolio.length = fronts.length)
    (hids : (request.portfolio.map (·.siteId)).Nodup)
    (hfronts : ∀ front ∈ fronts, Unambiguous front ∧ front.length ≤ 2 ^ 53)
    (hx : x ∈ Separated.merge request.objectives limit request.portfolio fronts) :
    (FrontProblem.ofFronts request.portfolio fronts request.constraints).Represents x := by
  obtain ⟨entries, hentries, rfl⟩ := Separated.picked_of_mem_merge hx
  refine FrontProblem.represents_of_forall₂ ?_ ?_ ?_ rfl
  · rw [choices_ofFronts]
    exact List.forall₂_map_left_iff.mpr hentries
  · rw [siteIds_ofFronts hlength]
    exact hids
  · rw [choices_ofFronts]
    exact List.forall_mem_map.mpr fun e he => hfronts _ (List.of_mem_zip he).2

variable {σ' : Type} {engine' : Engine σ' γ} {outcome : Scenario → Except Fault (Totals Amount)}
  {cache cache₁ cache₂ : Cache σ} {cache' cache₁' : Cache σ'} {count : Nat}
  {nested separated : OptimisationResult}

/-- The nested search never does worse than the site-by-site search with the same settings, as long
as every merged combination has a place in the first population. Both runs draw the same random
numbers for the sites, and start from caches that know the same. The place of a solution in a front
is a double in a chromosome, so the places of a front have to be among the whole numbers that doubles
tell apart. -/
theorem no_worse_than_separated (hsimulate : engine.simulate.Computes outcome)
    (hsimulate' : engine'.simulate.Computes outcome)
    (hsource : ∀ seed, (Optimiser.separated settings.separated).Uses seed →
      engine.source seed = engine'.source seed)
    (hcaches : SameKnown cache cache')
    (hids : (request.portfolio.map (·.siteId)).Nodup)
    (hdefined : ∀ x, Optimiser.Considers engine request cache x (.nested settings) →
      x.Defined request.objectives)
    (hfronts : Returns (Separated.siteFronts engine settings.separated request 0 request.portfolio)
      cache (fronts, count) cache₂)
    (haddressable : ∀ front ∈ fronts, front.length ≤ 2 ^ 53)
    (hplaces : (Separated.merge request.objectives settings.separated.maxFrontSize request.portfolio
      fronts).length ≤ settings.portfolio.populationSize)
    (hnested : Returns (Nested.run engine settings request) cache nested cache₁)
    (hseparated : Returns (Separated.run engine' settings.separated request) cache' separated
      cache₁') :
    ∀ x ∈ nested.solutions, ∀ y ∈ separated.solutions, x.NoWorse request.objectives y := by
  obtain ⟨fronts₁, count₁, cache₃, found, hfronts₁, hevolve, hreported⟩ :=
    steps_of_returns_run hnested
  obtain ⟨hportfolio, fronts', count', hfronts', hreported'⟩ :=
    Separated.steps_of_returns_run hseparated
  obtain ⟨heq, rfl⟩ := hfronts₁.unique hfronts
  cases heq
  have halike : engine.Alike SameKnown .exact engine' :=
    ⟨answersAlike_of_known hsimulate hsimulate' _, hreported.elapsed_ne_zero,
      hreported'.elapsed_ne_zero⟩
  obtain ⟨⟨hsame, -⟩, -⟩ := (Separated.paired_siteFronts (E := fun _ _ => False) halike
    (List.Subset.refl _) (halike.oneByOne _ _) (fun place => hsource _ ⟨place, rfl⟩) cache cache'
    hcaches).of_returns hfronts hfronts'
  change fronts = fronts' at hsame
  subst hsame
  have hunambiguous := Separated.unambiguous_of_returns_siteFronts hfronts
  have hlength : request.portfolio.length = fronts.length :=
    (Separated.forall₂_of_returns_siteFronts (I := fun _ => True) (R := fun _ _ => True)
      (fun _ _ _ _ _ _ _ _ _ => ⟨trivial, trivial⟩) trivial hfronts).1.length_eq
  obtain ⟨journal, hlogged, hbest⟩ := Nsga2.keepsBest_of_returns_evolve
    (FrontProblem.yields _ count) (Nsga2.consistent_frontProblem count hunambiguous) trivial hevolve
  have hbest := hbest fun e he => hdefined e.2
    ⟨fronts, count, cache₃, hfronts, found, _, journal, hlogged, List.mem_map_of_mem he⟩
  have hchoices : (FrontProblem.ofFronts request.portfolio fronts request.constraints).choices ≠
      [] := by
    intro hnil
    have hids := siteIds_ofFronts hlength
    rw [hnil] at hids
    exact hportfolio (List.map_eq_nil_iff.mp hids.symm)
  have hevaluated := fun y hy => FrontProblem.mem_journal_of_represents (x := y) hchoices
    (fun x hx => represents_of_mem_merge hlength hids
      (fun front hfront => ⟨hunambiguous front hfront, haddressable front hfront⟩) hx)
    hplaces hy hlogged
  intro x hx y hy
  rw [hreported.solutions_eq] at hx
  rw [hreported'.solutions_eq] at hy
  obtain ⟨y, hmerged, rfl⟩ := List.mem_map.mp (mem_of_mem_bestFront hy)
  have hoptimal := hbest x (mem_of_mem_bestFront (mem_of_mem_paretoSet hx))
  exact ⟨hoptimal.least_violation _ (hevaluated y hmerged),
    fun o ho => hoptimal.least_cost o ho _ (hevaluated y hmerged)⟩

end Runs

end Nested

/-! ## Two sites -/

/-- A site next to the depot that stays as it is. -/
def yard : Site := { depot with siteId := "yard", bundleId := "yard", range := .empty }

/-- Each battery costs one pound, and any of them save two pounds of gas in the year. -/
def yardOutcome (scenario : Scenario) : Except Fault (Totals Amount) :=
  match (scenario.assets.get? "battery").bind (·.get? "units") with
  | some (.int units) => .ok (((Totals.fill 0).set .capex (.ofFloat (Number.ofInt units))).set
      .gasImportCost (if 0 < units then 0 else .number 2.0))
  | _ => .ok ((Totals.fill 0).set .gasImportCost (.number 2.0))

def yardEngine : Engine Unit ChaCha :=
  { depotEngine with simulate := fun scenario world => (yardOutcome scenario, world) }

lemma computes_yardEngine : yardEngine.simulate.Computes yardOutcome := fun _ _ => rfl

/-- The portfolio has to save at least one pound. -/
def yardRequest : Request where
  objectives := [.capex, .costBalance]
  constraints := PerObjective.none.set .costBalance (some (.atLeast 1.0))
  portfolio := [depot, yard]
  existing := []

def yardSettings : Nested.Settings where
  separated := ⟨{ Nsga2.depotSettings with populationSize := 3 }, 8⟩
  portfolio := { Nsga2.depotSettings with populationSize := 3 }

/-- The fronts of the depot and the yard, and the cache after their searches. -/
def yardFronts : List (List SiteSolution) × Nat :=
  returnedOr (Separated.siteFronts yardEngine yardSettings.separated yardRequest 0
    yardRequest.portfolio) (.start ()) ([], 0)

def yardCache : Cache Unit :=
  ((Separated.siteFronts yardEngine yardSettings.separated yardRequest 0
    yardRequest.portfolio).run.run (.start ())).2

lemma returns_siteFronts_yard : Returns
    (Separated.siteFronts yardEngine yardSettings.separated yardRequest 0
    yardRequest.portfolio) (.start ()) (yardFronts.1, yardFronts.2) yardCache := by
  rw [Prod.eta]
  exact returns_of_isOk _ (by decide +kernel)

/-- The combinations of the fronts that the second pass starts from. -/
def yardChoice : Nested.FrontProblem :=
  .ofFronts yardRequest.portfolio yardFronts.1 yardRequest.constraints

def yardSeeds : List Chromosome :=
  (Separated.merge yardRequest.objectives 8 yardRequest.portfolio yardFronts.1).filterMap
    yardChoice.encode ++ []

/-- Of the two merged combinations one violates the constraint, and the nested search reports the
other. -/
theorem Nested.no_worse_than_separated_yard : ∃ nested separated cache cache',
    Returns (Nested.run yardEngine yardSettings yardRequest) (.start ()) nested cache ∧
    Returns (Separated.run yardEngine yardSettings.separated yardRequest) (.start ()) separated
      cache' ∧
    (Separated.merge yardRequest.objectives 8 yardRequest.portfolio yardFronts.1).length = 2 ∧
    nested.solutions.map (·.feasible) = [true] ∧
    ∀ x ∈ nested.solutions, ∀ y ∈ separated.solutions, x.NoWorse yardRequest.objectives y := by
  have hnested := returns_of_isOk ⟨[], 0, ⟨0, 0⟩, none⟩ (by decide +kernel :
    ((Nested.run yardEngine yardSettings yardRequest).run.run (.start ())).1.isOk)
  have hseparated := returns_of_isOk ⟨[], 0, ⟨0, 0⟩, none⟩ (by decide +kernel :
    ((Separated.run yardEngine yardSettings.separated yardRequest).run.run (.start ())).1.isOk)
  have hmerged : (Separated.merge yardRequest.objectives 8 yardRequest.portfolio
      yardFronts.1).length = 2 ∧ ∀ front ∈ yardFronts.1, front.length ≤ 2 := by
    decide +kernel
  refine ⟨_, _, _, _, hnested, hseparated, hmerged.1, by decide +kernel, ?_⟩
  refine no_worse_than_separated computes_yardEngine computes_yardEngine (fun _ _ => rfl)
    rfl (by decide) ?_
    returns_siteFronts_yard ?_ ?_ hnested hseparated
  · rintro x ⟨fronts, count, cache, hfronts, found, t', journal, hlogged, hx⟩
    obtain ⟨heq, hcache⟩ := hfronts.unique returns_siteFronts_yard
    rw [Prod.mk.injEq] at heq
    rw [heq.1, heq.2, hcache] at hlogged
    change Returns (Nsga2.evolve (yardChoice.problem yardFronts.2).logged _ _ yardSeeds _) _ _ _
      at hlogged
    have hjournal : journal = ((Nsga2.evolve (yardChoice.problem yardFronts.2).logged
        yardSettings.portfolio yardRequest.objectives yardSeeds
        (yardEngine.source yardSettings.portfolio.seed)).run.run (yardCache, [])).2.2 :=
      (congrArg (·.2.2) hlogged).symm
    have hall : ∀ x ∈ (((Nsga2.evolve (yardChoice.problem yardFronts.2).logged
        yardSettings.portfolio yardRequest.objectives yardSeeds
        (yardEngine.source yardSettings.portfolio.seed)).run.run (yardCache, [])).2.2).map Prod.snd,
        x.Defined yardRequest.objectives := by
      decide +kernel
    rw [hjournal] at hx
    exact hall x hx
  · exact fun front hfront => Nat.le_trans (hmerged.2 front hfront) (by omega)
  · exact Nat.le_trans (Nat.le_of_eq hmerged.1) (by decide)

end Retrofit
