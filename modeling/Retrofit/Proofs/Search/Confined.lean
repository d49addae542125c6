import Retrofit.Proofs.Search.Asked
import Retrofit.Proofs.Search.Recombination
import Retrofit.Proofs.Search.Soundness

/-!
# Chromosomes stay in the search space

The random steps of the searches keep whole genes whole and every value within the bounds of its
gene (`Gene.kept_holds`). So do the chromosomes of known solutions, with which the genetic algorithm
starts unclipped. Every chromosome that an evolution asks for lies in its search space, where no
index leaves its list (`chromosomes_stay_in_space`).
-/

namespace Retrofit

open Number Retrofit.Random

variable {γ : Type} [Source γ]

/-- A whole number drawn from a range lies in it. -/
theorem Random.always_integer {low high : Int} (h : low ≤ high)
    (hwidth : high - low + 1 < 18446744073709551616) :
    Always (integer low high : Draw γ Int) fun value => low ≤ value ∧ value ≤ high := by
  unfold integer
  dsimp only
  rw [if_pos (by omega)]
  refine always_bind (always_below64 (by omega)) fun offset hoffset => always_pure ?_
  omega

namespace Gene

/-- The bounds are in order. -/
def Ordered : Gene → Prop
  | integer lower upper => ofInt lower ≤ ofInt upper
  | continuous lower upper => lower ≤ upper

/-- A whole value of a whole gene, or a number for a continuous one, between the bounds. -/
structure Holds (g : Gene) (x : Float) : Prop where
  within : g.Within x
  integral : g.Integral x

/-- A gene that a search space has: its whole numbers start at zero and are told apart by doubles, or
its bounds are no further apart than a double can tell. -/
inductive Regular : Gene → Prop
  | integer (n : Nat) (hn : n ≤ 2 ^ 53) : Regular (integer 0 n)
  | continuous {lower upper : Float} (h : (continuous lower upper).Spans) :
    Regular (continuous lower upper)

variable {g : Gene} {x y : Float}

lemma holds_of_whole {n k : Nat} (hn : n ≤ 2 ^ 53) (hk : k ≤ n) (hx : IsNumber x)
    (hwhole : units x = k * one) : (integer 0 n).Holds x := by
  refine ⟨(within_integer_iff hn hx).mpr ?_, ?_⟩
  · have hle := Nat.mul_le_mul_right one hk
    rw [hwhole, ← Int.natCast_mul, ← Int.natCast_mul]
    omega
  · exact (beq_iff_units (round_whole hx).1 hx).mpr
      ((units_round_of_whole hx hwhole).trans hwhole.symm)

lemma holds_ofInt {n k : Nat} (hn : n ≤ 2 ^ 53) (hk : k ≤ n) : (integer 0 n).Holds (ofInt k) :=
  holds_of_whole hn hk (faithful_ofInt k).isNumber (units_ofInt (Nat.le_trans hk hn))

lemma holds_of_sound {lower upper : Float} (h : (continuous lower upper).Sound x) :
    (continuous lower upper).Holds x :=
  ⟨h, trivial⟩

lemma Holds.sound (h : g.Holds x) : g.Sound x := by
  cases g with
  | integer lower upper => exact @isNumber_of_within (integer lower upper) x h.within
  | continuous lower upper => exact h.within

lemma ordered_of_regular (hg : g.Regular) : g.Ordered := by
  cases hg with
  | integer n hn => exact (within_ofInt hn (Nat.le_refl n)).1
  | continuous hspans =>
    obtain ⟨hlower, hupper, horder, -⟩ := hspans
    exact (le_iff_units (isNumber_of_isFinite hlower) (isNumber_of_isFinite hupper)).mpr
      (units_le_of_not_lt hlower hupper horder)

lemma holds_clip (hg : g.Regular) (hx : IsNumber x) : g.Holds (g.clip x) := by
  cases hg with
  | integer n hn =>
    obtain ⟨k, hk, hnumber, hunits, -⟩ := clip_integer_exact hn hx
    exact holds_of_whole hn hk hnumber hunits
  | continuous hspans => exact holds_of_sound (sound_clip hspans hx)

/-- What clipping leaves as it is lies in the range. -/
lemma holds_of_clip_beq (hg : g.Regular) (h : g.clip x == x) : g.Holds x := by
  cases hg with
  | integer n hn =>
    have hx := (isNumber_of_beq h).2
    obtain ⟨k, hk, hnumber, hunits, -⟩ := clip_integer_exact hn hx
    exact holds_of_whole hn hk hx (((beq_iff_units hnumber hx).mp h).symm.trans hunits)
  | continuous hspans => exact holds_of_sound (sound_of_clip_beq hspans h)

lemma holds_lower (hg : g.Regular) : g.Holds g.lower := by
  cases hg with
  | integer n hn => exact holds_ofInt (k := 0) hn (Nat.zero_le n)
  | continuous hspans => exact holds_of_sound (sound_lower hspans)

lemma holds_sample {s s' : γ} (hg : g.Regular)
    (h : Returns (g.sample : DrawAttempt γ Float) s x s') : g.Holds x := by
  cases hg with
  | integer n hn =>
    obtain ⟨value, s₁, hvalue, h⟩ := returns_bind.mp h
    obtain ⟨rfl, rfl⟩ := returns_pure.mp h
    obtain ⟨hlow, hhigh⟩ := of_returns_lift (always_integer (Int.natCast_nonneg n) (by omega)) hvalue
    obtain ⟨k, rfl⟩ := Int.eq_ofNat_of_zero_le hlow
    exact holds_ofInt hn (Int.ofNat_le.mp hhigh)
  | continuous hspans => exact holds_of_sound (sound_sample hspans h)

lemma always_blend_holds (hg : g.Regular) (hx : g.Holds x) (hy : g.Holds y) :
    Always (Chromosome.blend g x y : Draw γ Float) g.Holds := by
  cases hg with
  | integer n hn =>
    refine always_bind (P := fun _ => True) (fun _ => trivial) fun first _ => always_pure ?_
    split
    · exact hx
    · exact hy
  | continuous hspans => exact fun s => holds_of_sound (always_blend hspans hx.sound hy.sound s)

lemma holds_nudge {rate : Float} {s s' : γ} (hg : g.Regular) (hx : g.Holds x)
    (h : Returns (Chromosome.nudge rate g x : DrawAttempt γ Float) s y s') : g.Holds y := by
  cases hg with
  | integer n hn =>
    obtain ⟨mutates, s₁, -, h⟩ := returns_bind.mp h
    split at h
    · obtain ⟨value, s₂, hvalue, h⟩ := returns_bind.mp h
      obtain ⟨rfl, rfl⟩ := returns_pure.mp h
      have hg : (integer 0 n).Regular := .integer n hn
      exact holds_clip hg (isNumber_of_within (holds_sample hg hvalue).within)
    · obtain ⟨rfl, rfl⟩ := returns_pure.mp h
      exact hx
  | continuous hspans => exact holds_of_sound (sound_nudge hspans hx.sound h)

/-- The random steps of the searches keep values in their ranges. -/
theorem kept_holds {genes : List Gene} (h : ∀ g ∈ genes, g.Regular) :
    Gene.Kept γ genes Gene.Holds :=
  ⟨fun g hg _ _ _ hx => holds_sample (h g hg) hx,
    fun g hg _ _ hx hy => always_blend_holds (h g hg) hx hy,
    fun g hg _ _ _ _ _ hx hy => holds_nudge (h g hg) hx hy⟩

end Gene

/-! ## Known solutions -/

namespace Locus

variable {l : Locus} {x : Float}

lemma regular_gene (hl : l.Exact) (hspans : l.gene.Spans) : l.gene.Regular := by
  cases l with
  | presence asset => exact .integer 1 (by omega)
  | choice asset attr values =>
    obtain ⟨hlength, hcount⟩ := hl
    rw [gene_choice asset attr hlength]
    exact .integer _ (by omega)
  | stepped asset attr min step last =>
    obtain ⟨-, hpos, hlast, -⟩ := hl
    rw [gene_stepped asset attr min step hpos]
    exact .integer _ (by omega)
  | continuous asset attr min max => exact .continuous hspans

/-- The value of a gene for a known scenario is in the range of the gene. -/
theorem holds_position (hl : l.Exact) (hg : l.gene.Regular) {assets : Dict AssetConfig}
    (h : l.position assets = some x) : l.gene.Holds x := by
  cases positioned_of_position h with
  | absent asset => exact Gene.holds_ofInt (n := 1) (k := 0) (by omega) (Nat.zero_le 1)
  | present asset => exact Gene.holds_ofInt (n := 1) (k := 1) (by omega) (Nat.le_refl 1)
  | @place asset attr values k hk =>
    obtain ⟨hlength, hcount⟩ := hl
    rw [gene_choice asset attr hlength]
    exact Gene.holds_ofInt (by omega) (by omega)
  | kept hkept => exact Gene.holds_of_clip_beq hg hkept
  | hidden => exact Gene.holds_lower hg

end Locus

lemma SiteSpace.regular_of_ofSite {site : Site} {space : SiteSpace} (h : ofSite site = .ok space)
    (hfits : site.Fits) (hwidths : site.FiniteWidths) : ∀ l ∈ space.loci, l.gene.Regular :=
  fun l hl => Locus.regular_gene (exact_of_ofSite h hfits l hl) (spans_of_ofSite h hwidths l hl)

lemma Site.carries_holds {site : Site} (hfits : site.Fits) (hwidths : site.FiniteWidths) :
    site.Carries γ Gene.Holds := by
  intro space h
  have hregular := SiteSpace.regular_of_ofSite h hfits hwidths
  have hgenes : ∀ g ∈ space.genes, g.Regular := List.forall_mem_map.mpr hregular
  exact ⟨Gene.kept_holds hgenes,
    fun g hg x hx => Gene.holds_clip (hgenes g hg) (Gene.isNumber_of_within hx.within),
    fun l hl _ _ hx => Locus.holds_position (SiteSpace.exact_of_ofSite h hfits l hl)
      (hregular l hl) hx⟩

/-! ## Search spaces of portfolios -/

namespace Space

variable {portfolio : List Site} {space : Space}

/-- The loci of all sites, which have the genes of the space. -/
def loci (space : Space) : List Locus :=
  space.sites.flatMap (·.loci)

lemma genes_eq (space : Space) : space.genes = space.loci.map (·.gene) :=
  List.map_flatMap.symm

/-- A chromosome of the search space: its values are in the ranges of the genes, and the loci read
them without leaving a list or the words. -/
structure Contains (space : Space) (c : Chromosome) : Prop where
  values : List.Forall₂ Gene.Holds space.genes c
  safe : ∀ e ∈ space.loci.zip c, e.1.Safe e.2

lemma exact_and_regular (h : Space.ofPortfolio portfolio = .ok space)
    (hportfolio : ∀ site ∈ portfolio, site.Fits ∧ site.FiniteWidths) :
    ∀ l ∈ space.loci, l.Exact ∧ l.gene.Regular := by
  intro l hl
  obtain ⟨own, hown, hl⟩ := List.mem_flatMap.mp hl
  obtain ⟨site, hsite, hof⟩ := exists_of_mem_right (forall₂_sites h) hown
  obtain ⟨hfits, hwidths⟩ := hportfolio site hsite
  exact ⟨SiteSpace.exact_of_ofSite hof hfits l hl,
    SiteSpace.regular_of_ofSite hof hfits hwidths l hl⟩

lemma contains_of_forall₂ (h : Space.ofPortfolio portfolio = .ok space)
    (hportfolio : ∀ site ∈ portfolio, site.Fits ∧ site.FiniteWidths) {c : Chromosome}
    (hc : List.Forall₂ Gene.Holds space.genes c) : space.Contains c := by
  refine ⟨hc, fun e he => ?_⟩
  rw [genes_eq, List.forall₂_map_left_iff] at hc
  obtain ⟨hexact, -⟩ := exact_and_regular h hportfolio e.1 (List.of_mem_zip he).1
  have hvalue := List.forall₂_zip hc he
  exact (Locus.value?_of_isNumber hexact (Gene.isNumber_of_within hvalue.within)).1

end Space

/-! ## Search spaces of fronts -/

namespace Nested.FrontProblem

variable {p : FrontProblem}

/-- A chromosome of the places in the fronts: all of them are in the ranges of the genes, and none is
beyond its front. -/
structure Contains (p : FrontProblem) (c : Chromosome) : Prop where
  values : List.Forall₂ Gene.Holds (p.choices.map gene) c
  places : ∀ e ∈ p.choices.zip c, toCount ((gene e.1).clip e.2) < e.1.front.length

/-- Fronts that are not empty, and whose places doubles tell apart. -/
def Addressable (p : FrontProblem) : Prop :=
  ∀ choice ∈ p.choices, choice.front ≠ [] ∧ choice.front.length ≤ 2 ^ 53

lemma gene_eq_integer {choice : FrontChoice} (h : choice.front ≠ []) :
    gene choice = .integer 0 (choice.front.length - 1 : Nat) := by
  have hpos := List.length_pos_iff.mpr h
  unfold gene
  congr 1
  omega

lemma regular_genes (h : p.Addressable) : ∀ g ∈ p.choices.map gene, g.Regular := by
  refine List.forall_mem_map.mpr fun choice hchoice => ?_
  obtain ⟨hne, hlength⟩ := h choice hchoice
  rw [gene_eq_integer hne]
  exact .integer _ (by omega)

lemma contains_of_forall₂ (h : p.Addressable) {c : Chromosome}
    (hc : List.Forall₂ Gene.Holds (p.choices.map gene) c) : p.Contains c := by
  refine ⟨hc, fun e he => ?_⟩
  rw [List.forall₂_map_left_iff] at hc
  obtain ⟨hne, hlength⟩ := h e.1 (List.of_mem_zip he).1
  have hpos := List.length_pos_iff.mpr hne
  have hvalue := List.forall₂_zip hc he
  obtain ⟨k, hk, -, -, hcount⟩ := Gene.clip_integer_exact (n := e.1.front.length - 1) (by omega)
    (Gene.isNumber_of_within hvalue.within)
  rw [gene_eq_integer hne, hcount]
  omega

/-- The chromosome of a known solution has a place of every front. -/
lemma forall₂_of_encode (h : p.Addressable) {x : PortfolioSolution} {c : Chromosome}
    (hencode : p.encode x = some c) : List.Forall₂ Gene.Holds (p.choices.map gene) c := by
  have hplaces := mapM_eq_some.mp hencode
  rw [List.forall₂_map_left_iff, List.forall₂_iff_zip]
  refine ⟨hplaces.length_eq, fun {choice value} hmem => ?_⟩
  obtain ⟨hne, hlength⟩ := h choice (List.of_mem_zip hmem).1
  obtain ⟨chosen, -, hvalue⟩ := Option.bind_eq_some_iff.mp (List.forall₂_zip hplaces hmem)
  obtain ⟨_, hplace, heq⟩ := Option.bind_eq_some_iff.mp hvalue
  obtain ⟨place, hfound, hcast⟩ := Option.bind_eq_some_iff.mp hplace
  cases hcast
  cases heq
  obtain ⟨hlt, -⟩ := List.findIdx?_eq_some_iff_getElem.mp hfound
  rw [gene_eq_integer hne]
  exact Gene.holds_ofInt (by omega) (by omega)

lemma addressable_of_returns_siteFronts {σ : Type} {engine : Engine σ γ}
    {settings : Separated.Settings} {request : Request} {fronts : List (List SiteSolution)}
    {count : Nat} {cache cache' : Cache σ}
    (h : Returns (Separated.siteFronts engine settings request 0 request.portfolio) cache
      (fronts, count) cache')
    (hlengths : ∀ front ∈ fronts, front.length ≤ 2 ^ 53) :
    (ofFronts request.portfolio fronts request.constraints).Addressable := by
  have hne := Separated.ne_nil_of_returns_siteFronts h
  unfold Addressable
  rw [choices_ofFronts]
  exact List.forall_mem_map.mpr fun e he => ⟨hne e he, hlengths e.2 (List.of_mem_zip he).2⟩

end Nested.FrontProblem

/-! ## Whole evolutions -/

/-- No evolution asks for a chromosome outside of its search space, whether it returns or not: not
when it searches the sites of a portfolio, with NSGA-II or with the genetic algorithm, and not when
it recombines the fronts of the sites. -/
theorem chromosomes_stay_in_space {σ τ : Type} (settings : Nsga2.Settings)
    (geneticSettings : Genetic.Settings) (objectives : List Objective) (o : Objective)
    (known : List PortfolioSolution) (source : γ) :
    (∀ (simulate : Simulator σ) (portfolio : List Site) (constraints : Constraints)
      (prepared : PortfolioProblem) (start t : Trial σ),
      (∀ site ∈ portfolio, site.Fits ∧ site.FiniteWidths) →
      Returns (PortfolioProblem.build simulate portfolio constraints) start prepared t →
        (∀ g ∈ prepared.space.genes, g.Ordered) ∧
        (∀ c ∈ Nsga2.asked (prepared.problem simulate) settings objectives (prepared.seeds known)
          source t, prepared.space.Contains c) ∧
        (geneticSettings.check = .ok () →
          ∀ c ∈ Genetic.asked (prepared.problem simulate) geneticSettings objectives o
            (prepared.seeds known) source t, prepared.space.Contains c)) ∧
    ∀ (engine : Engine σ γ) (separated : Separated.Settings) (request : Request)
      (cache cache' : Cache σ) (fronts : List (List SiteSolution)) (count : Nat) (t : τ),
      Returns (Separated.siteFronts engine separated request 0 request.portfolio) cache
        (fronts, count) cache' →
      (∀ front ∈ fronts, front.length ≤ 2 ^ 53) →
        let choice := Nested.FrontProblem.ofFronts request.portfolio fronts request.constraints
        (∀ c ∈ choice.choices, (Nested.FrontProblem.gene c).Ordered) ∧
        ∀ c ∈ Nsga2.asked (choice.problem count) settings objectives
          (known.filterMap choice.encode) source t, choice.Contains c := by
  constructor
  · intro simulate portfolio constraints prepared start t hportfolio hbuild
    obtain ⟨hspace, -⟩ := PortfolioProblem.returns_build_of_answers
      (answers_of_any simulate) trivial hbuild
    have hcarries : ∀ site ∈ portfolio, site.Carries γ Gene.Holds :=
      fun site hsite => site.carries_holds (hportfolio site hsite).1 (hportfolio site hsite).2
    have hkept : Gene.Kept γ (prepared.problem simulate).genes Gene.Holds :=
      Space.kept_genes hspace hcarries
    have hseeds : ∀ seed ∈ prepared.seeds known, List.Forall₂ Gene.Holds prepared.space.genes seed :=
      fun seed => PortfolioProblem.forall₂_of_mem_seeds hspace hcarries
    refine ⟨?_, fun c hc => ?_, fun hcheck c hc => ?_⟩
    · rw [Space.genes_eq]
      exact List.forall_mem_map.mpr fun l hl =>
        Gene.ordered_of_regular (Space.exact_and_regular hspace hportfolio l hl).2
    · exact Space.contains_of_forall₂ hspace hportfolio (Nsga2.forall_asked hkept
        (fun seed hseed _ => Space.forall₂_clip hspace hcarries (hseeds seed hseed)) t c hc)
    · exact Space.contains_of_forall₂ hspace hportfolio
        (Genetic.forall_asked hkept hcheck hseeds t c hc)
  · intro engine separated request cache cache' fronts count t hfronts hlengths choice
    have haddressable := Nested.FrontProblem.addressable_of_returns_siteFronts hfronts hlengths
    have hregular := Nested.FrontProblem.regular_genes haddressable
    refine ⟨fun c hc => Gene.ordered_of_regular (hregular _ (List.mem_map_of_mem hc)),
      fun c hc => ?_⟩
    refine Nested.FrontProblem.contains_of_forall₂ haddressable
      (Nsga2.forall_asked (p := choice.problem count) (Gene.kept_holds hregular)
        (fun seed hseed _ => ?_) t c hc)
    obtain ⟨x, -, hencode⟩ := List.mem_filterMap.mp hseed
    refine Gene.forall₂_clip (fun g hg x hx => ?_)
      (Nested.FrontProblem.forall₂_of_encode haddressable hencode)
    exact Gene.holds_clip (hregular g hg) (Gene.isNumber_of_within hx.within)

/-- The chromosomes of the depot, and of the choice from its front. -/
theorem chromosomes_stay_in_space_depot :
    (∀ site ∈ [depot], site.Fits ∧ site.FiniteWidths) ∧ (Genetic.Settings.default 1).check = .ok () ∧
    (∀ front ∈ depotFronts.1, front.length ≤ 2 ^ 53) ∧
    (Nsga2.asked (depotProblem.problem depotSimulator) Nsga2.depotSettings [.capex] []
      (ChaCha.ofSeed 0) depotTrial).length = 4 ∧
    (∀ c ∈ Nsga2.asked (depotProblem.problem depotSimulator) Nsga2.depotSettings [.capex] []
      (ChaCha.ofSeed 0) depotTrial, depotProblem.space.Contains c) ∧
    (∀ c ∈ Genetic.asked (depotProblem.problem depotSimulator) (.default 1) [.capex] .capex []
      (ChaCha.ofSeed 0) depotTrial, depotProblem.space.Contains c) ∧
    (Nsga2.asked depotChoice Nsga2.depotSettings [.capex] [] (ChaCha.ofSeed 0) ()).length = 4 ∧
    ∀ c ∈ Nsga2.asked depotChoice Nsga2.depotSettings [.capex] [] (ChaCha.ofSeed 0) (),
      (Nested.FrontProblem.ofFronts [depot] depotFronts.1 .none).Contains c := by
  have hdepot : ∀ site ∈ [depot], site.Fits ∧ site.FiniteWidths := by decide +kernel
  have hcheck : (Genetic.Settings.default 1).check = .ok () := by decide +kernel
  have hlengths : ∀ front ∈ depotFronts.1, front.length ≤ 2 ^ 53 := by decide +kernel
  obtain ⟨cache, hfronts⟩ := returns_siteFronts_depot
  obtain ⟨hportfolio, hchoice⟩ := @chromosomes_stay_in_space ChaCha _ Unit Unit Nsga2.depotSettings
    (.default 1) [.capex] .capex [] (ChaCha.ofSeed 0)
  obtain ⟨-, hnsga2, hgenetic⟩ := hportfolio depotSimulator [depot] .none depotProblem
    ⟨.start (), 0⟩ depotTrial hdepot returns_build_depot
  obtain ⟨-, hplaces⟩ := hchoice depotEngine ⟨Nsga2.depotSettings, 4⟩ depotRequest (.start ()) cache
    depotFronts.1 depotFronts.2 () hfronts hlengths
  exact ⟨hdepot, hcheck, hlengths, by decide +kernel, hnsga2, hgenetic hcheck, by decide +kernel,
    hplaces⟩

end Retrofit
