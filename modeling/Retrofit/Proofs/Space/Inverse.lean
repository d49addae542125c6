import Mathlib.Data.List.Nodup
import Mathlib.Data.List.Zip
import Retrofit.Proofs.Search.Evaluation
import Retrofit.Proofs.Search.SiteFronts
import Retrofit.Proofs.Space.Encoding

/-!
# Encoding undoes decoding

A decoded scenario is encoded to a chromosome within the bounds of the genes that is decoded to the
same scenario. It is the chromosome itself, number by number, where that lies within the bounds and
nothing hides a gene: all assets are present and no choice occurs twice. The same holds of a
portfolio, whose evaluated solution keeps the scenario of every site.
-/

namespace Retrofit

open Number

/-- No choice of the range occurs twice. -/
def AttributeRange.NoRepeats : AttributeRange → Prop
  | choices values => values.Nodup
  | _ => True

instance : DecidablePred AttributeRange.NoRepeats := fun range =>
  match range with
  | .choices values => inferInstanceAs (Decidable values.Nodup)
  | .fixed _ => isTrue trivial
  | .stepped _ _ _ => isTrue trivial
  | .continuous _ _ => isTrue trivial

/-- No range of the site has a choice twice. -/
def Site.NoRepeats (site : Site) : Prop :=
  ∀ asset ∈ site.range.entries, ∀ attr ∈ asset.2.attributes.entries, attr.2.NoRepeats

instance : DecidablePred Site.NoRepeats := fun site =>
  inferInstanceAs (Decidable (∀ asset ∈ site.range.entries,
    ∀ attr ∈ asset.2.attributes.entries, attr.2.NoRepeats))

namespace Locus

/-- Whole values within the bounds that mean the same are equal. -/
lemma units_eq_of_value?_eq {l : Locus} (hl : l.Exact) {attr : String}
    (hattr : l.attr? = some attr)
    (hnodup : ∀ asset attr values, l = .choice asset attr values → values.Nodup) {x y : Float}
    (hx : l.gene.Within x) (hx' : l.gene.Integral x) (hy : l.gene.Within y)
    (hy' : l.gene.Integral y) (h : l.value? x = l.value? y) : units x = units y := by
  cases l with
  | presence asset => cases hattr
  | choice asset attr' values =>
    obtain ⟨hlength, hcount⟩ := hl
    have hplace : ∀ {z : Float}, (choice asset attr' values).gene.Within z →
        toCount ((choice asset attr' values).gene.clip z) < values.length := fun hz =>
      (value?_of_isNumber (l := choice asset attr' values) ⟨hlength, hcount⟩
        (Gene.isNumber_of_within hz)).1.2
    have hsame : toCount ((choice asset attr' values).gene.clip x) =
        toCount ((choice asset attr' values).gene.clip y) := by
      unfold value? at h
      dsimp only at h
      rw [List.getElem?_eq_getElem (hplace hx), List.getElem?_eq_getElem (hplace hy)] at h
      exact (List.Nodup.getElem_inj_iff (hnodup asset attr' values rfl)).mp (Option.some.inj h)
    rw [gene_choice _ _ hlength] at hx hx' hy hy' hsame
    rw [Gene.clip_of_integral (by omega) hx hx', Gene.clip_of_integral (by omega) hy hy', hsame]
  | stepped asset attr' min step last =>
    obtain ⟨hstep, hpos, hlast, -⟩ := hl
    have hsame : toCount ((stepped asset attr' min step last).gene.clip x) =
        toCount ((stepped asset attr' min step last).gene.clip y) := by
      have hint := AttributeValue.int.inj (Option.some.inj h)
      exact Int.ofNat_inj.mp (Int.eq_of_mul_eq_mul_right (Int.ne_of_gt hstep) (by omega))
    rw [gene_stepped _ _ _ _ hpos] at hx hx' hy hy' hsame
    rw [Gene.clip_of_integral (by omega) hx hx', Gene.clip_of_integral (by omega) hy hy', hsame]
  | continuous asset attr' min max =>
    have hfloat := AttributeValue.float.inj (Option.some.inj h)
    dsimp only [gene] at hx hy hfloat
    rw [Gene.clip_continuous_of_within hx, Gene.clip_continuous_of_within hy] at hfloat
    rw [hfloat]

/-- A whole value within the bounds under which an asset is kept is one. -/
lemma units_eq_one_of_kept {asset : String} {x : Float} (hx : (presence asset).gene.Within x)
    (hx' : (presence asset).gene.Integral x) (hkept : ¬ (presence asset).gene.clip x < 0.5) :
    units x = one := by
  have hhalf : IsNumber 0.5 := by decide +kernel
  have hhalfUnits : 0 < units 0.5 := by decide +kernel
  change (Gene.integer 0 (1 : Nat)).Within x at hx
  change (Gene.integer 0 (1 : Nat)).Integral x at hx'
  change ¬ (Gene.integer 0 (1 : Nat)).clip x < 0.5 at hkept
  have hvalue := Gene.clip_of_integral (by omega) hx hx'
  obtain ⟨k, hk, hnumber, hunits, hcount⟩ :=
    Gene.clip_integer_exact (n := 1) (by omega) (Gene.isNumber_of_within hx)
  have hne : k ≠ 0 := by
    rintro rfl
    rw [lt_iff_units hnumber hhalf, hunits, Int.natCast_zero, Int.zero_mul] at hkept
    exact hkept hhalfUnits
  have hone : k = 1 := by omega
  rw [hvalue, hcount, hone, Int.natCast_one, Int.one_mul]

end Locus

/-! ## Sites -/

namespace SiteSpace

variable {site : Site} {space : SiteSpace}

/-- An asset that is there was kept by its presence, and has settled attributes. -/
lemma exists_config_of_settles {settings : List Setting} {asset : String} {range : AssetRange}
    {found : Option AssetConfig} (h : range.Settles settings asset found)
    (hpresent : range.mandatory = false → found.isSome) :
    ∃ config, found = some config ∧
      (range.mandatory = false → ∃ x, (.presence asset, x) ∈ settings ∧
        ¬ (Locus.presence asset).gene.clip x < 0.5) ∧
      ∀ attr, Option.Rel (AttributeRange.Settles settings asset attr)
        (range.attributes.get? attr) (config.get? attr) := by
  cases h with
  | dropped hoptional => exact absurd (hpresent hoptional) Bool.false_ne_true
  | kept hkept hattrs => exact ⟨_, rfl, hkept, hattrs⟩

/-- With all assets present and no choice twice, the positions in a decoded scenario are the whole
values within the bounds that it was decoded from. -/
lemma units_eq_of_encodes (h : ofSite site = .ok space) (hfits : site.Fits)
    (hnodup : site.NoRepeats) {c : Chromosome} (hlength : c.length = space.loci.length)
    (hc : ∀ x ∈ c, IsNumber x)
    (hpresent : ∀ asset range, site.range.get? asset = some range → range.mandatory = false →
      (space.assets c).contains asset) {l : Locus} {x y : Float} (hmem : (l, x) ∈ space.loci.zip c)
    (hx : l.gene.Within x) (hx' : l.gene.Integral x) (hy : l.Encodes (space.assets c) y) :
    units y = units x := by
  have hloci := (laidOut_of_ofSite h).nodup_loci site.range.sorted
  have hl := (List.of_mem_zip hmem).1
  obtain ⟨e, he, horigin⟩ := (laidOut_of_ofSite h).origin l hl
  have hrange := Dict.get?_eq_some_iff.mpr he
  obtain ⟨config, hconfig, hkept, hattrs⟩ := exists_config_of_settles
    ((settles_assets h hfits hlength hc e.1).1 e.2 hrange) (hpresent e.1 e.2 hrange)
  obtain ⟨hoptional, rfl⟩ | ⟨attr, hattr, hresolve⟩ := horigin
  · obtain ⟨x', hmem', hhigh⟩ := hkept hoptional
    rw [eq_of_mem_zip_of_nodup hloci hmem' hmem] at hhigh
    rw [Locus.units_eq_one_of_kept hx hx' hhigh]
    refine Locus.units_eq_one_of_kept hy.within hy.integral fun hlow => ?_
    have hnone := (hy.presence rfl).mp hlow
    change (space.assets c).get? e.1 = none at hnone
    rw [hconfig] at hnone
    cases hnone
  · have hasset := AttributeRange.asset_of_resolve hresolve
    have hname := AttributeRange.attr_of_resolve hresolve
    have hset := hattrs attr.1
    rw [Dict.get?_eq_some_iff.mpr hattr] at hset
    obtain ⟨v, hv, hsettles⟩ := Dict.exists_of_rel_some hset
    have hvalue := hv.trans (value?_of_settles hloci hresolve hmem hsettles).symm
    refine Locus.units_eq_of_value?_eq (exact_of_ofSite h hfits l hl) hname ?_ hy.within
      hy.integral hx hx' ((hy.value attr.1 hname config (hasset ▸ hconfig)).trans hvalue)
    rintro asset name values rfl
    have hranges := hnodup e he attr hattr
    generalize attr.2 = range at hresolve hranges
    cases AttributeRange.resolves_of_resolve hresolve with
    | choice values hlength => exact hranges

/-- A decoded scenario is encoded within the bounds, to a chromosome of the same meaning. -/
lemma exists_encode_decode (h : ofSite site = .ok space) (hfits : site.Fits) {c : Chromosome}
    (hlength : c.length = space.genes.length) (hc : ∀ x ∈ c, IsNumber x) :
    ∃ c', space.encode (space.decode c) = some c' ∧
      List.Forall₂ (Locus.Encodes (space.assets c)) space.loci c' ∧
      List.Forall₂ Gene.Within space.genes c' ∧ space.decode c' = space.decode c := by
  obtain ⟨c', hencode, hencodes, hdecode⟩ := exists_encode h hfits
    (legal_decode h hfits (hlength.trans space.length_genes) hc)
  refine ⟨c', hencode, hencodes, ?_, hdecode⟩
  exact List.forall₂_map_left_iff.mpr (hencodes.imp fun _ _ hl => hl.within)

/-- Encoding gives back a whole chromosome within the bounds, if no gene is hidden. -/
lemma encodes_eq (h : ofSite site = .ok space) (hfits : site.Fits) (hnodup : site.NoRepeats)
    {c c' : Chromosome} (hwithin : List.Forall₂ Gene.Within space.genes c)
    (hintegral : List.Forall₂ Gene.Integral space.genes c)
    (hpresent : ∀ asset range, site.range.get? asset = some range → range.mandatory = false →
      (space.assets c).contains asset)
    (hc' : List.Forall₂ (Locus.Encodes (space.assets c)) space.loci c') :
    List.Forall₂ (fun y x => y == x) c' c := by
  have hwithin := List.forall₂_map_left_iff.mp hwithin
  have hintegral := List.forall₂_map_left_iff.mp hintegral
  have hlength := hwithin.length_eq.symm
  have hnumbers : ∀ x ∈ c, IsNumber x := by
    intro x hx
    obtain ⟨l, -, hl⟩ := exists_of_mem_right hwithin hx
    exact Gene.isNumber_of_within hl
  have hc : List.Forall₂ (fun l x => (l, x) ∈ space.loci.zip c ∧ l.gene.Within x ∧
      l.gene.Integral x) space.loci c :=
    List.forall₂_iff_zip.mpr ⟨hlength.symm, fun hmem =>
      ⟨hmem, List.forall₂_zip hwithin hmem, List.forall₂_zip hintegral hmem⟩⟩
  refine (forall₂_of_common hc' hc).imp ?_
  rintro y x ⟨l, -, hy, hmem, hx, hx'⟩
  rw [beq_iff_units (Gene.isNumber_of_within hy.within) (Gene.isNumber_of_within hx)]
  exact units_eq_of_encodes h hfits hnodup hlength hnumbers hpresent hmem hx hx' hy

end SiteSpace

/-! ## Portfolios -/

namespace Space

/-- Parts that encode the scenarios of the sites are decoded site by site. -/
lemma decode_flatten {sites : List SiteSpace} {scenarios : List Scenario} {parts : List Chromosome}
    (h : List.Forall₂ (fun e part => List.Forall₂ Gene.Within e.1.genes part ∧
      e.1.decode part = e.2) (sites.zip scenarios) parts) (hlength : sites.length = scenarios.length) :
    List.Forall₂ Gene.Within (genes ⟨sites⟩) parts.flatten ∧
      decode ⟨sites⟩ parts.flatten = scenarios := by
  induction sites generalizing scenarios parts with
  | nil =>
    cases scenarios with
    | nil =>
      cases h
      exact ⟨.nil, rfl⟩
    | cons s rest => cases hlength
  | cons site sites ih =>
    cases scenarios with
    | nil => cases hlength
    | cons s rest =>
      cases h with
      | cons hfirst hrest =>
        obtain ⟨hwithin, hdecode⟩ := ih hrest (Nat.succ.inj hlength)
        refine ⟨List.rel_append hfirst.1 hwithin, ?_⟩
        unfold decode at hdecode ⊢
        rw [List.flatten_cons, decodeFrom_append site sites _
          (hfirst.1.length_eq.symm.trans site.length_genes), hfirst.2, hdecode]

end Space

namespace PortfolioProblem

variable {σ : Type} {simulate : Simulator σ} {trial trial' : Trial σ} {portfolio : List Site}
  {p : PortfolioProblem}

/-- An evaluated chromosome has the decoded scenario under the id of every site. -/
lemma scenario_of_returns_evaluate {c : Chromosome} {x : PortfolioSolution}
    (hsites : p.sites.map Prod.fst = portfolio) (hids : (portfolio.map (·.siteId)).Nodup)
    (hlength : portfolio.length = (p.space.decode c).length)
    (h : Returns (p.evaluate simulate c) trial x trial') :
    List.Forall₂ (fun site s => ∃ found, x.sites.get? site.siteId = some found ∧
      found.scenario = s) portfolio (p.space.decode c) := by
  obtain ⟨⟨entries, hentries, rfl⟩, -⟩ :=
    returns_evaluate_of_answers (answers_of_any simulate) trivial h
  subst hsites
  rw [List.length_map] at hlength
  have hkeys : entries.map Prod.fst = (p.sites.map Prod.fst).map (·.siteId) := by
    have hmap : List.Forall₂ (fun (w : Scenario × Site × Totals Amount)
        (e : String × SiteSolution) => w.2.1.siteId = e.1)
        ((p.space.decode c).zip p.sites) entries :=
      hentries.imp fun _ _ ⟨_, _, heq⟩ => (congrArg Prod.fst heq).symm
    have hsnd := List.map_snd_zip (Nat.le_of_eq hlength)
    conv_rhs => rw [← hsnd]
    rw [List.map_map, List.map_map]
    exact (List.forall₂_eq_eq_eq ▸ List.forall₂_map_right_iff.mpr
      (List.forall₂_map_left_iff.mpr hmap) : _ = _).symm
  refine List.forall₂_map_left_iff.mpr (List.forall₂_iff_zip.mpr ⟨hlength, fun hmem => ?_⟩)
  rename_i e s
  have hswap : (s, e) ∈ (p.space.decode c).zip p.sites := by
    rw [← List.zip_swap, List.mem_map]
    exact ⟨(e, s), hmem, rfl⟩
  obtain ⟨entry, hentry, r, -, rfl⟩ := exists_of_mem_left hentries hswap
  exact ⟨_, Dict.get?_ofList_of_nodup (hkeys ▸ hids) hentry, rfl⟩

/-- The solution that a chromosome is evaluated to is encoded, and decoded to the same scenarios. -/
lemma exists_encode_evaluate (hspace : Space.ofPortfolio portfolio = .ok p.space)
    (hsites : p.sites.map Prod.fst = portfolio) (hfits : ∀ site ∈ portfolio, site.Fits)
    (hids : (portfolio.map (·.siteId)).Nodup) {c : Chromosome}
    (hlength : c.length = p.space.genes.length) (hc : ∀ x ∈ c, IsNumber x) {x : PortfolioSolution}
    (h : Returns (p.evaluate simulate c) trial x trial') :
    ∃ c', p.space.encode x = some c' ∧ List.Forall₂ Gene.Within p.space.genes c' ∧
      p.space.decode c' = p.space.decode c := by
  have hlegal := Space.legal_decode hspace hfits hlength hc
  have hfound := scenario_of_returns_evaluate hsites hids hlegal.length_eq h
  obtain ⟨sites, hsites', heq⟩ := bind_eq_ok.mp hspace
  have heq : p.space = ⟨sites⟩ := (Except.ok.inj heq).symm
  have hspaces := mapM_eq_ok.mp hsites'
  have hparts : ∀ e ∈ sites.zip (p.space.decode c), ∃ part,
      (x.sites.get? e.1.siteId >>= fun found => e.1.encode found.scenario) = some part ∧
      List.Forall₂ Gene.Within e.1.genes part ∧ e.1.decode part = e.2 := by
    rintro ⟨space, s⟩ he
    obtain ⟨site, hsite, hof, hs, found, hget, hscenario⟩ :=
      List.forall₂_zip (forall₂_of_common hspaces (forall₂_conj hlegal hfound)) he
    obtain ⟨part, hencode, hencodes, hdecode⟩ :=
      SiteSpace.exists_encode hof (hfits site hsite) hs
    refine ⟨part, ?_, List.forall₂_map_left_iff.mpr (hencodes.imp fun _ _ hl => hl.within),
      hdecode⟩
    dsimp only
    rw [(SiteSpace.laidOut_of_ofSite hof).siteId_eq, hget, Option.bind_eq_bind, Option.bind_some,
      hscenario, hencode]
  obtain ⟨parts, hall⟩ := exists_forall₂_of_forall hparts
  have hcount : sites.length = (p.space.decode c).length :=
    hspaces.length_eq.symm.trans hlegal.length_eq
  obtain ⟨hwithin, hdecode⟩ := Space.decode_flatten (hall.imp fun _ _ h => h.2) hcount
  have hencode : sites.mapM (fun site => x.sites.get? site.siteId >>= fun found =>
      site.encode found.scenario) = some parts := by
    have hfst : (sites.zip (p.space.decode c)).map Prod.fst = sites :=
      List.map_fst_zip (Nat.le_of_eq hcount)
    rw [mapM_eq_some]
    conv => arg 2; rw [← hfst]
    exact List.forall₂_map_left_iff.mpr (hall.imp fun _ _ h => h.1)
  refine ⟨parts.flatten, ?_, heq ▸ hwithin, ?_⟩
  · rw [heq]
    unfold Space.encode
    dsimp only
    rw [hencode]
    rfl
  · rw [← hdecode, heq]

end PortfolioProblem

/-- Encoding undoes decoding: a decoded scenario is encoded to a chromosome within the bounds that is
decoded and encoded to the same, and that is the chromosome it came from if no gene was hidden. The
evaluated solution of a portfolio is encoded to a chromosome with the same scenarios. -/
theorem encode_undoes_decode :
    (∀ (site : Site) (space : SiteSpace) (c : Chromosome), SiteSpace.ofSite site = .ok space →
      site.Fits → c.length = space.genes.length → (∀ x ∈ c, IsNumber x) →
      ∃ c', space.encode (space.decode c) = some c' ∧ List.Forall₂ Gene.Within space.genes c' ∧
        space.decode c' = space.decode c ∧ space.encode (space.decode c') = some c' ∧
        (List.Forall₂ Gene.Within space.genes c → List.Forall₂ Gene.Integral space.genes c →
          site.NoRepeats →
          (∀ asset range, site.range.get? asset = some range → range.mandatory = false →
            (space.decode c).assets.contains asset) →
          List.Forall₂ (fun y x => y == x) c' c)) ∧
    ∀ (σ : Type) (simulate : Simulator σ) (portfolio : List Site) (constraints : Constraints)
      (p : PortfolioProblem) (c : Chromosome) (x : PortfolioSolution)
      (trial prepared before after : Trial σ),
      Returns (PortfolioProblem.build simulate portfolio constraints) trial p prepared →
      (∀ site ∈ portfolio, site.Fits) → (portfolio.map (·.siteId)).Nodup →
      c.length = p.space.genes.length → (∀ x ∈ c, IsNumber x) →
      Returns (p.evaluate simulate c) before x after →
      ∃ c', p.space.encode x = some c' ∧ List.Forall₂ Gene.Within p.space.genes c' ∧
        p.space.decode c' = p.space.decode c := by
  constructor
  · intro site space c h hfits hlength hc
    obtain ⟨c', hencode, hencodes, hwithin, hdecode⟩ :=
      SiteSpace.exists_encode_decode h hfits hlength hc
    refine ⟨c', hencode, hwithin, hdecode, hdecode ▸ hencode, fun hc hc' hnodup hpresent => ?_⟩
    exact SiteSpace.encodes_eq h hfits hnodup hc hc' hpresent hencodes
  · intro σ simulate portfolio constraints p c x trial prepared before after hbuild hfits hids
      hlength hc hevaluate
    obtain ⟨hspace, -, -, -⟩ :=
      PortfolioProblem.returns_build_of_answers (answers_of_any simulate) trivial hbuild
    exact PortfolioProblem.exists_encode_evaluate hspace
      (PortfolioProblem.fst_sites_of_returns_build hbuild) hfits hids hlength hc hevaluate

def harbourStart : Trial Unit := ⟨.start (), 0⟩

/-- The problem of the harbour and the depot. -/
def harbourProblem : PortfolioProblem :=
  returnedOr (PortfolioProblem.build depotSimulator [harbour, depot] .none) harbourStart
    ⟨[], ⟨[]⟩, .none⟩

/-- In the harbour a whole chromosome with solar panels is given back, and so are the scenarios of
a portfolio of the harbour and the depot. -/
theorem encode_undoes_decode_harbour :
    (∃ space c', SiteSpace.ofSite harbour = .ok space ∧
      space.encode (space.decode [2.0, 1.0, 1.0, 30.0]) = some c' ∧
      List.Forall₂ (fun y x => y == x) c' [2.0, 1.0, 1.0, 30.0]) ∧
    ∃ p x trial, Returns (PortfolioProblem.build depotSimulator [harbour, depot] .none)
        harbourStart p trial ∧
      ∃ after, Returns (p.evaluate depotSimulator [7.0, 0.0, 1.0, 30.0, 2.0]) harbourStart x after ∧
      ∃ c', p.space.encode x = some c' ∧
        p.space.decode c' = p.space.decode [7.0, 0.0, 1.0, 30.0, 2.0] := by
  obtain ⟨hsite, hportfolio⟩ := encode_undoes_decode
  constructor
  · obtain ⟨space, h⟩ := eq_ok_of_isOk (by decide +kernel : (SiteSpace.ofSite harbour).isOk)
    have hgenes : space.genes = [.integer 0 3, .integer 0 1, .integer 0 1, .continuous 0.0 45.0] := by
      have hall : (SiteSpace.ofSite harbour).toOption.map (·.genes) =
          some [.integer 0 3, .integer 0 1, .integer 0 1, .continuous 0.0 45.0] := by
        decide +kernel
      rw [h] at hall
      exact Option.some.inj hall
    have hpresent : ∀ e ∈ harbour.range.entries,
        (space.decode [2.0, 1.0, 1.0, 30.0]).assets.contains e.1 := by
      have hall : (SiteSpace.ofSite harbour).toOption.map (fun space =>
          harbour.range.entries.all fun e =>
            (space.decode [2.0, 1.0, 1.0, 30.0]).assets.contains e.1) = some true := by
        decide +kernel
      rw [h] at hall
      exact List.all_eq_true.mp (Option.some.inj hall)
    obtain ⟨c', hencode, -, -, -, hsame⟩ := hsite harbour space [2.0, 1.0, 1.0, 30.0] h
      (by decide +kernel) (by rw [hgenes]; rfl) (by decide +kernel)
    refine ⟨space, c', h, hencode, hsame ?_ ?_ (by decide +kernel) fun asset range hrange _ =>
      hpresent _ (Dict.get?_eq_some_iff.mp hrange)⟩
    · rw [hgenes]
      exact .cons (by unfold Gene.Within; decide +kernel)
        (.cons (by unfold Gene.Within; decide +kernel)
        (.cons (by unfold Gene.Within; decide +kernel)
        (.cons (by unfold Gene.Within; decide +kernel) .nil)))
    · rw [hgenes]
      exact .cons (by unfold Gene.Integral; decide +kernel)
        (.cons (by unfold Gene.Integral; decide +kernel)
        (.cons (by unfold Gene.Integral; decide +kernel) (.cons trivial .nil)))
  · have hbuild := returns_of_isOk ⟨[], ⟨[]⟩, .none⟩ (by decide +kernel :
      ((PortfolioProblem.build depotSimulator [harbour, depot] .none).run.run harbourStart).1.isOk)
    have hevaluate := returns_of_isOk ⟨.empty, .none, .fill 0, 0.0, true⟩ (by decide +kernel :
      ((harbourProblem.evaluate depotSimulator [7.0, 0.0, 1.0, 30.0, 2.0]).run.run
        harbourStart).1.isOk)
    obtain ⟨c', hencode, -, hdecode⟩ := hportfolio Unit depotSimulator [harbour, depot] .none
      harbourProblem [7.0, 0.0, 1.0, 30.0, 2.0] _ _ _ _ _ hbuild (by decide +kernel)
      (by decide +kernel) (by decide +kernel) (by decide +kernel) hevaluate
    exact ⟨_, _, _, hbuild, _, hevaluate, c', hencode, hdecode⟩

end Retrofit
