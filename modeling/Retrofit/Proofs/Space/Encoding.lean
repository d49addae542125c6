import Retrofit.Proofs.Space.Decoding

/-!
# Encoding legal scenarios

Every legal scenario of a site has a chromosome, within the bounds of the genes, that is decoded to
it (`SiteSpace.exists_encode`). Together with `SiteSpace.legal_decode` this makes the decoded
scenarios exactly the legal ones (`SiteSpace.decode_reaches_legal`).
-/

namespace Retrofit

open Number

namespace Locus

/-- The position of a value, from which the locus reads that value again. -/
structure Places (l : Locus) (config : AssetConfig) (v : AttributeValue) (y : Float) : Prop where
  position : l.positionIn config = some y
  within : l.gene.Within y
  integral : l.gene.Integral y
  value : l.value? y = some v

lemma keep?_of_beq {l : Locus} {y : Float} (h : l.gene.clip y == y) : l.keep? y = some y :=
  if_pos h

lemma exists_places_choice {asset attr : String} {values : List AttributeValue}
    (hl : (choice asset attr values).Exact) {config : AssetConfig} {v : AttributeValue}
    (hv : config.get? attr = some v) (hmem : v ∈ values) :
    ∃ y, (choice asset attr values).Places config v y := by
  obtain ⟨hlength, hcount⟩ := hl
  obtain ⟨place, hplace⟩ : ∃ place, values.idxOf? v = some place := by
    cases hfound : values.idxOf? v with
    | none => exact absurd hmem (List.idxOf?_eq_none_iff.mp hfound)
    | some place => exact ⟨place, rfl⟩
  obtain ⟨hlt, hvalue, -⟩ := List.idxOf?_eq_some_iff.mp hplace
  have hgene := gene_choice asset attr hlength
  refine ⟨ofInt place, ?_, ?_, Gene.integral_ofInt (by omega), ?_⟩
  · unfold positionIn
    dsimp only
    rw [hv, Option.bind_eq_bind, Option.bind_some, hplace]
    rfl
  · rw [hgene]
    exact Gene.within_ofInt (by omega) (by omega)
  · unfold value?
    dsimp only
    rw [hgene, (Gene.clip_ofInt (by omega) (by omega)).2, List.getElem?_eq_getElem hlt, hvalue]

lemma exists_places_stepped {asset attr : String} {min step last : Int}
    (hl : (stepped asset attr min step last).Exact) {config : AssetConfig} {k : Nat}
    (hv : config.get? attr = some (.int (min + k * step))) (hk : k ≤ last) :
    ∃ y, (stepped asset attr min step last).Places config (.int (min + k * step)) y := by
  obtain ⟨hstep, hpos, hlast, hspan, -⟩ := hl
  have hgene := gene_stepped asset attr min step hpos
  have hmul : (k : Int) * step ≤ last * step := Int.mul_le_mul_of_nonneg_right hk (by omega)
  have hnonneg : 0 ≤ (k : Int) * step := Int.mul_nonneg (by omega) (by omega)
  have hoffset : min + k * step - min = k * step := by omega
  obtain ⟨hunits, hcount⟩ := Gene.clip_ofInt (n := last.toNat) (k := k) (by omega) (by omega)
  have hkept : (Gene.integer 0 last.toNat).clip (ofInt k) == ofInt k := by
    have hk := (faithful_ofInt k).isNumber
    obtain ⟨-, -, hnumber, -⟩ := Gene.clip_integer_exact (n := last.toNat) (by omega) hk
    rw [beq_iff_units hnumber hk, hunits, units_ofInt (by omega)]
  refine ⟨ofInt k, ?_, ?_, Gene.integral_ofInt (by omega), ?_⟩
  · unfold positionIn
    dsimp only
    rw [hv]
    dsimp only
    rw [hoffset, if_neg (by omega), if_neg (fun h => h (Int.mul_tmod_left _ _)),
      Int.mul_tdiv_cancel _ (by omega)]
    exact keep?_of_beq (hgene ▸ hkept)
  · rw [hgene]
    exact Gene.within_ofInt (by omega) (by omega)
  · unfold value?
    dsimp only
    rw [hgene, hcount]

lemma exists_places_continuous {asset attr : String} {min max x : Float} {config : AssetConfig}
    (hv : config.get? attr = some (.float x)) (hlow : min ≤ x) (hhigh : x ≤ max) :
    ∃ y, (continuous asset attr min max).Places config (.float x) y := by
  have hclip : (continuous asset attr min max).gene.clip x = x :=
    Gene.clip_continuous_of_within ⟨hlow, hhigh⟩
  have hx := (isNumber_of_le hlow).2
  refine ⟨x, ?_, ⟨hlow, hhigh⟩, trivial, ?_⟩
  · unfold positionIn
    dsimp only
    rw [hv]
    apply keep?_of_beq
    rw [hclip]
    exact (beq_iff_units hx hx).mpr rfl
  · unfold value?
    dsimp only
    rw [hclip]

/-- A legal value of a locus has a position, which means that value again. -/
theorem exists_places {l : Locus} (hl : l.Exact) {attr : String} (hattr : l.attr? = some attr)
    {config : AssetConfig} {v : AttributeValue} (hv : config.get? attr = some v)
    (hlegal : l.Legal v) : ∃ y, l.Places config v y := by
  cases l with
  | presence asset => cases hattr
  | choice asset attr' values =>
    cases hattr
    exact exists_places_choice hl hv hlegal
  | stepped asset attr' min step last =>
    cases hattr
    obtain ⟨k, hk, rfl⟩ := hlegal
    exact exists_places_stepped hl hv hk
  | continuous asset attr' min max =>
    cases hattr
    obtain ⟨x, hlow, hhigh, rfl⟩ := hlegal
    exact exists_places_continuous hv hlow hhigh

lemma within_lower {l : Locus} (hl : l.Exact) : l.gene.Within l.gene.lower := by
  cases l with
  | presence asset => exact Gene.within_ofInt (n := 1) (k := 0) (by omega) (by omega)
  | choice asset attr values =>
    rw [gene_choice _ _ hl.1]
    exact Gene.within_ofInt (k := 0) (by have := hl.2; omega) (by omega)
  | stepped asset attr min step last =>
    rw [gene_stepped _ _ _ _ hl.2.1]
    exact Gene.within_ofInt (k := 0) (by have := hl.2.2.1; omega) (by omega)
  | continuous asset attr min max =>
    obtain ⟨hmin, hmax, horder⟩ := hl
    have hmin' := isNumber_of_isFinite hmin
    exact ⟨(le_iff_units hmin' hmin').mpr (Int.le_refl _),
      (le_iff_units hmin' (isNumber_of_isFinite hmax)).mpr
        (Gene.units_le_of_not_lt hmin hmax horder)⟩

lemma integral_lower (l : Locus) : l.gene.Integral l.gene.lower := by
  cases l with
  | continuous asset attr min max => trivial
  | _ => exact Gene.integral_ofInt (k := 0) (by omega)

/-- A position in a scenario from which the locus reads what the scenario has. -/
structure Encodes (assets : Dict AssetConfig) (l : Locus) (y : Float) : Prop where
  position : l.position assets = some y
  within : l.gene.Within y
  integral : l.gene.Integral y
  value : ∀ attr, l.attr? = some attr → ∀ config, assets.get? l.asset = some config →
    l.value? y = config.get? attr
  presence : l.attr? = none → (l.gene.clip y < 0.5 ↔ assets.get? l.asset = none)

lemma exists_encodes_presence (assets : Dict AssetConfig) (asset : String) :
    ∃ y, (presence asset).Encodes assets y := by
  have hattr : ∀ attr, (presence asset).attr? ≠ some attr := fun _ h => by cases h
  cases hfound : assets.get? (presence asset).asset with
  | none =>
    refine ⟨0.0, ?_, ?_, ?_, fun attr h => absurd h (hattr attr), fun _ => iff_of_true ?_ hfound⟩
    · unfold position
      dsimp only
      rw [hfound]
    · exact Gene.within_ofInt (n := 1) (k := 0) (by omega) (by omega)
    · exact Gene.integral_ofInt (k := 0) (by omega)
    · change (Gene.integer 0 1).clip 0.0 < 0.5
      decide +kernel
  | some config =>
    refine ⟨1.0, ?_, ?_, ?_, fun attr h => absurd h (hattr attr), fun _ => iff_of_false ?_ ?_⟩
    · unfold position
      dsimp only
      rw [hfound]
      rfl
    · change ofInt 0 ≤ 1.0 ∧ 1.0 ≤ ofInt 1
      decide +kernel
    · change Number.round 1.0 == 1.0
      decide +kernel
    · change ¬ (Gene.integer 0 1).clip 1.0 < 0.5
      decide +kernel
    · rw [hfound]
      exact Option.some_ne_none _

end Locus

namespace SiteSpace

variable {site : Site} {space : SiteSpace}

/-- Every locus has a position in a legal scenario. -/
lemma exists_encodes (h : ofSite site = .ok space) (hfits : site.Fits) {s : Scenario}
    (hs : site.Legal s) : ∀ l ∈ space.loci, ∃ y, l.Encodes s.assets y := by
  intro l hl
  have hexact := exact_of_ofSite h hfits l hl
  obtain ⟨e, he, ⟨-, rfl⟩ | ⟨attr, hattr, hresolve⟩⟩ := (laidOut_of_ofSite h).origin l hl
  · exact Locus.exists_encodes_presence s.assets e.1
  · have hasset := AttributeRange.asset_of_resolve hresolve
    have hname := AttributeRange.attr_of_resolve hresolve
    have hsearches : ∀ {o : Prop}, l.attr? = none → o := by
      intro o hnone
      rw [hname] at hnone
      cases hnone
    cases hfound : s.assets.get? l.asset with
    | none =>
      refine ⟨l.gene.lower, ?_, Locus.within_lower hexact, l.integral_lower, fun _ _ _ h => ?_,
        hsearches⟩
      · unfold Locus.position
        rw [hfound]
        cases l with
        | presence asset => cases hname
        | _ => rfl
      · rw [hfound] at h
        cases h
    | some config =>
      have hrange := Dict.get?_eq_some_iff.mpr he
      have hconfig := hs.legal e.1 e.2 config hrange (hasset ▸ hfound) attr.1
      rw [Dict.get?_eq_some_iff.mpr hattr] at hconfig
      obtain ⟨v, hv, hlegal⟩ := Dict.exists_of_rel_some hconfig
      obtain ⟨y, hy⟩ := Locus.exists_places hexact hname hv
        ((legal_iff_of_resolve_searched hresolve).mp hlegal)
      refine ⟨y, ?_, hy.within, hy.integral, fun attr' hattr' config' hconfig' => ?_, hsearches⟩
      · unfold Locus.position
        rw [hfound]
        exact hy.position
      · rw [hname] at hattr'
        cases hattr'
        rw [hfound] at hconfig'
        cases hconfig'
        rw [hy.value, hv]

/-- What positions in a scenario settle an attribute to is what the scenario has. -/
lemma get?_eq_of_settles {assets : Dict AssetConfig} {c : Chromosome}
    (hc : List.Forall₂ (Locus.Encodes assets) space.loci c) {asset attr : String}
    {range : AttributeRange} {config : AssetConfig} {v : AttributeValue}
    (hconfig : assets.get? asset = some config)
    (hlegal : ∃ w, config.get? attr = some w ∧ range.Legal w)
    (hv : range.Settles (space.loci.zip c) asset attr v) : config.get? attr = some v := by
  obtain ⟨w, hw, hlegal⟩ := hlegal
  cases hv with
  | constant hresolve => rw [hw, (legal_iff_of_resolve_constant hresolve).mp hlegal]
  | @searched l x _ hresolve hmem hread =>
    have hasset := AttributeRange.asset_of_resolve hresolve
    have hname := AttributeRange.attr_of_resolve hresolve
    rw [← hread]
    exact ((List.forall₂_zip hc hmem).value attr hname config (hasset ▸ hconfig)).symm

/-- What positions in a legal scenario settle an asset to is what the scenario has. -/
lemma get?_assets_eq_of_settles {s : Scenario} (hs : site.Legal s) {c : Chromosome}
    (hc : List.Forall₂ (Locus.Encodes s.assets) space.loci c) {asset : String}
    {range : AssetRange} (hrange : site.range.get? asset = some range)
    {found : Option AssetConfig} (hfound : range.Settles (space.loci.zip c) asset found) :
    s.assets.get? asset = found := by
  cases hfound with
  | dropped _ hmem hlow => exact ((List.forall₂_zip hc hmem).presence rfl).mp hlow
  | @kept config hpresent hattrs =>
    obtain ⟨config', hconfig'⟩ : ∃ config', s.assets.get? asset = some config' := by
      cases hmandatory : range.mandatory with
      | true => exact hs.mandatory asset range hrange hmandatory
      | false =>
        obtain ⟨x, hmem, hhigh⟩ := hpresent hmandatory
        have hsome := mt ((List.forall₂_zip hc hmem).presence rfl).mpr hhigh
        exact Option.ne_none_iff_exists'.mp hsome
    rw [hconfig']
    congr 1
    refine Dict.ext_get? fun attr => ?_
    have hsettled := hattrs attr
    have hlegal := hs.legal asset range config' hrange hconfig' attr
    cases hone : range.attributes.get? attr with
    | none =>
      rw [hone] at hsettled hlegal
      rw [Dict.eq_none_of_rel hsettled, Dict.eq_none_of_rel hlegal]
    | some one =>
      rw [hone] at hsettled hlegal
      obtain ⟨v, hv, hsettles⟩ := Dict.exists_of_rel_some hsettled
      rw [hv]
      exact get?_eq_of_settles hc hconfig' (Dict.exists_of_rel_some hlegal) hsettles

/-- Positions from which every locus reads what a legal scenario has are decoded to it. -/
theorem decode_of_encodes (h : ofSite site = .ok space) (hfits : site.Fits) {s : Scenario}
    (hs : site.Legal s) {c : Chromosome}
    (hc : List.Forall₂ (Locus.Encodes s.assets) space.loci c) : space.decode c = s := by
  have hnumbers : ∀ x ∈ c, IsNumber x := by
    intro x hx
    obtain ⟨l, -, hl⟩ := exists_of_mem_right hc hx
    exact Gene.isNumber_of_within hl.within
  have hassets : space.assets c = s.assets := by
    refine Dict.ext_get? fun asset => ?_
    obtain ⟨hknown, hunknown⟩ := settles_assets h hfits hc.length_eq.symm hnumbers asset
    cases hrange : site.range.get? asset with
    | none => rw [hunknown hrange, hs.known asset hrange]
    | some range => exact (get?_assets_eq_of_settles hs hc hrange (hknown range hrange)).symm
  have hlaid := laidOut_of_ofSite h
  obtain ⟨siteId, bundleId, assets⟩ := s
  change Scenario.mk space.siteId space.bundleId (space.assets c) = _
  rw [hlaid.siteId_eq, hlaid.bundleId_eq, hassets, ← hs.siteId, ← hs.bundleId]

/-- A legal scenario is encoded, within the bounds of the genes, and decoded to itself. -/
theorem exists_encode (h : ofSite site = .ok space) (hfits : site.Fits) {s : Scenario}
    (hs : site.Legal s) :
    ∃ c, space.encode s = some c ∧ List.Forall₂ (Locus.Encodes s.assets) space.loci c ∧
      space.decode c = s := by
  obtain ⟨c, hc⟩ := exists_forall₂_of_forall (exists_encodes h hfits hs)
  refine ⟨c, ?_, hc, decode_of_encodes h hfits hs hc⟩
  unfold encode
  rw [if_pos (hs.siteId.trans (laidOut_of_ofSite h).siteId_eq.symm)]
  exact mapM_eq_some.mpr (hc.imp fun _ _ hl => hl.position)

/-- The chromosomes without undefined numbers are decoded exactly to the legal scenarios, and no
index, count or product leaves its range on the way. -/
theorem decode_reaches_legal (h : ofSite site = .ok space) (hfits : site.Fits) :
    (∀ s, (∃ c : Chromosome, c.length = space.genes.length ∧ (∀ x ∈ c, IsNumber x) ∧
        space.decode c = s) ↔ site.Legal s) ∧
      ∀ c : Chromosome, c.length = space.genes.length → (∀ x ∈ c, IsNumber x) →
        ∀ e ∈ space.loci.zip c, e.1.Safe e.2 := by
  refine ⟨fun s => ⟨?_, fun hs => ?_⟩, fun c hlength hc e he => ?_⟩
  · rintro ⟨c, hlength, hc, rfl⟩
    exact legal_decode h hfits (hlength.trans space.length_genes) hc
  · obtain ⟨c, -, hencodes, hdecode⟩ := exists_encode h hfits hs
    refine ⟨c, hencodes.length_eq.symm.trans space.length_genes.symm, fun x hx => ?_, hdecode⟩
    obtain ⟨l, -, hl⟩ := exists_of_mem_right hencodes hx
    exact Gene.isNumber_of_within hl.within
  · exact (Locus.value?_of_isNumber (exact_of_ofSite h hfits e.1 (List.of_mem_zip he).1)
      (isNumber_of_mem_zip hc e he)).1

/-- In the harbour numbers far out of the ranges stand for a legal scenario as well. -/
theorem decode_reaches_legal_harbour : harbour.Fits ∧ ∃ space, ofSite harbour = .ok space ∧
    harbour.Legal (space.decode [99.0, 1.0, -3.0, 60.0]) ∧
    ∀ e ∈ space.loci.zip [99.0, 1.0, -3.0, 60.0], e.1.Safe e.2 := by
  have hfits : harbour.Fits := by decide +kernel
  obtain ⟨space, h⟩ := eq_ok_of_isOk (by decide +kernel : (ofSite harbour).isOk)
  have hlength : ([99.0, 1.0, -3.0, 60.0] : Chromosome).length = space.genes.length := by
    have hcount : (ofSite harbour).toOption.map (·.genes.length) = some 4 := by decide +kernel
    rw [h] at hcount
    exact (Option.some.inj hcount).symm
  have hnumbers : ∀ x ∈ ([99.0, 1.0, -3.0, 60.0] : Chromosome), IsNumber x := by decide +kernel
  obtain ⟨hlegal, hsafe⟩ := decode_reaches_legal h hfits
  exact ⟨hfits, space, h, (hlegal _).mp ⟨_, hlength, hnumbers, rfl⟩, hsafe _ hlength hnumbers⟩

end SiteSpace

end Retrofit
