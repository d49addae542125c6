import Retrofit.Proofs.Dict
import Retrofit.Proofs.Space.Legal

/-!
# What decoding writes

A setting is a locus with a value of its gene. Decoding applies the settings of a chromosome one
after the other; `SiteSpace.settles_assets` says what is left of that in the end: an asset is
dropped or kept as its presence says, and an attribute has its constant value or that of its
setting (`AttributeRange.Settles`, `AssetRange.Settles`). So every decoded scenario is legal
(`SiteSpace.legal_decode`).
-/

namespace Retrofit

open Number

/-- A locus with a value of its gene. -/
abbrev Setting := Locus × Float

/-! ## Loci -/

namespace Locus

/-- No index, count or product leaves its range when the locus reads a value of its gene. -/
def Safe (l : Locus) (x : Float) : Prop :=
  match l with
  | presence _ => True
  | choice _ _ values =>
    units (l.gene.clip x) = toCount (l.gene.clip x) * one ∧
      toCount (l.gene.clip x) < values.length
  | stepped _ _ min step _ =>
    units (l.gene.clip x) = toCount (l.gene.clip x) * one ∧ Word (toCount (l.gene.clip x)) ∧
      Word (toCount (l.gene.clip x) * step) ∧ Word (min + toCount (l.gene.clip x) * step)
  | continuous _ _ _ _ => True

lemma gene_choice (asset attr : String) {values : List AttributeValue}
    (h : 2 ≤ values.length) :
    (choice asset attr values).gene = .integer 0 (values.length - 1 : Nat) := by
  have hlast : ((values.length - 1 : Nat) : Int) = (values.length : Int) - 1 := by omega
  rw [hlast]
  rfl

lemma gene_stepped (asset attr : String) (min step : Int) {last : Int} (h : 0 < last) :
    (stepped asset attr min step last).gene = .integer 0 (last.toNat : Nat) := by
  rw [Int.toNat_of_nonneg (Int.le_of_lt h)]
  rfl

/-- The value of an exact locus is one of its legal ones, and is found without leaving any range. -/
theorem value?_of_isNumber {l : Locus} (hl : l.Exact) {x : Float} (hx : IsNumber x) :
    l.Safe x ∧ ∀ attr, l.attr? = some attr → ∃ v, l.value? x = some v ∧ l.Legal v := by
  cases l with
  | presence asset => exact ⟨trivial, nofun⟩
  | choice asset attr values =>
    obtain ⟨hlength, hcount⟩ := hl
    obtain ⟨k, hk, -, hunits, hplace⟩ :=
      Gene.clip_integer_exact (n := values.length - 1) (by omega) hx
    rw [← gene_choice asset attr hlength] at hunits hplace
    have hlt : k < values.length := by omega
    refine ⟨⟨by rw [hunits, hplace], by omega⟩, fun _ _ => ⟨values[k], ?_, List.getElem_mem hlt⟩⟩
    unfold value?
    dsimp only
    rw [hplace, List.getElem?_eq_getElem hlt]
  | stepped asset attr min step last =>
    obtain ⟨hstep, hpos, hlast, hspan, hmin, hmax⟩ := hl
    obtain ⟨k, hk, -, hunits, hplace⟩ := Gene.clip_integer_exact (n := last.toNat) (by omega) hx
    rw [← gene_stepped asset attr min step hpos] at hunits hplace
    have hle : (k : Int) ≤ last := by omega
    have hmul : (k : Int) * step ≤ last * step :=
      Int.mul_le_mul_of_nonneg_right hle (by omega)
    have hnonneg : 0 ≤ (k : Int) * step := Int.mul_nonneg (by omega) (by omega)
    unfold Word at hmin hmax
    refine ⟨⟨by rw [hunits, hplace], ?_⟩, fun _ _ => ⟨_, ?_, k, hle, rfl⟩⟩
    · unfold Word
      rw [hplace]
      omega
    · unfold value?
      dsimp only
      rw [hplace]
  | continuous asset attr min max =>
    obtain ⟨hmin, hmax, horder⟩ := hl
    obtain ⟨hlow, hhigh⟩ := Gene.within_clip_continuous hmin hmax horder hx
    exact ⟨trivial, fun _ _ => ⟨_, rfl, _, hlow, hhigh, rfl⟩⟩

/-- What a value of the gene makes of the configuration of the asset; nothing if it is dropped. -/
def write (l : Locus) (x : Float) (config : AssetConfig) : Option AssetConfig :=
  match l.attr? with
  | none => if l.gene.clip x < 0.5 then none else some config
  | some attr =>
    match l.value? x with
    | some v => some (config.insert attr v)
    | none => some config

/-- A locus writes to its own asset and to no other. -/
lemma get?_apply (l : Locus) (x : Float) (assets : Dict AssetConfig) (k : String) :
    (l.apply x assets).get? k =
      if k = l.asset then (assets.get? k).bind (l.write x) else assets.get? k := by
  have hmodify : ∀ (asset attr : String) (v : AttributeValue),
      (assets.modify asset (·.insert attr v)).get? k =
        if k = asset then (assets.get? k).bind (fun config => some (config.insert attr v))
        else assets.get? k := by
    intro asset attr v
    rw [Dict.get?_modify, Option.map_eq_bind]
    rfl
  cases l with
  | presence asset =>
    rw [apply_presence]
    unfold write
    dsimp only [attr?, Locus.asset, gene]
    by_cases hlow : (Gene.integer 0 1).clip x < 0.5
    · rw [if_pos hlow, Dict.get?_erase]
      simp only [hlow, if_true]
      cases assets.get? k <;> rfl
    · rw [if_neg hlow]
      simp only [hlow, if_false]
      cases assets.get? k <;> exact (ite_self _).symm
  | choice asset attr values =>
    unfold apply write
    dsimp only [attr?, value?]
    cases values[toCount ((choice asset attr values).gene.clip x)]? with
    | none => cases assets.get? k <;> exact (ite_self _).symm
    | some v => exact hmodify asset attr v
  | stepped asset attr min step last => exact hmodify asset attr _
  | continuous asset attr min max => exact hmodify asset attr _

end Locus

/-- Writes settings of one asset into its configuration one after the other. -/
def writeAll (settings : List Setting) (config : AssetConfig) : Option AssetConfig :=
  settings.foldlM (fun config e => e.1.write e.2 config) config

/-- What settings make of an asset depends on the settings of the asset alone. -/
lemma get?_foldl (settings : List Setting) (assets : Dict AssetConfig) (k : String) :
    (settings.foldl (fun assets e => e.1.apply e.2 assets) assets).get? k =
      (assets.get? k).bind (writeAll (settings.filter (·.1.asset = k))) := by
  induction settings generalizing assets with
  | nil => exact (Option.bind_fun_some (assets.get? k)).symm
  | cons e rest ih =>
    rw [List.foldl_cons, ih, Locus.get?_apply]
    by_cases h : k = e.1.asset
    · have hfilter : (e :: rest).filter (·.1.asset = k) = e :: rest.filter (·.1.asset = k) :=
        List.filter_cons_of_pos (decide_eq_true h.symm)
      rw [if_pos h, hfilter, Option.bind_assoc]
      rfl
    · have hfilter : (e :: rest).filter (·.1.asset = k) = rest.filter (·.1.asset = k) :=
        List.filter_cons_of_neg fun heq => h (of_decide_eq_true heq).symm
      rw [if_neg h, hfilter]

/-- Settings of different attributes are all written, and no other attribute is. -/
lemma exists_writeAll {settings : List Setting}
    (hvalues : ∀ e ∈ settings, ∃ attr v, e.1.attr? = some attr ∧ e.1.value? e.2 = some v)
    (hdistinct : (settings.map Prod.fst).Pairwise fun l l' => l.attr? ≠ l'.attr?)
    (base : AssetConfig) :
    ∃ config, writeAll settings base = some config ∧
      (∀ e ∈ settings, ∀ attr, e.1.attr? = some attr → config.get? attr = e.1.value? e.2) ∧
      ∀ attr, (∀ e ∈ settings, e.1.attr? ≠ some attr) → config.get? attr = base.get? attr := by
  induction settings generalizing base with
  | nil => exact ⟨base, rfl, fun e he => (nomatch he), fun _ _ => rfl⟩
  | cons e rest ih =>
    obtain ⟨hfirst, hrest⟩ := List.pairwise_cons.mp hdistinct
    obtain ⟨attr, v, hattr, hv⟩ := hvalues e List.mem_cons_self
    obtain ⟨config, hwrite, hset, hother⟩ :=
      ih (fun e' he' => hvalues e' (List.mem_cons_of_mem _ he')) hrest (base.insert attr v)
    refine ⟨config, ?_, ?_, ?_⟩
    · unfold writeAll at hwrite ⊢
      rw [List.foldlM_cons]
      unfold Locus.write
      rw [hattr]
      dsimp only
      rw [hv]
      exact hwrite
    · intro e' he' attr' hattr'
      rcases List.mem_cons.mp he' with rfl | he'
      · cases hattr.symm.trans hattr'
        rw [hother attr fun e' he' hsame =>
          hfirst e'.1 (List.mem_map_of_mem he') (hattr.trans hsame.symm), Dict.get?_insert,
          if_pos rfl, hv]
      · exact hset e' he' attr' hattr'
    · intro attr' hattr'
      have hne : attr' ≠ attr := fun heq => hattr' e List.mem_cons_self (heq ▸ hattr)
      rw [hother attr' fun e' he' => hattr' e' (List.mem_cons_of_mem _ he'), Dict.get?_insert,
        if_neg hne]

/-! ## Attributes -/

/-- What settings make of a range: its constant, or the value of its locus. -/
inductive AttributeRange.Settles (settings : List Setting) (asset attr : String)
    (range : AttributeRange) : AttributeValue → Prop
  | constant {v : AttributeValue} (h : range.resolve asset attr = .ok (.constant v)) :
    Settles settings asset attr range v
  | searched {l : Locus} {x : Float} {v : AttributeValue}
    (h : range.resolve asset attr = .ok (.searched l)) (hmem : (l, x) ∈ settings)
    (hvalue : l.value? x = some v) : Settles settings asset attr range v

lemma AttributeRange.Settles.mono {settings settings' : List Setting} {asset attr : String}
    {range : AttributeRange} {v : AttributeValue}
    (h : range.Settles settings asset attr v) (hsub : settings ⊆ settings') :
    range.Settles settings' asset attr v := by
  cases h with
  | constant h => exact .constant h
  | searched h hmem hvalue => exact .searched h (hsub hmem) hvalue

/-- A setting for every locus of an asset, written over its constants, settles its attributes. -/
lemma AssetSpace.LaidOut.settles {asset : String} {attributes : Dict AttributeRange}
    {space : AssetSpace} (h : LaidOut asset attributes.entries space) {settings : List Setting}
    (hloci : settings.map Prod.fst = space.loci)
    (hvalues : ∀ e ∈ settings, ∃ v, e.1.value? e.2 = some v) :
    ∃ config, writeAll settings space.constants = some config ∧
      ∀ attr, Option.Rel (AttributeRange.Settles settings asset attr) (attributes.get? attr)
        (config.get? attr) := by
  have hmem : ∀ e ∈ settings, e.1 ∈ space.loci := fun e he => hloci ▸ List.mem_map_of_mem he
  have hsettings : ∀ e ∈ settings, ∃ attr v, e.1.attr? = some attr ∧ e.1.value? e.2 = some v := by
    intro e he
    obtain ⟨attr, -, hattr⟩ := h.attr_of_mem e.1 (hmem e he)
    obtain ⟨v, hv⟩ := hvalues e he
    exact ⟨attr, v, hattr, hv⟩
  obtain ⟨config, hwrite, hset, hother⟩ :=
    exists_writeAll hsettings (hloci ▸ h.pairwise_attr attributes.sorted) space.constants
  refine ⟨config, hwrite, fun attr => ?_⟩
  cases hrange : attributes.get? attr with
  | none =>
    have hunknown := Dict.not_mem_keys_of_get?_eq_none hrange
    rw [hother attr, h.get?_constants_of_not_mem hunknown]
    · exact .none
    · intro e he hattr
      obtain ⟨attr', hknown, hattr'⟩ := h.attr_of_mem e.1 (hmem e he)
      rw [Option.some.inj (hattr.symm.trans hattr')] at hunknown
      exact hunknown hknown
  | some range =>
    have hentry := Dict.get?_eq_some_iff.mp hrange
    obtain ⟨v, hresolve, hconstant⟩ | ⟨l, hl, hresolve⟩ := h.settled attributes.sorted _ hentry
    · rw [hother attr, hconstant]
      · exact .some (.constant hresolve)
      · intro e he hattr
        obtain ⟨e', he', hresolve'⟩ := h.origin e.1 (hmem e he)
        obtain ⟨attr', range'⟩ := e'
        cases Option.some.inj (hattr.symm.trans (AttributeRange.attr_of_resolve hresolve'))
        rw [← Dict.get?_eq_some_iff, hrange] at he'
        cases he'
        rw [hresolve] at hresolve'
        cases hresolve'
    · rw [← hloci] at hl
      obtain ⟨⟨_, x⟩, hx, rfl⟩ := List.mem_map.mp hl
      obtain ⟨v, hv⟩ := hvalues _ hx
      rw [hset _ hx attr (AttributeRange.attr_of_resolve hresolve), hv]
      exact .some (.searched hresolve hx hv)

/-! ## Assets -/

/-- What settings make of an asset: it is dropped, or has settled attributes. -/
inductive AssetRange.Settles (settings : List Setting) (asset : String) (range : AssetRange) :
    Option AssetConfig → Prop
  | dropped {x : Float} (h : range.mandatory = false) (hmem : (.presence asset, x) ∈ settings)
    (hlow : (Locus.presence asset).gene.clip x < 0.5) : Settles settings asset range none
  | kept {config : AssetConfig}
    (h : range.mandatory = false → ∃ x, (.presence asset, x) ∈ settings ∧
      ¬ (Locus.presence asset).gene.clip x < 0.5)
    (hattrs : ∀ attr, Option.Rel (AttributeRange.Settles settings asset attr)
      (range.attributes.get? attr) (config.get? attr)) : Settles settings asset range (some config)

namespace SiteSpace

variable {siteId bundleId : String} {ranges : List (String × AssetRange)} {space : SiteSpace}

/-- The settings of an asset settle its range, whatever settings of other assets there are. -/
lemma settles_own {asset : String} {range : AssetRange} {own : AssetSpace}
    (h : AssetSpace.LaidOut asset range.attributes.entries own)
    {presences settings all : List Setting}
    (hpresences : presences.map Prod.fst = range.presences asset)
    (hloci : settings.map Prod.fst = own.loci)
    (hvalues : ∀ e ∈ settings, ∃ v, e.1.value? e.2 = some v) (hall : presences ++ settings ⊆ all) :
    range.Settles all asset (writeAll (presences ++ settings) own.constants) := by
  obtain ⟨config, hwrite, hattrs⟩ := h.settles hloci hvalues
  have hattrs' : ∀ attr, Option.Rel (AttributeRange.Settles all asset attr)
      (range.attributes.get? attr) (config.get? attr) := fun attr =>
    Dict.rel_imp (fun _ _ hsettles => hsettles.mono fun _ he => hall (List.mem_append_right _ he))
      (hattrs attr)
  unfold AssetRange.presences at hpresences
  cases hmandatory : range.mandatory with
  | true =>
    rw [hmandatory, if_pos rfl, List.map_eq_nil_iff] at hpresences
    subst hpresences
    rw [List.nil_append, hwrite]
    exact .kept (fun hoptional => by rw [hmandatory] at hoptional; cases hoptional) hattrs'
  | false =>
    rw [hmandatory, if_neg nofun] at hpresences
    obtain ⟨⟨l, x⟩, rest, rfl, hl, hrest⟩ := List.map_eq_cons_iff.mp hpresences
    rw [List.map_eq_nil_iff] at hrest
    dsimp only at hl
    subst hl hrest
    have hmem : (Locus.presence asset, x) ∈ all := hall List.mem_cons_self
    have hstep : writeAll ([(Locus.presence asset, x)] ++ settings) own.constants =
        if (Locus.presence asset).gene.clip x < 0.5 then none
        else writeAll settings own.constants := by
      unfold writeAll
      rw [List.singleton_append, List.foldlM_cons]
      unfold Locus.write
      dsimp only [Locus.attr?]
      split <;> rfl
    rw [hstep]
    split
    · rename_i hlow
      exact .dropped hmandatory hmem hlow
    · rename_i hhigh
      rw [hwrite]
      exact .kept (fun _ => ⟨x, hmem, hhigh⟩) hattrs'

namespace LaidOut

/-- What settings make of the assets of a site: every asset of the range is settled. -/
theorem settles (h : LaidOut siteId bundleId ranges space)
    (hsorted : ranges.Pairwise fun a b => a.1 < b.1) {settings : List Setting}
    (hloci : settings.map Prod.fst = space.loci)
    (hvalues : ∀ e ∈ settings, ∀ attr, e.1.attr? = some attr → ∃ v, e.1.value? e.2 = some v) :
    ∀ e ∈ ranges, e.2.Settles settings e.1
      ((settings.foldl (fun assets e => e.1.apply e.2 assets) space.constants).get? e.1) := by
  intro e he
  obtain ⟨own, hown, hconstants, hfilter⟩ := h.own_of_mem hsorted e he
  rw [get?_foldl, hconstants, Option.bind_some]
  have hsub : settings.filter (·.1.asset = e.1) ⊆ settings := List.filter_subset_self _
  have hsplit : (settings.filter (·.1.asset = e.1)).map Prod.fst =
      e.2.presences e.1 ++ own.loci := by
    rw [← hfilter, ← hloci, List.filter_map]
    rfl
  obtain ⟨presences, attrs, hparts, hpresences, hattrs⟩ := List.map_eq_append_iff.mp hsplit
  rw [hparts] at hsub ⊢
  refine settles_own hown hpresences hattrs (fun s hs => ?_) hsub
  obtain ⟨attr, -, hattr⟩ := hown.attr_of_mem s.1 (hattrs ▸ List.mem_map_of_mem hs)
  exact hvalues s (hsub (List.mem_append_right _ hs)) attr hattr

end LaidOut

/-- All loci of a site that fits are exact. -/
lemma exact_of_ofSite {site : Site} (h : ofSite site = .ok space) (hfits : site.Fits) :
    ∀ l ∈ space.loci, l.Exact := by
  intro l hl
  obtain ⟨e, he, ⟨-, rfl⟩ | ⟨attr, hattr, hresolve⟩⟩ := (laidOut_of_ofSite h).origin l hl
  · trivial
  · exact exact_of_resolve (hfits e he attr hattr) hresolve

/-! ## Decoded scenarios -/

section

variable {site : Site}

lemma isNumber_of_mem_zip {loci : List Locus} {c : Chromosome} (hc : ∀ x ∈ c, IsNumber x) :
    ∀ e ∈ loci.zip c, IsNumber e.2 :=
  fun _ he => hc _ (List.of_mem_zip he).2

/-- A searched range is settled by the setting of its locus. -/
lemma value?_of_settles {loci : List Locus} {c : Chromosome} (hloci : loci.Nodup)
    {asset attr : String} {range : AttributeRange} {l : Locus} {x : Float} {v : AttributeValue}
    (hresolve : range.resolve asset attr = .ok (.searched l)) (hmem : (l, x) ∈ loci.zip c)
    (h : range.Settles (loci.zip c) asset attr v) : l.value? x = some v := by
  cases h with
  | constant hconstant =>
    rw [hresolve] at hconstant
    cases hconstant
  | searched hsearched hmem' hread =>
    rw [hresolve] at hsearched
    cases hsearched
    rw [← hread, eq_of_mem_zip_of_nodup hloci hmem' hmem]

/-- What a chromosome without undefined numbers makes of the assets of a site. -/
theorem settles_assets (h : ofSite site = .ok space) (hfits : site.Fits) {c : Chromosome}
    (hlength : c.length = space.loci.length) (hc : ∀ x ∈ c, IsNumber x) (asset : String) :
    (∀ range, site.range.get? asset = some range →
      range.Settles (space.loci.zip c) asset ((space.assets c).get? asset)) ∧
    (site.range.get? asset = none → (space.assets c).get? asset = none) := by
  have hlaid := laidOut_of_ofSite h
  refine ⟨fun range hrange => ?_, fun hnone => ?_⟩
  · refine hlaid.settles site.range.sorted (List.map_fst_zip (Nat.le_of_eq hlength.symm))
      (fun e he attr hattr => ?_) _ (Dict.get?_eq_some_iff.mp hrange)
    have hexact := exact_of_ofSite h hfits e.1 (List.of_mem_zip he).1
    obtain ⟨v, hv, -⟩ :=
      (Locus.value?_of_isNumber hexact (isNumber_of_mem_zip hc e he)).2 attr hattr
    exact ⟨v, hv⟩
  · unfold assets
    rw [get?_foldl, hlaid.get?_constants_of_not_mem (Dict.not_mem_keys_of_get?_eq_none hnone)]
    rfl

/-- Every chromosome without undefined numbers is decoded to a legal scenario. -/
theorem legal_decode (h : ofSite site = .ok space) (hfits : site.Fits) {c : Chromosome}
    (hlength : c.length = space.loci.length) (hc : ∀ x ∈ c, IsNumber x) :
    site.Legal (space.decode c) := by
  have hlaid := laidOut_of_ofSite h
  have hassets := settles_assets h hfits hlength hc
  refine ⟨hlaid.siteId_eq, hlaid.bundleId_eq, fun asset => (hassets asset).2, ?_, ?_⟩
  · intro asset range hrange hmandatory
    have hsettles := (hassets asset).1 range hrange
    change ∃ config, (space.assets c).get? asset = some config
    generalize (space.assets c).get? asset = found at hsettles
    cases hsettles with
    | dropped hoptional => rw [hmandatory] at hoptional; cases hoptional
    | kept => exact ⟨_, rfl⟩
  · intro asset range config hrange hconfig attr
    have hsettles := (hassets asset).1 range hrange
    change (space.assets c).get? asset = some config at hconfig
    rw [hconfig] at hsettles
    cases hsettles with
    | kept _ hattrs =>
      refine Dict.rel_imp (fun range v hv => ?_) (hattrs attr)
      cases hv with
      | constant hresolve => exact (legal_iff_of_resolve_constant hresolve).mpr rfl
      | searched hresolve hmem hvalue =>
        have hexact := exact_of_ofSite h hfits _ (List.of_mem_zip hmem).1
        obtain ⟨w, hw, hlegal⟩ := (Locus.value?_of_isNumber hexact
          (isNumber_of_mem_zip hc _ hmem)).2 attr (AttributeRange.attr_of_resolve hresolve)
        rw [hvalue] at hw
        cases hw
        exact (legal_iff_of_resolve_searched hresolve).mpr hlegal

end

end SiteSpace

namespace Space

/-- Every chromosome without undefined numbers has a legal scenario for each site. -/
theorem legal_decode {portfolio : List Site} {space : Space}
    (h : ofPortfolio portfolio = .ok space) (hfits : ∀ site ∈ portfolio, site.Fits)
    {c : Chromosome} (hlength : c.length = space.genes.length) (hc : ∀ x ∈ c, IsNumber x) :
    List.Forall₂ (fun site s => site.Legal s) portfolio (space.decode c) := by
  obtain ⟨sites, hsites, heq⟩ := bind_eq_ok.mp h
  cases heq
  clear h
  have hall := mapM_eq_ok.mp hsites
  clear hsites
  induction hall generalizing c with
  | nil => exact .nil
  | cons hfirst hrest ih =>
    rw [length_genes_cons] at hlength
    unfold decode
    dsimp only
    rw [decodeFrom_cons]
    refine .cons ?_ (ih (fun site hsite => hfits site (List.mem_cons_of_mem _ hsite)) ?_ ?_)
    · refine SiteSpace.legal_decode hfirst (hfits _ List.mem_cons_self) ?_ fun x hx =>
        hc x (List.mem_of_mem_take hx)
      rw [List.length_take]
      omega
    · exact fun x hx => hc x (List.mem_of_mem_drop hx)
    · rw [List.length_drop]
      omega

end Space

end Retrofit
