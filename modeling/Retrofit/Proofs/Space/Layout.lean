import Mathlib.Data.List.Nodup
import Retrofit.Proofs.Dict
import Retrofit.Proofs.Outcome
import Retrofit.Space.SiteSpace

/-!
# How search spaces are laid out

What is left of a single range (`AttributeRange.Resolves`), and how the attributes of an asset and
the assets of a site follow one another in the search space (`AssetSpace.LaidOut`,
`SiteSpace.LaidOut`). Facts about all loci or all constants of a space are shown by induction on
these relations.
-/

namespace Retrofit

/-- The attribute that a locus settles; a presence settles none. -/
def Locus.attr? : Locus → Option String
  | presence _ => none
  | choice _ attr _ => some attr
  | stepped _ attr _ _ _ => some attr
  | continuous _ attr _ _ => some attr

/-! ## Ranges -/

namespace AttributeRange

/-- How a range is settled, with what is known of its bounds then. -/
inductive Resolves (asset attr : String) : AttributeRange → Resolved → Prop
  | fixed (v : AttributeValue) : Resolves asset attr (fixed v) (.constant v)
  | only (v : AttributeValue) : Resolves asset attr (choices [v]) (.constant v)
  | choice (values : List AttributeValue) (hlength : 2 ≤ values.length) :
    Resolves asset attr (choices values) (.searched (.choice asset attr values))
  | still (min max step : Int) (horder : min ≤ max) (hstep : max < min + step) :
    Resolves asset attr (stepped min max step) (.constant (.int min))
  | stepped (min max step last : Int) (hstep : 0 < step) (hpos : 0 < last) (hlast : last ≤ maxSteps)
    (hspan : max - min ≤ 9223372036854775807) (hlow : min + last * step ≤ max)
    (hhigh : max < min + (last + 1) * step) :
    Resolves asset attr (stepped min max step) (.searched (.stepped asset attr min step last))
  | point (min max : Float) (h : min == max) :
    Resolves asset attr (continuous min max) (.constant (.float min))
  | continuous (min max : Float) (hmin : min.isFinite) (hmax : max.isFinite) (horder : ¬ max < min)
    (hne : ¬ min == max) :
    Resolves asset attr (continuous min max) (.searched (.continuous asset attr min max))

lemma resolves_of_resolve {asset attr : String} {range : AttributeRange} {r : Resolved}
    (h : range.resolve asset attr = .ok r) : range.Resolves asset attr r := by
  unfold resolve at h
  split at h
  · cases h
    exact .fixed _
  · cases h
  · cases h
    exact .only _
  · rename_i values hne hnotOne
    cases h
    refine .choice values ?_
    match values, hne, hnotOne with
    | [], hne, _ => exact absurd rfl hne
    | [v], _, hnotOne => exact absurd rfl (hnotOne v)
    | _ :: _ :: rest, _, _ => exact Nat.le_add_left 2 rest.length
  · rename_i min max step
    split at h
    · cases h
    · rename_i hstep
      split at h
      · cases h
      · rename_i horder
        dsimp only at h
        split at h
        · cases h
        · rename_i hwide
          have hlow := Int.ediv_mul_le (max - min) (by omega : step ≠ 0)
          have hhigh := Int.lt_ediv_add_one_mul_self (max - min) (by omega : 0 < step)
          split at h
          · rename_i hzero
            cases h
            rw [hzero, Int.zero_add, Int.one_mul] at hhigh
            exact .still min max step (by omega) (by omega)
          · rename_i hlast
            cases h
            have hnonneg : 0 ≤ (max - min) / step := Int.ediv_nonneg (by omega) (by omega)
            exact .stepped min max step _ (by omega) (by omega) (by omega) (by omega) (by omega)
              (by omega)
  · rename_i min max
    split at h
    · cases h
    · rename_i hbounds
      rw [Bool.or_eq_true, decide_eq_true_eq, not_or, Bool.not_eq_true', Bool.not_eq_false,
        Bool.and_eq_true] at hbounds
      split at h
      · rename_i heq
        cases h
        exact .point min max heq
      · rename_i hne
        cases h
        exact .continuous min max hbounds.1.1 hbounds.1.2 hbounds.2 hne

variable {asset attr : String} {range : AttributeRange} {l : Locus}

lemma asset_of_resolve (h : range.resolve asset attr = .ok (.searched l)) : l.asset = asset := by
  cases resolves_of_resolve h with
  | choice => rfl
  | stepped => rfl
  | continuous => rfl

lemma attr_of_resolve (h : range.resolve asset attr = .ok (.searched l)) :
    l.attr? = some attr := by
  cases resolves_of_resolve h with
  | choice => rfl
  | stepped => rfl
  | continuous => rfl

end AttributeRange

/-! ## Attributes -/

namespace AssetSpace

/-- The attributes of an asset are taken apart one after the other. -/
inductive LaidOut (asset : String) : List (String × AttributeRange) → AssetSpace → Prop
  | nil : LaidOut asset [] ⟨Dict.empty, []⟩
  | constant {attr : String} {range : AttributeRange} {value : AttributeValue}
    {rest : List (String × AttributeRange)} {later : AssetSpace}
    (hresolve : range.resolve asset attr = .ok (.constant value))
    (hrest : LaidOut asset rest later) :
    LaidOut asset ((attr, range) :: rest)
      { later with constants := later.constants.insert attr value }
  | searched {attr : String} {range : AttributeRange} {locus : Locus}
    {rest : List (String × AttributeRange)} {later : AssetSpace}
    (hresolve : range.resolve asset attr = .ok (.searched locus))
    (hrest : LaidOut asset rest later) :
    LaidOut asset ((attr, range) :: rest) { later with loci := locus :: later.loci }

variable {asset : String} {ranges : List (String × AttributeRange)} {space : AssetSpace}

lemma laidOut_of_ofAttributes {siteId : String}
    (h : ofAttributes siteId asset ranges = .ok space) : LaidOut asset ranges space := by
  induction ranges generalizing space with
  | nil =>
    cases h
    exact .nil
  | cons entry rest ih =>
    obtain ⟨attr, range⟩ := entry
    unfold ofAttributes at h
    split at h
    · cases h
    · rename_i value hresolve
      obtain ⟨later, hlater, heq⟩ := bind_eq_ok.mp h
      cases heq
      exact .constant hresolve (ih hlater)
    · rename_i locus hresolve
      obtain ⟨later, hlater, heq⟩ := bind_eq_ok.mp h
      cases heq
      exact .searched hresolve (ih hlater)

namespace LaidOut

/-- Every locus is what is left of a range. -/
lemma origin (h : LaidOut asset ranges space) :
    ∀ l ∈ space.loci, ∃ e ∈ ranges, e.2.resolve asset e.1 = .ok (.searched l) := by
  induction h with
  | nil => exact fun l hl => nomatch hl
  | constant _ _ ih =>
    intro l hl
    obtain ⟨e, he, hresolve⟩ := ih l hl
    exact ⟨e, List.mem_cons_of_mem _ he, hresolve⟩
  | searched hfirst _ ih =>
    intro l hl
    rcases List.mem_cons.mp hl with rfl | hl
    · exact ⟨_, List.mem_cons_self, hfirst⟩
    · obtain ⟨e, he, hresolve⟩ := ih l hl
      exact ⟨e, List.mem_cons_of_mem _ he, hresolve⟩

lemma asset_of_mem (h : LaidOut asset ranges space) : ∀ l ∈ space.loci, l.asset = asset := by
  intro l hl
  obtain ⟨e, -, hresolve⟩ := h.origin l hl
  exact AttributeRange.asset_of_resolve hresolve

/-- The locus of an attribute is what is left of its range. -/
lemma attr_of_mem (h : LaidOut asset ranges space) :
    ∀ l ∈ space.loci, ∃ attr ∈ ranges.map Prod.fst, l.attr? = some attr := by
  intro l hl
  obtain ⟨e, he, hresolve⟩ := h.origin l hl
  exact ⟨e.1, List.mem_map_of_mem he, AttributeRange.attr_of_resolve hresolve⟩

/-- Every range has its constant or its locus. -/
lemma settled (h : LaidOut asset ranges space)
    (hsorted : ranges.Pairwise fun a b => a.1 < b.1) :
    ∀ e ∈ ranges,
      (∃ v, e.2.resolve asset e.1 = .ok (.constant v) ∧ space.constants.get? e.1 = some v) ∨
      ∃ l ∈ space.loci, e.2.resolve asset e.1 = .ok (.searched l) := by
  induction h with
  | nil => exact fun e he => nomatch he
  | @constant attr range value rest later hfirst _ ih =>
    obtain ⟨hleast, hrest⟩ := List.pairwise_cons.mp hsorted
    intro e he
    rcases List.mem_cons.mp he with rfl | he
    · exact Or.inl ⟨value, hfirst, by rw [Dict.get?_insert, if_pos rfl]⟩
    · have hne : e.1 ≠ attr := fun heq => String.lt_irrefl attr (heq ▸ hleast e he)
      rw [Dict.get?_insert, if_neg hne]
      exact ih hrest e he
  | searched hfirst _ ih =>
    intro e he
    rcases List.mem_cons.mp he with rfl | he
    · exact Or.inr ⟨_, List.mem_cons_self, hfirst⟩
    · obtain hconstant | ⟨l, hl, hresolve⟩ := ih hsorted.of_cons e he
      · exact Or.inl hconstant
      · exact Or.inr ⟨l, List.mem_cons_of_mem _ hl, hresolve⟩

lemma get?_constants_of_not_mem (h : LaidOut asset ranges space) {attr : String}
    (hattr : attr ∉ ranges.map Prod.fst) : space.constants.get? attr = none := by
  induction h with
  | nil => rfl
  | constant _ _ ih =>
    obtain ⟨hne, hattr⟩ := not_or.mp (mt List.mem_cons.mpr hattr)
    rw [Dict.get?_insert, if_neg hne]
    exact ih hattr
  | searched _ _ ih => exact ih (mt (List.mem_cons_of_mem _) hattr)

/-- No two loci settle the same attribute. -/
lemma pairwise_attr (h : LaidOut asset ranges space)
    (hsorted : ranges.Pairwise fun a b => a.1 < b.1) :
    space.loci.Pairwise fun l l' => l.attr? ≠ l'.attr? := by
  induction h with
  | nil => exact .nil
  | constant _ _ ih => exact ih hsorted.of_cons
  | @searched attr range locus rest later hfirst hlater ih =>
    obtain ⟨hleast, hrest⟩ := List.pairwise_cons.mp hsorted
    refine .cons (fun l hl hsame => ?_) (ih hrest)
    obtain ⟨e, he, hresolve⟩ := hlater.origin l hl
    rw [AttributeRange.attr_of_resolve hfirst, AttributeRange.attr_of_resolve hresolve] at hsame
    have hlt := hleast e he
    rw [← Option.some.inj hsame] at hlt
    exact String.lt_irrefl _ hlt

end LaidOut

end AssetSpace

/-! ## Assets -/

/-- The locus of an asset that may be left out. -/
def AssetRange.presences (asset : String) (range : AssetRange) : List Locus :=
  if range.mandatory then [] else [.presence asset]

lemma AssetRange.mem_presences {asset : String} {range : AssetRange} {l : Locus} :
    l ∈ range.presences asset ↔ range.mandatory = false ∧ l = .presence asset := by
  unfold presences
  split
  · rename_i h
    exact iff_of_false List.not_mem_nil fun hl => Bool.noConfusion (h.symm.trans hl.1)
  · rename_i h
    rw [List.mem_singleton]
    exact (and_iff_right (Bool.eq_false_iff.mpr h)).symm

namespace SiteSpace

/-- The assets of a site follow one another. -/
inductive LaidOut (siteId bundleId : String) : List (String × AssetRange) → SiteSpace → Prop
  | nil : LaidOut siteId bundleId [] ⟨siteId, bundleId, [], Dict.empty⟩
  | cons {asset : String} {range : AssetRange} {own : AssetSpace}
    {rest : List (String × AssetRange)} {later : SiteSpace}
    (hown : AssetSpace.LaidOut asset range.attributes.entries own)
    (hrest : LaidOut siteId bundleId rest later) :
    LaidOut siteId bundleId ((asset, range) :: rest)
      { later with
        loci := range.presences asset ++ own.loci ++ later.loci
        constants := later.constants.insert asset own.constants }

variable {siteId bundleId : String} {ranges : List (String × AssetRange)} {space : SiteSpace}

lemma laidOut_of_ofAssets (h : ofAssets siteId bundleId ranges = .ok space) :
    LaidOut siteId bundleId ranges space := by
  induction ranges generalizing space with
  | nil =>
    cases h
    exact .nil
  | cons entry rest ih =>
    obtain ⟨asset, range⟩ := entry
    unfold ofAssets at h
    obtain ⟨own, hown, h⟩ := bind_eq_ok.mp h
    obtain ⟨later, hlater, heq⟩ := bind_eq_ok.mp h
    cases heq
    exact .cons (AssetSpace.laidOut_of_ofAttributes hown) (ih hlater)

lemma laidOut_of_ofSite {site : Site} (h : ofSite site = .ok space) :
    LaidOut site.siteId site.bundleId site.range.entries space :=
  laidOut_of_ofAssets h

namespace LaidOut

lemma siteId_eq (h : LaidOut siteId bundleId ranges space) : space.siteId = siteId := by
  induction h with
  | nil => rfl
  | cons _ _ ih => exact ih

lemma bundleId_eq (h : LaidOut siteId bundleId ranges space) : space.bundleId = bundleId := by
  induction h with
  | nil => rfl
  | cons _ _ ih => exact ih

/-- Every locus searches the presence of an asset that may be left out, or an attribute. -/
lemma origin (h : LaidOut siteId bundleId ranges space) :
    ∀ l ∈ space.loci, ∃ e ∈ ranges, (e.2.mandatory = false ∧ l = .presence e.1) ∨
      ∃ attr ∈ e.2.attributes.entries, attr.2.resolve e.1 attr.1 = .ok (.searched l) := by
  induction h with
  | nil => exact fun l hl => nomatch hl
  | cons hown _ ih =>
    intro l hl
    rcases List.mem_append.mp hl with hl | hl
    · refine ⟨_, List.mem_cons_self, ?_⟩
      rcases List.mem_append.mp hl with hl | hl
      · exact Or.inl (AssetRange.mem_presences.mp hl)
      · exact Or.inr (hown.origin l hl)
    · obtain ⟨e, he, horigin⟩ := ih l hl
      exact ⟨e, List.mem_cons_of_mem _ he, horigin⟩

lemma asset_of_mem (h : LaidOut siteId bundleId ranges space) :
    ∀ l ∈ space.loci, ∃ e ∈ ranges, l.asset = e.1 := by
  intro l hl
  obtain ⟨e, he, ⟨-, rfl⟩ | ⟨attr, -, hresolve⟩⟩ := h.origin l hl
  · exact ⟨e, he, rfl⟩
  · exact ⟨e, he, AttributeRange.asset_of_resolve hresolve⟩

end LaidOut

lemma asset_of_mem_own {asset : String} {range : AssetRange} {own : AssetSpace}
    (hown : AssetSpace.LaidOut asset range.attributes.entries own) :
    ∀ l ∈ range.presences asset ++ own.loci, l.asset = asset := by
  intro l hl
  rcases List.mem_append.mp hl with hl | hl
  · rw [(AssetRange.mem_presences.mp hl).2]
    rfl
  · exact hown.asset_of_mem l hl

namespace LaidOut

lemma asset_ne_of_mem (h : LaidOut siteId bundleId ranges space) {asset : String}
    (hasset : ∀ e ∈ ranges, asset < e.1) : ∀ l ∈ space.loci, l.asset ≠ asset := by
  intro l hl heq
  obtain ⟨e, he, hkey⟩ := h.asset_of_mem l hl
  have hlt := hasset e he
  rw [← hkey, heq] at hlt
  exact String.lt_irrefl _ hlt

/-- The loci and constants of an asset. -/
lemma own_of_mem (h : LaidOut siteId bundleId ranges space)
    (hsorted : ranges.Pairwise fun a b => a.1 < b.1) :
    ∀ e ∈ ranges, ∃ own, AssetSpace.LaidOut e.1 e.2.attributes.entries own ∧
      space.constants.get? e.1 = some own.constants ∧
      space.loci.filter (·.asset = e.1) = e.2.presences e.1 ++ own.loci := by
  induction h with
  | nil => exact fun e he => nomatch he
  | @cons asset range own rest later hown hlater ih =>
    obtain ⟨hleast, hrest⟩ := List.pairwise_cons.mp hsorted
    intro e he
    rw [List.filter_append]
    rcases List.mem_cons.mp he with rfl | he
    · refine ⟨own, hown, by rw [Dict.get?_insert, if_pos rfl], ?_⟩
      rw [List.filter_eq_self.mpr fun l hl => decide_eq_true (asset_of_mem_own hown l hl),
        List.filter_eq_nil_iff.mpr fun l hl hsame =>
          hlater.asset_ne_of_mem hleast l hl (of_decide_eq_true hsame), List.append_nil]
    · have hne : e.1 ≠ asset := fun heq => String.lt_irrefl asset (heq ▸ hleast e he)
      obtain ⟨own', hown', hconstants, hloci⟩ := ih hrest e he
      refine ⟨own', hown', by rw [Dict.get?_insert, if_neg hne, hconstants], ?_⟩
      rw [hloci, List.filter_eq_nil_iff.mpr fun l hl hsame =>
        hne ((of_decide_eq_true hsame).symm.trans (asset_of_mem_own hown l hl)), List.nil_append]

lemma get?_constants_of_not_mem (h : LaidOut siteId bundleId ranges space) {asset : String}
    (hasset : asset ∉ ranges.map Prod.fst) : space.constants.get? asset = none := by
  induction h with
  | nil => rfl
  | cons _ _ ih =>
    obtain ⟨hne, hasset⟩ := not_or.mp (mt List.mem_cons.mpr hasset)
    rw [Dict.get?_insert, if_neg hne]
    exact ih hasset

/-- No locus appears twice. -/
lemma nodup_loci (h : LaidOut siteId bundleId ranges space)
    (hsorted : ranges.Pairwise fun a b => a.1 < b.1) : space.loci.Nodup := by
  induction h with
  | nil => exact List.nodup_nil
  | @cons asset range own rest later hown hlater ih =>
    obtain ⟨hleast, hrest⟩ := List.pairwise_cons.mp hsorted
    have hpresences : (range.presences asset).Nodup := by
      unfold AssetRange.presences
      split
      · exact List.nodup_nil
      · exact List.nodup_singleton _
    have hloci : own.loci.Nodup := (hown.pairwise_attr range.attributes.sorted).imp
      fun hne heq => hne (congrArg Locus.attr? heq)
    refine List.nodup_append'.mpr ⟨List.nodup_append'.mpr ⟨hpresences, hloci, ?_⟩, ih hrest, ?_⟩
    · intro l hl hl'
      obtain ⟨attr, -, hattr⟩ := hown.attr_of_mem l hl'
      rw [(AssetRange.mem_presences.mp hl).2] at hattr
      cases hattr
    · exact fun l hl hl' =>
        hlater.asset_ne_of_mem hleast l hl' (asset_of_mem_own hown l hl)

end LaidOut

end SiteSpace

end Retrofit
