import Retrofit.Proofs.Space.Encoding

/-!
# Scenarios that are encoded

A scenario is encoded if its site id is right and every searched attribute of every asset that it
has of the range has a value that a position is found for (`SiteSpace.encode_accepts_iff`). Nothing
else of the scenario is looked at: not its bundle, not which assets it has, not the attributes that
have one legal value. What the chromosome stands for is a legal scenario in any case, which is the
encoded one only if that was legal. So a scenario outside the search space is either refused or
silently replaced.
-/

namespace Retrofit

open Number

/-! ## Whole numbers near the greatest exact one -/

lemma ofInt_next : ofInt (2 ^ 53 + 1) = ofInt (2 ^ 53) := by decide +kernel

/-- Up to the greatest one that is counted exactly, whole numbers are compared as doubles, except
that the next one is rounded down to it. -/
lemma units_ofInt_le_iff {n k : Nat} (hn : n ≤ 2 ^ 53) :
    units (ofInt k) ≤ units (ofInt n) ↔ k ≤ n ∨ n = 2 ^ 53 ∧ k = 2 ^ 53 + 1 := by
  have hmono : ∀ {a b : Nat}, (a : Int) * one ≤ b * one ↔ a ≤ b := by
    intro a b
    rw [← Int.natCast_mul, ← Int.natCast_mul, Int.ofNat_le]
    exact Nat.mul_le_mul_right_iff Number.one_pos
  rw [units_ofInt hn]
  rcases Nat.lt_trichotomy k (2 ^ 53 + 1) with hless | rfl | hmore
  · rw [units_ofInt (by omega), hmono]
    omega
  · have hnext : units (ofInt (2 ^ 53 + 1 : Nat)) = (2 ^ 53 : Nat) * one := by
      rw [← units_ofInt (Nat.le_refl (2 ^ 53))]
      exact congrArg units ofInt_next
    rw [hnext, hmono]
    omega
  · have hbig : units 9007199254740994.0 = (2 ^ 53 + 2 : Nat) * one := by decide +kernel
    have hle : (2 ^ 53 + 2) * one ≤ k * one := Nat.mul_le_mul_right one hmore
    have habove := (faithful_ofInt k).above 9007199254740994.0 (by decide +kernel)
      (by rw [hbig, ← Int.natCast_mul]; exact Int.ofNat_le.mpr hle)
    rw [hbig] at habove
    have hgreater : ¬ (2 ^ 53 + 2 : Nat) * (one : Int) ≤ n * one := mt hmono.mp (by omega)
    exact iff_of_false (by omega) (by omega)

namespace Gene

/-- Whether clipping to the first whole numbers keeps a whole number. -/
lemma clip_ofInt_beq_iff {n : Nat} (hn : n ≤ 2 ^ 53) (q : Int) :
    (integer 0 n).clip (ofInt q) == ofInt q ↔
      0 ≤ q ∧ (q ≤ n ∨ n = 2 ^ 53 ∧ q = 2 ^ 53 + 1) := by
  have hnumber := isNumber_ofInt q
  obtain ⟨hclip, hunits⟩ := clip_of_isNumber (n := n) hnumber
  rw [beq_iff_units hclip hnumber]
  rcases Int.lt_or_le q 0 with hneg | hnonneg
  · refine iff_of_false (fun hkept => ?_) (by omega)
    obtain ⟨k, rfl⟩ := Int.eq_negSucc_of_lt_zero hneg
    have hvalue : units (ofInt (Int.negSucc k)) = -units (ofInt (k + 1 : Nat)) := units_neg _
    have hone := one_le_units_ofInt (Nat.succ_pos k)
    have hpos := Number.one_pos
    have hupper := (faithful_ofInt n).above 0.0 isNumber_zero (by rw [units_zero]; omega)
    rw [Nat.succ_eq_add_one] at hone
    rw [units_zero] at hupper
    omega
  · obtain ⟨k, rfl⟩ := Int.eq_ofNat_of_zero_le hnonneg
    have hiff := units_ofInt_le_iff (k := k) hn
    constructor
    · intro hkept
      have hcases := hiff.mp (by omega)
      omega
    · rintro ⟨-, hcases⟩
      exact units_clip_ofInt (hiff.mpr (by omega))

/-- Whether clipping keeps a number is whether it is between the bounds. -/
lemma clip_continuous_beq_iff {lower upper : Float} (hlower : lower.isFinite)
    (hupper : upper.isFinite) (horder : ¬ upper < lower) {x : Float} :
    (continuous lower upper).clip x == x ↔ lower ≤ x ∧ x ≤ upper := by
  constructor
  · intro hkept
    obtain ⟨hclip, hx⟩ := isNumber_of_beq hkept
    have hsame := (beq_iff_units hclip hx).mp hkept
    obtain ⟨hlow, hhigh⟩ := within_clip_continuous hlower hupper horder hx
    have hl := isNumber_of_isFinite hlower
    have hu := isNumber_of_isFinite hupper
    rw [le_iff_units hl hclip, hsame] at hlow
    rw [le_iff_units hclip hu, hsame] at hhigh
    exact ⟨(le_iff_units hl hx).mpr hlow, (le_iff_units hx hu).mpr hhigh⟩
  · intro hwithin
    have hx := (isNumber_of_le hwithin.1).2
    rw [clip_continuous_of_within hwithin]
    exact (beq_iff_units hx hx).mpr rfl

end Gene

/-! ## Values that have a position -/

namespace AttributeRange

/-- A range that is searched: it has more than one place. -/
def Varies : AttributeRange → Prop
  | fixed _ => False
  | choices values => 2 ≤ values.length
  | stepped min max step => min + step ≤ max
  | continuous min max => ¬ min == max

/-- The values of a searched range that a position is found for: the legal ones, whole numbers
between the bounds of a continuous range, and the number one step beyond the last one that a double
counts exactly. -/
inductive Readable : AttributeRange → AttributeValue → Prop
  | legal {range : AttributeRange} {v : AttributeValue} (h : range.Legal v) : Readable range v
  | whole {min max : Float} {n : Int} (hlow : min ≤ ofInt n) (hhigh : ofInt n ≤ max) :
    Readable (continuous min max) (.int n)
  | next {min max step : Int} (h : (max - min) / step = 2 ^ 53) :
    Readable (stepped min max step) (.int (min + (2 ^ 53 + 1) * step))

variable {asset attr : String} {range : AttributeRange} {l : Locus}

lemma varies_of_resolve (h : range.resolve asset attr = .ok (.searched l)) : range.Varies := by
  cases resolves_of_resolve h with
  | choice values hlength => exact hlength
  | stepped min max step last hstep hpos hlast hspan hlow hhigh =>
    have hmul : 1 * step ≤ last * step := Int.mul_le_mul_of_nonneg_right (by omega) (by omega)
    change min + step ≤ max
    omega
  | continuous min max hmin hmax horder hne => exact hne

lemma not_varies_of_resolve {v : AttributeValue}
    (h : range.resolve asset attr = .ok (.constant v)) : ¬ range.Varies := by
  cases resolves_of_resolve h with
  | fixed => exact id
  | only v => exact Nat.not_succ_le_self 1
  | still min max step horder hstep => exact Int.not_le.mpr hstep
  | point min max heq => exact not_not_intro heq

end AttributeRange

namespace Locus

lemma keep?_eq_some_iff {l : Locus} {x : Float} :
    (∃ y, l.keep? x = some y) ↔ l.gene.clip x == x := by
  unfold keep?
  split
  · rename_i h
    exact iff_of_true ⟨x, rfl⟩ h
  · rename_i h
    exact iff_of_false (fun ⟨_, hy⟩ => nomatch hy) h

lemma keep?_continuous_iff {asset attr : String} {min max x : Float} (hmin : min.isFinite)
    (hmax : max.isFinite) (horder : ¬ max < min) :
    (∃ y, (continuous asset attr min max).keep? x = some y) ↔ min ≤ x ∧ x ≤ max :=
  keep?_eq_some_iff.trans (Gene.clip_continuous_beq_iff hmin hmax horder)

/-- The last place of a stepped range is the number of steps that fit between its bounds. -/
lemma ediv_eq_last {min max step last : Int} (hstep : 0 < step) (hlow : min + last * step ≤ max)
    (hhigh : max < min + (last + 1) * step) : (max - min) / step = last := by
  have hatLeast := Int.le_ediv_of_mul_le hstep (by omega : last * step ≤ max - min)
  have hbelow := Int.ediv_lt_of_lt_mul hstep (by omega : max - min < (last + 1) * step)
  omega

/-- The counts up to the last place lead to the legal values. -/
lemma le_last_iff {min max step last : Int} (hstep : 0 < step) (hlow : min + last * step ≤ max)
    (hhigh : max < min + (last + 1) * step) {k : Nat} : k ≤ last ↔ min + k * step ≤ max := by
  constructor
  · intro hle
    have hmul : (k : Int) * step ≤ last * step := Int.mul_le_mul_of_nonneg_right hle (by omega)
    omega
  · intro hle
    have hbelow : (k : Int) * step < (last + 1) * step := by omega
    have hk := Int.lt_of_mul_lt_mul_right hbelow (by omega)
    omega

lemma eq_of_keep? {l : Locus} {x y : Float} (h : l.keep? x = some y) :
    y = x ∧ l.gene.clip x == x := by
  unfold keep? at h
  split at h
  · rename_i hkept
    exact ⟨(Option.some.inj h).symm, hkept⟩
  · cases h

/-- A whole number has a position exactly if it is reached by a count of steps that the range has,
or by the one count that is rounded down to the last. Its position is that count. -/
theorem positionIn_stepped_iff {asset attr : String} {min step last v : Int} {config : AssetConfig}
    {y : Float} (hl : (stepped asset attr min step last).Exact)
    (hv : config.get? attr = some (.int v)) :
    (stepped asset attr min step last).positionIn config = some y ↔
      ∃ k : Nat, v = min + k * step ∧ (k ≤ last ∨ last = 2 ^ 53 ∧ k = 2 ^ 53 + 1) ∧
        y = ofInt k := by
  obtain ⟨hstep, hpos, hlast, hspan, -⟩ := hl
  have hgene := gene_stepped asset attr min step hpos
  unfold positionIn
  dsimp only
  rw [hv]
  dsimp only
  constructor
  · intro h
    split at h
    · cases h
    · split at h
      · cases h
      · rename_i hdivides
        have hoffset : (v - min).tdiv step * step = v - min :=
          Int.tdiv_mul_cancel (Int.dvd_of_tmod_eq_zero (not_not.mp hdivides))
        obtain ⟨rfl, hkept⟩ := eq_of_keep? h
        generalize (v - min).tdiv step = q at hoffset hkept
        rw [hgene, Gene.clip_ofInt_beq_iff (by omega)] at hkept
        obtain ⟨hnonneg, hcount⟩ := hkept
        obtain ⟨k, rfl⟩ := Int.eq_ofNat_of_zero_le hnonneg
        exact ⟨k, by omega, by omega, rfl⟩
  · rintro ⟨k, rfl, hcount, rfl⟩
    have hoffset : min + k * step - min = k * step := by omega
    have hnonneg : 0 ≤ (k : Int) * step := Int.mul_nonneg (by omega) (by omega)
    -- with as many steps as are counted exactly a step is so short that one more stays a word
    have hword : k * step ≤ 9223372036854775807 := by
      obtain hle | ⟨rfl, rfl⟩ := hcount
      · have hmul : (k : Int) * step ≤ last * step :=
          Int.mul_le_mul_of_nonneg_right hle (by omega)
        omega
      · omega
    rw [hoffset, if_neg (by omega), if_neg (fun hrest => hrest (Int.mul_tmod_left _ _)),
      Int.mul_tdiv_cancel _ (by omega)]
    refine keep?_of_beq ?_
    rw [hgene, Gene.clip_ofInt_beq_iff (by omega)]
    omega

lemma readable_of_positionIn_stepped {asset attr : String} {min max step last : Int}
    (hl : (stepped asset attr min step last).Exact) (hlow : min + last * step ≤ max)
    (hhigh : max < min + (last + 1) * step) {n : Int} {y : Float} {config : AssetConfig}
    (hv : config.get? attr = some (.int n))
    (h : (stepped asset attr min step last).positionIn config = some y) :
    (AttributeRange.stepped min max step).Readable (.int n) := by
  obtain ⟨k, rfl, hle | ⟨htop, rfl⟩, -⟩ := (positionIn_stepped_iff hl hv).mp h
  · exact .legal (.step k ((le_last_iff hl.1 hlow hhigh).mp hle))
  · exact .next ((ediv_eq_last hl.1 hlow hhigh).trans htop)

lemma readable_of_positionIn {asset attr : String} {range : AttributeRange} {l : Locus}
    (hfits : range.Fits) (h : range.resolve asset attr = .ok (.searched l)) {config : AssetConfig}
    {y : Float} (hy : l.positionIn config = some y) :
    ∃ v, config.get? attr = some v ∧ range.Readable v := by
  have hl := exact_of_resolve hfits h
  cases AttributeRange.resolves_of_resolve h with
  | choice values hlength =>
    obtain ⟨v, hv, hplace⟩ := Option.bind_eq_some_iff.mp hy
    obtain ⟨place, hplace, -⟩ := Option.bind_eq_some_iff.mp hplace
    obtain ⟨hlt, hvalue, -⟩ := List.idxOf?_eq_some_iff.mp hplace
    exact ⟨v, hv, .legal (.choice (hvalue ▸ List.getElem_mem hlt))⟩
  | stepped min max step last hstep hpos hlast hspan hlow hhigh =>
    have hint : ∃ n, config.get? attr = some (.int n) := by
      unfold positionIn at hy
      dsimp only at hy
      split at hy
      · rename_i n hv
        exact ⟨n, hv⟩
      · cases hy
    obtain ⟨n, hv⟩ := hint
    exact ⟨_, hv, readable_of_positionIn_stepped hl hlow hhigh hv hy⟩
  | continuous min max hmin hmax horder hne =>
    have hwidth : min < max := by
      have hmin := isNumber_of_isFinite hmin
      have hmax := isNumber_of_isFinite hmax
      have hle := mt (lt_iff_units hmax hmin).mpr horder
      have hdiffer := mt (beq_iff_units hmin hmax).mpr hne
      exact (lt_iff_units hmin hmax).mpr (by omega)
    unfold positionIn at hy
    dsimp only at hy
    split at hy
    · rename_i x hv
      obtain ⟨hlow, hhigh⟩ := (keep?_continuous_iff hmin hmax horder).mp ⟨y, hy⟩
      exact ⟨_, hv, .legal (.between hwidth hlow hhigh)⟩
    · rename_i n hv
      obtain ⟨hlow, hhigh⟩ := (keep?_continuous_iff hmin hmax horder).mp ⟨y, hy⟩
      exact ⟨_, hv, .whole hlow hhigh⟩
    · cases hy

lemma exists_positionIn_of_readable {asset attr : String} {range : AttributeRange} {l : Locus}
    (hfits : range.Fits) (h : range.resolve asset attr = .ok (.searched l)) {config : AssetConfig}
    {v : AttributeValue} (hv : config.get? attr = some v) (hreadable : range.Readable v) :
    ∃ y, l.positionIn config = some y := by
  cases hreadable with
  | legal hlegal =>
    obtain ⟨y, hy⟩ := exists_places (exact_of_resolve hfits h) (AttributeRange.attr_of_resolve h)
      hv ((legal_iff_of_resolve_searched h).mp hlegal)
    exact ⟨y, hy.position⟩
  | whole hlow hhigh =>
    cases AttributeRange.resolves_of_resolve h with
    | continuous min max hmin hmax horder hne =>
      unfold positionIn
      dsimp only
      rw [hv]
      exact (keep?_continuous_iff hmin hmax horder).mpr ⟨hlow, hhigh⟩
  | @next min max step htop =>
    cases AttributeRange.resolves_of_resolve h with
    | stepped _ _ _ last hstep hpos hlast hspan hlow hhigh =>
      have hlast := (ediv_eq_last hstep hlow hhigh).symm.trans htop
      exact ⟨_, (positionIn_stepped_iff (exact_of_resolve hfits h) hv).mpr
        ⟨2 ^ 53 + 1, rfl, .inr ⟨hlast, rfl⟩, rfl⟩⟩

/-- An attribute that is searched has a position wherever its asset is absent, and else if its value
has one. -/
theorem exists_position_iff {asset attr : String} {range : AttributeRange} {l : Locus}
    (hfits : range.Fits) (h : range.resolve asset attr = .ok (.searched l))
    (assets : Dict AssetConfig) :
    (∃ y, l.position assets = some y) ↔ ∀ config, assets.get? asset = some config →
      ∃ v, config.get? attr = some v ∧ range.Readable v := by
  have hname := AttributeRange.attr_of_resolve h
  unfold position
  rw [AttributeRange.asset_of_resolve h]
  cases hfound : assets.get? asset with
  | none =>
    refine iff_of_true ⟨l.gene.lower, ?_⟩ nofun
    cases l with
    | presence asset => cases hname
    | _ => rfl
  | some config =>
    constructor
    · rintro ⟨y, hy⟩ _ ⟨⟩
      exact readable_of_positionIn hfits h hy
    · intro hconfig
      obtain ⟨v, hv, hreadable⟩ := hconfig config rfl
      exact exists_positionIn_of_readable hfits h hv hreadable

lemma exists_position_presence (asset : String) (assets : Dict AssetConfig) :
    ∃ y, (presence asset).position assets = some y := by
  obtain ⟨y, hy⟩ := exists_encodes_presence assets asset
  exact ⟨y, hy.position⟩

/-! ## Values of warm starts -/

section

variable {l : Locus} {x : Float}

/-- The values that a locus may have for a known scenario. -/
inductive Positioned : Locus → Float → Prop
  | absent (asset : String) : Positioned (presence asset) 0.0
  | present (asset : String) : Positioned (presence asset) 1.0
  | place {asset attr : String} {values : List AttributeValue} {k : Nat} (h : k < values.length) :
    Positioned (choice asset attr values) (ofInt k)
  | kept {l : Locus} {x : Float} (h : l.gene.clip x == x) : Positioned l x
  | hidden (l : Locus) : Positioned l l.gene.lower

lemma positioned_of_keep? {value : Float} (h : l.keep? value = some x) : l.Positioned x := by
  obtain ⟨rfl, hkept⟩ := eq_of_keep? h
  exact .kept hkept

lemma positioned_of_positionIn {config : AssetConfig} (h : l.positionIn config = some x) :
    l.Positioned x := by
  cases l with
  | presence asset =>
    cases h
    exact .present asset
  | choice asset attr values =>
    obtain ⟨value, -, h⟩ := Option.bind_eq_some_iff.mp h
    obtain ⟨place, hplace, h⟩ := Option.bind_eq_some_iff.mp h
    cases h
    exact .place (List.idxOf?_eq_some_iff.mp hplace).1
  | stepped asset attr min step last =>
    unfold positionIn at h
    dsimp only at h
    split at h
    · split at h
      · cases h
      · split at h
        · cases h
        · exact positioned_of_keep? h
    · cases h
  | continuous asset attr min max =>
    unfold positionIn at h
    dsimp only at h
    split at h
    · exact positioned_of_keep? h
    · exact positioned_of_keep? h
    · cases h

theorem positioned_of_position {assets : Dict AssetConfig} (h : l.position assets = some x) :
    l.Positioned x := by
  unfold position at h
  split at h
  · exact positioned_of_positionIn h
  · split at h
    · cases h
      exact .absent _
    · cases h
      exact .hidden l

theorem isNumber_of_position (hl : l.Exact) {assets : Dict AssetConfig}
    (h : l.position assets = some x) : IsNumber x := by
  cases positioned_of_position h with
  | absent asset => exact isNumber_zero
  | present asset => exact isNumber_one
  | place => exact isNumber_ofInt _
  | kept hkept => exact (isNumber_of_beq hkept).2
  | hidden => exact Gene.isNumber_of_within (within_lower hl)

end

end Locus

/-! ## Scenarios -/

/-- The only legal value of an attribute that is not searched. -/
def AttributeRange.constant? (asset attr : String) (range : AttributeRange) :
    Option AttributeValue :=
  match range.resolve asset attr with
  | .ok (.constant v) => some v
  | _ => none

/-- The shape of a scenario of the site: its bundle, all assets that are not optional and none but
those of the range, each with the attributes of its range, and with the constants among them. -/
structure Site.Shaped (site : Site) (s : Scenario) : Prop where
  bundleId : s.bundleId = site.bundleId
  mandatory : ∀ e ∈ site.range.entries, e.2.mandatory → s.assets.contains e.1
  known : ∀ e ∈ s.assets.entries, site.range.contains e.1
  attributes : ∀ e ∈ s.assets.entries, ∀ range ∈ site.range.get? e.1,
    (∀ attr ∈ range.attributes.entries, e.2.contains attr.1) ∧
      ∀ attr ∈ e.2.entries, range.attributes.contains attr.1
  constants : ∀ e ∈ s.assets.entries, ∀ range ∈ site.range.get? e.1,
    ∀ attr ∈ range.attributes.entries, ∀ v ∈ attr.2.constant? e.1 attr.1,
      e.2.get? attr.1 = some v

instance (site : Site) (s : Scenario) : Decidable (site.Shaped s) :=
  decidable_of_iff (_ ∧ _ ∧ _ ∧ _ ∧ _)
    ⟨fun ⟨hbundle, hmandatory, hknown, hattributes, hconstants⟩ =>
      ⟨hbundle, hmandatory, hknown, hattributes, hconstants⟩,
      fun h => ⟨h.bundleId, h.mandatory, h.known, h.attributes, h.constants⟩⟩

/-- The scenario has a value that is read for every searched attribute of the assets that it has of
the range. -/
def Site.Readable (site : Site) (s : Scenario) : Prop :=
  ∀ asset range config, site.range.get? asset = some range → s.assets.get? asset = some config →
    ∀ attr one, range.attributes.get? attr = some one → one.Varies →
      ∃ v, config.get? attr = some v ∧ one.Readable v

namespace SiteSpace

variable {site : Site} {space : SiteSpace}

lemma contains_iff {α : Type} {d : Dict α} {k : String} :
    d.contains k ↔ ∃ v, d.get? k = some v :=
  Option.isSome_iff_exists

/-- A legal scenario has the shape of the site. -/
lemma shaped_of_legal {s : Scenario} (hs : site.Legal s) : site.Shaped s := by
  refine ⟨hs.bundleId, fun e he hmandatory => ?_, fun e he => ?_, fun e he range hrange => ?_,
    fun e he range hrange attr hattr w hw => ?_⟩
  · exact contains_iff.mpr (hs.mandatory e.1 e.2 (Dict.get?_eq_some_iff.mpr he) hmandatory)
  · rw [contains_iff, ← Option.ne_none_iff_exists']
    intro hnone
    have habsent := hs.known e.1 hnone
    rw [Dict.get?_eq_some_iff.mpr he] at habsent
    cases habsent
  · have hlegal := hs.legal e.1 range e.2 hrange (Dict.get?_eq_some_iff.mpr he)
    refine ⟨fun attr hattr => ?_, fun attr hattr => ?_⟩
    · have hrel := hlegal attr.1
      rw [Dict.get?_eq_some_iff.mpr hattr] at hrel
      obtain ⟨v, hv, -⟩ := Dict.exists_of_rel_some hrel
      exact contains_iff.mpr ⟨v, hv⟩
    · have hrel := hlegal attr.1
      rw [Dict.get?_eq_some_iff.mpr hattr] at hrel
      generalize hfound : range.attributes.get? attr.1 = found at hrel
      cases hrel with
      | some => exact contains_iff.mpr ⟨_, hfound⟩
  · have hrel := hs.legal e.1 range e.2 hrange (Dict.get?_eq_some_iff.mpr he) attr.1
    rw [Dict.get?_eq_some_iff.mpr hattr] at hrel
    obtain ⟨v, hv, hlegal⟩ := Dict.exists_of_rel_some hrel
    unfold AttributeRange.constant? at hw
    split at hw
    · rename_i hresolve
      cases hw
      rw [hv, (legal_iff_of_resolve_constant hresolve).mp hlegal]
    · cases hw

/-- Every searched attribute has its locus. -/
lemma exists_locus (h : ofSite site = .ok space) {e : String × AssetRange}
    (he : e ∈ site.range.entries) {attr : String × AttributeRange}
    (hattr : attr ∈ e.2.attributes.entries) (hvaries : attr.2.Varies) :
    ∃ l ∈ space.loci, attr.2.resolve e.1 attr.1 = .ok (.searched l) := by
  obtain ⟨own, hown, -, hloci⟩ := (laidOut_of_ofSite h).own_of_mem site.range.sorted e he
  obtain ⟨v, hconstant, -⟩ | ⟨l, hl, hresolve⟩ := hown.settled e.2.attributes.sorted attr hattr
  · exact absurd hvaries (AttributeRange.not_varies_of_resolve hconstant)
  · refine ⟨l, ?_, hresolve⟩
    have hmem : l ∈ space.loci.filter (·.asset = e.1) := hloci ▸ List.mem_append_right _ hl
    exact List.mem_of_mem_filter hmem

lemma forall_exists_position_iff (h : ofSite site = .ok space) (hfits : site.Fits) (s : Scenario) :
    (∀ l ∈ space.loci, ∃ y, l.position s.assets = some y) ↔ site.Readable s := by
  constructor
  · intro hall asset range config hrange hconfig attr one hone hvaries
    have he := Dict.get?_eq_some_iff.mp hrange
    have hattr := Dict.get?_eq_some_iff.mp hone
    obtain ⟨l, hl, hresolve⟩ := exists_locus h he hattr hvaries
    have hfit := hfits _ he _ hattr
    exact (Locus.exists_position_iff hfit hresolve s.assets).mp (hall l hl) config hconfig
  · intro hreads l hl
    obtain ⟨e, he, ⟨-, rfl⟩ | ⟨attr, hattr, hresolve⟩⟩ := (laidOut_of_ofSite h).origin l hl
    · exact Locus.exists_position_presence e.1 s.assets
    · rw [Locus.exists_position_iff (hfits e he attr hattr) hresolve]
      intro config hconfig
      exact hreads e.1 e.2 config (Dict.get?_eq_some_iff.mpr he) hconfig attr.1 attr.2
        (Dict.get?_eq_some_iff.mpr hattr) (AttributeRange.varies_of_resolve hresolve)

lemma exists_encode_iff (h : ofSite site = .ok space) (hfits : site.Fits) (s : Scenario) :
    (∃ c, space.encode s = some c) ↔ s.siteId = site.siteId ∧ site.Readable s := by
  rw [← forall_exists_position_iff h hfits, ← (laidOut_of_ofSite h).siteId_eq]
  unfold encode
  split
  · rename_i hid
    rw [and_iff_right hid]
    constructor
    · rintro ⟨c, hc⟩ l hl
      obtain ⟨y, -, hy⟩ := exists_of_mem_left (mapM_eq_some.mp hc) hl
      exact ⟨y, hy⟩
    · intro hall
      obtain ⟨c, hc⟩ := exists_forall₂_of_forall hall
      exact ⟨c, mapM_eq_some.mpr hc⟩
  · rename_i hid
    exact iff_of_false (fun ⟨_, hc⟩ => nomatch hc) fun hs => hid hs.1

/-- Every locus has its position in an encoded scenario. -/
lemma positions_of_encode {s : Scenario} {c : Chromosome}
    (hc : space.encode s = some c) :
    List.Forall₂ (fun l x => l.position s.assets = some x) space.loci c := by
  unfold encode at hc
  split at hc
  · exact mapM_eq_some.mp hc
  · cases hc

lemma isNumber_of_encode (h : ofSite site = .ok space) (hfits : site.Fits) {s : Scenario}
    {c : Chromosome} (hc : space.encode s = some c) : ∀ x ∈ c, IsNumber x := by
  intro x hx
  obtain ⟨l, hl, hposition⟩ := exists_of_mem_right (positions_of_encode hc) hx
  exact Locus.isNumber_of_position (exact_of_ofSite h hfits l hl) hposition

lemma legal_decode_of_encode (h : ofSite site = .ok space) (hfits : site.Fits) {s : Scenario}
    {c : Chromosome} (hc : space.encode s = some c) : site.Legal (space.decode c) :=
  legal_decode h hfits (positions_of_encode hc).length_eq.symm (isNumber_of_encode h hfits hc)

/-- A scenario is encoded exactly if its site id is right and its searched attributes are read. The
chromosome stands for a legal scenario, and for the encoded one only if that is legal. A scenario
that does not have the shape of the site comes back as another one. -/
theorem encode_accepts_iff (h : ofSite site = .ok space) (hfits : site.Fits) (s : Scenario) :
    ((∃ c, space.encode s = some c) ↔ s.siteId = site.siteId ∧ site.Readable s) ∧
      ∀ c, space.encode s = some c → site.Legal (space.decode c) ∧
        (space.decode c = s ↔ site.Legal s) ∧ (¬ site.Shaped s → space.decode c ≠ s) := by
  refine ⟨exists_encode_iff h hfits s, fun c hc => ?_⟩
  have hlegal := legal_decode_of_encode h hfits hc
  have hback : space.decode c = s ↔ site.Legal s := by
    constructor
    · rintro rfl
      exact hlegal
    · intro hs
      obtain ⟨c', hencode, -, hdecode⟩ := exists_encode h hfits hs
      rw [hc] at hencode
      exact Option.some.inj hencode ▸ hdecode
  exact ⟨hlegal, hback, fun hshape heq => hshape (shaped_of_legal (hback.mp heq))⟩

/-- A harbour scenario of a bundle. -/
def moored (bundleId : String) (assets : List (String × AssetConfig)) : Scenario :=
  ⟨"harbour", bundleId, Dict.ofList assets⟩

/-- A crane with its reach and other attributes. -/
def crane (attrs : List (String × AttributeValue)) : String × AssetConfig :=
  ("crane", Dict.ofList (("reach", .int 20) :: attrs))

theorem encode_accepts_iff_harbour :
    harbour.Fits ∧ ∃ space, ofSite harbour = .ok space ∧
      let s := moored "elsewhere" [crane [("drive", .text "electric")]]
      ((∃ c, space.encode s = some c) ↔ s.siteId = harbour.siteId ∧ harbour.Readable s) ∧
        ∀ c, space.encode s = some c → harbour.Legal (space.decode c) ∧
          (space.decode c = s ↔ harbour.Legal s) ∧ (¬ harbour.Shaped s → space.decode c ≠ s) := by
  have hfits : harbour.Fits := by decide +kernel
  obtain ⟨space, h⟩ := eq_ok_of_isOk (by decide +kernel : (ofSite harbour).isOk)
  exact ⟨hfits, space, h, encode_accepts_iff h hfits _⟩

/-- Scenarios of another bundle, without the crane, with a lighthouse, with a crane that has a
colour, and with a crane that is driven by steam. -/
def foreignHarbours : List Scenario :=
  [moored "elsewhere" [crane [("drive", .text "electric")]],
    moored "harbour" [],
    moored "harbour" [crane [("drive", .text "electric")], ("lighthouse", .empty)],
    moored "harbour" [crane [("drive", .text "electric"), ("colour", .text "red")]],
    moored "harbour" [crane [("drive", .text "steam")]]]

/-- They are all encoded, though none has the shape of the site. -/
theorem foreign_harbours_encoded :
    foreignHarbours.Forall fun s =>
      ((ofSite harbour).toOption.bind (·.encode s)).isSome ∧ ¬ harbour.Shaped s := by
  decide +kernel

end SiteSpace

end Retrofit
