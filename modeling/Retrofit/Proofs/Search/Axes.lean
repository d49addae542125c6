import Retrofit.Proofs.Search.Confined

/-!
# Values of grid axes

The axis of a gene starts with the lower bound, rises, and ends with the upper bound
(`Grid.Axis.Spaced`). The places between are found with rounded steps, so they lie within the bounds
(`Grid.Axis.Inside`) as long as the steps are normal and not too many. All this is lost where the
bounds are further apart than a double can tell: the step is infinite, the first value undefined,
and the others but the last are infinite. A grid has legal scenarios for all of its points exactly
if no gene that is divided is so wide (`Grid.axes_stay_in_genes`).
-/

namespace Retrofit

open Number Retrofit.Random

/-! ## Wide genes -/

namespace Gene

variable {g : Gene} {x : Float}

/-- The greatest value. -/
def upper : Gene → Float
  | integer _ upper => ofInt upper
  | continuous _ upper => upper

/-- A gene whose bounds are finite but further apart than a double can tell. -/
def Wide : Gene → Prop
  | integer _ _ => False
  | continuous lower upper =>
    lower.isFinite ∧ upper.isFinite ∧ ¬ upper < lower ∧ ¬ (upper - lower).isFinite

instance : DecidablePred Wide := fun g =>
  match g with
  | integer _ _ => isFalse id
  | continuous lower upper =>
    inferInstanceAs (Decidable (lower.isFinite ∧ upper.isFinite ∧ ¬ upper < lower ∧
      ¬ (upper - lower).isFinite))

/-- The axis of the gene is divided into steps, which are infinite. -/
def Overflows (steps : Nat) (g : Gene) : Prop := g.Wide ∧ 2 ≤ steps

/-- The steps of the axis are normal, and not too many for the errors of rounding. -/
def Divides (steps : Nat) : Gene → Prop
  | integer _ _ => True
  | continuous lower upper =>
    steps ≤ 2 ^ 51 + 1 ∧ leastNormal ≤ (upper - lower) / ofInt (steps - 1 : Nat)

lemma within_iff : g.Within x ↔ g.lower ≤ x ∧ x ≤ g.upper := by
  cases g <;> rfl

lemma not_wide_of_regular (hg : g.Regular) : ¬ g.Wide := by
  cases hg with
  | integer n hn => exact id
  | continuous hspans => exact fun hwide => hwide.2.2.2 hspans.2.2.2

lemma spans_of_regular (hg : g.Regular) : g.Spans := by
  cases hg with
  | integer n hn => trivial
  | continuous hspans => exact hspans

end Gene

lemma Locus.regular_or_wide {l : Locus} (hl : l.Exact) : l.gene.Regular ∨ l.gene.Wide := by
  by_cases hspans : l.gene.Spans
  · exact Or.inl (regular_gene hl hspans)
  · cases l with
    | continuous asset attr min max =>
      obtain ⟨hmin, hmax, horder⟩ := hl
      exact Or.inr ⟨hmin, hmax, horder, fun hfinite => hspans ⟨hmin, hmax, horder, hfinite⟩⟩
    | presence | choice | stepped => exact absurd trivial hspans

/-! ## Values -/

namespace Grid.Axis

/-- The values start with the lower bound, are not below it and do not fall, and end with the upper
bound. -/
structure Spaced (axis : Axis) : Prop where
  first : axis.value 0 == axis.gene.lower
  last : 2 ≤ axis.size → axis.value (axis.size - 1) = axis.gene.upper
  above : ∀ k < axis.size, axis.gene.lower ≤ axis.value k
  rising : ∀ j k, j ≤ k → k + 1 < axis.size → axis.value j ≤ axis.value k

/-- The values are within the bounds and do not fall, up to the last one. -/
structure Inside (axis : Axis) : Prop where
  within : ∀ k < axis.size, axis.gene.Within (axis.value k)
  rising : ∀ j k, j ≤ k → k < axis.size → axis.value j ≤ axis.value k

variable {axis : Axis} {steps n k : Nat} {lower upper : Float}

/-- If no value is above the upper bound, the last one is in order as well. -/
lemma Spaced.inside (h : axis.Spaced) (hle : ∀ k < axis.size, axis.value k ≤ axis.gene.upper) :
    axis.Inside := by
  refine ⟨fun k hk => Gene.within_iff.mpr ⟨h.above k hk, hle k hk⟩, fun j k hjk hk => ?_⟩
  rcases Nat.lt_or_ge (k + 1) axis.size with hnext | hlast
  · exact h.rising j k hjk hnext
  · rcases Nat.eq_or_lt_of_le hjk with rfl | hlt
    · have hnumber := (isNumber_of_le (hle j hk)).1
      exact (le_iff_units hnumber hnumber).mpr (Int.le_refl _)
    · have hk : k = axis.size - 1 := by omega
      rw [hk, h.last (by omega)]
      exact hle j (by omega)

/-! ### Whole genes -/

lemma isNumber_value_integer (steps : Nat) (lower upper : Int) (k : Nat) :
    IsNumber ((ofGene steps (.integer lower upper)).value k) := isNumber_ofInt (lower + k)

lemma value_integer (steps n k : Nat) : (ofGene steps (.integer 0 n)).value k = ofInt k :=
  congrArg ofInt (Int.zero_add k)

lemma size_integer (steps n : Nat) : (ofGene steps (.integer 0 n)).size = n + 1 := by
  change ((n : Int) - 0 + 1).toNat = n + 1
  omega

/-- The values of a whole gene are its whole numbers. -/
lemma spaced_integer (steps n : Nat) : (ofGene steps (.integer 0 n)).Spaced where
  first := by
    rw [value_integer]
    exact (beq_iff_units (isNumber_ofInt 0) (isNumber_ofInt 0)).mpr rfl
  last _ := by
    rw [value_integer, size_integer]
    rfl
  above k _ := by
    rw [value_integer]
    exact (le_iff_units (isNumber_ofInt 0) (isNumber_ofInt k)).mpr
      (units_ofInt_mono (Nat.zero_le k))
  rising j k hjk _ := by
    rw [value_integer, value_integer]
    exact (le_iff_units (isNumber_ofInt j) (isNumber_ofInt k)).mpr (units_ofInt_mono hjk)

lemma inside_integer (steps n : Nat) : (ofGene steps (.integer 0 n)).Inside := by
  refine (spaced_integer steps n).inside fun k hk => ?_
  rw [size_integer] at hk
  rw [value_integer]
  exact (le_iff_units (isNumber_ofInt k) (isNumber_ofInt n)).mpr (units_ofInt_mono (by omega))

/-! ### Continuous genes -/

lemma value_single (lower upper : Float) (k : Nat) :
    (ofGene 1 (.continuous lower upper)).value k = lower := rfl

lemma value_last (h : 2 ≤ steps) :
    (ofGene steps (.continuous lower upper)).value (steps - 1) = upper := by
  have hone : ¬ steps = 1 := by omega
  have hlast : steps - 1 + 1 = steps := by omega
  exact (if_neg hone).trans (if_pos hlast)

lemma value_between (hk : k + 1 < steps) : (ofGene steps (.continuous lower upper)).value k =
    lower + (upper - lower) / ofInt (steps - 1 : Nat) * ofInt k := by
  have hone : ¬ steps = 1 := by omega
  have hcount : ((steps - 1 : Nat) : Int) = (steps : Int) - 1 := by omega
  rw [hcount]
  exact (if_neg hone).trans (if_neg (Nat.ne_of_lt hk))

/-- The only value of an undivided axis is the lower bound, however wide the gene is. -/
lemma inside_single (hlower : lower.isFinite) (hupper : upper.isFinite) (horder : ¬ upper < lower) :
    (ofGene 1 (.continuous lower upper)).Spaced ∧ (ofGene 1 (.continuous lower upper)).Inside := by
  have hl := isNumber_of_isFinite hlower
  have hspaced : (ofGene 1 (.continuous lower upper)).Spaced := {
    first := (beq_iff_units hl hl).mpr rfl
    last := fun hsize => absurd hsize (by decide : ¬ 2 ≤ 1)
    above := fun _ _ => (le_iff_units hl hl).mpr (Int.le_refl _)
    rising := fun _ _ _ _ => (le_iff_units hl hl).mpr (Int.le_refl _) }
  refine ⟨hspaced, hspaced.inside fun k _ => ?_⟩
  exact (le_iff_units hl (isNumber_of_isFinite hupper)).mpr
    (Gene.units_le_of_not_lt hlower hupper horder)

section

variable (hspans : (Gene.continuous lower upper).Spans) (hdivided : 2 ≤ steps)
  (hword : steps < 2 ^ 64)
include hspans hdivided hword

lemma spaced_continuous : (ofGene steps (.continuous lower upper)).Spaced := by
  obtain ⟨hlower, hupper, hnotAbove, hspan⟩ := hspans
  have horder := Gene.units_le_of_not_lt hlower hupper hnotAbove
  have hl := isNumber_of_isFinite hlower
  have hparts : ∀ k < steps, NonNegative ((upper - lower) / ofInt (steps - 1 : Nat) * ofInt k) :=
    fun k hk => nonNegative_steps hlower hupper horder hspan (by omega) (by omega) (by omega)
  have hrising : ∀ j k, j ≤ k → k + 1 < steps →
      (ofGene steps (.continuous lower upper)).value j ≤
        (ofGene steps (.continuous lower upper)).value k := by
    intro j k hjk hk
    rw [value_between (by omega), value_between hk, le_iff_units
      (isNumber_add hlower (hparts j (by omega)).isNumber)
      (isNumber_add hlower (hparts k (by omega)).isNumber)]
    exact units_add_mono hlower (hparts j (by omega)) (hparts k (by omega))
      (units_steps_mono hlower hupper horder hspan (by omega) (by omega) hjk (by omega))
  have hfirst : (ofGene steps (.continuous lower upper)).value 0 == lower := by
    rw [value_between (by omega), beq_iff_units
      (isNumber_add hlower (hparts 0 (by omega)).isNumber) hl]
    exact units_add_no_step hlower hupper horder hspan (by omega) (by omega)
  refine ⟨hfirst, fun _ => value_last hdivided, fun k hk => ?_, hrising⟩
  change k < steps at hk
  change lower ≤ _
  rcases Nat.lt_or_ge (k + 1) steps with hnext | hlast
  · have hle := hrising 0 k (Nat.zero_le k) hnext
    have hzero := (isNumber_of_le hle).1
    rw [le_iff_units hzero (isNumber_of_le hle).2, (beq_iff_units hzero hl).mp hfirst] at hle
    exact (le_iff_units hl (isNumber_of_le (hrising 0 k (Nat.zero_le k) hnext)).2).mpr hle
  · have hk : k = steps - 1 := by omega
    rw [hk, value_last hdivided]
    exact (le_iff_units hl (isNumber_of_isFinite hupper)).mpr horder

lemma inside_continuous (hdivides : (Gene.continuous lower upper).Divides steps) :
    (ofGene steps (.continuous lower upper)).Inside := by
  have hspaced := spaced_continuous hspans hdivided hword
  refine hspaced.inside fun k hk => ?_
  obtain ⟨hlower, hupper, hnotAbove, hspan⟩ := hspans
  obtain ⟨hfew, hnormal⟩ := hdivides
  have horder := Gene.units_le_of_not_lt hlower hupper hnotAbove
  have hu := isNumber_of_isFinite hupper
  have hnumber := (isNumber_of_le (hspaced.above k hk)).2
  change k < steps at hk
  refine (le_iff_units hnumber hu).mpr ?_
  rcases Nat.lt_or_ge (k + 1) steps with hnext | hlast
  · rw [value_between hnext]
    exact units_add_steps_le hlower hupper horder hspan (by omega) (by omega) hnormal
  · have hk : k = steps - 1 := by omega
    rw [hk, value_last hdivided]

end

/-! ### Wide genes -/

section

variable (hwide : (Gene.continuous lower upper).Wide) (hword : steps < 2 ^ 64)
include hwide hword

lemma value_wide (hk : k + 1 < steps) :
    (ofGene steps (.continuous lower upper)).value k = lower + infinity * ofInt k := by
  obtain ⟨hlower, hupper, hnotAbove, hspan⟩ := hwide
  have hone := one_le_units_ofInt (by omega : 0 < steps - 1)
  have hpos := Number.one_pos
  have hwidth := nonNegative_width hlower hupper (Gene.units_le_of_not_lt hlower hupper hnotAbove)
  rw [value_between hk, eq_infinity_of_not_isFinite hwidth.isNumber hwidth.nonneg hspan,
    infinity_div (isFinite_ofInt (by omega)) (by omega)]

lemma not_isNumber_value_zero (hdivided : 2 ≤ steps) :
    ¬ IsNumber ((ofGene steps (.continuous lower upper)).value 0) := by
  rw [value_wide hwide hword (by omega)]
  exact not_isNumber_add not_isNumber_infinity_mul_zero

lemma value_eq_infinity (hpos : 0 < k) (hk : k + 1 < steps) :
    (ofGene steps (.continuous lower upper)).value k = infinity := by
  have hone := one_le_units_ofInt hpos
  have honePos := Number.one_pos
  rw [value_wide hwide hword hk, infinity_mul (isFinite_ofInt (by omega)) (by omega)]
  exact add_infinity hwide.1

end

/-! ### Genes of a search space -/

section

variable {g : Gene} (hg : g.Regular ∨ g.Wide) (hword : steps < 2 ^ 64)
include hg hword

/-- Unless the steps are infinite the values of an axis are in order, and they are within the bounds
if the steps are neither too small nor too many. -/
theorem spaced_of_not_overflows (hpos : 0 < steps) (hfinite : ¬ g.Overflows steps) :
    (ofGene steps g).Spaced ∧ (g.Divides steps → (ofGene steps g).Inside) := by
  rcases hg with hregular | hwide
  · cases hregular with
    | integer n hn => exact ⟨spaced_integer steps n, fun _ => inside_integer steps n⟩
    | continuous hspans =>
      rcases Nat.eq_or_lt_of_le hpos with rfl | hdivided
      · obtain ⟨hspaced, hinside⟩ := inside_single hspans.1 hspans.2.1 hspans.2.2.1
        exact ⟨hspaced, fun _ => hinside⟩
      · exact ⟨spaced_continuous hspans hdivided hword, inside_continuous hspans hdivided hword⟩
  · have hsingle : steps = 1 := by
      have hundivided : ¬ 2 ≤ steps := fun hdivided => hfinite ⟨hwide, hdivided⟩
      omega
    subst hsingle
    cases g with
    | integer => exact hwide.elim
    | continuous lower upper =>
      obtain ⟨hspaced, hinside⟩ := inside_single hwide.1 hwide.2.1 hwide.2.2.1
      exact ⟨hspaced, fun _ => hinside⟩

/-- Only infinite steps leave a value undefined, and only the first one. -/
theorem not_isNumber_value_iff (hk : k < (ofGene steps g).size) :
    ¬ IsNumber ((ofGene steps g).value k) ↔ g.Overflows steps ∧ k = 0 := by
  rcases hg with hregular | hwide
  · have hnumber := isNumber_value (Gene.spans_of_regular hregular) hword hk
    exact iff_of_false (not_not_intro hnumber)
      fun hoverflows => Gene.not_wide_of_regular hregular hoverflows.1.1
  · cases g with
    | integer => exact hwide.elim
    | continuous lower upper =>
      change k < steps at hk
      constructor
      · intro hundefined
        have hdivided : 2 ≤ steps := by
          by_contra hsingle
          have hone : steps = 1 := by omega
          rw [hone, value_single] at hundefined
          exact hundefined (isNumber_of_isFinite hwide.1)
        refine ⟨⟨hwide, hdivided⟩, Nat.eq_zero_of_not_pos fun hpos => hundefined ?_⟩
        rcases Nat.lt_or_ge (k + 1) steps with hnext | hlast
        · rw [value_eq_infinity hwide hword hpos hnext]
          exact isNumber_infinity
        · have hk : k = steps - 1 := by omega
          rw [hk, value_last hdivided]
          exact isNumber_of_isFinite hwide.2.1
      · rintro ⟨⟨-, hdivided⟩, rfl⟩
        exact not_isNumber_value_zero hwide hword hdivided

omit hg in
/-- The values between the first and the last are infinite. -/
lemma value_of_overflows (hoverflows : g.Overflows steps) (hpos : 0 < k)
    (hk : k + 1 < (ofGene steps g).size) : (ofGene steps g).value k = infinity := by
  cases g with
  | integer => exact hoverflows.1.elim
  | continuous lower upper => exact value_eq_infinity hoverflows.1 hword hpos hk

end

end Grid.Axis

/-! ## Points -/

namespace Locus

/-- The place at which an asset is there, and the first one of the other axes. -/
def outset : Locus → Nat
  | presence _ => 1
  | _ => 0

variable {l : Locus} {steps : Nat}

/-- The value of the gene at that place. -/
def outsetValue (steps : Nat) (l : Locus) : Float :=
  (Grid.Axis.ofGene steps l.gene).value l.outset

lemma outsetValue_mem (hl : l.WellFormed) (hsteps : steps ≠ 0) :
    l.outsetValue steps ∈ (Grid.Axis.ofGene steps l.gene).values := by
  refine List.mem_map_of_mem (List.mem_range.mpr ?_)
  cases l with
  | presence asset => exact (by decide : 1 < 2)
  | choice | stepped | continuous => exact Grid.size_ofGene_pos hl hsteps

lemma not_dropped_outsetValue (steps : Nat) (asset : String) :
    ¬ (presence asset).gene.clip ((presence asset).outsetValue steps) < 0.5 := by
  change ¬ (Gene.integer 0 1).clip (Number.ofInt (0 + (1 : Nat))) < 0.5
  decide +kernel

/-- The first value of a wide gene stays undefined. -/
lemma not_isNumber_clip_outsetValue (hword : steps < 2 ^ 64) (hoverflows : l.gene.Overflows steps) :
    ¬ IsNumber (l.gene.clip (l.outsetValue steps)) := by
  cases l with
  | presence | choice | stepped => exact hoverflows.1.elim
  | continuous asset attr min max =>
    have hundefined := Grid.Axis.not_isNumber_value_zero hoverflows.1 hword hoverflows.2
    change ¬ IsNumber (clamp ((Grid.Axis.ofGene steps (.continuous min max)).value 0) min max)
    unfold clamp
    dsimp only
    rwa [if_neg (not_lt_of_not_isNumber (Or.inl hundefined)),
      if_neg (not_lt_of_not_isNumber (Or.inr hundefined))]

/-- The value is one that is read, even where it is undefined. -/
lemma exists_value?_outsetValue (hl : l.Exact) (steps : Nat) {attr : String}
    (hattr : l.attr? = some attr) : ∃ v, l.value? (l.outsetValue steps) = some v := by
  by_cases hnumber : IsNumber (l.outsetValue steps)
  · obtain ⟨v, hv, -⟩ := (value?_of_isNumber hl hnumber).2 attr hattr
    exact ⟨v, hv⟩
  · cases l with
    | continuous => exact ⟨_, rfl⟩
    | presence | choice | stepped =>
      exact absurd (Grid.Axis.isNumber_value_integer ..) hnumber

lemma not_legal_of_value?_outsetValue (hword : steps < 2 ^ 64)
    (hoverflows : l.gene.Overflows steps) {v : AttributeValue}
    (hread : l.value? (l.outsetValue steps) = some v) : ¬ l.Legal v := by
  have hundefined := not_isNumber_clip_outsetValue hword hoverflows
  cases l with
  | presence | choice | stepped => exact hoverflows.1.elim
  | continuous asset attr min max =>
    rintro ⟨x, hlow, -, rfl⟩
    cases hread
    exact hundefined (isNumber_of_le hlow).2

lemma eq_outsetValue_of_mem_zip {loci : List Locus} {x : Float}
    (h : (l, x) ∈ loci.zip (loci.map (·.outsetValue steps))) :
    l ∈ loci ∧ x = l.outsetValue steps := by
  have hzip := @List.zip_map' _ _ _ id (fun l : Locus => l.outsetValue steps) loci
  rw [List.map_id] at hzip
  rw [hzip] at h
  obtain ⟨l', hl', heq⟩ := List.mem_map.mp h
  cases heq
  exact ⟨hl', rfl⟩

end Locus

namespace SiteSpace

variable {site : Site} {space : SiteSpace} {steps : Nat}

lemma settles_outset (h : ofSite site = .ok space) (hfits : site.Fits) (steps : Nat) :
    ∀ e ∈ site.range.entries,
      e.2.Settles (space.loci.zip (space.loci.map (·.outsetValue steps))) e.1
        ((space.assets (space.loci.map (·.outsetValue steps))).get? e.1) := by
  refine (laidOut_of_ofSite h).settles site.range.sorted
    (List.map_fst_zip (Nat.le_of_eq (List.length_map _).symm)) fun e he attr hattr => ?_
  obtain ⟨hlocus, hvalue⟩ := Locus.eq_outsetValue_of_mem_zip he
  rw [hvalue]
  exact e.1.exists_value?_outsetValue (exact_of_ofSite h hfits e.1 hlocus) steps hattr

/-- The point at which every asset is there and a wide gene has its first value stands for no legal
scenario. -/
theorem not_legal_outset (h : ofSite site = .ok space) (hfits : site.Fits)
    (hword : steps < 2 ^ 64) {l : Locus} (hl : l ∈ space.loci)
    (hoverflows : l.gene.Overflows steps) :
    ¬ site.Legal (space.decode (space.loci.map (·.outsetValue steps))) := by
  intro hlegal
  obtain ⟨e, he, ⟨-, rfl⟩ | ⟨entry, hentry, hresolve⟩⟩ := (laidOut_of_ofSite h).origin l hl
  · exact hoverflows.1
  have hasset := settles_outset h hfits steps e he
  have hconfig : ∀ config, (space.assets (space.loci.map (·.outsetValue steps))).get? e.1 =
      some config → e.2.Legal config :=
    fun config => hlegal.legal e.1 e.2 config (Dict.get?_eq_some_iff.mpr he)
  generalize (space.assets (space.loci.map (·.outsetValue steps))).get? e.1 = found
    at hasset hconfig
  cases hasset with
  | dropped _ hmem hlow =>
    obtain ⟨-, rfl⟩ := Locus.eq_outsetValue_of_mem_zip hmem
    exact Locus.not_dropped_outsetValue steps e.1 hlow
  | @kept config _ hattrs =>
    have hattr := hattrs entry.1
    have hvalue := hconfig config rfl entry.1
    rw [Dict.get?_eq_some_iff.mpr hentry] at hattr hvalue
    generalize config.get? entry.1 = found at hattr hvalue
    cases hattr with
    | some hsettled =>
      cases hvalue with
      | some hlegalValue =>
        rw [legal_iff_of_resolve_searched hresolve] at hlegalValue
        cases hsettled with
        | constant hconstant =>
          rw [hresolve] at hconstant
          cases hconstant
        | searched hsearched hmem hread =>
          rw [hresolve] at hsearched
          cases hsearched
          obtain ⟨-, rfl⟩ := Locus.eq_outsetValue_of_mem_zip hmem
          exact Locus.not_legal_of_value?_outsetValue hword hoverflows hread hlegalValue

end SiteSpace

namespace Space

variable {portfolio : List Site} {space : Space} {steps : Nat}

lemma exists_locus_of_mem_genes {g : Gene} (hg : g ∈ space.genes) :
    ∃ own ∈ space.sites, ∃ l ∈ own.loci, l.gene = g := by
  obtain ⟨own, hown, hg⟩ := List.mem_flatMap.mp hg
  obtain ⟨l, hl, rfl⟩ := List.mem_map.mp hg
  exact ⟨own, hown, l, hl, rfl⟩

lemma regular_or_wide_of_mem_genes (h : ofPortfolio portfolio = .ok space)
    (hfits : ∀ site ∈ portfolio, site.Fits) : ∀ g ∈ space.genes, g.Regular ∨ g.Wide := by
  intro g hg
  obtain ⟨own, hown, l, hl, rfl⟩ := exists_locus_of_mem_genes hg
  obtain ⟨site, hsite, hof⟩ := exists_of_mem_right (forall₂_sites h) hown
  exact Locus.regular_or_wide (SiteSpace.exact_of_ofSite hof (hfits site hsite) l hl)

lemma decode_outset (space : Space) :
    space.decode (space.loci.map (·.outsetValue steps)) =
      space.sites.map fun own => own.decode (own.loci.map (·.outsetValue steps)) := by
  unfold decode loci
  induction space.sites with
  | nil => rfl
  | cons own rest ih =>
    rw [List.flatMap_cons, List.map_append, decodeFrom_append own rest _ (List.length_map _), ih]
    rfl

lemma outset_mem_allPoints (h : ofPortfolio portfolio = .ok space) (hsteps : steps ≠ 0) :
    space.loci.map (·.outsetValue steps) ∈
      Grid.allPoints (space.genes.map (Grid.Axis.ofGene steps)) := by
  rw [Grid.mem_allPoints, genes_eq, List.forall₂_map_left_iff, List.forall₂_map_left_iff,
    List.forall₂_map_right_iff, List.forall₂_same]
  intro l hl
  obtain ⟨own, hown, hl⟩ := List.mem_flatMap.mp hl
  exact Locus.outsetValue_mem (wellFormed_of_ofPortfolio h own hown l hl) hsteps

/-- A grid with a gene whose steps are infinite has a point that stands for no legal scenario. -/
lemma not_legal_decode_outset (h : ofPortfolio portfolio = .ok space)
    (hfits : ∀ site ∈ portfolio, site.Fits) (hword : steps < 2 ^ 64) {g : Gene}
    (hg : g ∈ space.genes) (hoverflows : g.Overflows steps) :
    ¬ List.Forall₂ (fun site s => site.Legal s) portfolio
      (space.decode (space.loci.map (·.outsetValue steps))) := by
  intro hlegal
  rw [decode_outset, List.forall₂_map_right_iff] at hlegal
  obtain ⟨own, hown, l, hl, rfl⟩ := exists_locus_of_mem_genes hg
  obtain ⟨site, hsite, hof, hlegalSite⟩ :=
    exists_of_mem_right (forall₂_conj (forall₂_sites h) hlegal) hown
  exact SiteSpace.not_legal_outset hof (hfits site hsite) hword hl hoverflows hlegalSite

end Space

namespace Grid

variable {γ : Type} [Source γ] {portfolio : List Site} {space : Space} {steps : Nat}

/-- Unless the steps of an axis are infinite, its values are numbers that start with the lower bound
of the gene, do not fall, and end with the upper bound; they are all within the bounds if the steps
are normal and not too many. Infinite steps make the first value undefined and all but the last of
the others infinite. So all points that a grid search may choose stand for legal scenarios exactly
if no axis has infinite steps. -/
theorem axes_stay_in_genes (hspace : Space.ofPortfolio portfolio = .ok space)
    (hfits : ∀ site ∈ portfolio, site.Fits) (hpos : 0 < steps) (hword : steps < 2 ^ 64) (s : γ) :
    (∀ g ∈ space.genes,
      (∀ k < (Axis.ofGene steps g).size,
        ¬ IsNumber ((Axis.ofGene steps g).value k) ↔ g.Overflows steps ∧ k = 0) ∧
      (g.Overflows steps → ∀ k, 0 < k → k + 1 < (Axis.ofGene steps g).size →
        (Axis.ofGene steps g).value k = infinity) ∧
      (¬ g.Overflows steps → (Axis.ofGene steps g).Spaced ∧
        (g.Divides steps → (Axis.ofGene steps g).Inside))) ∧
    ((∀ limit, ∀ c ∈ ((points (space.genes.map (Axis.ofGene steps)) limit).run s).1,
        List.Forall₂ (fun site scenario => site.Legal scenario) portfolio (space.decode c)) ↔
      ∀ g ∈ space.genes, ¬ g.Overflows steps) := by
  have hgenes := Space.regular_or_wide_of_mem_genes hspace hfits
  refine ⟨fun g hg => ⟨?_, ?_, ?_⟩, fun hlegal g hg hoverflows => ?_, fun hfinite limit c hc => ?_⟩
  · exact fun k hk => Axis.not_isNumber_value_iff (hgenes g hg) hword hk
  · exact fun hoverflows k hk hnext => Axis.value_of_overflows hword hoverflows hk hnext
  · exact Axis.spaced_of_not_overflows (hgenes g hg) hword hpos
  · have hmem := Space.outset_mem_allPoints hspace (Nat.ne_of_gt hpos)
    refine Space.not_legal_decode_outset hspace hfits hword hg hoverflows
      (hlegal (size (space.genes.map (Axis.ofGene steps))) _ ?_)
    rwa [run_points_of_le (Nat.le_refl _), map_pointAt_allPlaces]
  · have hvalues : ∀ g ∈ space.genes, ∀ k < (Axis.ofGene steps g).size,
        IsNumber ((Axis.ofGene steps g).value k) := fun g hg k hk => by
      by_contra hundefined
      exact hfinite g hg ((Axis.not_isNumber_value_iff (hgenes g hg) hword hk).mp hundefined).1
    have hc := always_points (Q := fun _ x => IsNumber x)
      (size_axes_pos hspace (Nat.ne_of_gt hpos)) hvalues limit s c hc
    refine Space.legal_decode hspace hfits hc.length_eq.symm fun x hx => ?_
    obtain ⟨g, -, hnumber⟩ := exists_of_mem_right hc hx
    exact hnumber

/-- Five values for the tilt of the panels in the harbour. -/
theorem axes_stay_in_genes_harbour :
    (∀ site ∈ [harbour], site.Fits) ∧ ∃ space, Space.ofPortfolio [harbour] = .ok space ∧
      (Axis.ofGene 5 (.continuous 0.0 45.0)).Spaced ∧
      (Axis.ofGene 5 (.continuous 0.0 45.0)).Inside ∧
      ∀ limit, ∀ c ∈ ((points (space.genes.map (Axis.ofGene 5)) limit).run (ChaCha.ofSeed 0)).1,
        List.Forall₂ (fun site scenario => site.Legal scenario) [harbour] (space.decode c) := by
  have hfits : ∀ site ∈ [harbour], site.Fits := by decide +kernel
  obtain ⟨space, hspace⟩ := eq_ok_of_isOk (by decide +kernel : (Space.ofPortfolio [harbour]).isOk)
  have hgenes : space.genes = [.integer 0 3, .integer 0 1, .integer 0 1, .continuous 0.0 45.0] := by
    have hall : (Space.ofPortfolio [harbour]).toOption.map (·.genes) =
        some [.integer 0 3, .integer 0 1, .integer 0 1, .continuous 0.0 45.0] := by
      decide +kernel
    rw [hspace] at hall
    exact Option.some.inj hall
  have hnarrow : ∀ g ∈ space.genes, ¬ g.Overflows 5 := by
    rw [hgenes]
    unfold Gene.Overflows
    decide +kernel
  obtain ⟨haxes, hpoints⟩ :=
    axes_stay_in_genes hspace hfits (by decide : 0 < 5) (by decide) (ChaCha.ofSeed 0)
  have hmem : Gene.continuous 0.0 45.0 ∈ space.genes := by
    rw [hgenes]
    decide +kernel
  obtain ⟨hspaced, hinside⟩ := (haxes _ hmem).2.2 (hnarrow _ hmem)
  exact ⟨hfits, space, hspace, hspaced, hinside ⟨by decide, by decide +kernel⟩, hpoints.mpr hnarrow⟩

/-- Steps that are not normal may lead beyond the upper bound. -/
example : (1.5e-323 : Float) < (Axis.ofGene 6 (.continuous 0.0 1.5e-323)).value 4 := by
  decide +kernel

/-- A site with a gauge that may show almost any double. -/
def gauge : Site where
  siteId := "gauge"
  bundleId := "gauge"
  baseline := .empty
  range := Dict.ofList [("meter",
    ⟨true, Dict.ofList [("reading", .continuous (-1.7e308) 1.7e308)]⟩)]
  constraints := .none
  capexLimit := none

/-- Of two readings the first is undefined, and its scenario is not legal. -/
theorem gauge_reading_undefined :
    ∃ space, Space.ofPortfolio [gauge] = .ok space ∧
      space.genes = [.continuous (-1.7e308) 1.7e308] ∧
      ¬ IsNumber ((Axis.ofGene 2 (.continuous (-1.7e308) 1.7e308)).value 0) ∧
      ∃ c ∈ allPoints (space.genes.map (Axis.ofGene 2)),
        ¬ List.Forall₂ (fun site scenario => site.Legal scenario) [gauge] (space.decode c) := by
  obtain ⟨space, hspace⟩ := eq_ok_of_isOk (by decide +kernel : (Space.ofPortfolio [gauge]).isOk)
  have hgenes : space.genes = [.continuous (-1.7e308) 1.7e308] := by
    have hall : (Space.ofPortfolio [gauge]).toOption.map (·.genes) =
        some [.continuous (-1.7e308) 1.7e308] := by
      decide +kernel
    rw [hspace] at hall
    exact Option.some.inj hall
  have hoverflows : (Gene.continuous (-1.7e308) 1.7e308).Overflows 2 := by
    unfold Gene.Overflows
    decide +kernel
  exact ⟨space, hspace, hgenes,
    Axis.not_isNumber_value_zero hoverflows.1 (by decide) hoverflows.2,
    _, Space.outset_mem_allPoints hspace (by decide),
    Space.not_legal_decode_outset hspace (by decide +kernel) (by decide)
      (hgenes ▸ List.mem_singleton_self _) hoverflows⟩

end Grid

end Retrofit
