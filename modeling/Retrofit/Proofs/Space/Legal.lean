import Retrofit.Proofs.Space.Genes

/-!
# Legal scenarios

Which values a range allows (`AttributeRange.Legal`), and which scenarios a site (`Site.Legal`).
These notions speak about ranges only; that the search settles exactly on them is shown for a single
range here. What is left of a range is one constant, its only legal value
(`legal_iff_of_resolve_constant`), or a locus with the same legal values
(`legal_iff_of_resolve_searched`), all of which are values of its gene.
-/

namespace Retrofit

open Number

/-- A whole number that fits a signed 64-bit word. -/
def Word (n : Int) : Prop :=
  -9223372036854775808 ≤ n ∧ n ≤ 9223372036854775807

instance : DecidablePred Word := fun n =>
  inferInstanceAs (Decidable (-9223372036854775808 ≤ n ∧ n ≤ 9223372036854775807))

namespace AttributeRange

/-- The values that a range allows. -/
inductive Legal : AttributeRange → AttributeValue → Prop
  | fixed (v : AttributeValue) : Legal (fixed v) v
  | choice {values : List AttributeValue} {v : AttributeValue} (h : v ∈ values) :
    Legal (choices values) v
  | step {min max step : Int} (k : Nat) (h : min + k * step ≤ max) :
    Legal (stepped min max step) (.int (min + k * step))
  | between {min max x : Float} (hwidth : min < max) (hlow : min ≤ x) (hhigh : x ≤ max) :
    Legal (continuous min max) (.float x)
  | point {min max : Float} (h : min == max) : Legal (continuous min max) (.float min)

/-- A range that a machine can hold: the bounds of whole numbers are words, and there are no more
choices than a double can count. -/
def Fits : AttributeRange → Prop
  | fixed _ => True
  | choices values => (values.length : Int) ≤ maxSteps + 1
  | stepped min max step => Word min ∧ Word max ∧ Word step
  | continuous _ _ => True

instance : DecidablePred Fits := fun range =>
  match range with
  | fixed _ => isTrue trivial
  | choices values => inferInstanceAs (Decidable ((values.length : Int) ≤ maxSteps + 1))
  | stepped min max step => inferInstanceAs (Decidable (Word min ∧ Word max ∧ Word step))
  | continuous _ _ => isTrue trivial

end AttributeRange

/-- Exactly the attributes of the range, each with a legal value. -/
def AssetRange.Legal (range : AssetRange) (config : AssetConfig) : Prop :=
  ∀ attr, Option.Rel AttributeRange.Legal (range.attributes.get? attr) (config.get? attr)

/-- A scenario of the site: every asset has a legal configuration, and none is missing but optional
ones. -/
structure Site.Legal (site : Site) (s : Scenario) : Prop where
  siteId : s.siteId = site.siteId
  bundleId : s.bundleId = site.bundleId
  known : ∀ asset, site.range.get? asset = none → s.assets.get? asset = none
  mandatory : ∀ asset range, site.range.get? asset = some range → range.mandatory →
    ∃ config, s.assets.get? asset = some config
  legal : ∀ asset range config, site.range.get? asset = some range →
    s.assets.get? asset = some config → range.Legal config

/-- A site whose ranges a machine can hold. -/
def Site.Fits (site : Site) : Prop :=
  ∀ asset ∈ site.range.entries, ∀ attr ∈ asset.2.attributes.entries, attr.2.Fits

instance : DecidablePred Site.Fits := fun site =>
  inferInstanceAs (Decidable (∀ asset ∈ site.range.entries,
    ∀ attr ∈ asset.2.attributes.entries, attr.2.Fits))

/-- A harbour with a crane whose drive is settled, and room for solar panels. -/
def harbour : Site where
  siteId := "harbour"
  bundleId := "harbour"
  baseline := .empty
  range := Dict.ofList [
    ("crane", ⟨true, Dict.ofList [("drive", .fixed (.text "electric")),
      ("reach", .stepped 10 45 10)]⟩),
    ("solar", ⟨false, Dict.ofList [("panel", .choices [.text "mono", .text "poly"]),
      ("tilt", .continuous 0.0 45.0)]⟩)]
  constraints := .none
  capexLimit := none

namespace Locus

/-- What a value of the gene means for the attribute. -/
def value? (l : Locus) (x : Float) : Option AttributeValue :=
  match l with
  | presence _ => none
  | choice _ _ values => values[toCount (l.gene.clip x)]?
  | stepped _ _ min step _ => some (.int (min + toCount (l.gene.clip x) * step))
  | continuous _ _ _ _ => some (.float (l.gene.clip x))

/-- The values of the attribute that a locus searches. -/
def Legal : Locus → AttributeValue → Prop
  | presence _, _ => False
  | choice _ _ values, v => v ∈ values
  | stepped _ _ min step last, v => ∃ k : Nat, k ≤ last ∧ v = .int (min + k * step)
  | continuous _ _ min max, v => ∃ x, min ≤ x ∧ x ≤ max ∧ v = .float x

/-- All places of the locus are counted exactly, and no step leaves the words. -/
def Exact : Locus → Prop
  | presence _ => True
  | choice _ _ values => 2 ≤ values.length ∧ values.length ≤ 2 ^ 53 + 1
  | stepped _ _ min step last => 0 < step ∧ 0 < last ∧ last ≤ 2 ^ 53 ∧
      last * step ≤ 9223372036854775807 ∧ Word min ∧ Word (min + last * step)
  | continuous _ _ min max => min.isFinite ∧ max.isFinite ∧ ¬ max < min

end Locus

/-! ## What is left of a range -/

section

variable {asset attr : String} {range : AttributeRange} {l : Locus} {v w : AttributeValue}

/-- A constant is the only legal value of its range. -/
theorem legal_iff_of_resolve_constant (h : range.resolve asset attr = .ok (.constant v)) :
    range.Legal w ↔ w = v := by
  cases AttributeRange.resolves_of_resolve h with
  | fixed =>
    constructor
    · rintro ⟨⟩
      rfl
    · rintro rfl
      exact .fixed w
  | only =>
    constructor
    · intro hlegal
      cases hlegal with
      | choice hmem => exact List.mem_singleton.mp hmem
    · rintro rfl
      exact .choice List.mem_cons_self
  | still min max step horder hstep =>
    constructor
    · intro hlegal
      cases hlegal with
      | step k hk =>
        have hzero : k = 0 := by
          apply Nat.eq_zero_of_not_pos
          intro hpos
          have hmul : 1 * step ≤ k * step :=
            Int.mul_le_mul_of_nonneg_right (by omega) (by omega)
          omega
        rw [hzero, Int.natCast_zero, Int.zero_mul, Int.add_zero]
    · rintro rfl
      have hlegal : (AttributeRange.stepped min max step).Legal (.int (min + (0 : Nat) * step)) :=
        .step 0 (by rw [Int.natCast_zero, Int.zero_mul]; omega)
      rwa [Int.natCast_zero, Int.zero_mul, Int.add_zero] at hlegal
  | point min max heq =>
    constructor
    · intro hlegal
      cases hlegal with
      | between hwidth hlow hhigh =>
        obtain ⟨hmin, hx⟩ := isNumber_of_le hlow
        obtain ⟨-, hmax⟩ := isNumber_of_le hhigh
        have hlt := (lt_iff_units hmin hmax).mp hwidth
        have hsame := (beq_iff_units hmin hmax).mp heq
        omega
      | point => rfl
    · rintro rfl
      exact .point heq

/-- A locus has the legal values of its range. -/
theorem legal_iff_of_resolve_searched (h : range.resolve asset attr = .ok (.searched l)) :
    range.Legal v ↔ l.Legal v := by
  cases AttributeRange.resolves_of_resolve h with
  | choice values hlength =>
    constructor
    · intro hlegal
      cases hlegal with
      | choice hmem => exact hmem
    · exact .choice
  | stepped min max step last hstep hpos hlast hspan hlow hhigh =>
    constructor
    · intro hlegal
      cases hlegal with
      | step k hk =>
        refine ⟨k, Int.not_lt.mp fun hlt => ?_, rfl⟩
        have hmul : (last + 1) * step ≤ k * step :=
          Int.mul_le_mul_of_nonneg_right (by omega) (by omega)
        omega
    · rintro ⟨k, hk, rfl⟩
      have hmul : (k : Int) * step ≤ last * step :=
        Int.mul_le_mul_of_nonneg_right hk (by omega)
      exact .step k (by omega)
  | continuous min max hmin hmax horder hne =>
    have hmin := isNumber_of_isFinite hmin
    have hmax := isNumber_of_isFinite hmax
    constructor
    · intro hlegal
      cases hlegal with
      | between hwidth hlow hhigh => exact ⟨_, hlow, hhigh, rfl⟩
      | point heq => exact absurd heq hne
    · rintro ⟨x, hlow, hhigh, rfl⟩
      refine .between ((lt_iff_units hmin hmax).mpr ?_) hlow hhigh
      have hle := mt (lt_iff_units hmax hmin).mpr horder
      have hdiffer := mt (beq_iff_units hmin hmax).mpr hne
      omega

lemma exact_of_resolve (hfits : range.Fits) (h : range.resolve asset attr = .ok (.searched l)) :
    l.Exact := by
  cases AttributeRange.resolves_of_resolve h with
  | choice values hlength =>
    have hcount : (values.length : Int) ≤ maxSteps + 1 := hfits
    unfold maxSteps at hcount
    exact ⟨hlength, by omega⟩
  | stepped min max step last hstep hpos hlast hspan hlow hhigh =>
    obtain ⟨hmin, hmax, -⟩ := hfits
    unfold Word at hmin hmax
    have hnonneg : 0 ≤ last * step := Int.mul_nonneg (by omega) (by omega)
    unfold maxSteps at hlast
    exact ⟨hstep, hpos, by omega, by omega, hmin, by unfold Word; omega⟩
  | continuous min max hmin hmax horder hne => exact ⟨hmin, hmax, horder⟩

end

end Retrofit
