import Retrofit.Proofs.Number.Steps
import Retrofit.Proofs.Random.Numbers
import Retrofit.Proofs.Search.Breeding
import Retrofit.Proofs.Space.Genes
import Retrofit.Search.Grid

/-!
# Values of genes that are drawn

A number that is drawn between two others lies between them (`Random.returns_between`). So the
random steps of the searches keep the values of continuous genes within their bounds, and those of
whole genes defined (`Gene.kept_sound`), as long as the width of every range is a double.
-/

namespace Retrofit

open Number Retrofit.Random

variable {γ : Type} [Source γ]

/-- A number drawn from a range lies in it. -/
theorem Random.returns_between {low high x : Float} {s s' : γ} (hlow : low.isFinite)
    (hhigh : high.isFinite) (horder : units low ≤ units high)
    (h : Returns (between low high : DrawAttempt γ Float) s x s') :
    IsNumber x ∧ units low ≤ units x ∧ units x ≤ units high := by
  unfold between at h
  dsimp only at h
  split at h
  · rename_i hwidth
    have hspan := isFinite_of_isFinite_div isFinite_greatestUnit hwidth
    have hgreatest : 0 < units greatestUnit := by
      rw [units_greatestUnit]
      exact Int.natCast_pos.mpr (magnitude_pos _ (by decide))
    have hnonneg : 0 ≤ units (high - low) := by
      rw [(units_sub hhigh hlow).2]
      exact rounded_nonneg Nat.one_pos (by omega)
    have hwidth' : 0 ≤ units ((high - low) / greatestUnit) := by
      rw [(units_div hspan isFinite_greatestUnit hgreatest).2]
      exact rounded_nonneg (by omega) (Int.mul_nonneg hnonneg (Int.natCast_nonneg _))
    obtain ⟨u, s₁, hu, h⟩ := returns_bind.mp h
    obtain ⟨rfl, rfl⟩ := returns_pure.mp h
    exact within_of_scales hlow hhigh (scales_of_width hlow hhigh horder hwidth hwidth')
      (of_returns_lift always_unit hu)
  · exact absurd h not_returns_throw

namespace Gene

/-- A gene whose bounds are finite and not further apart than a double can tell. -/
def Spans : Gene → Prop
  | integer _ _ => True
  | continuous lower upper =>
    lower.isFinite ∧ upper.isFinite ∧ ¬ upper < lower ∧ (upper - lower).isFinite

/-- A value that a search works with: a number within the bounds, or any where the gene is whole. -/
def Sound : Gene → Float → Prop
  | integer _ _, x => IsNumber x
  | continuous lower upper, x => (continuous lower upper).Within x

variable {g : Gene} {x y : Float}

lemma isNumber_of_sound (g : Gene) (x : Float) (h : g.Sound x) : IsNumber x := by
  cases g with
  | integer lower upper => exact h
  | continuous lower upper => exact @isNumber_of_within (continuous lower upper) x h

lemma isNumber_clamp {low high : Float} (hx : IsNumber x) (hlow : IsNumber low)
    (hhigh : IsNumber high) : IsNumber (clamp x low high) := by
  have hraised : IsNumber (if x < low then low else x) := by
    split
    · exact hlow
    · exact hx
  unfold clamp
  dsimp only
  generalize (if x < low then low else x) = raised at hraised
  split
  · exact hhigh
  · exact hraised

lemma sound_clip (hg : g.Spans) (hx : IsNumber x) : g.Sound (g.clip x) := by
  cases g with
  | integer lower upper =>
    exact isNumber_clamp (round_whole hx).1 (isNumber_ofInt lower) (isNumber_ofInt upper)
  | continuous lower upper =>
    obtain ⟨hlower, hupper, horder, -⟩ := hg
    exact within_clip_continuous hlower hupper horder hx

lemma sound_of_clip_beq (hg : g.Spans) (h : g.clip x == x) : g.Sound x := by
  have hx := (isNumber_of_beq h).2
  cases g with
  | integer lower upper => exact hx
  | continuous lower upper =>
    obtain ⟨hlower, hupper, horder, -⟩ := hg
    have hwithin := within_clip_continuous hlower hupper horder hx
    have hclip := isNumber_of_within hwithin
    have hunits := (beq_iff_units hclip hx).mp h
    have hl := isNumber_of_isFinite hlower
    have hu := isNumber_of_isFinite hupper
    have hlow := (le_iff_units hl hclip).mp hwithin.1
    have hhigh := (le_iff_units hclip hu).mp hwithin.2
    exact ⟨(le_iff_units hl hx).mpr (hunits ▸ hlow), (le_iff_units hx hu).mpr (hunits ▸ hhigh)⟩

lemma sound_lower (hg : g.Spans) : g.Sound g.lower := by
  cases g with
  | integer lower upper => exact isNumber_ofInt lower
  | continuous lower upper =>
    obtain ⟨hlower, hupper, horder, -⟩ := hg
    have hl := isNumber_of_isFinite hlower
    exact ⟨(le_iff_units hl hl).mpr (Int.le_refl _),
      (le_iff_units hl (isNumber_of_isFinite hupper)).mpr (units_le_of_not_lt hlower hupper horder)⟩

lemma sound_sample {s s' : γ} (hg : g.Spans)
    (h : Returns (g.sample : DrawAttempt γ Float) s x s') : g.Sound x := by
  cases g with
  | integer lower upper =>
    obtain ⟨value, s₁, -, h⟩ := returns_bind.mp h
    obtain ⟨rfl, rfl⟩ := returns_pure.mp h
    exact isNumber_ofInt value
  | continuous lower upper =>
    obtain ⟨hlower, hupper, horder, -⟩ := hg
    obtain ⟨hx, hlow, hhigh⟩ :=
      returns_between hlower hupper (units_le_of_not_lt hlower hupper horder) h
    exact ⟨(le_iff_units (isNumber_of_isFinite hlower) hx).mpr hlow,
      (le_iff_units hx (isNumber_of_isFinite hupper)).mpr hhigh⟩

/-- A number within finite bounds is finite. -/
lemma isFinite_of_within {lower upper : Float} (hlower : lower.isFinite) (hupper : upper.isFinite)
    (h : (continuous lower upper).Within x) : x.isFinite := by
  have hx := isNumber_of_within h
  have hlow := (le_iff_units (isNumber_of_isFinite hlower) hx).mp h.1
  have hhigh := (le_iff_units hx (isNumber_of_isFinite hupper)).mp h.2
  have hlt := (isFinite_iff.mp hlower).2
  have hlt' := (isFinite_iff.mp hupper).2
  exact isFinite_iff.mpr ⟨hx, by omega⟩

/-- The weight of the other parent is a unit value as well. -/
lemma units_one_sub {u : Float} (hu : IsUnit u) :
    (1.0 - u).isFinite ∧ 0 ≤ units (1.0 - u) ∧ units (1.0 - u) ≤ one := by
  obtain ⟨hfinite, hnonneg, hle⟩ := hu
  have hunit := units_greatestUnit_le
  obtain ⟨hnumber, hunits⟩ := units_sub isFinite_one hfinite
  rw [units_one] at hunits
  have hlow : 0 ≤ units (1.0 - u) := by
    rw [hunits]
    exact rounded_nonneg Nat.one_pos (by omega)
  have hhigh : units (1.0 - u) ≤ one := by
    rw [hunits, ← units_one]
    exact rounded_le isNumber_one Nat.one_pos (by rw [units_one]; omega)
  have hlt := (isFinite_iff.mp isFinite_one).2
  rw [units_one] at hlt
  exact ⟨isFinite_iff.mpr ⟨hnumber, by omega⟩, hlow, hhigh⟩

lemma always_blend (hg : g.Spans) (hx : g.Sound x) (hy : g.Sound y) :
    Always (Chromosome.blend g x y : Draw γ Float) g.Sound := by
  cases g with
  | integer lower upper =>
    refine always_bind (P := fun _ => True) (fun _ => trivial) fun first _ => always_pure ?_
    split
    · exact hx
    · exact hy
  | continuous lower upper =>
    obtain ⟨hlower, hupper, -, -⟩ := id hg
    have hfinite := isFinite_of_within hlower hupper hx
    have hfinite' := isFinite_of_within hlower hupper hy
    refine always_bind always_unit fun weight hweight => always_pure (sound_clip hg ?_)
    obtain ⟨hw, hnonneg, hle⟩ := id hweight
    obtain ⟨hw', hnonneg', hle'⟩ := units_one_sub hweight
    have hunit := units_greatestUnit_le
    obtain ⟨hleft, -⟩ := isFinite_mul hw hnonneg (by omega) hfinite
    obtain ⟨hright, -⟩ := isFinite_mul hw' hnonneg' hle' hfinite'
    exact (units_add hleft hright).1

/-- How far a value may be moved. -/
lemma reach_spec {lower upper : Float} (hlower : lower.isFinite) (hupper : upper.isFinite)
    (horder : ¬ upper < lower) (hspan : (upper - lower).isFinite) :
    (Chromosome.perturbation * (upper - lower)).isFinite ∧
      0 ≤ units (Chromosome.perturbation * (upper - lower)) := by
  have hpart : Chromosome.perturbation.isFinite := by decide
  have hnumber := isNumber_of_isFinite hpart
  have hpos : 0 ≤ units Chromosome.perturbation := by
    rw [← units_zero, ← le_iff_units isNumber_zero hnumber]
    decide
  have hle : units Chromosome.perturbation ≤ one := by
    rw [← units_one, ← le_iff_units hnumber isNumber_one]
    decide
  have hnonneg :=
    (nonNegative_width hlower hupper (units_le_of_not_lt hlower hupper horder)).nonneg
  refine ⟨(isFinite_mul hpart hpos hle hspan).1, ?_⟩
  rw [(units_mul hpart hspan).2]
  exact rounded_nonneg Number.one_pos (Int.mul_nonneg hpos hnonneg)

lemma sound_nudge {rate : Float} {s s' : γ} (hg : g.Spans) (hx : g.Sound x)
    (h : Returns (Chromosome.nudge rate g x : DrawAttempt γ Float) s y s') : g.Sound y := by
  obtain ⟨mutates, s₁, -, h⟩ := returns_bind.mp h
  split at h
  · cases g with
    | integer lower upper =>
      obtain ⟨value, s₂, hvalue, h⟩ := returns_bind.mp h
      obtain ⟨rfl, rfl⟩ := returns_pure.mp h
      exact sound_clip hg (isNumber_of_sound _ _ (sound_sample hg hvalue))
    | continuous lower upper =>
      obtain ⟨hlower, hupper, horder, hspan⟩ := id hg
      obtain ⟨hfinite, hnonneg⟩ := reach_spec hlower hupper horder hspan
      dsimp only at h
      generalize Chromosome.perturbation * (upper - lower) = reach at h hfinite hnonneg
      obtain ⟨step, s₂, hstep, h⟩ := returns_bind.mp h
      obtain ⟨rfl, rfl⟩ := returns_pure.mp h
      have horder' : units (-reach) ≤ units reach := by
        rw [units_neg]
        omega
      have hnumber := (returns_between (isFinite_neg.mpr hfinite) hfinite horder' hstep).1
      exact sound_clip hg (isNumber_add (isFinite_of_within hlower hupper hx) hnumber)
  · obtain ⟨rfl, rfl⟩ := returns_pure.mp h
    exact hx

end Gene

/-! ## Values of grids -/

/-- Every value of an axis is a number. -/
theorem Grid.Axis.isNumber_value {steps k : Nat} {g : Gene} (hg : g.Spans) (hsteps : steps < 2 ^ 64)
    (hk : k < (Axis.ofGene steps g).size) : IsNumber ((Axis.ofGene steps g).value k) := by
  cases g with
  | integer lower upper => exact isNumber_ofInt _
  | continuous lower upper =>
    obtain ⟨hlower, hupper, hnotAbove, hspan⟩ := hg
    change k < steps at hk
    have hl := isNumber_of_isFinite hlower
    change IsNumber (if steps = 1 then lower else if k + 1 = steps then upper
      else lower + (upper - lower) / ofInt ((steps : Int) - 1) * ofInt k)
    split
    · exact hl
    · split
      · exact isNumber_of_isFinite hupper
      · have hcount : (steps : Int) - 1 = (steps - 1 : Nat) := by omega
        have horder := Gene.units_le_of_not_lt hlower hupper hnotAbove
        rw [hcount]
        exact isNumber_add hlower (nonNegative_steps hlower hupper horder hspan (by omega)
          (by omega) (by omega)).isNumber

end Retrofit
