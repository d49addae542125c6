import Mathlib.Algebra.Group.Int.Defs
import Retrofit.Proofs.Space.Discrete

/-!
# Values of genes

What clipping makes of a number: a whole number of the range that is counted exactly, or a number
between the bounds. A value that already is one is kept.
-/

namespace Retrofit

open Number

namespace Gene

/-- Whether a number lies between the bounds of a gene. -/
def Within : Gene → Float → Prop
  | integer lower upper, y => ofInt lower ≤ y ∧ y ≤ ofInt upper
  | continuous lower upper, y => lower ≤ y ∧ y ≤ upper

/-- Whether a number is whole where the gene is. -/
def Integral : Gene → Float → Prop
  | integer _ _, y => Number.round y == y
  | continuous _ _, _ => True

lemma isNumber_of_within {g : Gene} {y : Float} (h : g.Within y) : IsNumber y := by
  cases g with
  | integer lower upper => exact (isNumber_of_le h.1).2
  | continuous lower upper => exact (isNumber_of_le h.1).2

/-! ## Whole genes -/

lemma within_integer_iff {n : Nat} (hn : n ≤ 2 ^ 53) {y : Float} (hy : IsNumber y) :
    (integer 0 n).Within y ↔ 0 ≤ units y ∧ units y ≤ n * one := by
  have hlower : units (ofInt (0 : Nat)) = 0 := units_zero
  change ofInt (0 : Nat) ≤ y ∧ y ≤ ofInt n ↔ _
  rw [le_iff_units (faithful_ofInt 0).isNumber hy, le_iff_units hy (faithful_ofInt n).isNumber,
    hlower, units_ofInt hn]

/-- A number is clipped to a whole number of the range, which is counted exactly. -/
theorem clip_integer_exact {n : Nat} (hn : n ≤ 2 ^ 53) {x : Float} (hx : IsNumber x) :
    ∃ k, k ≤ n ∧ IsNumber ((integer 0 n).clip x) ∧ units ((integer 0 n).clip x) = k * one ∧
      toCount ((integer 0 n).clip x) = k := by
  have hone := Number.one_pos
  obtain ⟨hnumber, hunits⟩ := clip_of_isNumber (n := n) hx
  obtain ⟨-, z, hz⟩ := round_whole hx
  have hvalue : units ((integer 0 n).clip x) = (min (max z 0).toNat n : Nat) * one := by
    have hmax : max (units (Number.round x)) 0 = ((max z 0).toNat : Int) * one := by
      rw [hz, Int.toNat_of_nonneg (Int.le_max_right z 0)]
      rcases Int.le_total 0 z with hpos | hneg
      · rw [Int.max_eq_left hpos, Int.max_eq_left (Int.mul_nonneg hpos (by omega))]
      · rw [Int.max_eq_right hneg, Int.zero_mul,
          Int.max_eq_right (Int.mul_nonpos_of_nonpos_of_nonneg hneg (by omega))]
    rw [hunits, hmax, units_ofInt hn]
    have hmono : ∀ {a b : Nat}, a ≤ b → (a : Int) * one ≤ b * one := fun h =>
      Int.mul_le_mul_of_nonneg_right (Int.ofNat_le.mpr h) (by omega)
    rcases Nat.le_total (max z 0).toNat n with hle | hle
    · rw [Nat.min_eq_left hle, Int.min_eq_left (hmono hle)]
    · rw [Nat.min_eq_right hle, Int.min_eq_right (hmono hle)]
  generalize hk : min (max z 0).toNat n = k at hvalue
  refine ⟨k, by omega, hnumber, hvalue, ?_⟩
  rw [toCount_eq hnumber, hvalue, ← Int.natCast_mul, Int.toNat_natCast,
    Nat.mul_div_cancel _ hone]
  omega

lemma within_ofInt {n k : Nat} (hn : n ≤ 2 ^ 53) (hk : k ≤ n) :
    (integer 0 n).Within (ofInt k) := by
  rw [within_integer_iff hn (faithful_ofInt k).isNumber, units_ofInt (Nat.le_trans hk hn)]
  have hle := Nat.mul_le_mul_right one hk
  rw [← Int.natCast_mul, ← Int.natCast_mul]
  omega

lemma integral_ofInt {upper : Int} {k : Nat} (hk : k ≤ 2 ^ 53) :
    (integer 0 upper).Integral (ofInt k) := by
  have hnumber := (faithful_ofInt k).isNumber
  have hunits := units_ofInt hk
  exact (beq_iff_units (round_whole hnumber).1 hnumber).mpr
    ((units_round_of_whole hnumber hunits).trans hunits.symm)

/-- A whole number of the range is kept, and counted exactly. -/
theorem clip_of_whole {n k : Nat} (hn : n ≤ 2 ^ 53) (hk : k ≤ n) {x : Float} (hx : IsNumber x)
    (hwhole : units x = k * one) :
    units ((integer 0 n).clip x) = k * one ∧ toCount ((integer 0 n).clip x) = k := by
  obtain ⟨j, -, -, hunits, hcount⟩ := clip_integer_exact hn hx
  have hkept : units ((integer 0 n).clip x) = k * one := by
    have hmul := Nat.mul_le_mul_right one hk
    rw [(clip_of_isNumber hx).2, units_round_of_whole hx hwhole, units_ofInt hn,
      ← Int.natCast_mul, ← Int.natCast_mul, Int.max_eq_left (Int.natCast_nonneg _),
      Int.min_eq_left (Int.ofNat_le.mpr hmul)]
  have hsame : j = k := by
    have hmul : ((j * one : Nat) : Int) = (k * one : Nat) := by
      rw [Int.natCast_mul, Int.natCast_mul, ← hunits, hkept]
    exact Nat.eq_of_mul_eq_mul_right Number.one_pos (Int.ofNat_inj.mp hmul)
  exact ⟨hkept, hcount.trans hsame⟩

lemma clip_ofInt {n k : Nat} (hn : n ≤ 2 ^ 53) (hk : k ≤ n) :
    units ((integer 0 n).clip (ofInt k)) = k * one ∧ toCount ((integer 0 n).clip (ofInt k)) = k :=
  clip_of_whole hn hk (faithful_ofInt k).isNumber (units_ofInt (Nat.le_trans hk hn))

/-- A whole value of the range is counted exactly. -/
lemma clip_of_integral {n : Nat} (hn : n ≤ 2 ^ 53) {y : Float} (hwithin : (integer 0 n).Within y)
    (hwhole : (integer 0 n).Integral y) :
    units y = toCount ((integer 0 n).clip y) * one := by
  have hy := isNumber_of_within hwithin
  obtain ⟨hlow, hhigh⟩ := (within_integer_iff hn hy).mp hwithin
  obtain ⟨k, -, -, hunits, hcount⟩ := clip_integer_exact hn hy
  have hround := (beq_iff_units (round_whole hy).1 hy).mp hwhole
  rw [hcount, ← hunits, (clip_of_isNumber hy).2, hround, units_ofInt hn]
  omega

/-! ## Continuous genes -/

section

variable {lower upper : Float} (hlower : lower.isFinite) (hupper : upper.isFinite)
  (horder : ¬ upper < lower)

include hlower hupper horder

lemma units_le_of_not_lt : units lower ≤ units upper := by
  have h := mt (lt_iff_units (isNumber_of_isFinite hupper) (isNumber_of_isFinite hlower)).mpr horder
  omega

/-- A number is clipped to one between the bounds. -/
theorem within_clip_continuous {x : Float} (hx : IsNumber x) :
    (continuous lower upper).Within ((continuous lower upper).clip x) := by
  have hl := isNumber_of_isFinite hlower
  have hu := isNumber_of_isFinite hupper
  have hle := units_le_of_not_lt hlower hupper horder
  have hraised : IsNumber (if x < lower then lower else x) ∧
      units lower ≤ units (if x < lower then lower else x) := by
    split
    · exact ⟨hl, Int.le_refl _⟩
    · rename_i h
      exact ⟨hx, Int.not_lt.mp (mt (lt_iff_units hx hl).mpr h)⟩
  change lower ≤ clamp x lower upper ∧ clamp x lower upper ≤ upper
  unfold clamp
  dsimp only
  generalize (if x < lower then lower else x) = raised at hraised
  split
  · exact ⟨(le_iff_units hl hu).mpr hle, (le_iff_units hu hu).mpr (Int.le_refl _)⟩
  · rename_i h
    exact ⟨(le_iff_units hl hraised.1).mpr hraised.2,
      (le_iff_units hraised.1 hu).mpr (Int.not_lt.mp (mt (lt_iff_units hu hraised.1).mpr h))⟩

omit hlower hupper horder in
/-- A number between the bounds is kept, bit by bit. -/
theorem clip_continuous_of_within {y : Float} (h : (continuous lower upper).Within y) :
    (continuous lower upper).clip y = y := by
  obtain ⟨hlow, hhigh⟩ := h
  obtain ⟨hl, hy⟩ := isNumber_of_le hlow
  obtain ⟨-, hu⟩ := isNumber_of_le hhigh
  have hnotBelow : ¬ y < lower := by
    rw [lt_iff_units hy hl]
    exact Int.not_lt.mpr ((le_iff_units hl hy).mp hlow)
  have hnotAbove : ¬ upper < y := by
    rw [lt_iff_units hu hy]
    exact Int.not_lt.mpr ((le_iff_units hy hu).mp hhigh)
  change clamp y lower upper = y
  unfold clamp
  dsimp only
  rw [if_neg hnotBelow, if_neg hnotAbove]

end

end Gene

end Retrofit
