import Retrofit.Proofs.Number.Bits
import Retrofit.Proofs.Random.Bounds

/-!
# Drawn numbers

Unit values lie between zero and the greatest one (`always_unit`). The scale of a range is lowered
until the greatest unit value does not leave the range (`scales_of_width`); as rounding is monotone,
no other unit value leaves it either (`within_of_scales`).
-/

namespace Retrofit.Random

open Number
open Float.Model

variable {γ : Type} [Source γ]

/-! ## Unit values -/

lemma unpack_greatestUnit :
    greatestUnit.toModel.unpack = .finite .positive (2 ^ 53 - 2) (-53) (by decide) := rfl

lemma isFinite_greatestUnit : greatestUnit.isFinite :=
  isFinite_iff.mpr ⟨isNumber_iff.mpr (by rw [unpack_greatestUnit]; exact nofun), by
    rw [units_of_unpack unpack_greatestUnit, natAbs_apply]
    exact magnitude_lt_beyond (canonical_of_unpack unpack_greatestUnit).1 (by decide)⟩

lemma units_greatestUnit : units greatestUnit = magnitude (2 ^ 52 - 1) (-52) := by
  have hmantissa : (2 ^ 52 - 1) * 2 ^ 1 = 2 ^ 53 - 2 := by decide
  have hexponent : (-53 : Int) + (1 : Nat) = -52 := by decide
  have hshift := magnitude_add (2 ^ 52 - 1) (-53) (by decide) 1
  rw [hmantissa, hexponent] at hshift
  rw [units_of_unpack unpack_greatestUnit, hshift,
    UnpackedFloat.Sign.apply]

lemma one_eq_magnitude : one = magnitude (2 ^ 52) (-52) := by
  have h := units_of_unpack unpack_one
  rw [units_one] at h
  exact Int.ofNat_inj.mp h

/-- Unit values are finite and lie between zero and the greatest one. -/
def IsUnit (u : Float) : Prop := u.isFinite ∧ 0 ≤ units u ∧ units u ≤ units greatestUnit

theorem always_unit : Always (unit : Draw γ Float) IsUnit := by
  refine always_bind always_word64 fun word hword => always_pure ?_
  rw [Nat.one_shiftLeft] at hword
  have hk : word / 4096 < 2 ^ 52 := by omega
  generalize word / 4096 = k at hk
  have hunpack := unpack_ofBits_one hk
  generalize Float.ofBits (0x3ff0000000000000 + UInt64.ofNat k) = a at hunpack
  have ha : a.isFinite := congrArg UnpackedFloat.isFinite hunpack
  have hunits : units a = magnitude (2 ^ 52 + k) (-52) := units_of_unpack hunpack
  -- The difference is `k` times the least step above one.
  have hdiff : units a - one = magnitude k (-52) := by
    rw [hunits, one_eq_magnitude]
    unfold magnitude
    rw [Nat.add_mul]
    omega
  obtain ⟨hnumber, hround⟩ := units_sub ha isFinite_one
  rw [units_one, hdiff] at hround
  have hle : (magnitude k (-52) : Int) ≤ units greatestUnit * (1 : Nat) := by
    rw [units_greatestUnit, Int.natCast_one, Int.mul_one]
    exact Int.ofNat_le.mpr (Nat.mul_le_mul_right _ (by omega))
  have hlow : 0 ≤ units (a - 1.0) := by
    rw [hround]
    exact rounded_nonneg Nat.one_pos (Int.natCast_nonneg _)
  have hhigh : units (a - 1.0) ≤ units greatestUnit := by
    rw [hround]
    exact rounded_le (isNumber_of_isFinite isFinite_greatestUnit) Nat.one_pos hle
  have hlt := (isFinite_iff.mp isFinite_greatestUnit).2
  exact ⟨isFinite_iff.mpr ⟨hnumber, by omega⟩, hlow, hhigh⟩

lemma units_greatestUnit_le : units greatestUnit ≤ one := by
  rw [units_greatestUnit, one_eq_magnitude]
  exact Int.ofNat_le.mpr (Nat.mul_le_mul_right _ (by decide))

/-! ## Scales -/

/-- A scale under which no unit value goes above the range. -/
structure Scales (low high scale : Float) : Prop where
  finite : scale.isFinite
  nonneg : 0 ≤ units scale
  bound : ¬ high < scale * greatestUnit + low

section

variable {low high : Float} (hlow : low.isFinite) (hhigh : high.isFinite)
  (horder : units low ≤ units high)
include hlow hhigh horder

/-- A scale of zero goes nowhere. -/
lemma scales_of_units_eq_zero {scale : Float} (hfinite : scale.isFinite) (h : units scale = 0) :
    Scales low high scale := by
  obtain ⟨hproduct, hzero⟩ := units_mul hfinite isFinite_greatestUnit
  rw [h, Int.zero_mul, rounded_zero] at hzero
  have hbeyond := beyond_pos
  have hsmall : (scale * greatestUnit).isFinite := isFinite_iff.mpr ⟨hproduct, by omega⟩
  obtain ⟨hnumber, hsum⟩ := units_add hsmall hlow
  rw [hzero, Int.zero_add, rounded_one_units (isNumber_of_isFinite hlow)] at hsum
  refine ⟨hfinite, Int.le_of_eq h.symm, ?_⟩
  rw [lt_iff_units (isNumber_of_isFinite hhigh) hnumber]
  omega

lemma scales_scaleWithin {bits : Nat} (h : bits < infinityBits) :
    Scales low high (scaleWithin low high bits) := by
  induction bits with
  | zero => exact scales_of_units_eq_zero hlow hhigh horder isFinite_zero units_zero
  | succ bits ih =>
    have hbits : (UInt64.ofNat (bits + 1)).toNat < infinityBits := by
      rw [UInt64.toNat_ofNat_of_lt' (Nat.lt_trans h (by decide))]
      exact h
    obtain ⟨hfinite, hnonneg⟩ := isFinite_ofBits hbits
    unfold scaleWithin
    dsimp only
    split
    · exact ih (by omega)
    · rename_i hbound
      exact ⟨hfinite, hnonneg, hbound⟩

/-- From a finite width that is not negative the search ends with a scale that fits. -/
theorem scales_of_width {width : Float} (hfinite : width.isFinite) (hnonneg : 0 ≤ units width) :
    Scales low high (scaleWithin low high width.toBits.toNat) := by
  rcases Int.lt_or_le 0 (units width) with hpos | hzero
  · obtain ⟨m, e, hm, hunpack, -⟩ := unpack_of_units_pos hfinite hpos
    exact scales_scaleWithin hlow hhigh horder (toBits_lt_of_positive hunpack)
  · -- A negative zero has more bits than any positive number, but it fits at once.
    have hwidth : units width = 0 := by omega
    cases hbits : width.toBits.toNat with
    | zero => exact scales_of_units_eq_zero hlow hhigh horder isFinite_zero units_zero
    | succ bits =>
      have hword : UInt64.ofNat (bits + 1) = width.toBits := by
        rw [← hbits, UInt64.ofNat_toNat]
      have hunpack : (Float.ofBits (UInt64.ofNat (bits + 1))).toModel.unpack =
          width.toModel.unpack := by
        rw [hword, unpack_ofBits]
        rfl
      have hscale : Scales low high (Float.ofBits (UInt64.ofNat (bits + 1))) := by
        apply scales_of_units_eq_zero hlow hhigh horder
        · exact (congrArg UnpackedFloat.isFinite hunpack).trans hfinite
        · rw [units, hunpack]
          exact hwidth
      unfold scaleWithin
      dsimp only
      rw [if_neg hscale.bound]
      exact hscale

omit horder in
/-- No unit value leaves the range. -/
theorem within_of_scales {scale u : Float} (hscale : Scales low high scale) (hu : IsUnit u) :
    IsNumber (u * scale + low) ∧ units low ≤ units (u * scale + low) ∧
      units (u * scale + low) ≤ units high := by
  obtain ⟨hfinite, hnonneg, hle⟩ := hu
  have hunit := units_greatestUnit_le
  have hnonneg' := hscale.nonneg
  obtain ⟨hplaced, -⟩ := isFinite_mul hfinite hnonneg (by omega) hscale.finite
  obtain ⟨-, hmost⟩ := isFinite_mul isFinite_greatestUnit (by omega) hunit hscale.finite
  have horder : units (u * scale) ≤ units (scale * greatestUnit) := by
    rw [(units_mul hfinite hscale.finite).2, (units_mul hscale.finite isFinite_greatestUnit).2,
      Int.mul_comm]
    exact rounded_mono Number.one_pos (Int.mul_le_mul_of_nonneg_left hle hnonneg')
  have hsign : 0 ≤ units (u * scale) := by
    rw [(units_mul hfinite hscale.finite).2]
    exact rounded_nonneg Number.one_pos (Int.mul_nonneg hnonneg hnonneg')
  obtain ⟨hnumber, hsum⟩ := units_add hplaced hlow
  obtain ⟨hnumber', hsum'⟩ := units_add hmost hlow
  have hbound := hscale.bound
  rw [lt_iff_units (isNumber_of_isFinite hhigh) hnumber', hsum'] at hbound
  refine ⟨hnumber, ?_, ?_⟩
  · rw [hsum]
    exact le_rounded (isNumber_of_isFinite hlow) Nat.one_pos (by omega)
  · have hmono : rounded 1 (units (u * scale) + units low) ≤
        rounded 1 (units (scale * greatestUnit) + units low) :=
      rounded_mono Nat.one_pos (by omega)
    omega

end

end Retrofit.Random
