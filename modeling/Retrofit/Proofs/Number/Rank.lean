import Retrofit.Number
import Retrofit.Proofs.Number.Bits

/-!
# The total order and the values of numbers

The bits of a double, its sign left out, grow with its size, subnormal, normal and infinite doubles
alike. So the total order that sorting goes by (`Number.rank`) never contradicts the values of
numbers (`units_le_of_rank_le`), and among numbers of zero or more it is the order of the values
(`Unsigned.rank_le_iff`), the negative zero left out.
-/

namespace Retrofit.Number

open Float.Model Float.Model.UnpackedFloat

/-- The units of the double that is not negative and has the given bits. -/
def sizeOfBits (k : Nat) : Nat :=
  if k / 2 ^ 52 = 0 then k else (2 ^ 52 + k % 2 ^ 52) * 2 ^ (k / 2 ^ 52 - 1)

lemma sizeOfBits_lt {k l : Nat} (h : k < l) : sizeOfBits k < sizeOfBits l := by
  have hmantissa := Nat.mod_lt k (Nat.two_pow_pos 52)
  have hdivk := Nat.div_add_mod k (2 ^ 52)
  have hdivl := Nat.div_add_mod l (2 ^ 52)
  unfold sizeOfBits
  by_cases hl : l / 2 ^ 52 = 0
  · rw [if_pos hl, if_pos (by omega)]
    exact h
  · rw [if_neg hl]
    have hlarge : 2 ^ 52 * 2 ^ (l / 2 ^ 52 - 1) ≤
        (2 ^ 52 + l % 2 ^ 52) * 2 ^ (l / 2 ^ 52 - 1) :=
      Nat.mul_le_mul_right _ (Nat.le_add_right _ _)
    by_cases hk : k / 2 ^ 52 = 0
    · rw [if_pos hk]
      have hone := Nat.two_pow_pos (l / 2 ^ 52 - 1)
      omega
    · rw [if_neg hk]
      have hpos := Nat.two_pow_pos (k / 2 ^ 52 - 1)
      rcases Nat.lt_or_eq_of_le (Nat.div_le_div_right (c := 2 ^ 52) (Nat.le_of_lt h)) with hlt | heq
      · calc (2 ^ 52 + k % 2 ^ 52) * 2 ^ (k / 2 ^ 52 - 1)
            < 2 ^ 53 * 2 ^ (k / 2 ^ 52 - 1) := Nat.mul_lt_mul_of_pos_right (by omega) hpos
          _ = 2 ^ (52 + k / 2 ^ 52) := by rw [← Nat.pow_add]; congr 1; omega
          _ ≤ 2 ^ (52 + (l / 2 ^ 52 - 1)) := Nat.pow_le_pow_right (by omega) (by omega)
          _ = 2 ^ 52 * 2 ^ (l / 2 ^ 52 - 1) := Nat.pow_add ..
          _ ≤ _ := hlarge
      · rw [heq] at hpos ⊢
        exact Nat.mul_lt_mul_of_pos_right (by omega) hpos

lemma sizeOfBits_infinity : sizeOfBits infinityBits = beyond := by
  have hsize : ∀ n, (2 ^ 52 + 0) * 2 ^ n = 2 ^ (52 + n) := fun n => (Nat.pow_add 2 52 n).symm
  have hexponent : infinityBits / 2 ^ 52 - 1 = 2046 := by decide
  have hmantissa : infinityBits % 2 ^ 52 = 0 := by decide
  have hlimit : limit = 52 + 2046 := by decide
  unfold sizeOfBits beyond
  rw [if_neg (by decide), hexponent, hmantissa, hlimit, hsize]

/-- The value that bits stand for: those without the sign tell its size. -/
lemma unpackedUnits_unpack {bits : BitVec Format.binary64.numBits}
    (h : UnpackedFloat.unpack Format.binary64 bits ≠ .notANumber) :
    unpackedUnits (UnpackedFloat.unpack Format.binary64 bits) =
      (Sign.ofBitVec (unpackSign bits)).apply (sizeOfBits (bits.toNat % 2 ^ 63)) := by
  have hlt : bits.toNat < 2 ^ 64 := bits.isLt
  have hexponent : bits.toNat % 2 ^ 63 / 2 ^ 52 = (unpackExponent bits).toNat := by
    rw [toNat_unpackExponent]
    omega
  have hmantissa : bits.toNat % 2 ^ 63 % 2 ^ 52 = (unpackMantissa bits).toNat := by
    rw [toNat_unpackMantissa]
    omega
  have hdiv := Nat.div_add_mod (bits.toNat % 2 ^ 63) (2 ^ 52)
  have hbias : Format.binary64.exponentBias = 1023 := by decide
  unfold UnpackedFloat.unpack at h ⊢
  dsimp only at h ⊢
  by_cases htop : unpackExponent bits = -1#11
  · have htopNat : (unpackExponent bits).toNat = 2047 := congrArg BitVec.toNat htop
    rw [if_pos htop] at h ⊢
    by_cases hzero : unpackMantissa bits = 0#52
    · have hzeroNat : (unpackMantissa bits).toNat = 0 := congrArg BitVec.toNat hzero
      have hbits : bits.toNat % 2 ^ 63 = infinityBits := by
        unfold infinityBits
        omega
      rw [if_pos hzero, hbits, sizeOfBits_infinity]
      rfl
    · rw [if_neg hzero] at h
      exact absurd rfl h
  · rw [if_neg htop]
    by_cases hbottom : unpackExponent bits = 0#11
    · have hbottomNat : (unpackExponent bits).toNat = 0 := congrArg BitVec.toNat hbottom
      have hsize : bits.toNat % 2 ^ 63 = (unpackMantissa bits).toNat := by omega
      unfold sizeOfBits
      rw [if_pos hbottom, hexponent, hbottomNat, if_pos rfl, hsize]
      by_cases hzero : unpackMantissa bits = 0#52
      · rw [dif_pos hzero, hzero]
        cases Sign.ofBitVec (unpackSign bits) <;> rfl
      · rw [dif_neg hzero]
        change Sign.apply _ (magnitude _ _ : Int) = _
        congr 2
        unfold magnitude
        rw [hbias]
        exact Nat.mul_one _
    · have hbottomNat : (unpackExponent bits).toNat ≠ 0 :=
        fun heq => hbottom (BitVec.eq_of_toNat_eq heq)
      unfold sizeOfBits
      rw [if_neg hbottom, hexponent, hmantissa, if_neg hbottomNat, ← toNat_normal]
      change Sign.apply _ (magnitude _ _ : Int) = _
      congr 2
      unfold magnitude
      rw [hbias]
      congr 2
      change ((_ : Int) - (1023 + 52) + 1074).toNat = _
      omega

lemma units_eq_apply {x : Float} (hx : IsNumber x) :
    units x = (if x.toBits.toNat < 2 ^ 63 then Sign.positive else .negative).apply
      (sizeOfBits (x.toBits.toNat % 2 ^ 63)) := by
  let bits : BitVec Format.binary64.numBits := x.toModel.toBits.toBitVec
  have hlt : bits.toNat < 2 ^ 64 := bits.isLt
  have hsign : Sign.ofBitVec (unpackSign bits) =
      if bits.toNat < 2 ^ 63 then Sign.positive else .negative := by
    split_ifs with h
    · exact ofBitVec_eq_positive_iff.mpr (by omega)
    · have hnot : Sign.ofBitVec (unpackSign bits) ≠ .positive :=
        mt ofBitVec_eq_positive_iff.mp (by omega)
      cases hsign : Sign.ofBitVec (unpackSign bits) with
      | negative => rfl
      | positive => exact absurd hsign hnot
  have hunits := @unpackedUnits_unpack bits (isNumber_iff.mp hx)
  rw [hsign] at hunits
  exact hunits

lemma rank_eq (x : Float) : rank x =
    if x.toBits.toNat < 2 ^ 63 then ((x.toBits.toNat % 2 ^ 63 : Nat) : Int)
    else -((x.toBits.toNat % 2 ^ 63 : Nat) : Int) - 1 := by
  have hlt := x.toBits.toNat_lt
  have hsign : x.toBits < 0x8000000000000000 ↔ x.toBits.toNat < 2 ^ 63 := UInt64.lt_iff_toNat_lt
  unfold rank
  dsimp only
  by_cases h : x.toBits.toNat < 2 ^ 63
  · rw [if_pos (hsign.mpr h), if_pos h]
    omega
  · have hsub := UInt64.toNat_sub_of_le _ _ (UInt64.not_lt.mp (mt hsign.mp h))
    have hbig : (0x8000000000000000 : UInt64).toNat = 2 ^ 63 := by decide
    rw [if_neg (mt hsign.mp h), if_neg h, hsub, hbig]
    omega

lemma sizeOfBits_le {k l : Nat} (h : k ≤ l) : sizeOfBits k ≤ sizeOfBits l := by
  rcases Nat.lt_or_eq_of_le h with hlt | rfl
  · exact Nat.le_of_lt (sizeOfBits_lt hlt)
  · exact Nat.le_refl _

/-- A number that does not come after another is not greater. -/
theorem units_le_of_rank_le {x y : Float} (hx : IsNumber x) (hy : IsNumber y)
    (h : rank x ≤ rank y) : units x ≤ units y := by
  rw [rank_eq, rank_eq] at h
  rw [units_eq_apply hx, units_eq_apply hy]
  split_ifs at h ⊢ with hposx hposy hposy
  · exact Int.ofNat_le.mpr (sizeOfBits_le (by omega))
  · omega
  · dsimp only [Sign.apply]
    omega
  · exact Int.neg_le_neg (Int.ofNat_le.mpr (sizeOfBits_le (by omega)))

/-- The lesser of two numbers comes first. -/
lemma rank_lt_of_units_lt {x y : Float} (hx : IsNumber x) (hy : IsNumber y)
    (h : units x < units y) : rank x < rank y := by
  refine Int.not_le.mp fun hle => ?_
  have hunits := units_le_of_rank_le hy hx hle
  omega

/-- What comes before another number in the total order is not greater, undefined or not. -/
lemma not_lt_of_rank_le {x y : Float} (h : rank x ≤ rank y) : ¬ y < x := by
  by_cases hnumbers : IsNumber y ∧ IsNumber x
  · rw [lt_iff_units hnumbers.1 hnumbers.2, Int.not_lt]
    exact units_le_of_rank_le hnumbers.2 hnumbers.1 h
  · exact not_lt_of_not_isNumber (Decidable.not_and_iff_or_not.mp hnumbers)

/-! ## Numbers without a sign -/

structure NonNegative (x : Float) : Prop where
  isNumber : IsNumber x
  nonneg : 0 ≤ units x

/-- A number that is neither negative nor the negative zero. -/
structure Unsigned (x : Float) : Prop extends NonNegative x where
  ne_zero : x.toModel.unpack ≠ .zero .negative

lemma eq_zero_of_sizeOfBits {k : Nat} (h : sizeOfBits k = 0) : k = 0 := by
  refine Nat.eq_zero_of_not_pos fun hpos => ?_
  have hlt := sizeOfBits_lt hpos
  omega

lemma Unsigned.toBits_lt {x : Float} (hx : Unsigned x) : x.toBits.toNat < 2 ^ 63 := by
  refine Nat.not_le.mp fun hle => ?_
  have hnot := Nat.not_lt.mpr hle
  have hnonneg := hx.nonneg
  rw [units_eq_apply hx.isNumber, if_neg hnot] at hnonneg
  dsimp only [Sign.apply] at hnonneg
  have hbits : x.toBits.toNat % 2 ^ 63 = 0 := eq_zero_of_sizeOfBits (by omega)
  have hlt := x.toBits.toNat_lt
  have hzero : x.toModel.toBits = 0x8000000000000000 := UInt64.toNat_inj.mp (by
    have hbig : (0x8000000000000000 : UInt64).toNat = 2 ^ 63 := by decide
    change x.toBits.toNat = _
    omega)
  apply hx.ne_zero
  unfold Float.Model.unpack
  rw [hzero]
  rfl

/-- Numbers without a sign are ordered by their values. -/
theorem Unsigned.rank_le_iff {x y : Float} (hx : Unsigned x) (hy : Unsigned y) :
    rank x ≤ rank y ↔ units x ≤ units y := by
  refine ⟨units_le_of_rank_le hx.isNumber hy.isNumber, fun h => ?_⟩
  rw [units_eq_apply hx.isNumber, units_eq_apply hy.isNumber, if_pos hx.toBits_lt,
    if_pos hy.toBits_lt] at h
  rw [rank_eq, rank_eq, if_pos hx.toBits_lt, if_pos hy.toBits_lt]
  refine Int.not_lt.mp fun hlt => ?_
  have hsize := sizeOfBits_lt (Int.ofNat_lt.mp hlt)
  exact absurd (Int.ofNat_le.mp h) (Nat.not_le.mpr hsize)

end Retrofit.Number
