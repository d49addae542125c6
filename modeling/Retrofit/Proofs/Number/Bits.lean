import Retrofit.Proofs.Number.Arithmetic

/-!
# The bits of finite numbers

The finite doubles that are not negative are those with bits below the ones of infinity, up to the
sign of zero. The doubles in `[1, 2)` have the bits of one and any mantissa.
-/

namespace Retrofit.Number

open Float.Model Float.Model.UnpackedFloat

lemma toNat_unpackExponent (bits : BitVec Format.binary64.numBits) :
    (unpackExponent bits).toNat = bits.toNat / 2 ^ 52 % 2 ^ 11 := by
  rw [← Nat.shiftRight_eq_div_pow]
  rfl

lemma toNat_unpackMantissa (bits : BitVec Format.binary64.numBits) :
    (unpackMantissa bits).toNat = bits.toNat % 2 ^ 52 := by
  have h : (unpackMantissa bits).toNat = bits.toNat >>> 0 % 2 ^ 52 := rfl
  rwa [Nat.shiftRight_zero] at h

lemma toNat_unpackSign (bits : BitVec Format.binary64.numBits) :
    (unpackSign bits).toNat = bits.toNat / 2 ^ 63 % 2 ^ 1 := by
  rw [← Nat.shiftRight_eq_div_pow]
  rfl

lemma ofBitVec_eq_positive_iff {bits : BitVec Format.binary64.numBits} :
    Sign.ofBitVec (unpackSign bits) = .positive ↔ bits.toNat / 2 ^ 63 % 2 ^ 1 = 0 := by
  rw [← toNat_unpackSign]
  unfold Sign.ofBitVec
  split
  · rename_i h
    exact iff_of_true rfl (congrArg BitVec.toNat h)
  · rename_i h
    exact iff_of_false nofun fun hzero => h (BitVec.eq_of_toNat_eq hzero)

/-- The bits of infinity. -/
def infinityBits : Nat := 2047 * 2 ^ 52

lemma toBits_lt_of_positive {x : Float} {m : Nat} {e : Int} {hm : 0 < m}
    (h : x.toModel.unpack = .finite .positive m e hm) : x.toBits.toNat < infinityBits := by
  let bits : BitVec Format.binary64.numBits := x.toModel.toBits.toBitVec
  obtain ⟨hsign, htop, -⟩ := @cases_of_unpack bits .positive m e hm h
  have hbit := ofBitVec_eq_positive_iff.mp hsign.symm
  have hexponent : bits.toNat / 2 ^ 52 % 2 ^ 11 ≠ 2047 := by
    rw [← toNat_unpackExponent]
    exact fun heq => htop (BitVec.eq_of_toNat_eq heq)
  have hlt := x.toBits.toNat_lt
  change bits.toNat < 2 ^ 64 at hlt
  change bits.toNat < infinityBits
  unfold infinityBits
  omega

/-- Bits below those of infinity stand for a finite double that is not negative. -/
lemma isFinite_ofBits {bits : UInt64} (h : bits.toNat < infinityBits) :
    (Float.ofBits bits).isFinite ∧ 0 ≤ units (Float.ofBits bits) := by
  let b : BitVec Format.binary64.numBits := bits.toBitVec
  have hb : b.toNat < infinityBits := h
  unfold infinityBits at hb
  have hsign : Sign.ofBitVec (unpackSign b) = .positive :=
    ofBitVec_eq_positive_iff.mpr (by omega)
  have htop : unpackExponent b ≠ -1#11 := by
    intro heq
    have hexponent := congrArg BitVec.toNat heq
    rw [toNat_unpackExponent] at hexponent
    change _ = 2047 at hexponent
    omega
  have hunpack : UnpackedFloat.unpack Format.binary64 b = .zero .positive ∨
      ∃ m e hm, UnpackedFloat.unpack Format.binary64 b = .finite .positive m e hm := by
    unfold UnpackedFloat.unpack
    dsimp only
    rw [hsign, if_neg htop]
    by_cases hbottom : unpackExponent b = 0#11
    · rw [if_pos hbottom]
      by_cases hzero : unpackMantissa b = 0#52
      · rw [dif_pos hzero]
        exact Or.inl rfl
      · have hpos : (unpackMantissa b).toNat ≠ 0 := fun h => hzero (BitVec.eq_of_toNat_eq h)
        rw [dif_neg hzero]
        exact Or.inr ⟨_, _, Nat.pos_of_ne_zero hpos, rfl⟩
    · have hpos : 0 < (1#1 ++ unpackMantissa b).toNat := by
        have h := toNat_normal (unpackMantissa b)
        omega
      rw [if_neg hbottom]
      exact Or.inr ⟨_, _, hpos, rfl⟩
  have hfinite : (Float.ofBits bits).isFinite =
      (UnpackedFloat.unpack Format.binary64 b).isFinite :=
    congrArg UnpackedFloat.isFinite (unpack_ofBits bits)
  rw [hfinite, units, unpack_ofBits]
  change _ ∧ 0 ≤ unpackedUnits (UnpackedFloat.unpack Format.binary64 b)
  rcases hunpack with hzero | ⟨m, e, hm, hpos⟩
  · rw [hzero]
    exact ⟨rfl, Int.le_refl 0⟩
  · rw [hpos]
    exact ⟨rfl, Int.natCast_nonneg _⟩

/-- The double between one and two with the given mantissa. -/
lemma unpack_ofBits_one {k : Nat} (hk : k < 2 ^ 52) :
    (Float.ofBits (0x3ff0000000000000 + UInt64.ofNat k)).toModel.unpack =
      .finite .positive (2 ^ 52 + k) (-52) (by omega) := by
  let b : BitVec Format.binary64.numBits := (0x3ff0000000000000 + UInt64.ofNat k).toBitVec
  have hb : b.toNat = 1023 * 2 ^ 52 + k := by
    change (0x3ff0000000000000 + UInt64.ofNat k).toNat = _
    rw [UInt64.toNat_add, UInt64.toNat_ofNat_of_lt' (by change k < 2 ^ 64; omega)]
    change (1023 * 2 ^ 52 + k) % 2 ^ 64 = _
    omega
  have hsign : Sign.ofBitVec (unpackSign b) = .positive :=
    ofBitVec_eq_positive_iff.mpr (by omega)
  have hexponent : (unpackExponent b).toNat = 1023 := by
    rw [toNat_unpackExponent]
    omega
  have hmantissa : (unpackMantissa b).toNat = k := by
    rw [toNat_unpackMantissa]
    omega
  have htop : unpackExponent b ≠ -1#11 := by
    intro heq
    have h := congrArg BitVec.toNat heq
    rw [hexponent] at h
    cases h
  have hbottom : unpackExponent b ≠ 0#11 := by
    intro heq
    have h := congrArg BitVec.toNat heq
    rw [hexponent] at h
    cases h
  rw [unpack_ofBits]
  change UnpackedFloat.unpack Format.binary64 b = _
  unfold UnpackedFloat.unpack
  dsimp only
  rw [if_neg htop, if_neg hbottom]
  refine finite_congr hsign ?_ ?_
  · rw [← hmantissa]
    exact toNat_normal (unpackMantissa b)
  · rw [hexponent]
    rfl

end Retrofit.Number
