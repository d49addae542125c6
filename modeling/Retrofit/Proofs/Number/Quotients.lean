import Retrofit.Proofs.Number.Zeros

/-!
# Quotients

A greater divisor has a lesser quotient, rounded or not (`units_div_antitone`), zero and infinite
divisors included: a positive number divided by the positive zero is infinite. A divisor that is
itself a quotient of positive numbers may be rounded to zero, but not to the negative zero
(`unsigned_div`).
-/

namespace Retrofit.Number

open Float.Model Float.Model.UnpackedFloat

/-! ## Rounding to the nearest -/

lemma nearest_mul_right (d v : Nat) {k : Nat} (hk : 0 < k) :
    nearest (d * k) (v * k) = nearest d v := by
  unfold nearest
  rw [Nat.mul_div_mul_right _ _ hk, Nat.mul_right_comm, halfEven_mul_right _ _ hk]

/-- A greater divisor has no greater nearest quotient. -/
lemma nearest_antitone {d d' : Nat} (hd : 0 < d) (h : d ≤ d') (v : Nat) :
    nearest d' v ≤ nearest d v := by
  have hd' : 0 < d' := Nat.lt_of_lt_of_le hd h
  calc nearest d' v = nearest (d * d') (v * d) := by
        rw [Nat.mul_comm d d', nearest_mul_right d' v hd]
    _ ≤ nearest (d * d') (v * d') := nearest_mono (Nat.mul_pos hd hd') (Nat.mul_le_mul_left v h)
    _ = nearest d v := nearest_mul_right d v hd'

lemma rounded_antitone {d d' : Nat} (hd : 0 < d) (h : d ≤ d') {v : Int} (hv : 0 ≤ v) :
    rounded d' v ≤ rounded d v := by
  obtain ⟨n, rfl⟩ := Int.eq_ofNat_of_zero_le hv
  have hnearest := nearest_antitone hd h n
  rw [rounded_natCast hd, rounded_natCast (Nat.lt_of_lt_of_le hd h)]
  omega

/-! ## Signs -/

lemma exists_packComponents (s : Sign) (m : Nat) (e : Int) (hm : 0 < m) : ∃ exponent mantissa,
    UnpackedFloat.pack .binary64 (.finite s m e hm) =
      packComponents Format.binary64 s exponent mantissa := by
  unfold UnpackedFloat.pack
  dsimp only
  split_ifs <;> exact ⟨_, _, rfl⟩

/-- A positive value is not packed as the negative zero. -/
lemma unpack_pack_finite_ne (m : Nat) (e : Int) (hm : 0 < m) :
    (Float.Model.pack (.finite .positive m e hm)).unpack ≠ .zero .negative := by
  intro hzero
  obtain ⟨exponent, mantissa, hpack⟩ := exists_packComponents .positive m e hm
  have hbits := (unpack_eq_zero_iff_of_valid (Float.Model.pack _).valid).mp hzero
  have hsign := congrArg (fun bits => Sign.ofBitVec (@unpackSign Format.binary64 bits))
    (hpack.symm.trans hbits)
  unfold packedZero at hsign
  rw [unpackSign_packComponents, unpackSign_packComponents] at hsign
  cases hsign

lemma unpack_pack_roundWithAccuracy_ne (m : Nat) (e : Int) (a : Accuracy) :
    (Float.Model.pack (roundWithAccuracy .binary64 .positive m e a)).unpack ≠
      .zero .negative := by
  unfold roundWithAccuracy
  split
  dsimp only
  split
  · exact unpack_pack_ne (u := .zero .positive) nofun rfl
  · exact unpack_pack_finite_ne _ _ _

/-- A quotient of positive numbers is positive, or the positive zero. -/
lemma plain_div {x y : Float} (hx : x.isFinite) (hxpos : 0 < units x) (hy : y.isFinite)
    (hypos : 0 < units y) : Plain (x / y) := by
  obtain ⟨m, e, hm, hux, -⟩ := unpack_of_units_pos hx hxpos
  obtain ⟨m', e', hm', huy, -⟩ := unpack_of_units_pos hy hypos
  change (Float.Model.pack (UnpackedFloat.div .binary64 x.toModel.unpack
    y.toModel.unpack)).unpack ≠ _
  rw [hux, huy]
  exact unpack_pack_roundWithAccuracy_ne _ _ _

/-! ## Dividing by a positive number -/

lemma units_of_div_infinity {x y : Float} {s : Sign}
    (h : UnpackedFloat.div .binary64 x.toModel.unpack y.toModel.unpack = .infinity s) :
    IsNumber (x / y) ∧ units (x / y) = s.apply beyond := by
  apply units_of_unpack_infinity
  change (Float.Model.pack (UnpackedFloat.div .binary64 x.toModel.unpack
    y.toModel.unpack)).unpack = _
  rw [h, unpack_pack_infinity]

lemma unpack_of_isNumber_pos {x : Float} (hx : IsNumber x) (hpos : 0 < units x) :
    x.toModel.unpack = .infinity .positive ∨ x.isFinite := by
  by_cases hfinite : x.isFinite
  · exact Or.inr hfinite
  · exact Or.inl (unpack_of_not_isFinite hx (Int.le_of_lt hpos) hfinite)

/-- A positive number divided by a finite one, which may be too small for a double. -/
lemma unsigned_div {x y : Float} (hx : IsNumber x) (hxpos : 0 < units x) (hy : y.isFinite)
    (hypos : 0 < units y) : Unsigned (x / y) ∧
      units (x / y) = if units x = beyond then (beyond : Int)
        else rounded (units y).toNat (units x * one) := by
  obtain ⟨m, e, hm, huy, -⟩ := unpack_of_units_pos hy hypos
  have hbeyond := beyond_pos
  rcases unpack_of_isNumber_pos hx hxpos with hux | hfinite
  · obtain ⟨hnumber, hunits⟩ := @units_of_div_infinity x y .positive (by rw [hux, huy]; rfl)
    have hpositive : units (x / y) = beyond := hunits
    have htop : units x = beyond := (units_of_unpack_infinity hux).2
    rw [if_pos htop]
    refine ⟨⟨⟨hnumber, by omega⟩, plain_of_units_ne_zero (by omega)⟩, hpositive⟩
  · obtain ⟨hnumber, hunits⟩ := units_div hfinite hy hypos
    have hlt := (isFinite_iff.mp hfinite).2
    have hnonneg : 0 ≤ units x * one := Int.mul_nonneg (Int.le_of_lt hxpos) (Int.natCast_nonneg _)
    rw [if_neg (by omega)]
    refine ⟨⟨⟨hnumber, ?_⟩, plain_div hfinite hxpos hy hypos⟩, hunits⟩
    rw [hunits]
    exact rounded_nonneg (by omega) hnonneg

/-- No quotient of a positive number by one without a sign is the negative zero. -/
lemma plain_div_unsigned {x y : Float} (hx : IsNumber x) (hpos : 0 < units x) (hy : Unsigned y) :
    Plain (x / y) := by
  by_cases hzero : units y = 0
  · -- The quotient is infinite.
    obtain ⟨s, huy⟩ := unpack_of_units_eq_zero hy.isNumber hzero
    cases s with
    | negative => exact absurd huy hy.ne_zero
    | positive =>
      obtain ⟨-, hunits⟩ := @units_of_div_infinity x y .positive (by
        rcases unpack_of_isNumber_pos hx hpos with hux | hfinite
        · rw [hux, huy]
          rfl
        · obtain ⟨m, e, hm, hux, -⟩ := unpack_of_units_pos hfinite hpos
          rw [hux, huy]
          rfl)
      exact plain_of_units_ne_zero (hunits ▸ Int.ne_of_gt beyond_pos)
  · have hposy : 0 < units y := Int.lt_iff_le_and_ne.mpr ⟨hy.nonneg, Ne.symm hzero⟩
    rcases unpack_of_isNumber_pos hy.isNumber hposy with huy | hfinite
    · -- The quotient by infinity is zero, or undefined.
      change (Float.Model.pack (UnpackedFloat.div .binary64 x.toModel.unpack
        y.toModel.unpack)).unpack ≠ _
      rcases unpack_of_isNumber_pos hx hpos with hux | hfinite
      · rw [hux, huy]
        exact unpack_pack_ne (u := .notANumber) nofun rfl
      · obtain ⟨m, e, hm, hux, -⟩ := unpack_of_units_pos hfinite hpos
        rw [hux, huy]
        exact unpack_pack_ne (u := .zero .positive) nofun rfl
    · exact (unsigned_div hx hpos hfinite hposy).1.ne_zero

lemma units_div_mono {x x' y : Float} (hx : IsNumber x) (hx' : IsNumber x') (hpos : 0 < units x)
    (h : units x ≤ units x') (hy : y.isFinite) (hypos : 0 < units y) :
    units (x / y) ≤ units (x' / y) := by
  have hbound := natAbs_units_le (unsigned_div hx hpos hy hypos).1.isNumber
  have hboundx := natAbs_units_le hx
  have hboundx' := natAbs_units_le hx'
  have hrounded : rounded (units y).toNat (units x * one) ≤ rounded (units y).toNat (units x' * one) :=
    rounded_mono (by omega) (Int.mul_le_mul_of_nonneg_right h (Int.natCast_nonneg _))
  obtain ⟨-, hunits⟩ := unsigned_div hx hpos hy hypos
  obtain ⟨-, hunits'⟩ := unsigned_div hx' (by omega) hy hypos
  split_ifs at hunits hunits' <;> omega

/-! ## Dividing a positive number -/

/-- A finite number divided by zero is infinite, and divided by an infinite number it is zero. -/
lemma units_div_unsigned {c d : Float} (hc : c.isFinite) (hpos : 0 < units c) (hd : Unsigned d) :
    IsNumber (c / d) ∧ units (c / d) = if units d = 0 then (beyond : Int)
      else if units d = beyond then 0 else rounded (units d).toNat (units c * one) := by
  obtain ⟨m, e, hm, huc, -⟩ := unpack_of_units_pos hc hpos
  have hbeyond := beyond_pos
  have hnonneg := hd.nonneg
  split_ifs with hzero hinfinite
  · obtain ⟨s, hs⟩ := unpack_of_units_eq_zero hd.isNumber hzero
    cases s with
    | negative => exact absurd hs hd.ne_zero
    | positive => exact @units_of_div_infinity c d .positive (by rw [huc, hs]; rfl)
  · have hfinite : ¬ d.isFinite := fun h => by
      have hlt := (isFinite_iff.mp h).2
      omega
    have hud := unpack_of_not_isFinite hd.isNumber hnonneg hfinite
    have hquotient : (c / d).toModel =
        Float.Model.pack (UnpackedFloat.div .binary64 c.toModel.unpack d.toModel.unpack) := rfl
    rw [huc, hud] at hquotient
    exact units_of_pack_zero hquotient
  · have hle := natAbs_units_le hd.isNumber
    exact units_div hc (isFinite_iff.mpr ⟨hd.isNumber, by omega⟩) (by omega)

/-- A positive number has a lesser quotient by a greater divisor. -/
theorem units_div_antitone {c d d' : Float} (hc : c.isFinite) (hpos : 0 < units c)
    (hd : Unsigned d) (hd' : Unsigned d') (h : units d ≤ units d') :
    units (c / d') ≤ units (c / d) := by
  have hnonneg := hd.nonneg
  have hproduct : 0 ≤ units c * one := Int.mul_nonneg (Int.le_of_lt hpos) (Int.natCast_nonneg _)
  have hboundd := natAbs_units_le hd.isNumber
  have hboundd' := natAbs_units_le hd'.isNumber
  obtain ⟨hnumber, hunits⟩ := units_div_unsigned hc hpos hd
  obtain ⟨hnumber', hunits'⟩ := units_div_unsigned hc hpos hd'
  have hbound := natAbs_units_le hnumber
  have hbound' := natAbs_units_le hnumber'
  by_cases hzero : units d = 0
  · rw [if_pos hzero] at hunits
    omega
  · have hantitone := @rounded_antitone (units d).toNat (units d').toNat (by omega) (by omega) _
      hproduct
    have hrounded := @rounded_nonneg (units d).toNat (by omega) _ hproduct
    rw [if_neg hzero] at hunits
    rw [if_neg (by omega)] at hunits'
    split_ifs at hunits hunits' <;> omega

end Retrofit.Number
