import Mathlib.Tactic.Ring
import Retrofit.Proofs.Number.Shares
import Retrofit.Proofs.Number.Zeros

/-!
# Steps of a width

A width is divided into equal steps, and places are found by multiplying a step. Both operations
round, but rounding to a normal double enlarges a value by one part in `2 ^ 53` at most
(`mul_rounded_le`). So steps that are normal, and of which there are no more than `2 ^ 51`, do not
lead beyond the width as long as one of them is left out (`units_steps_le`). From an infinite width
there are only infinite steps, and nothing times such a step is undefined.
-/

namespace Retrofit.Number

open Float.Model Float.Model.UnpackedFloat

/-! ## The error of rounding -/

lemma two_mul_halfEven_le (n d : Nat) : 2 * (d * halfEven n d) ≤ 2 * n + d := by
  have hdivide := Nat.div_add_mod n d
  unfold halfEven
  split_ifs with hless hmore
  · omega
  · rw [Nat.mul_add, Nat.mul_one]
    omega
  · have hparity : d * (n / d % 2) ≤ d := by
      have hbit : n / d % 2 ≤ 1 := by omega
      exact (Nat.mul_le_mul_left d hbit).trans_eq (Nat.mul_one d)
    rw [Nat.mul_add]
    omega

/-- The least normal double. -/
def leastNormal : Float := Float.ofBits 0x0010000000000000

lemma units_leastNormal : units leastNormal = 2 ^ 52 := by decide +kernel

/-- Rounding to a normal double enlarges a quotient by one part in `2 ^ 53` at most. -/
theorem mul_nearest_le {d v : Nat} (hd : 0 < d) (hnormal : 2 ^ 52 ≤ nearest d v) :
    (2 ^ 53 - 1) * (d * nearest d v) ≤ 2 ^ 53 * v := by
  have herror := two_mul_halfEven_le v (d * 2 ^ dropped (v / d))
  have hmantissa : 2 ^ 52 ≤ halfEven v (d * 2 ^ dropped (v / d)) := by
    rcases Nat.eq_zero_or_pos (dropped (v / d)) with hzero | hpos
    · unfold nearest at hnormal
      rw [hzero, Nat.pow_zero, Nat.mul_one (halfEven ..)] at hnormal
      rwa [hzero, Nat.pow_zero]
    · exact le_halfEven_dropped hd hpos
  have hulp := Nat.mul_le_mul_left (d * 2 ^ dropped (v / d)) hmantissa
  have hvalue : d * nearest d v =
      d * 2 ^ dropped (v / d) * halfEven v (d * 2 ^ dropped (v / d)) := by
    unfold nearest
    rw [Nat.mul_assoc, Nat.mul_comm (2 ^ _)]
  rw [hvalue]
  generalize d * 2 ^ dropped (v / d) * halfEven v (d * 2 ^ dropped (v / d)) = value at *
  omega

lemma mul_rounded_le {d : Nat} (hd : 0 < d) {v : Int} (hv : 0 ≤ v)
    (hnormal : 2 ^ 52 ≤ rounded d v) : (2 ^ 53 - 1) * (d * rounded d v) ≤ 2 ^ 53 * v := by
  obtain ⟨n, rfl⟩ := Int.eq_ofNat_of_zero_le hv
  rw [rounded_natCast hd] at hnormal ⊢
  have hnearest := mul_nearest_le hd (v := n) (by omega)
  have hmin := Nat.mul_le_mul_left d (Nat.min_le_left (nearest d n) beyond)
  rw [← Int.natCast_mul]
  omega

lemma mul_units_sub_le {x y : Float} (hx : x.isFinite) (hy : y.isFinite)
    (horder : units y ≤ units x) (hnormal : 2 ^ 52 ≤ units (x - y)) :
    (2 ^ 53 - 1) * units (x - y) ≤ 2 ^ 53 * (units x - units y) := by
  have hunits := (units_sub hx hy).2
  have herror := mul_rounded_le Nat.one_pos (Int.sub_nonneg_of_le horder) (hunits ▸ hnormal)
  rwa [← hunits, Int.natCast_one, Int.one_mul] at herror

lemma mul_units_div_le {x : Float} {n : Nat} (hx : x.isFinite) (hnonneg : 0 ≤ units x) (hn : 0 < n)
    (hexact : n ≤ 2 ^ 53) (hnormal : 2 ^ 52 ≤ units (x / ofInt n)) :
    (2 ^ 53 - 1) * (n * units (x / ofInt n)) ≤ 2 ^ 53 * units x := by
  have hone : (0 : Int) < one := Int.natCast_pos.mpr one_pos
  have hdivisor : 0 < n * one := Nat.mul_pos hn one_pos
  have hcount : units (ofInt n) = (n * one : Nat) := by
    rw [units_ofInt hexact, Int.natCast_mul]
  have hunits := (units_div hx (isFinite_ofInt (by omega : n < 2 ^ 64))
    (by rw [hcount]; exact Int.natCast_pos.mpr hdivisor)).2
  rw [hcount, Int.toNat_natCast] at hunits
  have herror := mul_rounded_le hdivisor (Int.mul_nonneg hnonneg (Int.le_of_lt hone))
    (hunits ▸ hnormal)
  rw [← hunits] at herror
  refine le_of_mul_le_mul_right ?_ hone
  calc (2 ^ 53 - 1) * (n * units (x / ofInt n)) * one
    _ = (2 ^ 53 - 1) * ((n * one : Nat) * units (x / ofInt n)) := by push_cast; ring
    _ ≤ 2 ^ 53 * (units x * one) := herror
    _ = 2 ^ 53 * units x * one := (Int.mul_assoc ..).symm

lemma mul_units_mul_le {x : Float} {k : Nat} (hx : x.isFinite) (hnormal : 2 ^ 52 ≤ units x)
    (hexact : k ≤ 2 ^ 53) :
    (2 ^ 53 - 1) * units (x * ofInt k) ≤ 2 ^ 53 * (units x * k) := by
  have hone : (0 : Int) < one := Int.natCast_pos.mpr one_pos
  have hunits := (units_mul hx (isFinite_ofInt (by omega : k < 2 ^ 64))).2
  rw [units_ofInt hexact, ← Int.mul_assoc] at hunits
  rcases Nat.eq_zero_or_pos k with rfl | hpos
  · rw [hunits, Int.natCast_zero, Int.mul_zero, Int.zero_mul, rounded_zero]
    omega
  · have hlonger : units x ≤ units x * k := le_mul_of_one_le_right (by omega) (by omega)
    have hproduct := le_rounded (isNumber_of_isFinite hx) one_pos
      (Int.mul_le_mul_of_nonneg_right hlonger (Int.le_of_lt hone))
    have herror := mul_rounded_le one_pos (v := units x * k * one)
      (Int.mul_nonneg (by omega) (by omega)) (by omega)
    rw [← hunits] at herror
    refine le_of_mul_le_mul_right ?_ hone
    calc (2 ^ 53 - 1) * units (x * ofInt k) * one
      _ = (2 ^ 53 - 1) * (one * units (x * ofInt k)) := by ring
      _ ≤ 2 ^ 53 * (units x * k * one) := herror
      _ = 2 ^ 53 * (units x * k) * one := (Int.mul_assoc ..).symm

/-! ## Infinite steps -/

lemma eq_infinity_of_not_isFinite {x : Float} (hx : IsNumber x) (hnonneg : 0 ≤ units x)
    (h : ¬ x.isFinite) : x = infinity :=
  eq_of_unpack_eq (unpack_of_not_isFinite hx hnonneg h)

lemma infinity_div {y : Float} (hy : y.isFinite) (hpos : 0 < units y) :
    infinity / y = infinity := by
  obtain ⟨m, e, hm, hunpack, -⟩ := unpack_of_units_pos hy hpos
  apply eq_of_unpack_eq
  change (Float.Model.pack (UnpackedFloat.div .binary64 (.infinity .positive)
    y.toModel.unpack)).unpack = _
  rw [hunpack]
  rfl

lemma infinity_mul {y : Float} (hy : y.isFinite) (hpos : 0 < units y) :
    infinity * y = infinity := by
  obtain ⟨m, e, hm, hunpack, -⟩ := unpack_of_units_pos hy hpos
  apply eq_of_unpack_eq
  change (Float.Model.pack (UnpackedFloat.mul .binary64 (.infinity .positive)
    y.toModel.unpack)).unpack = _
  rw [hunpack]
  rfl

lemma not_isNumber_infinity_mul_zero : ¬ IsNumber (infinity * ofInt (0 : Nat)) := by
  decide +kernel

lemma add_infinity {x : Float} (hx : x.isFinite) : x + infinity = infinity := by
  apply eq_of_unpack_eq
  change (Float.Model.pack (UnpackedFloat.add .binary64 x.toModel.unpack
    (.infinity .positive))).unpack = _
  rcases unpack_of_isFinite hx with ⟨s, hunpack⟩ | ⟨s, m, e, hm, hunpack⟩ <;> rw [hunpack] <;> rfl

lemma not_isNumber_add {x y : Float} (hy : ¬ IsNumber y) : ¬ IsNumber (x + y) := by
  rw [isNumber_iff, not_not] at hy ⊢
  change (Float.Model.pack (UnpackedFloat.add .binary64 x.toModel.unpack
    y.toModel.unpack)).unpack = _
  have hnan : (Float.Model.pack .notANumber).unpack = .notANumber := rfl
  rw [hy]
  cases x.toModel.unpack <;> exact hnan

/-- What is added to a finite number keeps its order, infinite or not. -/
lemma units_add_mono {x y z : Float} (hx : x.isFinite) (hy : NonNegative y) (hz : NonNegative z)
    (h : units y ≤ units z) : units (x + y) ≤ units (x + z) := by
  have hybounds := hy.nonneg
  by_cases hfinite : z.isFinite
  · have hlt := (isFinite_iff.mp hfinite).2
    have hyfinite : y.isFinite := isFinite_iff.mpr ⟨hy.isNumber, by omega⟩
    rw [(units_add hx hyfinite).2, (units_add hx hfinite).2]
    exact rounded_mono Nat.one_pos (by omega)
  · rw [eq_infinity_of_not_isFinite hz.isNumber hz.nonneg hfinite, add_infinity hx, units_infinity]
    have hbound := natAbs_units_le (isNumber_add hx hy.isNumber)
    omega

/-! ## Finite steps -/

/-- Three errors of one part in `2 ^ 53` are made up for by one of `2 ^ 51` steps. -/
lemma le_of_errors {n k : Nat} {exact width step part : Int} (hn : n ≤ 2 ^ 51) (hk : k < n)
    (hexact : 0 ≤ exact) (hwidth : (2 ^ 53 - 1) * width ≤ 2 ^ 53 * exact)
    (hstep : (2 ^ 53 - 1) * (n * step) ≤ 2 ^ 53 * width)
    (hpart : (2 ^ 53 - 1) * part ≤ 2 ^ 53 * (step * k)) : part ≤ exact := by
  have hpos : (0 : Int) < (2 ^ 53 - 1) ^ 3 * n := Int.mul_pos (by decide) (by omega)
  have hfactors : (2 ^ 53 : Int) ^ 3 * k ≤ (2 ^ 53 - 1) ^ 3 * n := by
    norm_num
    omega
  refine Int.le_of_mul_le_mul_left ?_ hpos
  calc (2 ^ 53 - 1) ^ 3 * n * part
    _ = (2 ^ 53 - 1) ^ 2 * n * ((2 ^ 53 - 1) * part) := by ring
    _ ≤ (2 ^ 53 - 1) ^ 2 * n * (2 ^ 53 * (step * k)) :=
      Int.mul_le_mul_of_nonneg_left hpart (by omega)
    _ = 2 ^ 53 * (2 ^ 53 - 1) * k * ((2 ^ 53 - 1) * (n * step)) := by ring
    _ ≤ 2 ^ 53 * (2 ^ 53 - 1) * k * (2 ^ 53 * width) :=
      Int.mul_le_mul_of_nonneg_left hstep (by omega)
    _ = (2 ^ 53) ^ 2 * k * ((2 ^ 53 - 1) * width) := by ring
    _ ≤ (2 ^ 53) ^ 2 * k * (2 ^ 53 * exact) :=
      Int.mul_le_mul_of_nonneg_left hwidth (by omega)
    _ = (2 ^ 53) ^ 3 * k * exact := by ring
    _ ≤ (2 ^ 53 - 1) ^ 3 * n * exact := Int.mul_le_mul_of_nonneg_right hfactors hexact

section

variable {low high : Float} {n k : Nat} (hlow : low.isFinite) (hhigh : high.isFinite)
  (horder : units low ≤ units high) (hspan : (high - low).isFinite)

include hlow hhigh horder

lemma nonNegative_width : NonNegative (high - low) := by
  obtain ⟨hnumber, hunits⟩ := units_sub hhigh hlow
  refine ⟨hnumber, ?_⟩
  rw [hunits]
  exact rounded_nonneg Nat.one_pos (by omega)

include hspan

lemma step_spec (hn : 0 < n) (hword : n < 2 ^ 64) :
    ((high - low) / ofInt n).isFinite ∧ NonNegative ((high - low) / ofInt n) ∧
      units ((high - low) / ofInt n) ≤ units (high - low) := by
  obtain ⟨hnumber, hnonneg, hle⟩ := units_div_le hspan (isFinite_ofInt hword)
    (nonNegative_width hlow hhigh horder).nonneg (one_le_units_ofInt hn)
  have hlt := (isFinite_iff.mp hspan).2
  exact ⟨isFinite_iff.mpr ⟨hnumber, by omega⟩, ⟨hnumber, hnonneg⟩, hle⟩

lemma nonNegative_steps (hn : 0 < n) (hword : n < 2 ^ 64) (hk : k < 2 ^ 64) :
    NonNegative ((high - low) / ofInt n * ofInt k) := by
  obtain ⟨hfinite, hstep, -⟩ := step_spec hlow hhigh horder hspan hn hword
  obtain ⟨hnumber, hunits⟩ := units_mul hfinite (isFinite_ofInt hk)
  refine ⟨hnumber, ?_⟩
  rw [hunits]
  exact rounded_nonneg one_pos (Int.mul_nonneg hstep.nonneg (units_ofInt_nonneg k))

/-- More steps are not shorter. -/
lemma units_steps_mono {j : Nat} (hn : 0 < n) (hword : n < 2 ^ 64) (hjk : j ≤ k)
    (hk : k < 2 ^ 64) :
    units ((high - low) / ofInt n * ofInt j) ≤ units ((high - low) / ofInt n * ofInt k) := by
  obtain ⟨hfinite, hstep, -⟩ := step_spec hlow hhigh horder hspan hn hword
  rw [(units_mul hfinite (isFinite_ofInt (by omega))).2,
    (units_mul hfinite (isFinite_ofInt hk)).2]
  exact rounded_mono one_pos (Int.mul_le_mul_of_nonneg_left (units_ofInt_mono hjk) hstep.nonneg)

/-- Steps that are normal, and of which one at least is left out, do not lead beyond the width. -/
theorem units_steps_le (hn : n ≤ 2 ^ 51) (hk : k < n)
    (hnormal : 2 ^ 52 ≤ units ((high - low) / ofInt n)) :
    units ((high - low) / ofInt n * ofInt k) ≤ units high - units low := by
  obtain ⟨hfinite, -, hshort⟩ := step_spec hlow hhigh horder hspan (by omega : 0 < n) (by omega)
  have hwidth := (nonNegative_width hlow hhigh horder).nonneg
  exact le_of_errors hn hk (by omega) (mul_units_sub_le hhigh hlow horder (by omega))
    (mul_units_div_le hspan hwidth (by omega) (by omega) hnormal)
    (mul_units_mul_le hfinite hnormal (by omega))

/-- What is as many steps above the lower end is not above the upper end. -/
lemma units_add_steps_le (hn : n ≤ 2 ^ 51) (hk : k < n)
    (hnormal : leastNormal ≤ (high - low) / ofInt n) :
    units (low + (high - low) / ofInt n * ofInt k) ≤ units high := by
  rw [le_iff_units (isNumber_of_le hnormal).1 (isNumber_of_le hnormal).2, units_leastNormal]
    at hnormal
  have hle := units_steps_le hlow hhigh horder hspan hn hk hnormal
  have hparts := nonNegative_steps hlow hhigh horder hspan (k := k) (by omega : 0 < n) (by omega)
    (by omega)
  have hrounded := le_rounded hparts.isNumber Nat.one_pos (v := units high - units low)
    (by rwa [Int.natCast_one, Int.mul_one])
  rw [← (units_sub hhigh hlow).2] at hrounded
  have hfinite : ((high - low) / ofInt n * ofInt k).isFinite := by
    have hlt := (isFinite_iff.mp hspan).2
    have hnonneg := hparts.nonneg
    exact isFinite_iff.mpr ⟨hparts.isNumber, by omega⟩
  rw [(units_add hlow hfinite).2]
  exact rounded_le (isNumber_of_isFinite hhigh) Nat.one_pos (by omega)

/-- No step leads away from the lower end. -/
lemma units_add_no_step (hn : 0 < n) (hword : n < 2 ^ 64) :
    units (low + (high - low) / ofInt n * ofInt (0 : Nat)) = units low := by
  obtain ⟨hfinite, -, -⟩ := step_spec hlow hhigh horder hspan hn hword
  obtain ⟨hnumber, hunits⟩ := units_mul hfinite (isFinite_ofInt (by omega : 0 < 2 ^ 64))
  have hnone : units (ofInt (0 : Nat)) = 0 := units_zero
  rw [hnone, Int.mul_zero, rounded_zero] at hunits
  have hzero : ((high - low) / ofInt n * ofInt (0 : Nat)).isFinite :=
    isFinite_iff.mpr ⟨hnumber, by rw [hunits]; exact Nat.two_pow_pos _⟩
  rw [(units_add hlow hzero).2, hunits, Int.add_zero, rounded_one_units (isNumber_of_isFinite hlow)]

end

end Retrofit.Number
