import Mathlib.Tactic.SplitIfs
import Retrofit.Proofs.Number.Units

/-!
# Rounding

An exact value may be finer than the doubles: `nearest s v` is the value of a double nearest to
`v / 2 ^ s` units, of two the one with an even mantissa, as if there were no greatest double. It
grows with the value (`nearest_mono`) and keeps the values of doubles (`nearest_of_isGrid`). What
the operations on doubles round to is the nearest value, up to an overflow to infinity
(`units_of_roundWithAccuracy`), so a rounded double stands to every other double as the exact value
does (`Faithful`).
-/

namespace Retrofit.Number

open Float.Model Float.Model.UnpackedFloat

/-- The values of canonical mantissas and exponents. -/
def IsGrid (v : Nat) : Prop := ∃ m e, Canonical m e ∧ magnitude m e = v

/-- A double that stands to all doubles as an exact value does. -/
structure Faithful (x : Float) (v : Nat) : Prop where
  isNumber : IsNumber x
  below : ∀ y, IsNumber y → (v : Int) ≤ units y → units x ≤ units y
  above : ∀ y, IsNumber y → units y ≤ (v : Int) → units y ≤ units x

lemma magnitude_add (m : Nat) (e : Int) (he : -1074 ≤ e) (k : Nat) :
    magnitude m (e + k) = magnitude (m * 2 ^ k) e := by
  unfold magnitude
  have hplace : (e + k + 1074).toNat = k + (e + 1074).toNat := by omega
  rw [hplace, Nat.pow_add, Nat.mul_assoc]

/-! ## Halves to even -/

/-- The whole number nearest to a quotient, of two the even one. -/
def halfEven (n d : Nat) : Nat :=
  if 2 * (n % d) < d then n / d
  else if d < 2 * (n % d) then n / d + 1
  else n / d + n / d % 2

lemma halfEven_bounds (n d : Nat) : n / d ≤ halfEven n d ∧ halfEven n d ≤ n / d + 1 := by
  unfold halfEven
  split
  · omega
  · split <;> omega

lemma halfEven_mono {n n' : Nat} (h : n ≤ n') (d : Nat) : halfEven n d ≤ halfEven n' d := by
  have hdiv : n / d ≤ n' / d := Nat.div_le_div_right h
  obtain ⟨-, hupper⟩ := halfEven_bounds n d
  obtain ⟨hlower, -⟩ := halfEven_bounds n' d
  by_cases hsame : n / d = n' / d
  · have hn := Nat.div_add_mod n d
    have hn' := Nat.div_add_mod n' d
    rw [← hsame] at hn'
    have hmod : n % d ≤ n' % d := by omega
    unfold halfEven
    rw [← hsame]
    split_ifs <;> omega
  · omega

lemma halfEven_mul_right (n d : Nat) {c : Nat} (hc : 0 < c) :
    halfEven (n * c) (d * c) = halfEven n d := by
  have hlt : ∀ a b, a * c < b * c ↔ a < b := fun a b => Nat.mul_lt_mul_right hc
  unfold halfEven
  rw [Nat.mul_mod_mul_right, Nat.mul_div_mul_right _ _ hc, ← Nat.mul_assoc]
  simp only [hlt]

lemma halfEven_mul_self (a : Nat) {d : Nat} (hd : 0 < d) : halfEven (a * d) d = a := by
  unfold halfEven
  rw [Nat.mul_mod_left, Nat.mul_zero, if_pos hd, Nat.mul_div_cancel a hd]

/-! ## Shifting -/

/-- The whole part of a quotient, the first bit after it, and whether anything is left after
that. -/
def residual (n d : Nat) : ExtendedMantissa :=
  ⟨n / d, decide (d ≤ 2 * (n % d)), decide (2 * (n % d) % d ≠ 0)⟩

lemma ofMantissaAndAccuracy_residual (n : Nat) {d : Nat} (hd : 0 < d) :
    ExtendedMantissa.ofMantissaAndAccuracy (n / d) (accuracyOfFraction (n % d) d) =
      residual n d := by
  have hrest := Nat.mod_lt n hd
  unfold residual accuracyOfFraction
  generalize n % d = r at hrest
  by_cases hexact : r = 0
  · subst hexact
    rw [if_pos rfl, decide_eq_false (by omega), decide_eq_false (by simp)]
    rfl
  · rw [if_neg hexact]
    rcases Nat.lt_trichotomy (2 * r) d with hless | hhalf | hmore
    · rw [Nat.compare_eq_lt.mpr hless, decide_eq_false (by omega),
        decide_eq_true (by rw [Nat.mod_eq_of_lt hless]; omega)]
      rfl
    · rw [Nat.compare_eq_eq.mpr hhalf, decide_eq_true (by omega),
        decide_eq_false (by rw [hhalf, Nat.mod_self]; simp)]
      rfl
    · have hmod : 2 * r % d = 2 * r - d := by
        rw [Nat.mod_eq_sub_mod (by omega), Nat.mod_eq_of_lt (by omega)]
      rw [Nat.compare_eq_gt.mpr hmore, decide_eq_true (by omega), decide_eq_true (by omega)]
      rfl

lemma shiftRightOne_residual (n : Nat) {d : Nat} (hd : 0 < d) :
    (residual n d).shiftRightOne = residual n (d * 2) := by
  have hrest := Nat.mod_lt n hd
  have hsticky : (decide (d ≤ 2 * (n % d)) || decide (2 * (n % d) % d ≠ 0)) =
      decide (n % d ≠ 0) := by
    rw [← Bool.decide_or, decide_eq_decide]
    by_cases hhalf : d ≤ 2 * (n % d)
    · exact iff_of_true (Or.inl hhalf) (by omega)
    · rw [Nat.mod_eq_of_lt (Nat.not_le.mp hhalf)]
      omega
  unfold residual ExtendedMantissa.shiftRightOne
  dsimp only
  rw [Nat.div_div_eq_div_mul, ExtendedMantissa.mk.injEq, hsticky, Nat.mod_mul]
  clear hsticky
  generalize n % d = r at hrest ⊢
  rcases Nat.mod_two_eq_zero_or_one (n / d) with hbit | hbit
  · rw [hbit, Nat.mul_zero, Nat.add_zero, Nat.mod_eq_of_lt (by omega)]
    exact ⟨rfl, (decide_eq_false (by omega)).symm, decide_eq_decide.mpr (by omega)⟩
  · have hround : 2 * (r + d) % (d * 2) = 2 * r := by
      rw [Nat.mul_add, Nat.mul_comm 2 d, Nat.add_mod_right, Nat.mod_eq_of_lt (by omega)]
    rw [hbit, Nat.mul_one, hround]
    exact ⟨rfl, (decide_eq_true (by omega)).symm, decide_eq_decide.mpr (by omega)⟩

lemma shiftRight_residual (n : Nat) {d : Nat} (hd : 0 < d) (k : Nat) :
    residual n d >>> k = residual n (d * 2 ^ k) := by
  induction k with
  | zero =>
    rw [Nat.pow_zero, Nat.mul_one]
    rfl
  | succ k ih =>
    have hstep : residual n d >>> (k + 1) = (residual n d >>> k).shiftRightOne := rfl
    rw [hstep, ih, shiftRightOne_residual n (Nat.mul_pos hd (Nat.two_pow_pos k)), Nat.mul_assoc,
      ← Nat.pow_succ]

/-- A whole number is a quotient by one. -/
lemma ofMantissaAndAccuracy_exact (m : Nat) :
    ExtendedMantissa.ofMantissaAndAccuracy m .exact = residual m 1 := by
  have h := ofMantissaAndAccuracy_residual m Nat.one_pos
  rw [Nat.div_one, Nat.mod_one] at h
  exact h

/-- Rounding what is left of a quotient is rounding the quotient. -/
lemma roundedMantissa_residual (n : Nat) {d : Nat} (hd : 0 < d) :
    (residual n d).roundedMantissa = halfEven n d := by
  have hrest := Nat.mod_lt n hd
  unfold residual halfEven
  generalize n % d = r at hrest
  generalize n / d = q
  by_cases hround : d ≤ 2 * r
  · rw [decide_eq_true hround, if_neg (by omega)]
    have hmod : 2 * r % d = 2 * r - d := by
      rw [Nat.mod_eq_sub_mod hround, Nat.mod_eq_of_lt (by omega)]
    by_cases hsticky : d < 2 * r
    · rw [if_pos hsticky, decide_eq_true (by omega)]
      rfl
    · rw [if_neg hsticky, decide_eq_false (by omega)]
      rfl
  · rw [decide_eq_false hround, if_pos (by omega), Nat.mod_eq_of_lt (by omega)]
    by_cases hsticky : r = 0
    · rw [decide_eq_false (by omega)]
      rfl
    · rw [decide_eq_true (by omega)]
      rfl

/-! ## The nearest value -/

/-- The number of low bits that a value loses so that 53 bits are left. -/
def dropped (v : Nat) : Nat := v.log2 + 1 - 53

/-- The units of the double nearest to `v / d` units, if there were no greatest double. -/
def nearest (d v : Nat) : Nat := halfEven v (d * 2 ^ dropped (v / d)) * 2 ^ dropped (v / d)

section

variable {d : Nat} (hd : 0 < d)
include hd

lemma lt_mul_two_pow_dropped (v : Nat) : v < 2 ^ 53 * (d * 2 ^ dropped (v / d)) := by
  have hhigh : v / d < 2 ^ ((v / d).log2 + 1) := Nat.lt_log2_self
  have hbits : v / d < 2 ^ (53 + dropped (v / d)) := by
    unfold dropped
    exact Nat.lt_of_lt_of_le hhigh (Nat.pow_le_pow_right (by omega) (by omega))
  have hlt := (Nat.div_lt_iff_lt_mul hd).mp hbits
  rwa [Nat.pow_add, Nat.mul_assoc, Nat.mul_comm _ d] at hlt

lemma mul_two_pow_dropped_le {v : Nat} (h : 0 < dropped (v / d)) :
    2 ^ 52 * (d * 2 ^ dropped (v / d)) ≤ v := by
  have hbits : 2 ^ (52 + dropped (v / d)) ≤ v / d := by
    unfold dropped at h ⊢
    have hne : v / d ≠ 0 := by
      intro hzero
      rw [hzero, Nat.log2_zero] at h
      omega
    exact Nat.le_trans (Nat.pow_le_pow_right (by omega) (by omega)) (Nat.log2_self_le hne)
  have hle := (Nat.le_div_iff_mul_le hd).mp hbits
  rwa [Nat.pow_add, Nat.mul_assoc, Nat.mul_comm _ d] at hle

lemma halfEven_dropped_le (v : Nat) : halfEven v (d * 2 ^ dropped (v / d)) ≤ 2 ^ 53 := by
  have hmono := halfEven_mono (Nat.le_of_lt (lt_mul_two_pow_dropped hd v))
    (d * 2 ^ dropped (v / d))
  rwa [halfEven_mul_self _ (Nat.mul_pos hd (Nat.two_pow_pos _))] at hmono

lemma le_halfEven_dropped {v : Nat} (h : 0 < dropped (v / d)) :
    2 ^ 52 ≤ halfEven v (d * 2 ^ dropped (v / d)) := by
  have hmono := halfEven_mono (mul_two_pow_dropped_le hd h) (d * 2 ^ dropped (v / d))
  rwa [halfEven_mul_self _ (Nat.mul_pos hd (Nat.two_pow_pos _))] at hmono

/-- A greater value has no lesser nearest double. -/
theorem nearest_mono {v w : Nat} (h : v ≤ w) : nearest d v ≤ nearest d w := by
  have hlog : (v / d).log2 ≤ (w / d).log2 := by
    have hdiv : v / d ≤ w / d := Nat.div_le_div_right h
    rcases Nat.eq_zero_or_pos (v / d) with hzero | hpos
    · rw [hzero, Nat.log2_zero]
      exact Nat.zero_le _
    · exact (Nat.le_log2 (by omega)).mpr (Nat.le_trans (Nat.log2_self_le (by omega)) hdiv)
  have hdropped : dropped (v / d) ≤ dropped (w / d) := by
    unfold dropped
    omega
  rcases Nat.eq_or_lt_of_le hdropped with hsame | hless
  · unfold nearest
    rw [hsame]
    exact Nat.mul_le_mul_right _ (halfEven_mono h _)
  · -- The greater value has more bits, so it does not fall below the next power of two.
    have hpow : 2 ^ 53 * 2 ^ dropped (v / d) ≤ 2 ^ 52 * 2 ^ dropped (w / d) := by
      rw [← Nat.pow_add, ← Nat.pow_add]
      exact Nat.pow_le_pow_right (by omega) (by omega)
    calc nearest d v ≤ 2 ^ 53 * 2 ^ dropped (v / d) :=
          Nat.mul_le_mul_right _ (halfEven_dropped_le hd v)
      _ ≤ 2 ^ 52 * 2 ^ dropped (w / d) := hpow
      _ ≤ nearest d w := Nat.mul_le_mul_right _ (le_halfEven_dropped hd (by omega))

lemma nearest_zero : nearest d 0 = 0 := by
  have hzero : halfEven 0 (d * 2 ^ dropped (0 / d)) = 0 := by
    have h := halfEven_mul_self 0 (Nat.mul_pos hd (Nat.two_pow_pos (dropped (0 / d))))
    rwa [Nat.zero_mul] at h
  unfold nearest
  rw [hzero, Nat.zero_mul]

end

lemma log2_eq {m k : Nat} (hlow : 2 ^ k ≤ m) (hhigh : m < 2 ^ (k + 1)) : m.log2 = k := by
  have hpos := Nat.two_pow_pos k
  have hle := (Nat.le_log2 (by omega)).mpr hlow
  have hlt := (Nat.log2_lt (by omega)).mpr hhigh
  omega

lemma log2_mul_two_pow {m : Nat} (hpos : 0 < m) (k : Nat) : (m * 2 ^ k).log2 = m.log2 + k := by
  have hlow : 2 ^ m.log2 ≤ m := Nat.log2_self_le (by omega)
  have hhigh : m < 2 ^ (m.log2 + 1) := Nat.lt_log2_self
  apply log2_eq
  · rw [Nat.pow_add]
    exact Nat.mul_le_mul_right _ hlow
  · rw [show m.log2 + k + 1 = m.log2 + 1 + k by omega, Nat.pow_add]
    exact Nat.mul_lt_mul_of_pos_right hhigh (Nat.two_pow_pos k)

lemma log2_div_two_pow (m k : Nat) : (m / 2 ^ k).log2 = m.log2 - k := by
  have hpos := Nat.two_pow_pos k
  have hhigh : m < 2 ^ (m.log2 + 1) := Nat.lt_log2_self
  rcases Nat.lt_or_ge m (2 ^ k) with hsmall | hlarge
  · have hlog : m.log2 ≤ k := by
      rcases Nat.eq_zero_or_pos m with rfl | hm
      · rw [Nat.log2_zero]
        exact Nat.zero_le k
      · exact Nat.le_of_lt ((Nat.log2_lt (by omega)).mpr hsmall)
    rw [Nat.div_eq_of_lt hsmall, Nat.log2_zero, Nat.sub_eq_zero_of_le hlog]
  · have hlog : k ≤ m.log2 := (Nat.le_log2 (by omega)).mpr hlarge
    obtain ⟨j, hj⟩ := Nat.exists_eq_add_of_le hlog
    have hlow : 2 ^ (k + j) ≤ m := hj ▸ Nat.log2_self_le (by omega)
    rw [hj, Nat.add_assoc, Nat.pow_add, Nat.mul_comm] at hhigh
    rw [Nat.pow_add, Nat.mul_comm] at hlow
    rw [hj, Nat.add_sub_cancel_left]
    exact log2_eq ((Nat.le_div_iff_mul_le hpos).mpr hlow) ((Nat.div_lt_iff_lt_mul hpos).mpr hhigh)

lemma log2_mul_two_pow_div {n d : Nat} (hd : 0 < d) (h : 0 < n / d) (k : Nat) :
    (n * 2 ^ k / d).log2 = (n / d).log2 + k := by
  have hlow : 2 ^ (n / d).log2 * d ≤ n :=
    (Nat.le_div_iff_mul_le hd).mp (Nat.log2_self_le (by omega))
  have hhigh : n < 2 ^ ((n / d).log2 + 1) * d := (Nat.div_lt_iff_lt_mul hd).mp Nat.lt_log2_self
  apply log2_eq
  · rw [Nat.le_div_iff_mul_le hd, Nat.pow_add, Nat.mul_right_comm]
    exact Nat.mul_le_mul_right _ hlow
  · rw [Nat.div_lt_iff_lt_mul hd, Nat.add_right_comm, Nat.pow_add, Nat.mul_right_comm]
    exact Nat.mul_lt_mul_of_pos_right hhigh (Nat.two_pow_pos k)

/-- The value of a double is nearest to itself. -/
theorem nearest_of_isGrid {v d : Nat} (h : IsGrid v) (hd : 0 < d) : nearest d (v * d) = v := by
  obtain ⟨m, e, ⟨hbounded, hleast, hnormal⟩, rfl⟩ := h
  rcases Nat.eq_zero_or_pos m with rfl | hpos
  · unfold magnitude
    rw [Nat.zero_mul, Nat.zero_mul, nearest_zero hd]
  · unfold magnitude nearest
    rw [Nat.mul_div_cancel _ hd]
    generalize hplace : (e + 1074).toNat = j
    have hlog : m.log2 < 53 := (Nat.log2_lt (by omega)).mpr hbounded
    have hdropped : dropped (m * 2 ^ j) = j := by
      unfold dropped
      rw [log2_mul_two_pow hpos]
      rcases hnormal with hmin | hlarge
      · omega
      · have := (Nat.le_log2 (by omega)).mpr hlarge
        omega
    rw [hdropped, Nat.mul_assoc, Nat.mul_comm (2 ^ j) d,
      halfEven_mul_self _ (Nat.mul_pos hd (Nat.two_pow_pos _))]

/-! ## Packed results -/

lemma unpack_pack_overflow {s : Sign} {m : Nat} {e : Int} {hm : 0 < m} (he : 971 < e) :
    (Float.Model.pack (.finite s m e hm)).unpack = .infinity s := by
  have bias : Format.binary64.exponentBias = 1023 := by decide
  change UnpackedFloat.unpack Format.binary64 (UnpackedFloat.pack Format.binary64 _) = _
  unfold UnpackedFloat.pack
  dsimp only
  rw [bias, if_pos (by omega)]
  cases s <;> rfl

lemma unpack_pack_infinity (s : Sign) :
    (Float.Model.pack (.infinity s)).unpack = .infinity s := by
  cases s <;> rfl

lemma magnitude_eq_beyond : magnitude (2 ^ 52) 972 = beyond := by
  have hplace : 52 + ((972 : Int) + 1074).toNat = limit := rfl
  unfold magnitude beyond
  rw [← Nat.pow_add, hplace]

lemma isGrid_beyond : IsGrid beyond :=
  ⟨2 ^ 52, 972, ⟨by decide, by decide, Or.inr (Nat.le_refl _)⟩, magnitude_eq_beyond⟩

lemma beyond_le_magnitude {m : Nat} {e : Int} (hc : Canonical m e) (he : 971 < e) :
    beyond ≤ magnitude m e := by
  have hplace : limit ≤ 52 + (e + 1074).toNat := by
    unfold limit
    omega
  have hlarge : 2 ^ 52 ≤ m := hc.normal.resolve_left (by omega)
  exact Nat.le_trans (Nat.pow_le_pow_right (by omega) hplace) (two_pow_le_magnitude hlarge)

lemma units_of_pack {x : Float} {s : Sign} {m : Nat} {e : Int} {hm : 0 < m} (hc : Canonical m e)
    (hx : x.toModel = Float.Model.pack (.finite s m e hm)) :
    IsNumber x ∧ units x = s.apply (min (magnitude m e) beyond : Nat) := by
  by_cases he : e ≤ 971
  · have hunpack : x.toModel.unpack = .finite s m e hm := by
      rw [hx]
      exact unpack_pack_finite hm hc he
    refine ⟨isNumber_iff.mpr (by rw [hunpack]; exact nofun), ?_⟩
    rw [Nat.min_eq_left (Nat.le_of_lt (magnitude_lt_beyond hc he)), units, hunpack]
    rfl
  · have hunpack : x.toModel.unpack = .infinity s := by
      rw [hx]
      exact unpack_pack_overflow (by omega)
    refine ⟨isNumber_iff.mpr (by rw [hunpack]; exact nofun), ?_⟩
    rw [Nat.min_eq_right (beyond_le_magnitude hc (by omega)), units, hunpack]
    rfl

lemma units_of_unpack_zero {x : Float} {s : Sign} (h : x.toModel.unpack = .zero s) :
    IsNumber x ∧ units x = 0 := by
  refine ⟨isNumber_iff.mpr (by rw [h]; exact nofun), ?_⟩
  rw [units, h]
  rfl

lemma units_of_pack_zero {x : Float} {s : Sign} (h : x.toModel = Float.Model.pack (.zero s)) :
    IsNumber x ∧ units x = 0 := by
  have hunpack : x.toModel.unpack = .zero s := by
    rw [h]
    cases s <;> rfl
  exact units_of_unpack_zero hunpack

lemma targetExponent_eq (m : Nat) (e : Int) :
    Format.binary64.targetExponent (totalExponent m e) = max (m.log2 + 1 + e - 53) (-1074) := rfl

lemma shiftToTargetExponent_eq (m : Nat) (e : Int) (a : Accuracy) :
    shiftToTargetExponent .binary64 m e a =
      (ExtendedMantissa.ofMantissaAndAccuracy m a >>>
        (max ((m.log2 : Int) + 1 + e - 53) (-1074) - e).toNat,
        e + (max ((m.log2 : Int) + 1 + e - 53) (-1074) - e).toNat) := rfl

/-- A rounded mantissa that took one bit too many is halved without loss. -/
lemma canonical_shiftToTargetExponent {m : Nat} {e : Int} (hpos : 0 < m) (hm : m ≤ 2 ^ 53)
    (hleast : -1074 ≤ e) (hnormal : e = -1074 ∨ 2 ^ 52 ≤ m) :
    ∃ m' e', (shiftToTargetExponent .binary64 m e .exact).1.mantissa = m' ∧
      (shiftToTargetExponent .binary64 m e .exact).2 = e' ∧ 0 < m' ∧ Canonical m' e' ∧
      magnitude m' e' = magnitude m e := by
  rw [shiftToTargetExponent_eq]
  dsimp only
  rw [ofMantissaAndAccuracy_exact, shiftRight_residual m Nat.one_pos, Nat.one_mul]
  unfold residual
  dsimp only
  by_cases hcarry : m = 2 ^ 53
  · have hlog : m.log2 = 53 := by
      rw [hcarry]
      exact Nat.log2_two_pow
    have hshift : (max ((m.log2 : Int) + 1 + e - 53) (-1074) - e).toNat = 1 := by
      rw [hlog]
      omega
    rw [hshift]
    refine ⟨m / 2 ^ 1, e + (1 : Nat), rfl, rfl, ?_, ⟨?_, ?_, Or.inr ?_⟩, ?_⟩
    · omega
    · omega
    · omega
    · omega
    · have hhalf : 2 ^ 53 / 2 ^ 1 * 2 ^ 1 = 2 ^ 53 := by decide
      rw [magnitude_add _ e hleast, hcarry, hhalf]
  · have hlog : (m.log2 : Int) + 1 ≤ 53 := by
      have := (Nat.log2_lt (by omega)).mpr (by omega : m < 2 ^ 53)
      omega
    have hshift : (max ((m.log2 : Int) + 1 + e - 53) (-1074) - e).toNat = 0 := by
      omega
    rw [hshift]
    refine ⟨m, e, by rw [Nat.pow_zero, Nat.div_one], by omega, hpos, ⟨?_, hleast, hnormal⟩, rfl⟩
    omega

lemma roundWithAccuracy_of_pos {σ : Sign} {m : Nat} {e : Int} {a : Accuracy}
    (hpos : 0 < (shiftToTargetExponent .binary64
      (shiftToTargetExponent .binary64 m e a).1.roundedMantissa
      (shiftToTargetExponent .binary64 m e a).2 .exact).1.mantissa) :
    roundWithAccuracy .binary64 σ m e a =
      .finite σ
        (shiftToTargetExponent .binary64
          (shiftToTargetExponent .binary64 m e a).1.roundedMantissa
          (shiftToTargetExponent .binary64 m e a).2 .exact).1.mantissa
        (shiftToTargetExponent .binary64
          (shiftToTargetExponent .binary64 m e a).1.roundedMantissa
          (shiftToTargetExponent .binary64 m e a).2 .exact).2 hpos := by
  unfold roundWithAccuracy
  exact dif_neg (Nat.ne_of_gt hpos)

lemma roundWithAccuracy_of_eq_zero {σ : Sign} {m : Nat} {e : Int} {a : Accuracy}
    (h : (shiftToTargetExponent .binary64 m e a).1.roundedMantissa = 0) :
    roundWithAccuracy .binary64 σ m e a = .zero σ := by
  have hzero : (shiftToTargetExponent .binary64
      (shiftToTargetExponent .binary64 m e a).1.roundedMantissa
      (shiftToTargetExponent .binary64 m e a).2 .exact).1.mantissa = 0 := by
    rw [h, shiftToTargetExponent_eq, ofMantissaAndAccuracy_exact,
      shiftRight_residual 0 Nat.one_pos]
    exact Nat.zero_div _
  unfold roundWithAccuracy
  exact dif_pos hzero

/-- The units of a packed rounding: what the first shift leaves, unless that is too large. -/
lemma units_of_roundedMantissa {x : Float} {σ : Sign} {m : Nat} {e : Int} {a : Accuracy} {q : Nat}
    {f : Int} (hq : (shiftToTargetExponent .binary64 m e a).1.roundedMantissa = q)
    (hf : (shiftToTargetExponent .binary64 m e a).2 = f) (hsize : q ≤ 2 ^ 53) (hleast : -1074 ≤ f)
    (hnormal : f = -1074 ∨ 2 ^ 52 ≤ q)
    (hx : x.toModel = Float.Model.pack (roundWithAccuracy .binary64 σ m e a)) :
    IsNumber x ∧ units x = σ.apply (min (magnitude q f) beyond : Nat) := by
  rcases Nat.eq_zero_or_pos q with rfl | hpos
  · rw [roundWithAccuracy_of_eq_zero hq] at hx
    have happly : σ.apply (0 : Nat) = 0 := by cases σ <;> rfl
    rw [magnitude, Nat.zero_mul, Nat.zero_min, happly]
    exact units_of_pack_zero hx
  · obtain ⟨m', e', hm', he', hpos', hc, hvalue⟩ :=
      canonical_shiftToTargetExponent hpos hsize hleast hnormal
    have hround := @roundWithAccuracy_of_pos σ m e a
    rw [hq, hf, hm', he'] at hround
    rw [← hvalue]
    exact units_of_pack hc (hx.trans (congrArg Float.Model.pack (hround hpos')))

lemma dropped_quotient {n d s t : Nat} {e : Int} (hd : 0 < d) (ht : e + 1074 + s = t)
    (htarget : e ≤ max (((n / d).log2 : Int) + 1 + e - 53) (-1074)) :
    (dropped (n * 2 ^ t / (d * 2 ^ s)) : Int) =
      max (((n / d).log2 : Int) + 1 + e - 53) (-1074) + 1074 := by
  unfold dropped
  rcases Nat.le_total s t with hle | hle
  · obtain ⟨c, rfl⟩ := Nat.exists_eq_add_of_le hle
    rw [Nat.add_comm s c, Nat.pow_add, ← Nat.mul_assoc,
      Nat.mul_div_mul_right _ _ (Nat.two_pow_pos s)]
    rcases Nat.eq_zero_or_pos (n / d) with hzero | hpos
    · rw [hzero, Nat.log2_zero] at htarget ⊢
      have hc : c = 0 := by omega
      rw [hc, Nat.pow_zero, Nat.mul_one, hzero, Nat.log2_zero]
      omega
    · rw [log2_mul_two_pow_div hd hpos]
      omega
  · obtain ⟨c, rfl⟩ := Nat.exists_eq_add_of_le hle
    rw [Nat.add_comm t c, Nat.pow_add, ← Nat.mul_assoc,
      Nat.mul_div_mul_right _ _ (Nat.two_pow_pos t), ← Nat.div_div_eq_div_mul, log2_div_two_pow]
    omega

/-- A quotient times a power of two that is far enough below is rounded to the nearest double. -/
theorem units_of_roundWithAccuracy {x : Float} {σ : Sign} {n d s t : Nat} {e : Int} (hd : 0 < d)
    (ht : e + 1074 + s = t) (htarget : e ≤ max (((n / d).log2 : Int) + 1 + e - 53) (-1074))
    (hx : x.toModel = Float.Model.pack
      (roundWithAccuracy .binary64 σ (n / d) e (accuracyOfFraction (n % d) d))) :
    IsNumber x ∧ units x = σ.apply (min (nearest (d * 2 ^ s) (n * 2 ^ t)) beyond : Nat) := by
  have hdropped := dropped_quotient hd ht htarget
  have hpos := Nat.mul_pos hd (Nat.two_pow_pos s)
  -- The first shift drops the `k` bits below the place of the last kept one.
  obtain ⟨k, hk⟩ : ∃ k : Nat, e + k = max (((n / d).log2 : Int) + 1 + e - 53) (-1074) :=
    ⟨(max (((n / d).log2 : Int) + 1 + e - 53) (-1074) - e).toNat, by omega⟩
  have hshift : (max (((n / d).log2 : Int) + 1 + e - 53) (-1074) - e).toNat = k := by omega
  have hplace : s + dropped (n * 2 ^ t / (d * 2 ^ s)) = k + t := by omega
  have hround : halfEven (n * 2 ^ t) (d * 2 ^ s * 2 ^ dropped (n * 2 ^ t / (d * 2 ^ s))) =
      halfEven n (d * 2 ^ k) := by
    rw [Nat.mul_assoc, ← Nat.pow_add, hplace, Nat.pow_add, ← Nat.mul_assoc,
      halfEven_mul_right _ _ (Nat.two_pow_pos t)]
  have hnearest : nearest (d * 2 ^ s) (n * 2 ^ t) =
      magnitude (halfEven n (d * 2 ^ k)) (e + k) := by
    unfold nearest magnitude
    rw [hround]
    congr 2
    omega
  have hfirst := shiftToTargetExponent_eq (n / d) e (accuracyOfFraction (n % d) d)
  rw [hshift, ofMantissaAndAccuracy_residual n hd, shiftRight_residual n hd] at hfirst
  rw [hnearest]
  refine units_of_roundedMantissa ?_ ?_ ?_ (by omega) ?_ hx
  · rw [hfirst]
    exact roundedMantissa_residual n (Nat.mul_pos hd (Nat.two_pow_pos k))
  · rw [hfirst]
  · rw [← hround]
    exact halfEven_dropped_le hpos _
  · by_cases hmin : e + k = -1074
    · exact Or.inl hmin
    · refine Or.inr ?_
      rw [← hround]
      exact le_halfEven_dropped hpos (by omega)

/-- A mantissa and an exponent far enough below are rounded to the nearest double. -/
theorem units_of_roundWithAccuracy_exact {x : Float} {σ : Sign} {m s t : Nat} {e : Int}
    (ht : e + 1074 + s = t) (htarget : e ≤ max ((m.log2 : Int) + 1 + e - 53) (-1074))
    (hx : x.toModel = Float.Model.pack (roundWithAccuracy .binary64 σ m e .exact)) :
    IsNumber x ∧ units x = σ.apply (min (nearest (2 ^ s) (m * 2 ^ t)) beyond : Nat) := by
  have h := @units_of_roundWithAccuracy x σ m 1 s t e Nat.one_pos ht
  rw [Nat.div_one, Nat.mod_one, Nat.one_mul] at h
  exact h htarget hx

theorem units_of_round {x : Float} {σ : Sign} {m : Nat} {e : Int} (hpos : 0 < m)
    (hleast : -1074 ≤ e)
    (hx : x.toModel = Float.Model.pack (UnpackedFloat.round .binary64 σ m e)) :
    IsNumber x ∧ units x = σ.apply (min (nearest 1 (magnitude m e)) beyond : Nat) := by
  unfold UnpackedFloat.round decreaseExponent at hx
  dsimp only at hx
  rw [targetExponent_eq, Nat.shiftLeft_eq] at hx
  generalize hk : (e - max ((m.log2 : Int) + 1 + e - 53) (-1074)).toNat = k at hx
  have hlog := log2_mul_two_pow hpos k
  obtain ⟨t, ht⟩ : ∃ t : Nat, e - k + 1074 + (0 : Nat) = t := ⟨(e - k + 1074).toNat, by omega⟩
  have hvalue : magnitude m e = m * 2 ^ k * 2 ^ t := by
    unfold magnitude
    rw [Nat.mul_assoc, ← Nat.pow_add]
    congr 2
    omega
  have htarget : e - k ≤ max (((m * 2 ^ k).log2 : Int) + 1 + (e - k) - 53) (-1074) := by
    rw [hlog]
    omega
  have hunits := units_of_roundWithAccuracy_exact ht htarget hx
  rwa [← hvalue, Nat.pow_zero] at hunits

/-! ## Rounded doubles among the others -/

/-- The value of a number is not positive or on the grid. -/
lemma units_cases {x : Float} (hx : IsNumber x) :
    units x ≤ 0 ∨ ∃ w, IsGrid w ∧ w ≤ beyond ∧ units x = w := by
  unfold units
  cases h : x.toModel.unpack with
  | notANumber => exact absurd h (isNumber_iff.mp hx)
  | zero s => exact Or.inl (Int.le_refl 0)
  | infinity s =>
    have hpos := beyond_pos
    cases s
    · exact Or.inl (by dsimp only [unpackedUnits, Sign.apply]; omega)
    · exact Or.inr ⟨beyond, isGrid_beyond, Nat.le_refl _, rfl⟩
  | finite s m e hm =>
    obtain ⟨hc, he⟩ := canonical_of_unpack h
    cases s
    · exact Or.inl (by dsimp only [unpackedUnits, Sign.apply]; omega)
    · exact Or.inr ⟨_, ⟨m, e, hc, rfl⟩, Nat.le_of_lt (magnitude_lt_beyond hc he), rfl⟩

lemma nearest_self {w : Nat} (h : IsGrid w) : nearest 1 w = w := by
  have hself := nearest_of_isGrid h Nat.one_pos
  rwa [Nat.mul_one] at hself

/-- The nearest double has its place among the doubles. -/
lemma faithful_of_nearest {x : Float} {v : Nat}
    (h : IsNumber x ∧ units x = Sign.positive.apply (min (nearest 1 v) beyond : Nat)) :
    Faithful x v := by
  obtain ⟨hx, hunits⟩ := h
  have hunits : units x = (min (nearest 1 v) beyond : Nat) := hunits
  refine ⟨hx, ?_, ?_⟩
  · intro y hy hle
    rcases units_cases hy with hneg | ⟨w, hw, -, heq⟩
    · have hzero : v = 0 := by omega
      rw [hzero, nearest_zero Nat.one_pos] at hunits
      omega
    · have := nearest_mono Nat.one_pos (by omega : v ≤ w)
      rw [nearest_self hw] at this
      omega
  · intro y hy hle
    rcases units_cases hy with hneg | ⟨w, hw, hle', heq⟩
    · omega
    · have := nearest_mono Nat.one_pos (by omega : w ≤ v)
      rw [nearest_self hw] at this
      omega

lemma Faithful.units_eq {x y : Float} {v : Nat} (h : Faithful x v) (hy : IsNumber y)
    (hv : units y = v) : units x = v := by
  have hle := h.below y hy (by omega)
  have hge := h.above y hy (by omega)
  omega

lemma exists_of_isGrid {v : Nat} (h : IsGrid v) (hv : 0 < v) (hle : v ≤ beyond) :
    ∃ y, IsNumber y ∧ units y = v := by
  obtain ⟨m, e, hc, rfl⟩ := h
  have hm : 0 < m := by
    apply Nat.pos_of_ne_zero
    rintro rfl
    rw [magnitude, Nat.zero_mul] at hv
    exact Nat.lt_irrefl 0 hv
  obtain ⟨hnumber, hunits⟩ :=
    @units_of_pack (Float.ofModel (Float.Model.pack (.finite .positive m e hm))) .positive m e hm
      hc rfl
  rw [Nat.min_eq_left hle] at hunits
  exact ⟨_, hnumber, hunits⟩

lemma Faithful.units_eq_of_isGrid {x : Float} {v : Nat} (h : Faithful x v) (hgrid : IsGrid v)
    (hv : 0 < v) (hle : v ≤ beyond) : units x = v := by
  obtain ⟨y, hy, hunits⟩ := exists_of_isGrid hgrid hv hle
  exact h.units_eq hy hunits

end Retrofit.Number
