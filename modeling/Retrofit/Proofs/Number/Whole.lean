import Retrofit.Proofs.Number.Bits

/-!
# Whole numbers

A double that stands for a whole number is a whole multiple of `one`. Whole numbers below `2 ^ 53`
are doubles, the double nearest to any other is `Faithful`, counting takes the whole part, and
`round` yields whole numbers and keeps them.
-/

namespace Retrofit.Number

open Float.Model Float.Model.UnpackedFloat

/-! ## From whole numbers to doubles -/

lemma normalize_natCast {n : Nat} (hn : 0 < n) (e : Int) :
    UnpackedFloat.normalize .binary64 (n : Int) e .positive =
      UnpackedFloat.round .binary64 .positive n e := by
  unfold UnpackedFloat.normalize
  rw [Int.compare_eq_gt.mpr (Int.natCast_pos.mpr hn)]
  rfl

lemma faithful_toFloat {k : UInt64} (hk : 0 < k.toNat) : Faithful k.toFloat (k.toNat * one) := by
  rw [← magnitude_zero]
  refine faithful_of_nearest (units_of_round hk (by decide) ?_)
  rw [← normalize_natCast hk]
  rfl

lemma isGrid_mul_one {n : Nat} (hpos : 0 < n) (hn : n ≤ 2 ^ 53) : IsGrid (n * one) := by
  rcases Nat.eq_or_lt_of_le hn with rfl | hn
  · refine ⟨2 ^ 52, 1, ⟨by decide, by decide, Or.inr (Nat.le_refl _)⟩, ?_⟩
    rw [← magnitude_zero]
    exact magnitude_add (2 ^ 52) 0 (by decide) 1
  · have hlow : 2 ^ n.log2 ≤ n := (Nat.le_log2 (by omega)).mp (Nat.le_refl _)
    have hhigh : n < 2 ^ (n.log2 + 1) := (Nat.log2_lt (by omega)).mp (Nat.lt_succ_self _)
    have hlog : n.log2 < 53 := (Nat.log2_lt (by omega)).mpr hn
    obtain ⟨k, hk⟩ : ∃ k, n.log2 + k = 52 := ⟨52 - n.log2, by omega⟩
    refine ⟨n * 2 ^ k, -k, ⟨?_, by omega, Or.inr ?_⟩, ?_⟩
    · calc n * 2 ^ k < 2 ^ (n.log2 + 1) * 2 ^ k :=
          Nat.mul_lt_mul_of_pos_right hhigh (Nat.two_pow_pos k)
        _ = 2 ^ 53 := by rw [← Nat.pow_add]; congr 1; omega
    · calc 2 ^ 52 = 2 ^ n.log2 * 2 ^ k := by rw [← Nat.pow_add, hk]
        _ ≤ n * 2 ^ k := Nat.mul_le_mul_right _ hlow
    · rw [← magnitude_zero, ← magnitude_add n _ (by omega)]
      congr 1
      omega

lemma mul_one_lt_beyond {n : Nat} (hn : n < 2 ^ 64) : n * one < beyond := by
  have hplace : 64 + ((0 : Int) + 1074).toNat ≤ limit := by
    unfold limit
    omega
  rw [← magnitude_zero]
  calc magnitude n 0 < 2 ^ 64 * 2 ^ ((0 : Int) + 1074).toNat :=
        Nat.mul_lt_mul_of_pos_right hn (Nat.two_pow_pos _)
    _ = 2 ^ (64 + ((0 : Int) + 1074).toNat) := by rw [Nat.pow_add]
    _ ≤ beyond := Nat.pow_le_pow_right (by omega) hplace

/-- Whole numbers of at most 53 bits are doubles. -/
lemma units_toFloat {k : UInt64} (hk : k.toNat < 2 ^ 53) :
    IsNumber k.toFloat ∧ units k.toFloat = k.toNat * one := by
  by_cases hzero : k.toNat = 0
  · have : k = 0 := UInt64.toNat_inj.mp hzero
    subst this
    unfold IsNumber
    refine ⟨by decide, ?_⟩
    rw [hzero, Int.natCast_zero, Int.zero_mul]
    decide
  · have hpos := Nat.pos_of_ne_zero hzero
    have hfaithful := faithful_toFloat hpos
    have hvalue : 0 < k.toNat * one := Nat.mul_pos hpos one_pos
    refine ⟨hfaithful.isNumber, ?_⟩
    rw [hfaithful.units_eq_of_isGrid (isGrid_mul_one hpos (Nat.le_of_lt hk)) hvalue
      (Nat.le_of_lt (mul_one_lt_beyond (by omega)))]
    exact Int.natCast_mul _ _

/-- The product with one is the number itself. -/
lemma units_mul_one {x : Float} (hx : x.isFinite) :
    IsNumber (x * 1.0) ∧ units (x * 1.0) = units x := by
  have h := units_mul hx isFinite_one
  rwa [units_one, rounded_units (isNumber_of_isFinite hx) one_pos] at h

lemma ofInt_natCast (n : Nat) : ofInt n = Float.ofScientific n false 0 := rfl

lemma nearest_ofInt_of_lt {n : Nat} (hsmall : n < 2 ^ 53) :
    IsNumber (ofInt n) ∧ units (ofInt n) = rounded 1 (n * one : Nat) := by
  have hk : n.toUInt64.toNat = n := UInt64.toNat_ofNat_of_lt' (by
    change n < 2 ^ 64
    omega)
  have hproduct : ofInt n = n.toUInt64.toFloat * 1.0 := by
    rw [ofInt_natCast]
    unfold Float.ofScientific
    rw [dif_pos ⟨hsmall, by decide⟩]
    rfl
  obtain ⟨hnumber, hunits⟩ := @units_toFloat n.toUInt64 (by omega)
  rw [hk, ← Int.natCast_mul] at hunits
  have hhigh : n * one < beyond := mul_one_lt_beyond (by omega)
  have hfinite : n.toUInt64.toFloat.isFinite := isFinite_iff.mpr ⟨hnumber, by omega⟩
  obtain ⟨hnumber', hsame⟩ := units_mul_one hfinite
  rw [hproduct]
  refine ⟨hnumber', ?_⟩
  rw [hsame, ← hunits, rounded_one_units hnumber]

lemma nearest_ofInt_of_le {n : Nat} (hlarge : 2 ^ 53 ≤ n) :
    IsNumber (ofInt n) ∧ units (ofInt n) = rounded 1 (n * one : Nat) := by
  have hslow : (ofInt n).toModel =
      Float.Model.pack (roundWithAccuracy .binary64 .positive (n <<< 53 * 1) (-53 + 0)
        .exact) := by
    rw [ofInt_natCast]
    unfold Float.ofScientific
    rw [dif_neg (by omega)]
    change Float.Model.pack (UnpackedFloat.ofScientific _ n 0) = _
    have hpower : (0 : Int) ≤ 2 ^ Format.binary64.exponentBits := by decide
    unfold UnpackedFloat.ofScientific
    rw [dif_neg (by omega), if_neg (by decide), if_neg (by omega), if_pos (by decide)]
    rfl
  have hlog : 53 ≤ n.log2 := (Nat.le_log2 (by omega)).mpr (by omega)
  have hshifted := log2_mul_two_pow (by omega : 0 < n) 53
  have hdecreased : magnitude (n * 2 ^ 53) (-53) = n * one := by
    rw [← magnitude_zero]
    exact (magnitude_add n (-53) (by decide) 53).symm
  have htarget : -53 ≤ max (((n * 2 ^ 53).log2 : Int) + 1 + -53 - 53) (-1074) := by
    rw [hshifted]
    omega
  have hplace : (-53 : Int) + 1074 + (0 : Nat) = (-53 + 1074 : Int).toNat := by decide
  rw [Nat.mul_one, Nat.shiftLeft_eq, Int.add_zero] at hslow
  have hunits := units_of_roundWithAccuracy_exact hplace htarget hslow
  rw [← hdecreased, rounded_natCast Nat.one_pos]
  exact hunits

/-- The double made of a natural number is the nearest one. -/
theorem nearest_ofInt (n : Nat) :
    IsNumber (ofInt n) ∧ units (ofInt n) = rounded 1 (n * one : Nat) := by
  rcases Nat.lt_or_ge n (2 ^ 53) with hsmall | hlarge
  · exact nearest_ofInt_of_lt hsmall
  · exact nearest_ofInt_of_le hlarge

/-- It stands to all doubles as the number does. -/
theorem faithful_ofInt (n : Nat) : Faithful (ofInt n) (n * one) := by
  obtain ⟨hnumber, hunits⟩ := nearest_ofInt n
  rw [rounded_natCast Nat.one_pos] at hunits
  exact faithful_of_nearest ⟨hnumber, hunits⟩

/-- A greater number has no lesser double. -/
lemma units_ofInt_mono {j k : Nat} (h : j ≤ k) : units (ofInt j) ≤ units (ofInt k) := by
  rw [(nearest_ofInt j).2, (nearest_ofInt k).2]
  exact rounded_mono Nat.one_pos (Int.ofNat_le.mpr (Nat.mul_le_mul_right one h))

lemma units_ofInt_nonneg (n : Nat) : 0 ≤ units (ofInt n) := by
  rw [(nearest_ofInt n).2]
  exact rounded_nonneg Nat.one_pos (Int.natCast_nonneg _)

lemma isNumber_ofInt (n : Int) : IsNumber (ofInt n) := by
  cases n with
  | ofNat n => exact (faithful_ofInt n).isNumber
  | negSucc n => exact isNumber_neg.mpr (faithful_ofInt (n + 1)).isNumber

/-- The double made of a word is finite. -/
lemma isFinite_ofInt {n : Nat} (hn : n < 2 ^ 64) : (ofInt n).isFinite := by
  have hfaithful := faithful_ofInt n
  have hc : Canonical (2 ^ 52) 12 := ⟨by decide, by decide, Or.inr (Nat.le_refl _)⟩
  have hlt : magnitude (2 ^ 52) 12 < beyond := magnitude_lt_beyond hc (by decide)
  have hvalue : magnitude (2 ^ 52) 12 = 2 ^ 64 * one := by
    rw [← magnitude_zero]
    exact magnitude_add (2 ^ 52) 0 (by decide) 12
  obtain ⟨y, hy, hunits⟩ :=
    exists_of_isGrid ⟨2 ^ 52, 12, hc, rfl⟩ (magnitude_pos 12 (by decide)) (Nat.le_of_lt hlt)
  have hle : n * one ≤ 2 ^ 64 * one := Nat.mul_le_mul_right _ (Nat.le_of_lt hn)
  have hbelow := hfaithful.below y hy (by omega)
  have habove := hfaithful.above 0.0 isNumber_zero (by rw [units_zero]; omega)
  rw [units_zero] at habove
  exact isFinite_iff.mpr ⟨hfaithful.isNumber, by omega⟩

lemma one_le_units_ofInt {n : Nat} (hn : 0 < n) : one ≤ units (ofInt n) := by
  have hle : one ≤ n * one := Nat.le_mul_of_pos_left one hn
  have habove := (faithful_ofInt n).above 1.0 isNumber_one (by rw [units_one]; omega)
  rwa [units_one] at habove

/-! ## Counting -/

lemma magnitude_div_one (m : Nat) {e : Int} (hleast : -1074 ≤ e) :
    magnitude m e / one = m * 2 ^ (e - 0).toNat / 2 ^ (0 - (e - (e - 0).toNat)).toNat := by
  rcases Int.lt_or_le e 0 with he | he
  · obtain ⟨k, rfl⟩ : ∃ k : Nat, e = -k := ⟨e.natAbs, by omega⟩
    have hkeep : (-(k : Int) - 0).toNat = 0 := by omega
    have hdrop : (0 - (-(k : Int) - (0 : Nat))).toNat = k := by omega
    have hone : one = magnitude (2 ^ k) (-k) := by
      have h := magnitude_add 1 (-k) (by omega) k
      rw [Nat.one_mul, Int.add_left_neg] at h
      exact h
    rw [hkeep, hdrop, Nat.pow_zero, Nat.mul_one, hone]
    exact Nat.mul_div_mul_right _ _ (Nat.two_pow_pos _)
  · obtain ⟨k, rfl⟩ := Int.eq_ofNat_of_zero_le he
    have hkeep : ((k : Int) - 0).toNat = k := by omega
    have hdrop : (0 - ((k : Int) - k)).toNat = 0 := by omega
    have h := magnitude_add m 0 (by decide) k
    rw [Int.zero_add, magnitude_zero] at h
    rw [hkeep, hdrop, Nat.pow_zero, Nat.div_one, h, Nat.mul_div_cancel _ one_pos]

lemma roundToInt_eq (s : Sign) (m : Nat) {e : Int} (hleast : -1074 ≤ e) :
    roundToInt s m e = s.apply (magnitude m e / one : Nat) := by
  unfold roundToInt decreaseExponent shiftToExponent
  dsimp only
  rw [ofMantissaAndAccuracy_exact, shiftRight_residual _ Nat.one_pos, Nat.one_mul,
    Nat.shiftLeft_eq, magnitude_div_one m hleast]
  rfl

lemma toNat_ofNatClamp (n : Nat) : (UInt64.ofNatClamp n).toNat = min n (2 ^ 64 - 1) := by
  unfold UInt64.ofNatClamp
  split
  · rename_i h
    exact (Nat.min_eq_left (Nat.le_sub_one_of_lt h)).symm
  · rename_i h
    exact (Nat.min_eq_right (Nat.le_of_lt (Nat.lt_of_lt_of_le (by decide) (Nat.not_lt.mp h)))).symm

lemma le_beyond_div_one : 2 ^ 64 - 1 ≤ beyond / one := by
  rw [Nat.le_div_iff_mul_le one_pos]
  exact Nat.le_of_lt (mul_one_lt_beyond (by decide))

/-- Counting takes the whole part of a number, as far as it fits into 64 bits. -/
theorem toCount_eq {x : Float} (hx : IsNumber x) :
    toCount x = min ((units x).toNat / one) (2 ^ 64 - 1) := by
  change (UInt64.ofNatClamp (x.toModel.unpack.toInt 0 (UInt64.size - 1)).toNat).toNat = _
  rw [toNat_ofNatClamp]
  unfold units
  cases h : x.toModel.unpack with
  | notANumber => exact absurd h (isNumber_iff.mp hx)
  | zero s =>
    change min 0 _ = min (0 / one) _
    rw [Nat.zero_div]
  | infinity s =>
    have hbeyond := le_beyond_div_one
    cases s
    · dsimp only [UnpackedFloat.toInt, unpackedUnits, Sign.apply]
      rw [Int.toNat_neg_natCast, Nat.zero_div]
      rfl
    · dsimp only [UnpackedFloat.toInt, unpackedUnits, Sign.apply]
      rw [Int.toNat_natCast, Nat.min_eq_right hbeyond]
      rfl
  | finite s m e hm =>
    have hleast := (canonical_of_unpack h).1.least
    change min (roundToInt s m e).toNat _ = _
    rw [roundToInt_eq s m hleast]
    cases s
    · dsimp only [unpackedUnits, Sign.apply]
      rw [Int.toNat_neg_natCast, Int.toNat_neg_natCast, Nat.zero_div]
    · rfl

/-! ## Rounding to whole numbers -/

lemma isFinite_toFloat {k : UInt64} (hk : k.toNat < 2 ^ 53) : k.toFloat.isFinite := by
  have hlt : k.toNat * one < beyond := mul_one_lt_beyond (by omega)
  obtain ⟨hnumber, hunits⟩ := units_toFloat hk
  rw [← Int.natCast_mul] at hunits
  exact isFinite_iff.mpr ⟨hnumber, by omega⟩

lemma units_toFloat_add_one {k : UInt64} (hk : k.toNat + 1 < 2 ^ 53) :
    IsNumber (k.toFloat + 1.0) ∧ units (k.toFloat + 1.0) = (k.toNat + 1 : Nat) * one := by
  have hsum := units_add (isFinite_toFloat (by omega : k.toNat < 2 ^ 53)) isFinite_one
  have hlt : (k.toNat + 1) * one < beyond := mul_one_lt_beyond (by omega)
  have hexact : (k.toNat : Int) * one + one = ((k.toNat + 1) * one : Nat) := by
    rw [Nat.add_mul, Nat.one_mul, Int.natCast_add, Int.natCast_mul]
  rw [(units_toFloat (by omega)).2, units_one, hexact, rounded_natCast Nat.one_pos,
    nearest_self (isGrid_mul_one (Nat.succ_pos _) (Nat.le_of_lt hk)),
    Nat.min_eq_left (Nat.le_of_lt hlt)] at hsum
  rwa [← Int.natCast_mul]

lemma unpack_abs (x : Float) : x.abs.toModel.unpack = x.toModel.unpack.abs := by
  change (Float.Model.pack x.toModel.unpack.abs).unpack = _
  cases h : x.toModel.unpack with
  | notANumber => rfl
  | infinity s => cases s <;> rfl
  | zero s => cases s <;> rfl
  | finite s m e hm =>
    obtain ⟨hc, he⟩ := canonical_of_unpack h
    exact unpack_pack_finite hm hc he

lemma isNumber_abs {x : Float} : IsNumber x.abs ↔ IsNumber x := by
  rw [isNumber_iff, isNumber_iff, unpack_abs]
  cases x.toModel.unpack <;> first | rfl | exact iff_of_true nofun nofun

lemma units_abs (x : Float) : units x.abs = (units x).natAbs := by
  unfold units
  rw [unpack_abs]
  cases x.toModel.unpack with
  | notANumber => rfl
  | zero s => rfl
  | infinity s => cases s <;> dsimp only [UnpackedFloat.abs, unpackedUnits, Sign.apply] <;> omega
  | finite s m e hm =>
    cases s <;> dsimp only [UnpackedFloat.abs, unpackedUnits, Sign.apply] <;> omega

lemma units_sub_self {x y : Float} (hx : x.isFinite) (hy : y.isFinite) (h : units x = units y) :
    IsNumber (x - y) ∧ units (x - y) = 0 := by
  have hdiff := units_sub hx hy
  rwa [h, Int.sub_self, rounded_zero] at hdiff

lemma units_wholeBound :
    IsNumber 4503599627370496.0 ∧ units 4503599627370496.0 = (2 ^ 52 : Nat) * one := by
  have hunpack : (4503599627370496.0 : Float).toModel.unpack =
    .finite .positive (2 ^ 52) 0 (by decide) := rfl
  refine ⟨isNumber_iff.mpr (by rw [hunpack]; exact nofun), ?_⟩
  rw [units, hunpack, ← Int.natCast_mul, ← magnitude_zero]
  rfl

/-- The whole part of a number below `2 ^ 52`, as a double. -/
lemma units_wholePart {x : Float} (hx : IsNumber x) (hpos : 0 ≤ units x)
    (hlt : units x < (2 ^ 52 : Nat) * one) :
    x.toUInt64.toNat = (units x).toNat / one ∧ x.toUInt64.toNat < 2 ^ 52 := by
  have hcount := toCount_eq hx
  have hone := one_pos
  have hquotient : (units x).toNat / one < 2 ^ 52 := by
    rw [Nat.div_lt_iff_lt_mul hone]
    rw [← Int.natCast_mul] at hlt
    omega
  change x.toUInt64.toNat = _ at hcount
  omega

lemma not_half_le {x : Float} (hx : IsNumber x) (hzero : units x = 0) : ¬ 0.5 ≤ x := by
  have hhalf : (0.5 : Float).toModel.unpack = .finite .positive (2 ^ 52) (-53) (by decide) := rfl
  have hnumber : IsNumber 0.5 := isNumber_iff.mpr (by rw [hhalf]; exact nofun)
  have hunits : units 0.5 = magnitude (2 ^ 52) (-53) := by
    rw [units, hhalf]
    rfl
  have hpos := magnitude_pos (-53) (by decide : 0 < 2 ^ 52)
  rw [le_iff_units hnumber hx, hzero, hunits]
  omega

/-- The larger numbers are whole. -/
lemma exists_units_eq_mul_one {x : Float} (hx : IsNumber x)
    (hlarge : (2 ^ 52 : Nat) * one ≤ (units x).natAbs) : ∃ n : Nat, (units x).natAbs = n * one := by
  have hwhole : ∀ m k : Nat, magnitude m k = m * 2 ^ k * one := by
    intro m k
    have h := magnitude_add m 0 (by decide) k
    rwa [Int.zero_add, magnitude_zero] at h
  have happly : ∀ (s : Sign) (n : Nat), (s.apply n).natAbs = n := by
    intro s n
    cases s
    · exact (Int.natAbs_neg n).trans (Int.natAbs_natCast n)
    · exact Int.natAbs_natCast n
  unfold units at hlarge ⊢
  cases h : x.toModel.unpack with
  | notANumber => exact absurd h (isNumber_iff.mp hx)
  | zero s => exact ⟨0, (Nat.zero_mul one).symm⟩
  | infinity s =>
    have hbeyond := hwhole (2 ^ 52) 972
    exact ⟨_, (happly s beyond).trans (magnitude_eq_beyond.symm.trans hbeyond)⟩
  | finite s m e hm =>
    rw [h] at hlarge
    unfold unpackedUnits at hlarge ⊢
    dsimp only at hlarge ⊢
    rw [happly] at hlarge ⊢
    have hc := (canonical_of_unpack h).1
    have he : 0 ≤ e := by
      apply Int.not_lt.mp
      intro hneg
      have hsmall : magnitude m e < magnitude (2 ^ 52) 0 :=
        magnitude_lt_of_exponent_lt hc ⟨by decide, by decide, Or.inr (Nat.le_refl _)⟩ hneg
      rw [magnitude_zero] at hsmall
      omega
    obtain ⟨k, rfl⟩ := Int.eq_ofNat_of_zero_le he
    exact ⟨m * 2 ^ k, hwhole m k⟩

lemma lt_wholeBound_iff {x : Float} (hx : IsNumber x) :
    x.abs < 4503599627370496.0 ↔ (units x).natAbs < 2 ^ 52 * one := by
  obtain ⟨hbound, hunits⟩ := units_wholeBound
  rw [lt_iff_units (isNumber_abs.mpr hx) hbound, hunits, units_abs, ← Int.natCast_mul]
  exact Int.ofNat_lt

/-- What a number below the bound is rounded to before its sign is set. -/
lemma units_rounded {x : Float} (hx : IsNumber x) (hlt : (units x).natAbs < 2 ^ 52 * one) :
    IsNumber (if 0.5 ≤ x.abs - x.abs.toUInt64.toFloat then x.abs.toUInt64.toFloat + 1.0
        else x.abs.toUInt64.toFloat) ∧
      (∃ n : Nat, units (if 0.5 ≤ x.abs - x.abs.toUInt64.toFloat then x.abs.toUInt64.toFloat + 1.0
        else x.abs.toUInt64.toFloat) = n * one) ∧
      ∀ n : Nat, (units x).natAbs = n * one →
        units (if 0.5 ≤ x.abs - x.abs.toUInt64.toFloat then x.abs.toUInt64.toFloat + 1.0
          else x.abs.toUInt64.toFloat) = n * one := by
  have habs := isNumber_abs.mpr hx
  have hunits := units_abs x
  have hbound : units x.abs < (2 ^ 52 : Nat) * one := by
    rw [hunits, ← Int.natCast_mul]
    exact Int.ofNat_lt.mpr hlt
  obtain ⟨hcount, hsmall⟩ := units_wholePart habs (by omega) hbound
  obtain ⟨hnumber, hwhole⟩ := @units_toFloat x.abs.toUInt64 (by omega)
  obtain ⟨hnumber', hwhole'⟩ := @units_toFloat_add_one x.abs.toUInt64 (by omega)
  refine ⟨?_, ?_, fun n hn => ?_⟩
  · split
    · exact hnumber'
    · exact hnumber
  · split
    · exact ⟨_, hwhole'⟩
    · exact ⟨_, hwhole⟩
  · have hpart : x.abs.toUInt64.toNat = n := by
      rw [hcount, hunits, Int.toNat_natCast, hn, Nat.mul_div_cancel _ one_pos]
    rw [hpart] at hwhole
    have hlimit : n * one < beyond := mul_one_lt_beyond (by omega)
    have hsame : units x.abs = units x.abs.toUInt64.toFloat := by
      rw [hunits, hwhole, hn, Int.natCast_mul]
    have hcast := Int.natCast_mul n one
    have hfinite : x.abs.isFinite := isFinite_iff.mpr ⟨habs, by omega⟩
    obtain ⟨hdiff, hzero⟩ := units_sub_self hfinite (isFinite_toFloat (by omega)) hsame
    rw [if_neg (not_half_le hdiff hzero)]
    exact hwhole

lemma not_isNumber_round {x : Float} (hx : ¬ IsNumber x) : ¬ IsNumber (round x) := by
  unfold round
  dsimp only
  rw [if_neg (not_lt_of_not_isNumber (Or.inl (mt isNumber_abs.mp hx)))]
  exact hx

/-- Rounding a number yields a whole number. -/
theorem round_whole {x : Float} (hx : IsNumber x) :
    IsNumber (round x) ∧ ∃ z : Int, units (round x) = z * one := by
  unfold round
  dsimp only
  by_cases hlt : (units x).natAbs < 2 ^ 52 * one
  · obtain ⟨hnumber, ⟨n, hn⟩, -⟩ := units_rounded hx hlt
    rw [if_pos ((lt_wholeBound_iff hx).mpr hlt)]
    split
    · exact ⟨hnumber, n, hn⟩
    · refine ⟨isNumber_neg.mpr hnumber, -n, ?_⟩
      rw [units_neg, hn, Int.neg_mul]
  · obtain ⟨n, hn⟩ := exists_units_eq_mul_one hx (Nat.not_lt.mp hlt)
    rw [if_neg (mt (lt_wholeBound_iff hx).mp hlt)]
    refine ⟨hx, ?_⟩
    rcases Int.natAbs_eq (units x) with hpos | hneg
    · exact ⟨n, by rw [hpos, hn, Int.natCast_mul]⟩
    · exact ⟨-n, by rw [hneg, hn, Int.natCast_mul, Int.neg_mul]⟩

/-- Rounding keeps the value of a whole number that is not negative. -/
theorem units_round_of_whole {x : Float} {n : Nat} (hx : IsNumber x) (h : units x = n * one) :
    units (round x) = n * one := by
  have habs : (units x).natAbs = n * one := by
    rw [h, ← Int.natCast_mul, Int.natAbs_natCast]
  unfold round
  dsimp only
  by_cases hlt : (units x).natAbs < 2 ^ 52 * one
  · obtain ⟨-, -, hkeep⟩ := units_rounded hx hlt
    rw [if_pos ((lt_wholeBound_iff hx).mpr hlt)]
    by_cases hzero : n = 0
    · have hvalue := hkeep n habs
      rw [hzero, Int.natCast_zero, Int.zero_mul] at hvalue ⊢
      split
      · exact hvalue
      · rw [units_neg, hvalue, Int.neg_zero]
    · have hpos : 0 < n * one := Nat.mul_pos (Nat.pos_of_ne_zero hzero) one_pos
      have hlimit : 2 ^ 52 * one < beyond := mul_one_lt_beyond (by decide)
      have hfinite : x.isFinite := isFinite_iff.mpr ⟨hx, by omega⟩
      obtain ⟨m, e, hm, hunpack, -⟩ := unpack_of_units_pos hfinite (by omega)
      have hbits : x.toBits < 0x8000000000000000 := by
        have hlt := toBits_lt_of_positive hunpack
        rw [UInt64.lt_iff_toNat_lt]
        exact Nat.lt_trans hlt (by decide)
      rw [if_pos hbits]
      exact hkeep n habs
  · rw [if_neg (mt (lt_wholeBound_iff hx).mp hlt)]
    exact h

lemma toCount_of_not_isNumber {x : Float} (hx : ¬ IsNumber x) : toCount x = 0 := by
  have hnan : x.toModel.unpack = .notANumber := by
    rwa [isNumber_iff, ne_eq, Classical.not_not] at hx
  change (UInt64.ofNatClamp (x.toModel.unpack.toInt 0 (UInt64.size - 1)).toNat).toNat = _
  rw [hnan]
  rfl

lemma toCount_congr {x y : Float} (hx : IsNumber x) (hy : IsNumber y) (h : units x = units y) :
    toCount x = toCount y := by
  rw [toCount_eq hx, toCount_eq hy, h]

/-- Whole numbers of at most 53 bits, and the next one, are doubles. -/
theorem units_ofInt {n : Nat} (hn : n ≤ 2 ^ 53) : units (ofInt n) = n * one := by
  rcases Nat.eq_zero_or_pos n with rfl | hpos
  · rw [Int.natCast_zero, Int.zero_mul]
    exact units_zero
  · rw [(faithful_ofInt n).units_eq_of_isGrid (isGrid_mul_one hpos hn) (Nat.mul_pos hpos one_pos)
      (Nat.le_of_lt (mul_one_lt_beyond (by omega)))]
    exact Int.natCast_mul _ _

/-- The double made of a natural number is a whole number, though it may be another one. -/
lemma ofInt_whole (n : Nat) : ∃ m : Nat, units (ofInt n) = m * one := by
  have hfaithful := faithful_ofInt n
  by_cases hn : n < 2 ^ 53
  · exact ⟨n, units_ofInt (Nat.le_of_lt hn)⟩
  · obtain ⟨hbound, hunits⟩ := units_wholeBound
    have hle : 2 ^ 52 * one ≤ n * one := Nat.mul_le_mul_right _ (by omega)
    have habove := hfaithful.above _ hbound (by rw [hunits, ← Int.natCast_mul]; omega)
    rw [hunits, ← Int.natCast_mul] at habove
    obtain ⟨m, hm⟩ := exists_units_eq_mul_one hfaithful.isNumber (by omega)
    refine ⟨m, ?_⟩
    rw [← Int.natCast_mul, ← hm]
    omega

end Retrofit.Number
