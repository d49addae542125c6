import Mathlib.Algebra.Group.Nat.Defs
import Mathlib.Tactic.Lemma
import Retrofit.Number

/-!
# The exact value of a number

Every finite double is a whole multiple of `2 ^ -1074`, so its exact value is a whole number of
units of that size (`units`). An infinite number takes the place of `2 ^ 1024`. Comparisons of
doubles are comparisons of their units (`lt_iff_units`, `le_iff_units`), which is what the laws
about costs and violations rest on.
-/

namespace Retrofit.Number

open Float.Model Float.Model.UnpackedFloat

/-- A double that is not undefined. -/
def IsNumber (x : Float) : Prop := x.isNaN = false

instance : DecidablePred IsNumber := fun x => inferInstanceAs (Decidable (x.isNaN = false))

/-- The units of a mantissa at an exponent. -/
def magnitude (m : Nat) (e : Int) : Nat := m * 2 ^ (e + 1074).toNat

/-- The binary place of the first power of two that is no finite double, counted in units. -/
def limit : Nat := 2098

/-- The units of an infinite number, those of `2 ^ 1024`. -/
def beyond : Nat := 2 ^ limit

/-- The units of one. -/
def one : Nat := magnitude 1 0

def unpackedUnits : UnpackedFloat → Int
  | .finite s m e _ => s.apply (magnitude m e)
  | .infinity s => s.apply beyond
  | .zero _ => 0
  | .notANumber => 0

/-- The exact value of a double in units of `2 ^ -1074`. -/
def units (x : Float) : Int := unpackedUnits x.toModel.unpack

/-- A mantissa with the exponent that a double of their value has. -/
structure Canonical (m : Nat) (e : Int) : Prop where
  bounded : m < 2 ^ 53
  least : -1074 ≤ e
  normal : e = -1074 ∨ 2 ^ 52 ≤ m

lemma magnitude_zero (n : Nat) : magnitude n 0 = n * one := by
  unfold one magnitude
  rw [Nat.one_mul]

lemma isNumber_iff {x : Float} : IsNumber x ↔ x.toModel.unpack ≠ .notANumber := by
  change x.toModel.unpack.isNaN = false ↔ _
  cases x.toModel.unpack with
  | notANumber => exact iff_of_false (fun h => Bool.noConfusion h) fun h => h rfl
  | infinity s => exact iff_of_true rfl fun h => UnpackedFloat.noConfusion h
  | zero s => exact iff_of_true rfl fun h => UnpackedFloat.noConfusion h
  | finite s m e hm => exact iff_of_true rfl fun h => UnpackedFloat.noConfusion h

/-! ## Doubles are canonical -/

lemma toNat_normal (m : BitVec 52) : (1#1 ++ m).toNat = 2 ^ 52 + m.toNat := by
  rw [BitVec.toNat_append, Nat.shiftLeft_eq, Nat.mul_comm, ← Nat.two_pow_add_eq_or_of_lt m.isLt]
  rfl

/-- The sign, mantissa and exponent of a finite double, which is subnormal or normal. -/
lemma cases_of_unpack {bits : BitVec Format.binary64.numBits} {s : Sign} {m : Nat} {e : Int}
    {hm : 0 < m} (h : UnpackedFloat.unpack Format.binary64 bits = .finite s m e hm) :
    s = Sign.ofBitVec (unpackSign bits) ∧ unpackExponent bits ≠ -1#11 ∧
      (unpackExponent bits = 0#11 ∧ m = (unpackMantissa bits).toNat ∧
          e = (unpackExponent bits).toNat - 1074 ∨
        unpackExponent bits ≠ 0#11 ∧ m = (1#1 ++ unpackMantissa bits).toNat ∧
          e = (unpackExponent bits).toNat - 1075) := by
  have bias : Format.binary64.exponentBias = 1023 := by decide
  unfold UnpackedFloat.unpack at h
  dsimp only at h
  rw [bias] at h
  by_cases top : unpackExponent bits = -1#11
  · rw [if_pos top] at h
    by_cases hzero : unpackMantissa bits = 0#52
    · rw [if_pos hzero] at h
      cases h
    · rw [if_neg hzero] at h
      cases h
  · rw [if_neg top] at h
    by_cases bottom : unpackExponent bits = 0#11
    · rw [if_pos bottom] at h
      by_cases hzero : unpackMantissa bits = 0#52
      · rw [dif_pos hzero] at h
        cases h
      · rw [dif_neg hzero] at h
        obtain ⟨hsign, hmantissa, hexponent⟩ := UnpackedFloat.finite.inj h
        exact ⟨hsign.symm, top, Or.inl ⟨bottom, hmantissa.symm, by omega⟩⟩
    · rw [if_neg bottom] at h
      obtain ⟨hsign, hmantissa, hexponent⟩ := UnpackedFloat.finite.inj h
      exact ⟨hsign.symm, top, Or.inr ⟨bottom, hmantissa.symm, by omega⟩⟩

lemma canonical_of_unpack_bits {bits : BitVec Format.binary64.numBits} {s : Sign} {m : Nat}
    {e : Int} {hm : 0 < m} (h : UnpackedFloat.unpack Format.binary64 bits = .finite s m e hm) :
    Canonical m e ∧ e ≤ 971 := by
  have hmantissa : (unpackMantissa bits).toNat < 2 ^ 52 := (unpackMantissa bits).isLt
  have hexponent : (unpackExponent bits).toNat < 2 ^ 11 := (unpackExponent bits).isLt
  have hnormal : (1#1 ++ unpackMantissa bits).toNat = 2 ^ 52 + (unpackMantissa bits).toNat :=
    toNat_normal (unpackMantissa bits)
  obtain ⟨-, top, hcases⟩ := cases_of_unpack h
  have htop : (unpackExponent bits).toNat ≠ 2047 := fun heq => top (BitVec.eq_of_toNat_eq heq)
  rcases hcases with ⟨bottom, hm, he⟩ | ⟨bottom, hm, he⟩
  · have hbottom : (unpackExponent bits).toNat = 0 := by rw [bottom]; rfl
    refine ⟨⟨?_, ?_, Or.inl ?_⟩, ?_⟩ <;> omega
  · have hbottom : (unpackExponent bits).toNat ≠ 0 :=
      fun heq => bottom (BitVec.eq_of_toNat_eq heq)
    refine ⟨⟨?_, ?_, Or.inr ?_⟩, ?_⟩ <;> omega

lemma canonical_of_unpack {x : Float} {s : Sign} {m : Nat} {e : Int} {hm : 0 < m}
    (h : x.toModel.unpack = .finite s m e hm) : Canonical m e ∧ e ≤ 971 :=
  canonical_of_unpack_bits h

/-! ## Packing -/

lemma unpackSign_packComponents (s : Sign) (e : BitVec 11) (m : BitVec 52) :
    Sign.ofBitVec (@unpackSign Format.binary64 (packComponents Format.binary64 s e m)) = s := by
  have hsign : (s.toBitVec ++ e ++ m).extractLsb' 63 1 = s.toBitVec := by
    rw [BitVec.extractLsb'_append_eq_of_le (by omega),
      BitVec.extractLsb'_append_eq_of_le (by omega)]
    exact BitVec.extractLsb'_eq_self
  change Sign.ofBitVec ((s.toBitVec ++ e ++ m).extractLsb' 63 1) = s
  rw [hsign]
  cases s <;> rfl

lemma finite_congr {s s' : Sign} {m m' : Nat} {e e' : Int} {hm : 0 < m} {hm' : 0 < m'} (hs : s = s')
    (hmantissa : m = m') (he : e = e') :
    UnpackedFloat.finite s m e hm = .finite s' m' e' hm' := by
  subst hs hmantissa he
  rfl

lemma unpack_normal {s : Sign} {e : BitVec 11} {m : BitVec 52} (low : e ≠ 0#11)
    (high : e ≠ -1#11) :
    UnpackedFloat.unpack Format.binary64 (packComponents Format.binary64 s e m) =
      .finite s (2 ^ 52 + m.toNat) (e.toNat - 1075) (by omega) := by
  have bias : Format.binary64.exponentBias = 1023 := by decide
  unfold UnpackedFloat.unpack
  dsimp only
  rw [if_neg (by rwa [unpackExponent_packComponents]),
    if_neg (by rwa [unpackExponent_packComponents])]
  refine finite_congr (unpackSign_packComponents ..) ?_ ?_
  · rw [unpackMantissa_packComponents]
    exact toNat_normal m
  · rw [unpackExponent_packComponents, bias]
    rfl

lemma unpack_subnormal {s : Sign} {m : BitVec 52} (hm : 0 < m.toNat) :
    UnpackedFloat.unpack Format.binary64 (packComponents Format.binary64 s 0#11 m) =
      .finite s m.toNat (-1074) hm := by
  have hne : m ≠ 0#52 := by
    rintro rfl
    exact absurd hm (by decide)
  unfold UnpackedFloat.unpack
  dsimp only
  rw [if_neg (by rw [unpackExponent_packComponents]; decide),
    if_pos (unpackExponent_packComponents ..), dif_neg (by rwa [unpackMantissa_packComponents])]
  refine finite_congr (unpackSign_packComponents ..) ?_ ?_
  · rw [unpackMantissa_packComponents]
  · rw [unpackExponent_packComponents]
    decide

lemma unpack_pack_finite {s : Sign} {m : Nat} {e : Int} (hm : 0 < m) (h : Canonical m e)
    (he : e ≤ 971) : (Float.Model.pack (.finite s m e hm)).unpack = .finite s m e hm := by
  have bias : Format.binary64.exponentBias = 1023 := by decide
  have width : Format.binary64.mantissaBits = 53 := by decide
  obtain ⟨hbounded, hleast, hnormal⟩ := h
  change UnpackedFloat.unpack Format.binary64 (UnpackedFloat.pack Format.binary64 _) = _
  delta UnpackedFloat.pack
  dsimp only
  rw [bias, width, if_neg (by omega)]
  by_cases hlarge : 2 ^ 52 ≤ m
  · have hlog : m.log2 + 1 = 53 := by
      have hlow := (Nat.le_log2 (by omega)).mpr hlarge
      have hhigh := (Nat.log2_lt (by omega)).mpr hbounded
      omega
    have hexponent : (BitVec.ofNat 11 (e + (1023 : Nat) + (52 : Nat)).toNat).toNat =
        (e + 1075).toNat := by
      rw [BitVec.toNat_ofNat, Nat.mod_eq_of_lt (by omega)]
      omega
    have hmantissa : (BitVec.ofNat 52 m).toNat = m - 2 ^ 52 := by
      rw [BitVec.toNat_ofNat]
      omega
    rw [if_pos hlog, unpack_normal]
    · exact finite_congr rfl (by omega) (by omega)
    · intro heq
      have := congrArg BitVec.toNat heq
      rw [hexponent] at this
      simp only [BitVec.toNat_ofNat] at this
      omega
    · intro heq
      have := congrArg BitVec.toNat heq
      rw [hexponent] at this
      have hones : (-1#11).toNat = 2047 := by decide
      omega
  · have hlog : ¬ m.log2 + 1 = 53 := by
      have := (Nat.log2_lt (by omega)).mpr (by omega : m < 2 ^ 52)
      omega
    have hmantissa : (BitVec.ofNat 52 m).toNat = m := by
      rw [BitVec.toNat_ofNat, Nat.mod_eq_of_lt (by omega)]
    rw [if_neg hlog]
    have hsub := @unpack_subnormal s (BitVec.ofNat 52 m) (by omega)
    exact hsub.trans (finite_congr rfl hmantissa (by omega))

/-- A double made from bits is what these bits stand for. -/
lemma unpack_ofBits (bits : UInt64) :
    (Float.ofBits bits).toModel.unpack = UnpackedFloat.unpack Format.binary64 bits.toBitVec := by
  change (Float.Model.pack (UnpackedFloat.unpack Format.binary64 bits.toBitVec)).unpack = _
  cases h : UnpackedFloat.unpack Format.binary64 bits.toBitVec with
  | notANumber => rfl
  | infinity s => cases s <;> rfl
  | zero s => cases s <;> rfl
  | finite s m e hm =>
    obtain ⟨hc, he⟩ := canonical_of_unpack_bits h
    exact unpack_pack_finite hm hc he

lemma unpack_pack_of_unpack (x : Float) : (Float.Model.pack x.toModel.unpack).unpack =
    x.toModel.unpack :=
  unpack_ofBits x.toBits

/-! ## Order -/

lemma beyond_pos : (0 : Int) < beyond :=
  Int.natCast_pos.mpr (Nat.two_pow_pos _)

lemma magnitude_pos {m : Nat} (e : Int) (hm : 0 < m) : 0 < magnitude m e :=
  Nat.mul_pos hm (Nat.two_pow_pos _)

lemma one_pos : 0 < one := magnitude_pos 0 Nat.one_pos

lemma magnitude_lt_two_pow {m : Nat} {e : Int} (h : Canonical m e) :
    magnitude m e < 2 ^ (53 + (e + 1074).toNat) := by
  rw [Nat.pow_add]
  exact Nat.mul_lt_mul_of_pos_right h.bounded (Nat.two_pow_pos _)

lemma magnitude_lt_beyond {m : Nat} {e : Int} (h : Canonical m e) (he : e ≤ 971) :
    magnitude m e < beyond := by
  have hplace : 53 + (e + 1074).toNat ≤ limit := by
    unfold limit
    omega
  exact Nat.lt_of_lt_of_le (magnitude_lt_two_pow h) (Nat.pow_le_pow_right (by omega) hplace)

lemma two_pow_le_magnitude {m : Nat} {e : Int} (h : 2 ^ 52 ≤ m) :
    2 ^ (52 + (e + 1074).toNat) ≤ magnitude m e := by
  rw [Nat.pow_add]
  exact Nat.mul_le_mul_right _ h

lemma magnitude_lt_of_exponent_lt {m m' : Nat} {e e' : Int} (h : Canonical m e)
    (h' : Canonical m' e') (he : e < e') : magnitude m e < magnitude m' e' := by
  have hleast := h.least
  have hlarge : 2 ^ 52 ≤ m' := h'.normal.resolve_left (by omega)
  calc magnitude m e < 2 ^ (53 + (e + 1074).toNat) := magnitude_lt_two_pow h
    _ ≤ 2 ^ (52 + (e' + 1074).toNat) := Nat.pow_le_pow_right (by omega) (by omega)
    _ ≤ magnitude m' e' := two_pow_le_magnitude hlarge

lemma compare_magnitude {m m' : Nat} {e e' : Int} (h : Canonical m e) (h' : Canonical m' e') :
    (compare e e').then (compare m m') = compare (magnitude m e) (magnitude m' e') := by
  rcases Int.lt_trichotomy e e' with he | he | he
  · rw [Int.compare_eq_lt.mpr he, Nat.compare_eq_lt.mpr (magnitude_lt_of_exponent_lt h h' he)]
    rfl
  · subst he
    have hpos := Nat.two_pow_pos (e + 1074).toNat
    rw [Int.compare_eq_eq.mpr rfl]
    rcases Nat.lt_trichotomy m m' with hm | hm | hm
    · have hlt : magnitude m e < magnitude m' e := Nat.mul_lt_mul_of_pos_right hm hpos
      rw [Nat.compare_eq_lt.mpr hm, Nat.compare_eq_lt.mpr hlt]
      rfl
    · rw [hm, Nat.compare_eq_eq.mpr rfl, Nat.compare_eq_eq.mpr rfl]
      rfl
    · have hlt : magnitude m' e < magnitude m e := Nat.mul_lt_mul_of_pos_right hm hpos
      rw [Nat.compare_eq_gt.mpr hm, Nat.compare_eq_gt.mpr hlt]
      rfl
  · rw [Int.compare_eq_gt.mpr he, Nat.compare_eq_gt.mpr (magnitude_lt_of_exponent_lt h' h he)]
    rfl

lemma compare_natCast (m n : Nat) : compare (m : Int) n = compare m n := by
  rcases Nat.lt_trichotomy m n with h | h | h
  · rw [Nat.compare_eq_lt.mpr h, Int.compare_eq_lt.mpr (Int.ofNat_lt.mpr h)]
  · rw [h, Nat.compare_eq_eq.mpr rfl, Int.compare_eq_eq.mpr rfl]
  · rw [Nat.compare_eq_gt.mpr h, Int.compare_eq_gt.mpr (Int.ofNat_lt.mpr h)]

lemma compare_neg_neg (a b : Int) : compare (-a) (-b) = (compare a b).swap := by
  rcases Int.lt_trichotomy a b with h | h | h
  · rw [Int.compare_eq_lt.mpr h, Int.compare_eq_gt.mpr (Int.neg_lt_neg h)]
    rfl
  · rw [h, Int.compare_eq_eq.mpr rfl, Int.compare_eq_eq.mpr rfl]
    rfl
  · rw [Int.compare_eq_gt.mpr h, Int.compare_eq_lt.mpr (Int.neg_lt_neg h)]
    rfl

/-- A value of greater magnitude decides by its sign. -/
lemma compare_apply_of_lt (s s' : Sign) {m n : Nat} (h : m < n) :
    compare (s.apply (m : Int)) (s'.apply (n : Int)) =
      match s' with
      | .negative => .gt
      | .positive => .lt := by
  cases s' with
  | negative => cases s <;> exact Int.compare_eq_gt.mpr (by dsimp only [Sign.apply]; omega)
  | positive => cases s <;> exact Int.compare_eq_lt.mpr (by dsimp only [Sign.apply]; omega)

lemma compare_apply_of_gt (s s' : Sign) {m n : Nat} (h : n < m) :
    compare (s.apply (m : Int)) (s'.apply (n : Int)) =
      match s with
      | .negative => .lt
      | .positive => .gt := by
  cases s with
  | negative => cases s' <;> exact Int.compare_eq_lt.mpr (by dsimp only [Sign.apply]; omega)
  | positive => cases s' <;> exact Int.compare_eq_gt.mpr (by dsimp only [Sign.apply]; omega)

/-- Infinite values are ordered by their signs. -/
lemma compare_infinity (s s' : Sign) :
    (UnpackedFloat.infinity s : UnpackedFloat).compare (.infinity s') =
      some (compare (s.apply (beyond : Int)) (s'.apply (beyond : Int))) := by
  have hbeyond := beyond_pos
  cases s <;> cases s'
  · rw [Int.compare_eq_eq.mpr rfl]
    rfl
  · rw [Int.compare_eq_lt.mpr (by dsimp only [Sign.apply]; omega)]
    rfl
  · rw [Int.compare_eq_gt.mpr (by dsimp only [Sign.apply]; omega)]
    rfl
  · rw [Int.compare_eq_eq.mpr rfl]
    rfl

/-- Finite values are ordered by their signs, then by their magnitudes. -/
lemma compare_finite (s s' : Sign) {m m' : Nat} {e e' : Int} (hm : 0 < m) (hm' : 0 < m')
    (h : Canonical m e) (h' : Canonical m' e') :
    (UnpackedFloat.finite s m e hm).compare (.finite s' m' e' hm') =
      some (compare (s.apply (magnitude m e : Int)) (s'.apply (magnitude m' e' : Int))) := by
  have hpos := magnitude_pos e hm
  have hpos' := magnitude_pos e' hm'
  have hcompare := compare_magnitude h h'
  cases s <;> cases s'
  · change _ = some (compare (-(magnitude m e : Int)) (-(magnitude m' e')))
    rw [compare_neg_neg, compare_natCast, ← hcompare]
    rfl
  · rw [Int.compare_eq_lt.mpr (by dsimp only [Sign.apply]; omega)]
    rfl
  · rw [Int.compare_eq_gt.mpr (by dsimp only [Sign.apply]; omega)]
    rfl
  · change _ = some (compare (magnitude m e : Int) (magnitude m' e'))
    rw [compare_natCast, ← hcompare]
    rfl

/-- Doubles are compared like their exact values. -/
lemma compare_unpack {x y : Float} (hx : IsNumber x) (hy : IsNumber y) :
    x.toModel.unpack.compare y.toModel.unpack = some (compare (units x) (units y)) := by
  have hx := isNumber_iff.mp hx
  have hy := isNumber_iff.mp hy
  have hbeyond : 0 < beyond := Int.natCast_pos.mp beyond_pos
  have hbelow : ∀ {z : Float} {s m e hm}, z.toModel.unpack = .finite s m e hm →
      magnitude m e < beyond := by
    intro z s m e hm h
    obtain ⟨hc, he⟩ := canonical_of_unpack h
    exact magnitude_lt_beyond hc he
  unfold units
  cases hux : x.toModel.unpack with
  | notANumber => exact absurd hux hx
  | infinity s =>
    cases huy : y.toModel.unpack with
    | notANumber => exact absurd huy hy
    | infinity s' => exact compare_infinity s s'
    | zero s' =>
      have h := compare_apply_of_gt s .positive hbeyond
      cases s <;> exact congrArg some h.symm
    | finite s' m' e' hm' =>
      have h := compare_apply_of_gt s s' (hbelow huy)
      cases s <;> exact congrArg some h.symm
  | zero s =>
    cases huy : y.toModel.unpack with
    | notANumber => exact absurd huy hy
    | infinity s' =>
      have h := compare_apply_of_lt .positive s' hbeyond
      cases s' <;> exact congrArg some h.symm
    | zero s' => exact congrArg some (Int.compare_eq_eq.mpr rfl).symm
    | finite s' m' e' hm' =>
      have h := compare_apply_of_lt .positive s' (magnitude_pos e' hm')
      cases s' <;> exact congrArg some h.symm
  | finite s m e hm =>
    cases huy : y.toModel.unpack with
    | notANumber => exact absurd huy hy
    | infinity s' =>
      have h := compare_apply_of_lt s s' (hbelow hux)
      cases s' <;> exact congrArg some h.symm
    | zero s' =>
      have h := compare_apply_of_gt s .positive (magnitude_pos e hm)
      cases s <;> exact congrArg some h.symm
    | finite s' m' e' hm' =>
      exact compare_finite s s' hm hm' (canonical_of_unpack hux).1 (canonical_of_unpack huy).1

lemma lt_iff_compare {x y : Float} :
    x < y ↔ x.toModel.unpack.compare y.toModel.unpack = some .lt := by
  change (decide (x.toModel.unpack.lt y.toModel.unpack = true)) = true ↔ _
  rw [decide_eq_true_iff]
  unfold UnpackedFloat.lt
  cases x.toModel.unpack.compare y.toModel.unpack with
  | none => simp
  | some order => cases order <;> decide

lemma le_iff_compare {x y : Float} :
    x ≤ y ↔ ∃ order, x.toModel.unpack.compare y.toModel.unpack = some order ∧ order ≠ .gt := by
  change (decide (x.toModel.unpack.le y.toModel.unpack = true)) = true ↔ _
  rw [decide_eq_true_iff]
  unfold UnpackedFloat.le
  cases x.toModel.unpack.compare y.toModel.unpack with
  | none => simp
  | some order => cases order <;> simp

lemma compare_eq_none_of_not_isNumber {x y : Float} (h : ¬ IsNumber x ∨ ¬ IsNumber y) :
    x.toModel.unpack.compare y.toModel.unpack = none := by
  rcases h with h | h
  · rw [isNumber_iff, ne_eq, Classical.not_not] at h
    rw [h]
    rfl
  · rw [isNumber_iff, ne_eq, Classical.not_not] at h
    rw [h]
    cases x.toModel.unpack <;> rfl

theorem lt_iff_units {x y : Float} (hx : IsNumber x) (hy : IsNumber y) :
    x < y ↔ units x < units y := by
  rw [lt_iff_compare, compare_unpack hx hy, Option.some.injEq, Int.compare_eq_lt]

theorem le_iff_units {x y : Float} (hx : IsNumber x) (hy : IsNumber y) :
    x ≤ y ↔ units x ≤ units y := by
  rw [le_iff_compare, compare_unpack hx hy]
  constructor
  · rintro ⟨order, h, hne⟩
    rw [Option.some.injEq] at h
    rw [← h] at hne
    exact Int.not_lt.mp fun hlt => hne (Int.compare_eq_gt.mpr hlt)
  · intro h
    exact ⟨_, rfl, fun heq => absurd (Int.compare_eq_gt.mp heq) (Int.not_lt.mpr h)⟩

lemma beq_iff_compare {x y : Float} :
    x == y ↔ x.toModel.unpack.compare y.toModel.unpack = some .eq := by
  change x.toModel.unpack.beq y.toModel.unpack = true ↔ _
  unfold UnpackedFloat.beq
  cases x.toModel.unpack.compare y.toModel.unpack with
  | none => simp
  | some order => cases order <;> decide

theorem beq_iff_units {x y : Float} (hx : IsNumber x) (hy : IsNumber y) :
    x == y ↔ units x = units y := by
  rw [beq_iff_compare, compare_unpack hx hy, Option.some.injEq, Int.compare_eq_eq]

lemma not_lt_of_not_isNumber {x y : Float} (h : ¬ IsNumber x ∨ ¬ IsNumber y) : ¬ x < y := by
  rw [lt_iff_compare, compare_eq_none_of_not_isNumber h]
  exact nofun

lemma not_lt_self (x : Float) : ¬ x < x := by
  by_cases hx : IsNumber x
  · rw [lt_iff_units hx hx]
    exact Int.lt_irrefl _
  · exact not_lt_of_not_isNumber (Or.inl hx)

lemma isNumber_of_compare {x y : Float} {order : Ordering}
    (h : x.toModel.unpack.compare y.toModel.unpack = some order) : IsNumber x ∧ IsNumber y := by
  constructor
  · apply Classical.not_not.mp
    intro hx
    rw [compare_eq_none_of_not_isNumber (Or.inl hx)] at h
    cases h
  · apply Classical.not_not.mp
    intro hy
    rw [compare_eq_none_of_not_isNumber (Or.inr hy)] at h
    cases h

lemma isNumber_of_le {x y : Float} (h : x ≤ y) : IsNumber x ∧ IsNumber y := by
  obtain ⟨order, hcompare, -⟩ := le_iff_compare.mp h
  exact isNumber_of_compare hcompare

lemma isNumber_of_beq {x y : Float} (h : x == y) : IsNumber x ∧ IsNumber y :=
  isNumber_of_compare (beq_iff_compare.mp h)

/-! ## Numbers of the same value -/

lemma unpack_eq_of_units_eq {x y : Float} (hx : IsNumber x) (hy : IsNumber y)
    (h : units x = units y) :
    x.toModel.unpack = y.toModel.unpack ∨
      ∃ s s', x.toModel.unpack = .zero s ∧ y.toModel.unpack = .zero s' := by
  have hcompare := compare_unpack hx hy
  rw [h, Int.compare_eq_eq.mpr rfl] at hcompare
  cases hux : x.toModel.unpack with
  | notANumber => exact absurd hux (isNumber_iff.mp hx)
  | infinity s =>
    cases huy : y.toModel.unpack with
    | notANumber => exact absurd huy (isNumber_iff.mp hy)
    | infinity s' =>
      rw [hux, huy] at hcompare
      cases s <;> cases s' <;> first | exact Or.inl rfl | cases hcompare
    | zero s' => rw [hux, huy] at hcompare; cases s <;> cases hcompare
    | finite s' m' e' hm' => rw [hux, huy] at hcompare; cases s <;> cases s' <;> cases hcompare
  | zero s =>
    cases huy : y.toModel.unpack with
    | notANumber => exact absurd huy (isNumber_iff.mp hy)
    | infinity s' => rw [hux, huy] at hcompare; cases s' <;> cases hcompare
    | zero s' => exact Or.inr ⟨s, s', rfl, rfl⟩
    | finite s' m' e' hm' => rw [hux, huy] at hcompare; cases s' <;> cases hcompare
  | finite s m e hm =>
    cases huy : y.toModel.unpack with
    | notANumber => exact absurd huy (isNumber_iff.mp hy)
    | infinity s' => rw [hux, huy] at hcompare; cases s' <;> cases s <;> cases hcompare
    | zero s' => rw [hux, huy] at hcompare; cases s <;> cases hcompare
    | finite s' m' e' hm' =>
      rw [hux, huy] at hcompare
      have hsame : s = s' ∧ e = e' ∧ m = m' := by
        cases s <;> cases s'
        · have heq : ((compare e e').then (compare m m')).swap = .eq := Option.some.inj hcompare
          rw [Ordering.swap_eq_eq, Ordering.then_eq_eq] at heq
          exact ⟨rfl, Int.compare_eq_eq.mp heq.1, Nat.compare_eq_eq.mp heq.2⟩
        · cases hcompare
        · cases hcompare
        · have heq : (compare e e').then (compare m m') = .eq := Option.some.inj hcompare
          rw [Ordering.then_eq_eq] at heq
          exact ⟨rfl, Int.compare_eq_eq.mp heq.1, Nat.compare_eq_eq.mp heq.2⟩
      obtain ⟨rfl, rfl, rfl⟩ := hsame
      exact Or.inl rfl

lemma unpack_add_zero (x : Float) :
    (x + 0.0).toModel.unpack = UnpackedFloat.add .binary64 x.toModel.unpack (.zero .positive) := by
  change (Float.Model.pack (UnpackedFloat.add .binary64 x.toModel.unpack (.zero .positive))).unpack
    = _
  cases h : x.toModel.unpack with
  | notANumber => rfl
  | infinity s => cases s <;> rfl
  | zero s => cases s <;> rfl
  | finite s m e hm =>
    have hcanonical := unpack_pack_of_unpack x
    rw [h] at hcanonical
    exact hcanonical

lemma isNumber_add_zero {x : Float} : IsNumber (x + 0.0) ↔ IsNumber x := by
  rw [isNumber_iff, isNumber_iff, unpack_add_zero]
  cases x.toModel.unpack with
  | zero s => cases s <;> exact iff_of_true nofun nofun
  | _ => rfl

@[simp] lemma units_add_zero (x : Float) : units (x + 0.0) = units x := by
  unfold units
  rw [unpack_add_zero]
  cases x.toModel.unpack with
  | zero s => cases s <;> rfl
  | _ => rfl

/-- The sum with zero tells numbers apart by their values alone. -/
theorem add_zero_inj {x y : Float} (hx : IsNumber x) (hy : IsNumber y) :
    x + 0.0 = y + 0.0 ↔ units x = units y := by
  constructor
  · intro h
    rw [← units_add_zero x, h, units_add_zero]
  · intro h
    change Float.ofModel (Float.Model.pack (UnpackedFloat.add _ x.toModel.unpack _)) =
      Float.ofModel (Float.Model.pack (UnpackedFloat.add _ y.toModel.unpack _))
    rcases unpack_eq_of_units_eq hx hy h with heq | ⟨s, s', hs, hs'⟩
    · rw [heq]
    · rw [hs, hs']
      cases s <;> cases s' <;> rfl

lemma isNumber_zero : IsNumber 0.0 := by
  unfold IsNumber
  decide

@[simp] lemma units_zero : units 0.0 = 0 := by decide

lemma larger_zero_of_isNumber {x : Float} (hx : IsNumber x) :
    IsNumber (larger x 0.0) ∧ units (larger x 0.0) = max (units x) 0 := by
  unfold larger
  have hnan : x.isNaN = false := hx
  rw [hnan, Bool.false_or]
  by_cases h : x < 0.0
  · have hlt := (lt_iff_units hx isNumber_zero).mp h
    rw [units_zero] at hlt
    rw [decide_eq_true h, if_pos rfl, units_zero]
    exact ⟨isNumber_zero, (Int.max_eq_right (Int.le_of_lt hlt)).symm⟩
  · have hnot := mt (lt_iff_units hx isNumber_zero).mpr h
    rw [units_zero] at hnot
    rw [decide_eq_false h, if_neg (by decide)]
    exact ⟨hx, (Int.max_eq_left (Int.not_lt.mp hnot)).symm⟩

end Retrofit.Number
