import Retrofit.Proofs.Number.Rounding

/-!
# Arithmetic

The sum, product and quotient of finite doubles are the exact ones rounded to the nearest double
(`units_add`, `units_mul`, `units_div`). Rounding is monotone and keeps the values of doubles, so
what holds of the exact results where the bound is a double holds of the rounded ones.
-/

namespace Retrofit.Number

open Float.Model Float.Model.UnpackedFloat

/-- The units of the double nearest to `v / d` units. -/
def rounded (d : Nat) (v : Int) : Int := v.sign * (min (nearest d v.natAbs) beyond : Nat)

lemma rounded_zero (d : Nat) : rounded d 0 = 0 := Int.zero_mul _

lemma rounded_natCast {d : Nat} (hd : 0 < d) (n : Nat) :
    rounded d n = (min (nearest d n) beyond : Nat) := by
  unfold rounded
  rcases Nat.eq_zero_or_pos n with rfl | hpos
  · rw [Int.natAbs_natCast, nearest_zero hd, Nat.zero_min]
    rfl
  · rw [Int.natAbs_natCast, Int.sign_natCast_of_ne_zero (by omega), Int.one_mul]

lemma rounded_neg (d : Nat) (v : Int) : rounded d (-v) = -rounded d v := by
  unfold rounded
  rw [Int.natAbs_neg, Int.sign_neg, Int.neg_mul]

lemma rounded_apply {d : Nat} (hd : 0 < d) (σ : Sign) (n : Nat) :
    rounded d (σ.apply n) = σ.apply (min (nearest d n) beyond : Nat) := by
  cases σ
  · exact (rounded_neg d n).trans (congrArg Neg.neg (rounded_natCast hd n))
  · exact rounded_natCast hd n

lemma rounded_nonneg {d : Nat} (hd : 0 < d) {v : Int} (hv : 0 ≤ v) : 0 ≤ rounded d v := by
  obtain ⟨n, rfl⟩ := Int.eq_ofNat_of_zero_le hv
  rw [rounded_natCast hd]
  omega

/-- A greater value is not rounded to a lesser double. -/
theorem rounded_mono {d : Nat} (hd : 0 < d) {v w : Int} (h : v ≤ w) :
    rounded d v ≤ rounded d w := by
  have hnat : ∀ m n : Nat, m ≤ n → rounded d m ≤ rounded d n := by
    intro m n hmn
    have := nearest_mono hd hmn
    rw [rounded_natCast hd, rounded_natCast hd]
    omega
  rcases Int.le_total 0 v with hv | hv
  · obtain ⟨m, rfl⟩ := Int.eq_ofNat_of_zero_le hv
    obtain ⟨n, rfl⟩ := Int.eq_ofNat_of_zero_le (Int.le_trans hv h)
    exact hnat m n (Int.ofNat_le.mp h)
  · rcases Int.le_total 0 w with hw | hw
    · have hleft := rounded_nonneg hd (Int.neg_nonneg_of_nonpos hv)
      have hright := rounded_nonneg hd hw
      rw [rounded_neg] at hleft
      omega
    · obtain ⟨m, hm⟩ := Int.eq_ofNat_of_zero_le (Int.neg_nonneg_of_nonpos hv)
      obtain ⟨n, hn⟩ := Int.eq_ofNat_of_zero_le (Int.neg_nonneg_of_nonpos hw)
      have hle := hnat n m (by omega)
      rw [← hm, ← hn, rounded_neg, rounded_neg] at hle
      omega

/-! ## Signs -/

lemma unpack_neg (x : Float) : (-x).toModel.unpack = x.toModel.unpack.neg := by
  change (Float.Model.pack x.toModel.unpack.neg).unpack = _
  cases h : x.toModel.unpack with
  | notANumber => rfl
  | infinity s => cases s <;> rfl
  | zero s => cases s <;> rfl
  | finite s m e hm =>
    obtain ⟨hc, he⟩ := canonical_of_unpack h
    exact unpack_pack_finite hm hc he

lemma isNumber_neg {x : Float} : IsNumber (-x) ↔ IsNumber x := by
  rw [isNumber_iff, isNumber_iff, unpack_neg]
  cases x.toModel.unpack <;> first | rfl | exact iff_of_true nofun nofun

lemma apply_neg (s : Sign) (n : Int) : (-s).apply n = -s.apply n := by
  cases s
  · exact (Int.neg_neg n).symm
  · rfl

lemma units_neg (x : Float) : units (-x) = -units x := by
  unfold units
  rw [unpack_neg]
  cases x.toModel.unpack with
  | notANumber => rfl
  | zero s => rfl
  | infinity s => exact apply_neg s beyond
  | finite s m e hm => exact apply_neg s (magnitude m e)

/-- The values of doubles are kept. -/
theorem rounded_units {x : Float} (hx : IsNumber x) {d : Nat} (hd : 0 < d) :
    rounded d (units x * d) = units x := by
  have hpos : ∀ y, IsNumber y → 0 ≤ units y → rounded d (units y * d) = units y := by
    intro y hy hnonneg
    rcases units_cases hy with hneg | ⟨w, hw, hle, heq⟩
    · rw [Int.le_antisymm hneg hnonneg, Int.zero_mul, rounded_zero]
    · rw [heq, ← Int.natCast_mul, rounded_natCast hd, nearest_of_isGrid hw hd,
        Nat.min_eq_left hle]
  rcases Int.le_total 0 (units x) with h | h
  · exact hpos x hx h
  · have hneg := hpos (-x) (isNumber_neg.mpr hx) (by rw [units_neg]; omega)
    rw [units_neg, Int.neg_mul, rounded_neg] at hneg
    omega

/-- A rounded value is not above a double that is not below the exact one. -/
lemma rounded_le {x : Float} (hx : IsNumber x) {d : Nat} (hd : 0 < d) {v : Int}
    (h : v ≤ units x * d) : rounded d v ≤ units x := by
  have hmono := rounded_mono hd h
  rwa [rounded_units hx hd] at hmono

lemma le_rounded {x : Float} (hx : IsNumber x) {d : Nat} (hd : 0 < d) {v : Int}
    (h : units x * d ≤ v) : units x ≤ rounded d v := by
  have hmono := rounded_mono hd h
  rwa [rounded_units hx hd] at hmono

/-! ## Finite numbers -/

lemma apply_mul (s : Sign) (m n : Nat) : s.apply (m * n : Nat) = s.apply m * n := by
  cases s
  · exact (congrArg Neg.neg (Int.natCast_mul m n)).trans (Int.neg_mul ..).symm
  · exact Int.natCast_mul m n

lemma natAbs_apply (s : Sign) (n : Nat) : (s.apply n).natAbs = n := by
  cases s
  · exact (Int.natAbs_neg n).trans (Int.natAbs_natCast n)
  · exact Int.natAbs_natCast n

/-- The finite doubles are the numbers below an infinite one. -/
theorem isFinite_iff {x : Float} : x.isFinite ↔ IsNumber x ∧ (units x).natAbs < beyond := by
  have hmodel : x.isFinite = x.toModel.unpack.isFinite := rfl
  rw [hmodel, isNumber_iff]
  unfold units
  cases h : x.toModel.unpack with
  | notANumber => exact iff_of_false nofun fun hx => hx.1 rfl
  | infinity s =>
    refine iff_of_false nofun fun hx => ?_
    have hlt : (s.apply beyond).natAbs < beyond := hx.2
    rw [natAbs_apply] at hlt
    exact Nat.lt_irrefl _ hlt
  | zero s => exact iff_of_true rfl ⟨nofun, Nat.two_pow_pos _⟩
  | finite s m e hm =>
    obtain ⟨hc, he⟩ := canonical_of_unpack h
    refine iff_of_true rfl ⟨nofun, ?_⟩
    change (s.apply (magnitude m e)).natAbs < beyond
    rw [natAbs_apply]
    exact magnitude_lt_beyond hc he

lemma isNumber_of_isFinite {x : Float} (hx : x.isFinite) : IsNumber x := (isFinite_iff.mp hx).1

lemma unpack_of_isFinite {x : Float} (hx : x.isFinite) :
    (∃ s, x.toModel.unpack = .zero s) ∨ ∃ s m e hm, x.toModel.unpack = .finite s m e hm := by
  have hmodel : x.toModel.unpack.isFinite = true := hx
  cases h : x.toModel.unpack with
  | notANumber => rw [h] at hmodel; cases hmodel
  | infinity s => rw [h] at hmodel; cases hmodel
  | zero s => exact Or.inl ⟨s, rfl⟩
  | finite s m e hm => exact Or.inr ⟨s, m, e, hm, rfl⟩

lemma units_of_unpack {x : Float} {s : Sign} {m : Nat} {e : Int} {hm : 0 < m}
    (h : x.toModel.unpack = .finite s m e hm) : units x = s.apply (magnitude m e) := by
  rw [units, h]
  rfl

lemma unpack_one : (1.0 : Float).toModel.unpack = .finite .positive (2 ^ 52) (-52) (by decide) :=
  rfl

lemma units_one : units 1.0 = one := by
  have hone : magnitude (2 ^ 52) (-52) = one := by
    unfold one
    exact (magnitude_add 1 (-52) (by decide) 52).symm
  rw [units, unpack_one, ← hone]
  rfl

lemma isNumber_one : IsNumber 1.0 := by
  unfold IsNumber
  decide

lemma isFinite_zero : (0.0 : Float).isFinite := by decide

lemma isFinite_one : (1.0 : Float).isFinite := by decide

/-! ## Sums -/

lemma magnitude_shiftLeft (m : Nat) {e f : Int} (hf : -1074 ≤ f) (hle : f ≤ e) :
    magnitude (m <<< (e - f).toNat) f = magnitude m e := by
  rw [Nat.shiftLeft_eq, ← magnitude_add m f hf]
  congr 1
  omega

lemma units_of_normalize {x : Float} {v e : Int} (hleast : -1074 ≤ e)
    (hx : x.toModel = Float.Model.pack (UnpackedFloat.normalize .binary64 v e .positive)) :
    IsNumber x ∧ units x = rounded 1 (v * (2 ^ (e + 1074).toNat : Nat)) := by
  rcases Int.lt_trichotomy v 0 with hneg | rfl | hpos
  · obtain ⟨n, hn⟩ := Int.eq_ofNat_of_zero_le (Int.neg_nonneg_of_nonpos (Int.le_of_lt hneg))
    unfold UnpackedFloat.normalize at hx
    rw [Int.compare_eq_lt.mpr hneg, hn] at hx
    have hunits := units_of_round (by omega : 0 < n) hleast hx
    rw [← rounded_apply Nat.one_pos] at hunits
    have hvalue : v * (2 ^ (e + 1074).toNat : Nat) = Sign.negative.apply (magnitude n e) := by
      have hv : v = Sign.negative.apply n := by
        dsimp only [Sign.apply]
        omega
      rw [hv]
      exact (apply_mul _ _ _).symm
    rw [hvalue]
    exact hunits
  · have hzero : UnpackedFloat.normalize .binary64 0 e .positive = .zero .positive := rfl
    rw [Int.zero_mul, rounded_zero]
    rw [hzero] at hx
    exact units_of_pack_zero hx
  · obtain ⟨n, rfl⟩ := Int.eq_ofNat_of_zero_le (Int.le_of_lt hpos)
    unfold UnpackedFloat.normalize at hx
    rw [Int.compare_eq_gt.mpr hpos] at hx
    have hunits := units_of_round (by omega : 0 < n) hleast hx
    rw [← rounded_apply Nat.one_pos] at hunits
    exact hunits

lemma rounded_one_units {x : Float} (hx : IsNumber x) : rounded 1 (units x) = units x := by
  have h := rounded_units hx Nat.one_pos
  rwa [Int.natCast_one, Int.mul_one] at h

lemma units_of_pack_unpack {x y : Float} (hy : IsNumber y)
    (h : x.toModel = Float.Model.pack y.toModel.unpack) : IsNumber x ∧ units x = units y := by
  have hunpack : x.toModel.unpack = y.toModel.unpack := by
    rw [h, unpack_pack_of_unpack]
  refine ⟨?_, by rw [units, hunpack, units]⟩
  rw [isNumber_iff, hunpack, ← isNumber_iff]
  exact hy

/-- The sum of finite doubles is the exact one, rounded. -/
theorem units_add {x y : Float} (hx : x.isFinite) (hy : y.isFinite) :
    IsNumber (x + y) ∧ units (x + y) = rounded 1 (units x + units y) := by
  have hsum : (x + y).toModel =
      Float.Model.pack (UnpackedFloat.add .binary64 x.toModel.unpack y.toModel.unpack) := rfl
  have hnx := isNumber_of_isFinite hx
  have hny := isNumber_of_isFinite hy
  rcases unpack_of_isFinite hx with ⟨s, hux⟩ | ⟨s, m, e, hm, hux⟩
  · rw [(units_of_unpack_zero hux).2, Int.zero_add, rounded_one_units hny]
    rcases unpack_of_isFinite hy with ⟨s', huy⟩ | ⟨s', m', e', hm', huy⟩
    · rw [(units_of_unpack_zero huy).2]
      rw [hux, huy] at hsum
      cases s <;> cases s' <;> exact units_of_pack_zero hsum
    · exact units_of_pack_unpack hny (by rw [hsum, hux, huy]; rfl)
  · rcases unpack_of_isFinite hy with ⟨s', huy⟩ | ⟨s', m', e', hm', huy⟩
    · rw [(units_of_unpack_zero huy).2, Int.add_zero, rounded_one_units hnx]
      exact units_of_pack_unpack hnx (by rw [hsum, hux, huy]; rfl)
    · have hle := (canonical_of_unpack hux).1.least
      have hle' := (canonical_of_unpack huy).1.least
      have hmin : -1074 ≤ min e e' := by omega
      have hvalue : units x + units y =
          (s.apply (m <<< (e - min e e').toNat : Nat) +
            s'.apply (m' <<< (e' - min e e').toNat : Nat)) *
            (2 ^ (min e e' + 1074).toNat : Nat) := by
        rw [units_of_unpack hux, units_of_unpack huy,
          ← magnitude_shiftLeft m hmin (Int.min_le_left e e'),
          ← magnitude_shiftLeft m' hmin (Int.min_le_right e e'), Int.add_mul]
        exact congrArg₂ (· + ·) (apply_mul _ _ _) (apply_mul _ _ _)
      rw [hux, huy] at hsum
      rw [hvalue]
      exact units_of_normalize hmin hsum

lemma isFinite_neg {x : Float} : (-x).isFinite ↔ x.isFinite := by
  rw [isFinite_iff, isFinite_iff, isNumber_neg, units_neg, Int.natAbs_neg]

lemma sub_eq_add_neg (x y : Float) : x - y = x + -y := by
  change Float.ofModel (Float.Model.pack (UnpackedFloat.sub _ x.toModel.unpack _)) =
    Float.ofModel (Float.Model.pack (UnpackedFloat.add _ x.toModel.unpack _))
  rw [unpack_neg]
  congr 2
  cases x.toModel.unpack <;> cases y.toModel.unpack <;> try rfl
  rename_i s m e hm s' m' e' hm'
  unfold UnpackedFloat.sub UnpackedFloat.neg UnpackedFloat.add
  dsimp only
  rw [apply_neg, Int.sub_eq_add_neg]

/-- The difference of finite doubles is the exact one, rounded. -/
theorem units_sub {x y : Float} (hx : x.isFinite) (hy : y.isFinite) :
    IsNumber (x - y) ∧ units (x - y) = rounded 1 (units x - units y) := by
  have h := units_add hx (isFinite_neg.mpr hy)
  rwa [← sub_eq_add_neg, units_neg] at h

/-- A finite double and another number have a sum. -/
lemma isNumber_add {x y : Float} (hx : x.isFinite) (hy : IsNumber y) : IsNumber (x + y) := by
  by_cases hfinite : y.isFinite
  · exact (units_add hx hfinite).1
  · have hinfinite : ∃ s, y.toModel.unpack = .infinity s := by
      change ¬ y.toModel.unpack.isFinite at hfinite
      cases h : y.toModel.unpack with
      | notANumber => exact absurd h (isNumber_iff.mp hy)
      | infinity s => exact ⟨s, rfl⟩
      | zero s => rw [h] at hfinite; exact absurd rfl hfinite
      | finite s m e hm => rw [h] at hfinite; exact absurd rfl hfinite
    obtain ⟨s, hs⟩ := hinfinite
    have hsum : UnpackedFloat.add .binary64 x.toModel.unpack y.toModel.unpack = .infinity s := by
      rw [hs]
      rcases unpack_of_isFinite hx with ⟨s', hux⟩ | ⟨s', m, e, hm, hux⟩
      · rw [hux]
        rfl
      · rw [hux]
        rfl
    have hunpack : (x + y).toModel.unpack = .infinity s := by
      change (Float.Model.pack (UnpackedFloat.add .binary64 x.toModel.unpack
        y.toModel.unpack)).unpack = _
      rw [hsum, unpack_pack_infinity]
    rw [isNumber_iff, hunpack]
    exact nofun

/-! ## Products -/

lemma le_log2_of_canonical {m m' : Nat} {e e' : Int} (hm : 0 < m) (hm' : 0 < m')
    (h : Canonical m e) (h' : Canonical m' e') :
    e + e' ≤ max (((m * m').log2 : Int) + 1 + (e + e') - 53) (-1074) := by
  have hlarge : ∀ a b : Nat, 2 ^ 52 ≤ a → 0 < b → 52 ≤ (a * b).log2 := by
    intro a b ha hb
    have hle : 2 ^ 52 ≤ a * b := Nat.le_trans ha (Nat.le_mul_of_pos_right a hb)
    exact (Nat.le_log2 (by omega)).mpr hle
  rcases h.normal with hleast | hnormal
  · rcases h'.normal with hleast' | hnormal'
    · omega
    · have := hlarge m' m hnormal' hm
      rw [Nat.mul_comm] at this
      omega
  · have := hlarge m m' hnormal hm'
    omega

lemma apply_mul_apply (s s' : Sign) (m n : Nat) :
    s.apply m * s'.apply n = (s * s').apply (m * n : Nat) := by
  cases s <;> cases s'
  · exact Int.neg_mul_neg _ _
  · exact Int.neg_mul _ _
  · exact Int.mul_neg _ _
  · rfl

/-- The product of finite doubles is the exact one, rounded. -/
theorem units_mul {x y : Float} (hx : x.isFinite) (hy : y.isFinite) :
    IsNumber (x * y) ∧ units (x * y) = rounded one (units x * units y) := by
  have hproduct : (x * y).toModel =
      Float.Model.pack (UnpackedFloat.mul .binary64 x.toModel.unpack y.toModel.unpack) := rfl
  rcases unpack_of_isFinite hx with ⟨s, hux⟩ | ⟨s, m, e, hm, hux⟩
  · rw [(units_of_unpack_zero hux).2, Int.zero_mul, rounded_zero]
    rcases unpack_of_isFinite hy with ⟨s', huy⟩ | ⟨s', m', e', hm', huy⟩
    · rw [hux, huy] at hproduct
      exact units_of_pack_zero hproduct
    · rw [hux, huy] at hproduct
      exact units_of_pack_zero hproduct
  · rcases unpack_of_isFinite hy with ⟨s', huy⟩ | ⟨s', m', e', hm', huy⟩
    · rw [(units_of_unpack_zero huy).2, Int.mul_zero, rounded_zero]
      rw [hux, huy] at hproduct
      exact units_of_pack_zero hproduct
    · have hc := (canonical_of_unpack hux).1
      have hc' := (canonical_of_unpack huy).1
      have hleast := hc.least
      have hleast' := hc'.least
      obtain ⟨t, ht⟩ : ∃ t : Nat, e + e' + 1074 + ((0 : Int) + 1074).toNat = t :=
        ⟨(e + e' + 2148).toNat, by omega⟩
      rw [hux, huy] at hproduct
      have hunits := units_of_roundWithAccuracy_exact ht (le_log2_of_canonical hm hm' hc hc')
        hproduct
      have hone : one = 2 ^ ((0 : Int) + 1074).toNat := Nat.one_mul _
      have hvalue : magnitude m e * magnitude m' e' = m * m' * 2 ^ t := by
        have hplace : t = (e + 1074).toNat + (e' + 1074).toNat := by omega
        unfold magnitude
        rw [hplace, Nat.pow_add, Nat.mul_mul_mul_comm]
      rw [units_of_unpack hux, units_of_unpack huy, apply_mul_apply, hvalue,
        rounded_apply one_pos, hone]
      exact hunits

lemma natAbs_rounded_le {x : Float} (hx : IsNumber x) {d : Nat} (hd : 0 < d) {v : Int}
    (h : v.natAbs ≤ (units x).natAbs * d) : (rounded d v).natAbs ≤ (units x).natAbs := by
  have habs : ∀ w, (rounded d w).natAbs = (rounded d w.natAbs).natAbs := by
    intro w
    rcases Int.natAbs_eq w with hw | hw
    · rw [← hw]
    · rw [hw, rounded_neg, Int.natAbs_neg, Int.natAbs_neg, Int.natAbs_natCast]
  have hself : (rounded d ((units x).natAbs * d : Nat)).natAbs = (units x).natAbs := by
    have hkeep := congrArg Int.natAbs (rounded_units hx hd)
    rwa [habs, Int.natAbs_mul, Int.natAbs_natCast] at hkeep
  have hmono := rounded_mono hd (Int.ofNat_le.mpr h)
  have hnonneg := rounded_nonneg hd (Int.natCast_nonneg v.natAbs)
  rw [habs]
  omega

/-- What is multiplied by a number up to one stays finite. -/
lemma isFinite_mul {w x : Float} (hw : w.isFinite) (hnonneg : 0 ≤ units w)
    (hle : units w ≤ one) (hx : x.isFinite) : (w * x).isFinite ∧ (x * w).isFinite := by
  obtain ⟨hnumber, hunits⟩ := units_mul hw hx
  obtain ⟨hnumber', hunits'⟩ := units_mul hx hw
  obtain ⟨hnx, hlt⟩ := isFinite_iff.mp hx
  have habs : (units w * units x).natAbs ≤ (units x).natAbs * one := by
    rw [Int.natAbs_mul, Nat.mul_comm]
    exact Nat.mul_le_mul_left _ (by omega)
  have hbound := natAbs_rounded_le hnx one_pos habs
  rw [Int.mul_comm] at hunits'
  exact ⟨isFinite_iff.mpr ⟨hnumber, by omega⟩, isFinite_iff.mpr ⟨hnumber', by omega⟩⟩

/-! ## Quotients -/

lemma unpack_of_units_pos {x : Float} (hx : x.isFinite) (hpos : 0 < units x) :
    ∃ m e hm, x.toModel.unpack = .finite .positive m e hm ∧ units x = magnitude m e := by
  rcases unpack_of_isFinite hx with ⟨s, hux⟩ | ⟨s, m, e, hm, hux⟩
  · rw [(units_of_unpack_zero hux).2] at hpos
    exact absurd hpos (Int.lt_irrefl 0)
  · have hunits := units_of_unpack hux
    cases s
    · dsimp only [Sign.apply] at hunits
      omega
    · exact ⟨m, e, hm, hux, hunits⟩

lemma divCore_eq (m m' : Nat) (e e' : Int) :
    ∃ (c : Nat) (f : Int), divCore .binary64 m e m' e' =
        (m * 2 ^ c / m', f, accuracyOfFraction (m * 2 ^ c % m') m') ∧ f + c = e - e' ∧
      (f = e - e' ∨ f = max ((m.log2 : Int) + 1 + e - (m'.log2 + 1 + e') - 53) (-1074)) ∧
      f ≤ max ((m.log2 : Int) + 1 + e - (m'.log2 + 1 + e') - 53) (-1074) := by
  have htarget : Format.binary64.targetExponent (totalExponent m e - totalExponent m' e') =
      max ((m.log2 : Int) + 1 + e - (m'.log2 + 1 + e') - 53) (-1074) := rfl
  unfold divCore
  dsimp only
  rw [htarget]
  generalize max ((m.log2 : Int) + 1 + e - (m'.log2 + 1 + e') - 53) (-1074) = target
  refine ⟨(e - e' - min (e - e') target).toNat, min (e - e') target, ?_, ?_, ?_, ?_⟩
  · rw [Nat.shiftLeft_eq]
  · omega
  · omega
  · omega

/-- The quotient of finite doubles is the exact one, rounded. -/
theorem units_div {x y : Float} (hx : x.isFinite) (hy : y.isFinite) (hpos : 0 < units y) :
    IsNumber (x / y) ∧ units (x / y) = rounded (units y).toNat (units x * one) := by
  have hquotient : (x / y).toModel =
      Float.Model.pack (UnpackedFloat.div .binary64 x.toModel.unpack y.toModel.unpack) := rfl
  obtain ⟨m', e', hm', huy, hunits⟩ := unpack_of_units_pos hy hpos
  rw [hunits, Int.toNat_natCast]
  rcases unpack_of_isFinite hx with ⟨s, hux⟩ | ⟨s, m, e, hm, hux⟩
  · rw [(units_of_unpack_zero hux).2, Int.zero_mul, rounded_zero]
    rw [hux, huy] at hquotient
    exact units_of_pack_zero hquotient
  · obtain ⟨c, f, hcore, hplace, hleast, htarget⟩ := divCore_eq m m' e e'
    have hc := (canonical_of_unpack hux).1
    have hc' := (canonical_of_unpack huy).1
    have hbits' : m'.log2 < 53 := (Nat.log2_lt (by omega)).mpr hc'.bounded
    have he := hc.least
    have he' := hc'.least
    -- The shifted mantissa has enough bits for 53 bits of the quotient.
    have hlarge : f ≤ max (((m * 2 ^ c / m').log2 : Int) + 1 + f - 53) (-1074) := by
      rcases Int.lt_or_le (-1074) f with hmin | hmin
      · have hshift : m'.log2 + 53 ≤ m.log2 + c := by omega
        have hle : 2 ^ 52 ≤ m * 2 ^ c / m' := by
          rw [Nat.le_div_iff_mul_le hm']
          have hhigh : m' < 2 ^ (m'.log2 + 1) := Nat.lt_log2_self
          calc 2 ^ 52 * m'
            _ ≤ 2 ^ 52 * 2 ^ (m'.log2 + 1) := Nat.mul_le_mul_left _ (Nat.le_of_lt hhigh)
            _ = 2 ^ (m'.log2 + 53) := by rw [← Nat.pow_add]; congr 1; omega
            _ ≤ 2 ^ (m.log2 + c) := Nat.pow_le_pow_right (by omega) hshift
            _ = 2 ^ m.log2 * 2 ^ c := Nat.pow_add ..
            _ ≤ m * 2 ^ c := Nat.mul_le_mul_right _ (Nat.log2_self_le (by omega))
        have hlog := (Nat.le_log2 (by omega)).mpr hle
        omega
      · omega
    obtain ⟨t, ht⟩ : ∃ t : Nat, f + 1074 + (e' + 1074).toNat = t :=
      ⟨(f + 1074 + (e' + 1074).toNat).toNat, by omega⟩
    have hvalue : magnitude m e * one = m * 2 ^ c * 2 ^ t := by
      have hexponent : t + c = (e + 1074).toNat + ((0 : Int) + 1074).toNat := by omega
      unfold one magnitude
      rw [Nat.one_mul, Nat.mul_assoc, Nat.mul_assoc, ← Nat.pow_add, ← Nat.pow_add,
        Nat.add_comm c t, hexponent]
    have hsign : s / Sign.positive = s := by cases s <;> rfl
    rw [hux, huy] at hquotient
    unfold UnpackedFloat.div at hquotient
    dsimp only at hquotient
    rw [hcore, hsign] at hquotient
    have hround := units_of_roundWithAccuracy hm' ht hlarge hquotient
    rw [units_of_unpack hux, ← apply_mul, hvalue, rounded_apply (magnitude_pos e' hm')]
    exact hround

/-- What is divided by at least one is not enlarged. -/
lemma units_div_le {x y : Float} (hx : x.isFinite) (hy : y.isFinite) (hnonneg : 0 ≤ units x)
    (hle : one ≤ units y) : IsNumber (x / y) ∧ 0 ≤ units (x / y) ∧ units (x / y) ≤ units x := by
  have hone := one_pos
  have hpos : 0 < units y := by omega
  have hd : 0 < (units y).toNat := by omega
  obtain ⟨hnumber, hunits⟩ := units_div hx hy hpos
  have hproduct : units x * one ≤ units x * (units y).toNat := by
    apply Int.mul_le_mul_of_nonneg_left _ hnonneg
    omega
  refine ⟨hnumber, ?_, ?_⟩
  · rw [hunits]
    exact rounded_nonneg hd (Int.mul_nonneg hnonneg (by omega))
  · rw [hunits]
    exact rounded_le (isNumber_of_isFinite hx) hd hproduct

lemma isFinite_of_isFinite_div {x y : Float} (hy : y.isFinite) (h : (x / y).isFinite) :
    x.isFinite := by
  have hquotient : (x / y).toModel.unpack = (Float.Model.pack
      (UnpackedFloat.div .binary64 x.toModel.unpack y.toModel.unpack)).unpack := rfl
  have hnan : (Float.Model.pack .notANumber).unpack = .notANumber := rfl
  change (x / y).toModel.unpack.isFinite = true at h
  change x.toModel.unpack.isFinite = true
  cases hux : x.toModel.unpack with
  | notANumber =>
    have hdiv : UnpackedFloat.div .binary64 .notANumber y.toModel.unpack = .notANumber := rfl
    rw [hquotient, hux, hdiv, hnan] at h
    cases h
  | infinity s =>
    have hdiv : ∃ s', UnpackedFloat.div .binary64 x.toModel.unpack y.toModel.unpack =
        .infinity s' := by
      rw [hux]
      rcases unpack_of_isFinite hy with ⟨s', huy⟩ | ⟨s', m, e, hm, huy⟩
      · exact ⟨s / s', by rw [huy]; rfl⟩
      · exact ⟨s / s', by rw [huy]; rfl⟩
    obtain ⟨s', hs'⟩ := hdiv
    rw [hquotient, hs', unpack_pack_infinity] at h
    cases h
  | zero s => rfl
  | finite s m e hm => rfl

end Retrofit.Number
