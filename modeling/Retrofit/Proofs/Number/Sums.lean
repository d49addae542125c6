import Mathlib
import Retrofit.Proofs.Number.Rank
import Retrofit.Proofs.Pareto.Dominance

/-!
# Sums

Whole numbers of units with two infinite values added (`Amount.extended`) are what amounts are
summed up to where nothing is rounded: `Amount.ExactSum` says that a sum of doubles is the exact one.
Sums of numbers that are not negative are numbers, and equal summands have equal sums, whatever the
signs of their zeros are (`Number.alike_sum`). Such a sum is zero only if all summands are
(`Number.Measures.sum`), and the `excess` of one number over another is such a summand.
-/

namespace Retrofit

namespace Number

open Float.Model Float.Model.UnpackedFloat

/-! ## Infinite values -/

/-- The exact value of a number in units, which may be infinite. -/
def extended (x : Float) : WithBot (WithTop ℤ) :=
  if units x = beyond then ⊤
  else if units x = -beyond then ⊥
  else ((units x : ℤ) : WithTop ℤ)

lemma natAbs_units_le {x : Float} (hx : IsNumber x) : (units x).natAbs ≤ beyond := by
  have hsides : ∀ y, IsNumber y → units y ≤ beyond := by
    intro y hy
    have hbeyond := beyond_pos
    rcases units_cases hy with hneg | ⟨w, -, hle, heq⟩ <;> omega
  have habove := hsides x hx
  have hbelow := hsides (-x) (isNumber_neg.mpr hx)
  rw [units_neg] at hbelow
  omega

theorem extended_le_iff {x y : Float} (hx : IsNumber x) (hy : IsNumber y) :
    extended x ≤ extended y ↔ units x ≤ units y := by
  have hbeyond := beyond_pos
  have hlex := natAbs_units_le hx
  have hley := natAbs_units_le hy
  unfold extended
  split_ifs with hxtop hytop hybot hxbot hytop hybot hytop hybot
  · exact iff_of_true le_rfl (by omega)
  · exact iff_of_false (by simp) (by omega)
  · exact iff_of_false (by simp) (by omega)
  · exact iff_of_true le_top (by omega)
  · exact iff_of_true le_rfl (by omega)
  · exact iff_of_true bot_le (by omega)
  · exact iff_of_true le_top (by omega)
  · exact iff_of_false (by simp) (by omega)
  · simp

/-! ## Sums of numbers that are not negative -/

/-- Two numbers of one value, which is not negative. -/
structure Alike (x y : Float) : Prop where
  left : IsNumber x
  right : IsNumber y
  nonneg : 0 ≤ units x
  units_eq : units x = units y

lemma alike_zero : Alike 0.0 0.0 :=
  ⟨isNumber_zero, isNumber_zero, Int.le_of_eq units_zero.symm, rfl⟩

lemma unpack_of_not_isFinite {x : Float} (hx : IsNumber x) (hnonneg : 0 ≤ units x)
    (h : ¬ x.isFinite) : x.toModel.unpack = .infinity .positive := by
  have hbeyond := beyond_pos
  change ¬ x.toModel.unpack.isFinite at h
  unfold units at hnonneg
  cases hunpack : x.toModel.unpack with
  | notANumber => exact absurd hunpack (isNumber_iff.mp hx)
  | zero s => rw [hunpack] at h; exact absurd rfl h
  | finite s m e hm => rw [hunpack] at h; exact absurd rfl h
  | infinity s =>
    rw [hunpack] at hnonneg
    cases s with
    | negative => exact absurd hnonneg (by dsimp only [unpackedUnits, Sign.apply]; omega)
    | positive => rfl

/-- A sum with an infinite number is infinite. -/
lemma unpack_add_of_not_isFinite {x y : Float} (hx : IsNumber x) (hy : IsNumber y)
    (hx₀ : 0 ≤ units x) (hy₀ : 0 ≤ units y) (h : ¬ x.isFinite ∨ ¬ y.isFinite) :
    (x + y).toModel.unpack = .infinity .positive := by
  have hsum : UnpackedFloat.add .binary64 x.toModel.unpack y.toModel.unpack =
      .infinity .positive := by
    by_cases hfinite : y.isFinite
    · rw [unpack_of_not_isFinite hx hx₀ (h.resolve_right (not_not_intro hfinite))]
      rcases unpack_of_isFinite hfinite with ⟨s, hy⟩ | ⟨s, m, e, hm, hy⟩ <;> rw [hy] <;> rfl
    · rw [unpack_of_not_isFinite hy hy₀ hfinite]
      by_cases hfinite : x.isFinite
      · rcases unpack_of_isFinite hfinite with ⟨s, hx⟩ | ⟨s, m, e, hm, hx⟩ <;> rw [hx] <;> rfl
      · rw [unpack_of_not_isFinite hx hx₀ hfinite]
        rfl
  change (Float.Model.pack (UnpackedFloat.add .binary64 x.toModel.unpack
    y.toModel.unpack)).unpack = _
  rw [hsum, unpack_pack_infinity]

lemma Alike.isFinite_iff {x y : Float} (h : Alike x y) : x.isFinite ↔ y.isFinite := by
  rw [Number.isFinite_iff, Number.isFinite_iff, h.units_eq]
  exact and_congr_left fun _ => iff_of_true h.left h.right

lemma Alike.add {x x' y y' : Float} (hx : Alike x x') (hy : Alike y y') :
    Alike (x + y) (x' + y') := by
  by_cases hfinite : x.isFinite ∧ y.isFinite
  · obtain ⟨hnumber, hunits⟩ := units_add hfinite.1 hfinite.2
    obtain ⟨hnumber', hunits'⟩ :=
      units_add (hx.isFinite_iff.mp hfinite.1) (hy.isFinite_iff.mp hfinite.2)
    refine ⟨hnumber, hnumber', ?_, ?_⟩
    · have hmono := rounded_mono Nat.one_pos (Int.add_nonneg hx.nonneg hy.nonneg)
      rwa [rounded_zero, ← hunits] at hmono
    · rw [hunits, hunits', hx.units_eq, hy.units_eq]
  · have hsum := unpack_add_of_not_isFinite hx.left hy.left hx.nonneg hy.nonneg
      (not_and_or.mp hfinite)
    have hsum' := unpack_add_of_not_isFinite hx.right hy.right (hx.units_eq ▸ hx.nonneg)
      (hy.units_eq ▸ hy.nonneg) (by rwa [← hx.isFinite_iff, ← hy.isFinite_iff, ← not_and_or])
    have hunits : ∀ {z : Float}, z.toModel.unpack = .infinity .positive →
        IsNumber z ∧ units z = beyond := by
      intro z hz
      rw [isNumber_iff, units, hz]
      refine ⟨fun hnan => ?_, rfl⟩
      cases hnan
    refine ⟨(hunits hsum).1, (hunits hsum').1, ?_, (hunits hsum).2.trans (hunits hsum').2.symm⟩
    rw [(hunits hsum).2]
    exact Int.le_of_lt beyond_pos

/-- Lists that are alike one by one have sums that are alike. -/
theorem alike_sum {xs ys : List Float} (h : List.Forall₂ Alike xs ys) : Alike (sum xs) (sum ys) := by
  have hfold : ∀ {a b : Float}, Alike a b → Alike (xs.foldl (· + ·) a) (ys.foldl (· + ·) b) := by
    induction h with
    | nil => exact id
    | cons hxy _ ih => exact fun hab => ih (hab.add hxy)
  exact hfold alike_zero

namespace NonNegative

variable {x y : Float}

lemma alike (hx : NonNegative x) : Alike x x :=
  ⟨hx.isNumber, hx.isNumber, hx.nonneg, rfl⟩

lemma zero : NonNegative 0.0 := ⟨isNumber_zero, Int.le_of_eq units_zero.symm⟩

lemma add (hx : NonNegative x) (hy : NonNegative y) : NonNegative (x + y) :=
  have h := hx.alike.add hy.alike
  ⟨h.left, h.nonneg⟩

/-- A sum is as great as either summand. -/
lemma units_le_add (hx : NonNegative x) (hy : NonNegative y) :
    units x ≤ units (x + y) ∧ units y ≤ units (x + y) := by
  by_cases hfinite : x.isFinite ∧ y.isFinite
  · obtain ⟨-, hunits⟩ := units_add hfinite.1 hfinite.2
    have hxnonneg := hx.nonneg
    have hynonneg := hy.nonneg
    rw [hunits]
    exact ⟨le_rounded hx.isNumber Nat.one_pos (by omega),
      le_rounded hy.isNumber Nat.one_pos (by omega)⟩
  · have hsum := unpack_add_of_not_isFinite hx.isNumber hy.isNumber hx.nonneg hy.nonneg
      (not_and_or.mp hfinite)
    have hunits : units (x + y) = beyond := by
      rw [units, hsum]
      rfl
    have hlex := natAbs_units_le hx.isNumber
    have hley := natAbs_units_le hy.isNumber
    omega

lemma units_add_eq_zero_iff (hx : NonNegative x) (hy : NonNegative y) :
    units (x + y) = 0 ↔ units x = 0 ∧ units y = 0 := by
  have hxnonneg := hx.nonneg
  have hynonneg := hy.nonneg
  constructor
  · intro hsum
    obtain ⟨hlex, hley⟩ := hx.units_le_add hy
    omega
  · rintro ⟨hxzero, hyzero⟩
    have hfinite : ∀ {z : Float}, IsNumber z → units z = 0 → z.isFinite := by
      intro z hz hzero
      have hbeyond := beyond_pos
      exact isFinite_iff.mpr ⟨hz, by omega⟩
    obtain ⟨-, hunits⟩ := units_add (hfinite hx.isNumber hxzero) (hfinite hy.isNumber hyzero)
    rw [hunits, hxzero, hyzero]
    exact rounded_zero 1

end NonNegative

lemma unpack_of_units_eq_zero {x : Float} (hx : IsNumber x) (h : units x = 0) :
    ∃ s, x.toModel.unpack = .zero s := by
  rcases unpack_eq_of_units_eq hx isNumber_zero (h.trans units_zero.symm) with
    heq | ⟨s, -, hs, -⟩
  · exact ⟨.positive, heq⟩
  · exact ⟨s, hs⟩

lemma Unsigned.add {x y : Float} (hx : Unsigned x) (hy : NonNegative y) : Unsigned (x + y) := by
  refine ⟨hx.toNonNegative.add hy, fun hsum => ?_⟩
  have hunits : units (x + y) = 0 := by
    rw [units, hsum]
    rfl
  obtain ⟨hxzero, hyzero⟩ := (hx.toNonNegative.units_add_eq_zero_iff hy).mp hunits
  obtain ⟨s, hs⟩ := unpack_of_units_eq_zero hx.isNumber hxzero
  obtain ⟨s', hs'⟩ := unpack_of_units_eq_zero hy.isNumber hyzero
  change (Float.Model.pack (UnpackedFloat.add .binary64 x.toModel.unpack
    y.toModel.unpack)).unpack = _ at hsum
  rw [hs, hs'] at hsum
  cases s with
  | negative => exact hx.ne_zero hs
  | positive => cases s' <;> cases hsum

lemma unsigned_sum {xs : List Float} (hxs : ∀ x ∈ xs, NonNegative x) : Unsigned (sum xs) := by
  have hfold : ∀ {a : Float}, Unsigned a → Unsigned (xs.foldl (· + ·) a) := by
    induction xs with
    | nil => exact id
    | cons x xs ih =>
      obtain ⟨hx, hxs⟩ := List.forall_mem_cons.mp hxs
      exact fun ha => ih hxs (ha.add hx)
  exact hfold ⟨.zero, nofun⟩

/-! ## Measures of how far something is off -/

/-- A number that is not negative, and zero where `p` holds. -/
structure Measures (x : Float) (p : Prop) : Prop where
  nonNegative : NonNegative x
  zero_iff : units x = 0 ↔ p

namespace Measures

variable {x y : Float} {p q : Prop}

lemma zero : Measures 0.0 True := ⟨.zero, iff_of_true units_zero trivial⟩

lemma congr (h : Measures x p) (hpq : p ↔ q) : Measures x q :=
  ⟨h.nonNegative, h.zero_iff.trans hpq⟩

lemma add (hx : Measures x p) (hy : Measures y q) : Measures (x + y) (p ∧ q) :=
  ⟨hx.nonNegative.add hy.nonNegative,
    (hx.nonNegative.units_add_eq_zero_iff hy.nonNegative).trans (and_congr hx.zero_iff hy.zero_iff)⟩

/-- A sum is zero where all of its summands are. -/
lemma sum {α : Type} {f : α → Float} {p : α → Prop} {l : List α}
    (h : ∀ a ∈ l, Measures (f a) (p a)) : Measures (Number.sum (l.map f)) (∀ a ∈ l, p a) := by
  have hfold : ∀ {x : Float} {q : Prop}, Measures x q →
      Measures ((l.map f).foldl (· + ·) x) (q ∧ ∀ a ∈ l, p a) := by
    induction l with
    | nil => exact fun hx => hx.congr (and_iff_left (List.forall_mem_nil p)).symm
    | cons a l ih =>
      obtain ⟨ha, hl⟩ := List.forall_mem_cons.mp h
      intro x q hx
      refine (ih hl (hx.add ha)).congr ?_
      rw [List.forall_mem_cons, and_assoc]
  exact (hfold zero).congr (and_iff_right trivial)

lemma le_zero_iff (h : Measures x p) : x ≤ 0.0 ↔ p := by
  have hnonneg := h.nonNegative.nonneg
  rw [le_iff_units h.nonNegative.isNumber isNumber_zero, units_zero, ← h.zero_iff]
  omega

end Measures

/-- By how much a number is greater than another. -/
def excess (x y : Float) : Float := larger (x - y) 0.0

/-- The least double above zero. -/
def least : Float := Float.ofBits 1

lemma isNumber_least : IsNumber least := by
  unfold IsNumber
  decide +kernel

lemma units_least : units least = 1 := by decide +kernel

lemma rounded_pos {v : Int} (hv : 0 < v) : 0 < rounded 1 v := by
  have hle := le_rounded isNumber_least Nat.one_pos (v := v) (by rw [units_least]; omega)
  rw [units_least] at hle
  omega

lemma exists_unpack_of_not_isFinite {x : Float} (hx : IsNumber x) (h : ¬ x.isFinite) :
    ∃ s, x.toModel.unpack = .infinity s := by
  change ¬ x.toModel.unpack.isFinite at h
  cases hunpack : x.toModel.unpack with
  | notANumber => exact absurd hunpack (isNumber_iff.mp hx)
  | zero s => rw [hunpack] at h; exact absurd rfl h
  | finite s m e hm => rw [hunpack] at h; exact absurd rfl h
  | infinity s => exact ⟨s, rfl⟩

lemma units_of_unpack_infinity {x : Float} {s : Sign} (h : x.toModel.unpack = .infinity s) :
    IsNumber x ∧ units x = s.apply beyond := by
  rw [isNumber_iff, units, h]
  refine ⟨fun heq => ?_, rfl⟩
  cases heq

lemma unpack_sub_of_infinity {x y : Float} {s : Sign}
    (h : UnpackedFloat.sub .binary64 x.toModel.unpack y.toModel.unpack = .infinity s) :
    (x - y).toModel.unpack = .infinity s := by
  change (Float.Model.pack (UnpackedFloat.sub .binary64 x.toModel.unpack
    y.toModel.unpack)).unpack = _
  rw [h, unpack_pack_infinity]

lemma sub_pos_iff_of_not_isFinite {x y : Float} (hx : IsNumber x) (hy : IsNumber y)
    (h : ¬ (x.isFinite ∧ y.isFinite)) :
    IsNumber (x - y) ∧ 0 < units (x - y) ↔ units y < units x := by
  have hbeyond := beyond_pos
  by_cases hfinite : y.isFinite
  · obtain ⟨s, hux⟩ := exists_unpack_of_not_isFinite hx fun hxfinite => h ⟨hxfinite, hfinite⟩
    have hsub : (x - y).toModel.unpack = .infinity s := unpack_sub_of_infinity (by
      rcases unpack_of_isFinite hfinite with ⟨s', huy⟩ | ⟨s', m, e, hm, huy⟩ <;>
        rw [hux, huy] <;> rfl)
    have hlt := (isFinite_iff.mp hfinite).2
    obtain ⟨hnumber, hunits⟩ := units_of_unpack_infinity hsub
    rw [and_iff_right hnumber, hunits, (units_of_unpack_infinity hux).2]
    cases s <;> dsimp only [Sign.apply] <;> omega
  · obtain ⟨s', huy⟩ := exists_unpack_of_not_isFinite hy hfinite
    by_cases hfinite : x.isFinite
    · have hsub : (x - y).toModel.unpack = .infinity (-s') := unpack_sub_of_infinity (by
        rcases unpack_of_isFinite hfinite with ⟨s, hux⟩ | ⟨s, m, e, hm, hux⟩ <;>
          rw [hux, huy] <;> rfl)
      have hlt := (isFinite_iff.mp hfinite).2
      obtain ⟨hnumber, hunits⟩ := units_of_unpack_infinity hsub
      rw [and_iff_right hnumber, hunits, (units_of_unpack_infinity huy).2]
      rw [apply_neg]
      cases s' <;> dsimp only [Sign.apply] <;> omega
    · obtain ⟨s, hux⟩ := exists_unpack_of_not_isFinite hx hfinite
      rw [(units_of_unpack_infinity hux).2, (units_of_unpack_infinity huy).2]
      by_cases hsign : s = s'
      · have hnan : ¬ IsNumber (x - y) := by
          rw [isNumber_iff, not_not]
          change (Float.Model.pack (UnpackedFloat.sub .binary64 x.toModel.unpack
            y.toModel.unpack)).unpack = _
          rw [hux, huy, hsign]
          cases s' <;> rfl
        rw [hsign]
        exact iff_of_false (fun hpos => hnan hpos.1) (Int.lt_irrefl _)
      · have hsub : (x - y).toModel.unpack = .infinity s := unpack_sub_of_infinity (by
          rw [hux, huy]
          cases s <;> cases s' <;> first | rfl | exact absurd rfl hsign)
        obtain ⟨hnumber, hunits⟩ := units_of_unpack_infinity hsub
        rw [and_iff_right hnumber, hunits]
        cases s <;> cases s' <;> dsimp only [Sign.apply] <;> first | omega | exact absurd rfl hsign

/-- A difference is positive if the first number is greater, infinite or not. -/
lemma sub_pos_iff {x y : Float} (hx : IsNumber x) (hy : IsNumber y) :
    IsNumber (x - y) ∧ 0 < units (x - y) ↔ units y < units x := by
  by_cases hfinite : x.isFinite ∧ y.isFinite
  · obtain ⟨hnumber, hunits⟩ := units_sub hfinite.1 hfinite.2
    rw [and_iff_right hnumber, hunits]
    constructor
    · intro hpos
      by_contra hnot
      have hmono := rounded_mono Nat.one_pos (by omega : units x - units y ≤ 0)
      rw [rounded_zero] at hmono
      omega
    · exact fun hlt => rounded_pos (by omega)
  · exact sub_pos_iff_of_not_isFinite hx hy hfinite

lemma isNumber_of_isNumber_sub {x y : Float} (h : IsNumber (x - y)) : IsNumber x ∧ IsNumber y := by
  have hnan : (Float.Model.pack .notANumber).unpack = .notANumber := rfl
  rw [isNumber_iff] at h
  rw [isNumber_iff, isNumber_iff]
  change (Float.Model.pack (UnpackedFloat.sub .binary64 x.toModel.unpack
    y.toModel.unpack)).unpack ≠ _ at h
  refine ⟨fun hux => h ?_, fun huy => h ?_⟩
  · rw [hux]
    exact hnan
  · rw [huy]
    cases x.toModel.unpack <;> exact hnan

/-- The excess is zero unless the first number is greater, also if one of the two is undefined. -/
theorem measures_excess (x y : Float) : Measures (excess x y) (¬ y < x) := by
  unfold excess
  by_cases hsub : IsNumber (x - y)
  · obtain ⟨hnumber, hunits⟩ := larger_zero_of_isNumber hsub
    obtain ⟨hx, hy⟩ := isNumber_of_isNumber_sub hsub
    have hpos := sub_pos_iff hx hy
    rw [and_iff_right hsub] at hpos
    refine ⟨⟨hnumber, by omega⟩, ?_⟩
    rw [lt_iff_units hy hx, ← hpos]
    omega
  · have hzero : larger (x - y) 0.0 = 0.0 := by
      unfold larger
      rw [Bool.eq_true_of_not_eq_false hsub, Bool.true_or, if_pos rfl]
    rw [hzero]
    refine Measures.zero.congr (iff_of_true trivial fun hlt => ?_)
    by_cases hnumbers : IsNumber y ∧ IsNumber x
    · have hpos := (sub_pos_iff hnumbers.2 hnumbers.1).mpr
        ((lt_iff_units hnumbers.1 hnumbers.2).mp hlt)
      exact hsub hpos.1
    · exact not_lt_of_not_isNumber (not_and_or.mp hnumbers) hlt

end Number

/-! ## Exact sums -/

namespace Amount

/-- The exact value of an amount in units, which may be infinite. -/
def extended (a : Amount) : WithBot (WithTop ℤ) := Number.extended a.value

/-- A number that is the sum of other amounts, without any rounding. -/
structure ExactSum (summands : List Amount) (sum : Amount) : Prop where
  isNumber : sum.IsNumber
  extended_eq : sum.extended = (summands.map extended).sum

instance (summands : List Amount) (sum : Amount) : Decidable (ExactSum summands sum) :=
  decidable_of_iff (sum.IsNumber ∧ sum.extended = (summands.map extended).sum)
    ⟨fun h => ⟨h.1, h.2⟩, fun h => ⟨h.isNumber, h.extended_eq⟩⟩

lemma extended_le_iff {a b : Amount} (ha : a.IsNumber) (hb : b.IsNumber) :
    a.extended ≤ b.extended ↔ a.units ≤ b.units :=
  Number.extended_le_iff ha hb

end Amount

end Retrofit
