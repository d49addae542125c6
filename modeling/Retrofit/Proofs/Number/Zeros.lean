import Retrofit.Proofs.Number.Sums

/-!
# The sign of a zero

A number is told by its exact value unless it is a zero, which has one of two signs. A sum is the
negative zero only if both summands are (`plain_add`): cancelling leaves the positive zero, and no
other sum is so small that it is rounded to zero. So a sum that starts from the positive zero is told
by its exact value (`Plain.eq_of_units_eq`).
-/

namespace Retrofit

namespace Number

open Float.Model Float.Model.UnpackedFloat

/-- A double that is not the negative zero. -/
def Plain (x : Float) : Prop := x.toModel.unpack ≠ .zero .negative

lemma eq_of_unpack_eq {x y : Float} (h : x.toModel.unpack = y.toModel.unpack) : x = y := by
  have hbits := (unpack_inj_of_valid x.toModel.valid y.toModel.valid).mp h
  exact Float.toBits_inj.mp (UInt64.toBitVec_inj.mp hbits)

theorem Plain.eq_of_units_eq {x y : Float} (hx : Plain x) (hy : Plain y) (hnx : IsNumber x)
    (hny : IsNumber y) (h : units x = units y) : x = y := by
  apply eq_of_unpack_eq
  rcases unpack_eq_of_units_eq hnx hny h with heq | ⟨s, s', hs, hs'⟩
  · exact heq
  · cases s with
    | negative => exact absurd hs hx
    | positive =>
      cases s' with
      | negative => exact absurd hs' hy
      | positive => rw [hs, hs']

lemma plain_of_units_ne_zero {x : Float} (h : units x ≠ 0) : Plain x :=
  fun hzero => h (units_of_unpack_zero hzero).2

lemma rounded_ne_zero {v : Int} (hv : v ≠ 0) : rounded 1 v ≠ 0 := by
  rcases Int.lt_or_gt_of_ne hv with hneg | hpos
  · have h := rounded_pos (Int.neg_pos_of_neg hneg)
    rw [rounded_neg] at h
    omega
  · exact Int.ne_of_gt (rounded_pos hpos)

lemma unpack_pack_ne {u : UnpackedFloat} (hu : u ≠ .zero .negative)
    (hkept : (Float.Model.pack u).unpack = u) : (Float.Model.pack u).unpack ≠ .zero .negative := by
  rwa [hkept]

/-- A value that is rounded to zero is zero, which is positive. -/
lemma unpack_pack_normalize_ne {v e : Int} (hleast : -1074 ≤ e) :
    (Float.Model.pack (UnpackedFloat.normalize .binary64 v e .positive)).unpack ≠
      .zero .negative := by
  by_cases hv : v = 0
  · rw [hv]
    exact unpack_pack_ne (u := .zero .positive) nofun rfl
  · have hunits := (@units_of_normalize (Float.ofModel (Float.Model.pack
      (UnpackedFloat.normalize .binary64 v e .positive))) v e hleast rfl).2
    have hscaled : v * (2 ^ (e + 1074).toNat : Nat) ≠ 0 :=
      Int.mul_ne_zero hv (Int.natCast_ne_zero.mpr (Nat.pos_iff_ne_zero.mp (Nat.two_pow_pos _)))
    exact plain_of_units_ne_zero (hunits ▸ rounded_ne_zero hscaled)

theorem plain_add {x y : Float} (h : Plain x ∨ Plain y) : Plain (x + y) := by
  change (Float.Model.pack (UnpackedFloat.add .binary64 x.toModel.unpack
    y.toModel.unpack)).unpack ≠ _
  have hkeptx := unpack_pack_of_unpack x
  have hkepty := unpack_pack_of_unpack y
  unfold Plain at h
  cases hx : x.toModel.unpack with
  | notANumber => exact unpack_pack_ne (u := .notANumber) nofun rfl
  | infinity s =>
    cases y.toModel.unpack with
    | notANumber => exact unpack_pack_ne (u := .notANumber) nofun rfl
    | infinity s' => cases s <;> cases s' <;> exact unpack_pack_ne nofun rfl
    | _ => exact unpack_pack_ne nofun (unpack_pack_infinity s)
  | zero s =>
    cases hy : y.toModel.unpack with
    | notANumber => exact unpack_pack_ne (u := .notANumber) nofun rfl
    | infinity s' => exact unpack_pack_ne nofun (unpack_pack_infinity s')
    | zero s' =>
      rw [hx, hy] at h
      have hpositive : s = .positive ∨ s' = .positive := by
        cases s <;> cases s' <;> simp at h ⊢
      rcases hpositive with rfl | rfl
      · cases s' <;> exact unpack_pack_ne (u := .zero .positive) nofun rfl
      · cases s <;> exact unpack_pack_ne (u := .zero .positive) nofun rfl
    | finite s' m' e' hm' =>
      rw [hy] at hkepty
      exact unpack_pack_ne nofun hkepty
  | finite s m e hm =>
    rw [hx] at hkeptx
    cases hy : y.toModel.unpack with
    | notANumber => exact unpack_pack_ne (u := .notANumber) nofun rfl
    | infinity s' => exact unpack_pack_ne nofun (unpack_pack_infinity s')
    | zero s' => exact unpack_pack_ne nofun hkeptx
    | finite s' m' e' hm' =>
      have hle := (canonical_of_unpack hx).1.least
      have hle' := (canonical_of_unpack hy).1.least
      exact unpack_pack_normalize_ne (by omega)

lemma plain_sub {x y : Float} (hx : Plain x) : Plain (x - y) := by
  rw [sub_eq_add_neg]
  exact plain_add (Or.inl hx)

lemma plain_zero : Plain 0.0 := nofun

/-- A sum starts from the positive zero. -/
lemma plain_sum (xs : List Float) : Plain (sum xs) := by
  have hfold : ∀ {start : Float}, Plain start → Plain (xs.foldl (· + ·) start) := by
    induction xs with
    | nil => exact id
    | cons x xs ih => exact fun hstart => ih (plain_add (Or.inl hstart))
  exact hfold plain_zero

lemma plain_larger_zero {x : Float} (hx : Plain x) : Plain (larger x 0.0) := by
  unfold larger
  split
  · exact plain_zero
  · exact hx

end Number

namespace Amount

/-- An amount that is not the negative zero. -/
def Plain (a : Amount) : Prop := Number.Plain a.value

/-- Numbers of one exact value are the same. -/
lemma Plain.eq_of_units_eq {a b : Amount} (ha : a.Plain) (hb : b.Plain) (hna : a.IsNumber)
    (hnb : b.IsNumber) (h : a.units = b.units) : a = b := by
  obtain ⟨x, rfl, -⟩ := exists_eq_number hna
  obtain ⟨y, rfl, -⟩ := exists_eq_number hnb
  exact congrArg number (Number.Plain.eq_of_units_eq ha hb hna hnb h)

lemma plain_undefined (side : Side) : (undefined side).Plain :=
  Number.unpack_pack_ne (u := .notANumber) nofun rfl

lemma plain_zero : (0 : Amount).Plain := nofun

lemma plain_ofResult {x : Float} (hx : Number.Plain x) : (ofResult x).Plain := by
  unfold ofResult
  split
  · exact plain_undefined _
  · exact hx

lemma plain_add {a b : Amount} (h : a.Plain ∨ b.Plain) : (a + b).Plain := by
  cases a with
  | undefined side => exact plain_undefined side
  | number x =>
    cases b with
    | undefined side => exact plain_undefined side
    | number y => exact plain_ofResult (Number.plain_add h)

lemma plain_sub {a b : Amount} (h : a.Plain) : (a - b).Plain := by
  cases a with
  | undefined side => exact plain_undefined side
  | number x =>
    cases b with
    | undefined side => exact plain_undefined side
    | number y => exact plain_ofResult (Number.plain_sub h)

end Amount

end Retrofit
