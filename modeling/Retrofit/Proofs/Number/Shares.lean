import Retrofit.Proofs.Number.Sums
import Retrofit.Proofs.Number.Whole
import Retrofit.Proofs.Pareto.Dominance

/-!
# Shares

The total order keeps the undefined doubles at its two ends (`isNumber_iff_rank`), so what lies
between two numbers is a number. A difference is finite only between finite numbers
(`isFinite_of_isFinite_sub`), and a part of a finite width over that width is a share: a number
between zero and one (`share_div`). A sum of shares is at most the number of its summands, in spite
of the rounding (`units_sum_le`).
-/

namespace Retrofit.Number

open Float.Model Float.Model.UnpackedFloat

/-! ## The ends of the total order -/

lemma isNumber_iff_toBits {x : Float} : IsNumber x ↔ x.toBits.toNat % 2 ^ 63 ≤ infinityBits := by
  let bits : BitVec Format.binary64.numBits := x.toModel.toBits.toBitVec
  have hlt : bits.toNat < 2 ^ 64 := bits.isLt
  rw [isNumber_iff]
  change UnpackedFloat.unpack Format.binary64 bits ≠ .notANumber ↔
    bits.toNat % 2 ^ 63 ≤ infinityBits
  have hexponent := toNat_unpackExponent bits
  have hmantissa := toNat_unpackMantissa bits
  unfold UnpackedFloat.unpack infinityBits
  dsimp only
  by_cases htop : unpackExponent bits = -1#11
  · have htopNat : (unpackExponent bits).toNat = 2047 := congrArg BitVec.toNat htop
    rw [if_pos htop]
    by_cases hzero : unpackMantissa bits = 0#52
    · have hzeroNat : (unpackMantissa bits).toNat = 0 := congrArg BitVec.toNat hzero
      rw [if_pos hzero]
      exact iff_of_true nofun (by omega)
    · have hzeroNat : (unpackMantissa bits).toNat ≠ 0 :=
        fun heq => hzero (BitVec.eq_of_toNat_eq heq)
      rw [if_neg hzero]
      exact iff_of_false (fun hnot => hnot rfl) (by omega)
  · have htopNat : (unpackExponent bits).toNat ≠ 2047 :=
      fun heq => htop (BitVec.eq_of_toNat_eq heq)
    rw [if_neg htop]
    refine iff_of_true ?_ (by omega)
    split_ifs <;> exact nofun

/-- The numbers stand between the two infinities. -/
theorem isNumber_iff_rank {x : Float} :
    IsNumber x ↔ -(infinityBits : Int) - 1 ≤ rank x ∧ rank x ≤ infinityBits := by
  rw [isNumber_iff_toBits, rank_eq]
  split_ifs <;> omega

lemma isNumber_infinity : IsNumber infinity := by
  unfold IsNumber
  decide

lemma units_infinity : units infinity = beyond := rfl

lemma rank_infinity : rank infinity = infinityBits := by decide +kernel

lemma rank_neg_infinity : rank (-infinity) = -(infinityBits : Int) - 1 := by decide +kernel

end Retrofit.Number

namespace Retrofit.Amount

variable {a b c : Amount}

lemma isNumber_iff_rank : a.IsNumber ↔
    -(Number.infinityBits : Int) - 1 ≤ a.rank ∧ a.rank ≤ Number.infinityBits := by
  cases a with
  | number x => exact Number.isNumber_iff_rank
  | undefined side =>
    have hundefined : ¬ Number.IsNumber Number.undefined := by
      unfold Number.IsNumber
      decide
    refine iff_of_false hundefined ?_
    cases side with
    | below =>
      change ¬ (_ ≤ Number.rank (-Number.infinity) - 1 ∧ _)
      rw [Number.rank_neg_infinity]
      omega
    | above =>
      change ¬ (_ ∧ Number.rank Number.infinity + 1 ≤ _)
      rw [Number.rank_infinity]
      omega

/-- What lies between two numbers is a number. -/
lemma isNumber_of_rank_between (ha : a.IsNumber) (hc : c.IsNumber) (hab : a.rank ≤ b.rank)
    (hbc : b.rank ≤ c.rank) : b.IsNumber := by
  rw [isNumber_iff_rank] at *
  omega

lemma units_le_of_rank_le (ha : a.IsNumber) (hb : b.IsNumber) (h : a.rank ≤ b.rank) :
    a.units ≤ b.units := by
  obtain ⟨x, rfl, hx⟩ := exists_eq_number ha
  obtain ⟨y, rfl, hy⟩ := exists_eq_number hb
  exact Number.units_le_of_rank_le hx hy h

end Retrofit.Amount

namespace Retrofit.Number

/-! ## Parts of a width -/

open Float.Model Float.Model.UnpackedFloat

lemma sub_of_not_isFinite {u v : UnpackedFloat} (h : ¬ (u.isFinite ∧ v.isFinite)) :
    UnpackedFloat.sub .binary64 u v = .notANumber ∨
      ∃ s, UnpackedFloat.sub .binary64 u v = .infinity s := by
  cases u <;> cases v <;> first
    | exact absurd ⟨rfl, rfl⟩ h
    | exact Or.inl rfl
    | exact Or.inr ⟨_, rfl⟩
    | skip
  -- two infinities are left, and their signs decide
  rename_i s s'
  cases s <;> cases s' <;> first | exact Or.inl rfl | exact Or.inr ⟨_, rfl⟩

/-- Only finite numbers have a finite difference. -/
lemma isFinite_of_isFinite_sub {x y : Float} (h : (x - y).isFinite) : x.isFinite ∧ y.isFinite := by
  change (Float.Model.pack (UnpackedFloat.sub .binary64 x.toModel.unpack
    y.toModel.unpack)).unpack.isFinite at h
  by_contra hnot
  rcases sub_of_not_isFinite hnot with hsub | ⟨s, hsub⟩
  · rw [hsub] at h
    cases h
  · rw [hsub, unpack_pack_infinity] at h
    cases h

/-- A number between zero and one. -/
structure Share (x : Float) : Prop extends NonNegative x where
  le_one : units x ≤ one

lemma Share.zero : Share 0.0 := ⟨.zero, by rw [units_zero]; omega⟩

lemma Share.isFinite {x : Float} (hx : Share x) : x.isFinite := by
  have hnonneg := hx.nonneg
  have hle := hx.le_one
  have hone := (isFinite_iff.mp isFinite_one).2
  rw [units_one] at hone
  exact isFinite_iff.mpr ⟨hx.isNumber, by omega⟩

/-- A part of a finite width is a share of it. -/
theorem share_div {low x y high : Float} (hpos : 0.0 < high - low) (hfinite : (high - low).isFinite)
    (hx : IsNumber x) (hy : IsNumber y) (hlow : units low ≤ units x) (hxy : units x ≤ units y)
    (hhigh : units y ≤ units high) : Share ((y - x) / (high - low)) := by
  obtain ⟨hhighFinite, hlowFinite⟩ := isFinite_of_isFinite_sub hfinite
  obtain ⟨hwidthNumber, hwidth⟩ := units_sub hhighFinite hlowFinite
  have hlarge := (isFinite_iff.mp hhighFinite).2
  have hsmall := (isFinite_iff.mp hlowFinite).2
  have hxfinite : x.isFinite := isFinite_iff.mpr ⟨hx, by omega⟩
  have hyfinite : y.isFinite := isFinite_iff.mpr ⟨hy, by omega⟩
  obtain ⟨hpartNumber, hpart⟩ := units_sub hyfinite hxfinite
  have hnonneg : 0 ≤ units (y - x) := by
    rw [hpart]
    exact rounded_nonneg Nat.one_pos (by omega)
  have hle : units (y - x) ≤ units (high - low) := by
    rw [hpart, hwidth]
    exact rounded_mono Nat.one_pos (by omega)
  have hpartFinite : (y - x).isFinite := by
    have hbound := (isFinite_iff.mp hfinite).2
    exact isFinite_iff.mpr ⟨hpartNumber, by omega⟩
  rw [lt_iff_units isNumber_zero hwidthNumber, units_zero] at hpos
  obtain ⟨hnumber, hunits⟩ := units_div hpartFinite hfinite hpos
  have hdivisor : 0 < (units (high - low)).toNat := by omega
  refine ⟨⟨hnumber, ?_⟩, ?_⟩
  · rw [hunits]
    exact rounded_nonneg hdivisor (Int.mul_nonneg hnonneg (Int.natCast_nonneg _))
  · rw [hunits, ← units_one]
    refine rounded_le isNumber_one hdivisor ?_
    rw [Int.toNat_of_nonneg (Int.le_of_lt hpos), Int.mul_comm]
    rw [units_one]
    exact Int.mul_le_mul_of_nonneg_left hle (Int.natCast_nonneg _)

/-! ## Sums of shares -/

/-- Above `2 ^ 53` a share is too small to be added. -/
lemma rounded_stuck : rounded 1 ((2 ^ 53 + 1 : Nat) * one) = (2 ^ 53 : Nat) * one := by
  decide +kernel

/-- A share makes a sum greater by one at most. -/
lemma units_add_share_le {x y : Float} {n : Nat} (hx : NonNegative x)
    (hle : units x ≤ (min n (2 ^ 53) : Nat) * one) (hy : Share y) :
    units (x + y) ≤ (min (n + 1) (2 ^ 53) : Nat) * one := by
  have hbound : min n (2 ^ 53) * one < beyond := mul_one_lt_beyond (by omega)
  have hxfinite : x.isFinite := by
    have hnonneg := hx.nonneg
    exact isFinite_iff.mpr ⟨hx.isNumber, by omega⟩
  obtain ⟨-, hunits⟩ := units_add hxfinite hy.isFinite
  have hyle := hy.le_one
  rw [hunits]
  rcases Nat.lt_or_ge n (2 ^ 53) with hlt | hge
  · rw [Nat.min_eq_left (by omega : n + 1 ≤ 2 ^ 53), ← units_ofInt (by omega : n + 1 ≤ 2 ^ 53)]
    rw [Nat.min_eq_left (Nat.le_of_lt hlt)] at hle
    refine rounded_le (isNumber_ofInt _) Nat.one_pos ?_
    rw [units_ofInt (by omega : n + 1 ≤ 2 ^ 53)]
    push_cast
    linarith
  · rw [Nat.min_eq_right hge] at hle
    rw [Nat.min_eq_right (by omega : 2 ^ 53 ≤ n + 1), ← rounded_stuck]
    refine rounded_mono Nat.one_pos ?_
    push_cast at hle ⊢
    linarith

/-- A sum of shares is at most the number of its summands. -/
theorem units_sum_le {xs : List Float} (hxs : ∀ x ∈ xs, Share x) :
    units (sum xs) ≤ (min xs.length (2 ^ 53) : Nat) * one := by
  have hfold : ∀ {a : Float} {n : Nat}, NonNegative a →
      units a ≤ (min n (2 ^ 53) : Nat) * one →
      units (xs.foldl (· + ·) a) ≤ (min (n + xs.length) (2 ^ 53) : Nat) * one := by
    induction xs with
    | nil => exact fun _ h => h
    | cons x xs ih =>
      intro a n ha hle
      have hx := hxs x List.mem_cons_self
      have hsum := ih (fun y hy => hxs y (List.mem_cons_of_mem x hy)) (ha.add hx.toNonNegative)
        (units_add_share_le ha hle hx)
      rwa [Nat.add_assoc, Nat.add_comm 1] at hsum
  have hzero : units 0.0 ≤ (min 0 (2 ^ 53) : Nat) * one := by
    rw [units_zero, Nat.zero_min, Int.natCast_zero, Int.zero_mul]
  have hsum := hfold NonNegative.zero hzero
  rwa [Nat.zero_add] at hsum

/-- A sum is as great as each of its summands. -/
lemma units_le_sum {xs : List Float} (hxs : ∀ x ∈ xs, NonNegative x) {y : Float} (hy : y ∈ xs) :
    units y ≤ units (sum xs) := by
  have hfold : ∀ {a : Float}, NonNegative a → ∀ z, z = a ∨ z ∈ xs →
      units z ≤ units (xs.foldl (· + ·) a) := by
    clear hy
    induction xs with
    | nil =>
      intro a _ z hz
      exact Int.le_of_eq (congrArg units (hz.resolve_right List.not_mem_nil))
    | cons x xs ih =>
      obtain ⟨hx, hxs⟩ := List.forall_mem_cons.mp hxs
      intro a ha z hz
      have hsum := ih hxs (ha.add hx)
      obtain ⟨hstart, hfirst⟩ := ha.units_le_add hx
      rcases hz with rfl | hz
      · exact hstart.trans (hsum _ (Or.inl rfl))
      · rcases List.mem_cons.mp hz with rfl | hz
        · exact hfirst.trans (hsum _ (Or.inl rfl))
        · exact hsum z (Or.inr hz)
  exact hfold .zero y (Or.inr hy)

end Retrofit.Number
