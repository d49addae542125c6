import Mathlib.Data.List.Forall2
import Retrofit.Pareto.Dominance
import Retrofit.Proofs.Number.Units

/-!
# Dominance is a strict order

Among candidates whose costs and violations are defined, `Judgement.beats` compares exact values:
first the penalties, then the costs coordinate by coordinate (`Judgement.beats_iff`). So it is
irreflexive and transitive.
-/

namespace Retrofit

namespace Amount

/-- The exact value of an amount. -/
def units (a : Amount) : Int := Number.units a.value

/-- The amount is a number. -/
def IsNumber (a : Amount) : Prop := Number.IsNumber a.value

instance : DecidablePred IsNumber := fun a => inferInstanceAs (Decidable (Number.IsNumber a.value))

lemma lt_iff_units {a b : Amount} (ha : a.IsNumber) (hb : b.IsNumber) :
    a < b ↔ a.units < b.units :=
  Number.lt_iff_units ha hb

lemma le_iff_units {a b : Amount} (ha : a.IsNumber) (hb : b.IsNumber) :
    a ≤ b ↔ a.units ≤ b.units :=
  Number.le_iff_units ha hb

lemma exists_eq_number {a : Amount} (ha : a.IsNumber) : ∃ x, a = number x ∧ Number.IsNumber x := by
  cases a with
  | number x => exact ⟨x, rfl, ha⟩
  | undefined side =>
    have hundefined : ¬ Number.IsNumber Number.undefined := by
      unfold Number.IsNumber
      decide
    exact absurd ha hundefined

lemma ofResult_of_isNumber {x : Float} (hx : Number.IsNumber x) : ofResult x = number x := by
  unfold ofResult
  have hnan : x.isNaN = false := hx
  rw [hnan, if_neg (by decide)]

lemma number_add_zero {x : Float} (hx : Number.IsNumber x) :
    number x + 0 = number (x + 0.0) :=
  ofResult_of_isNumber (Number.isNumber_add_zero.mpr hx)

/-- The sum with zero tells defined amounts apart by their values alone. -/
lemma add_zero_inj {a b : Amount} (ha : a.IsNumber) (hb : b.IsNumber) :
    a + 0 = b + 0 ↔ a.units = b.units := by
  obtain ⟨x, rfl, hx⟩ := exists_eq_number ha
  obtain ⟨y, rfl, hy⟩ := exists_eq_number hb
  rw [number_add_zero hx, number_add_zero hy, number.injEq]
  exact Number.add_zero_inj hx hy

end Amount

/-! ## Rows of costs -/

/-- Every cost is a number. -/
def Numbers (row : List Amount) : Prop := ∀ a ∈ row, a.IsNumber

instance : DecidablePred Numbers := fun row => inferInstanceAs (Decidable (∀ a ∈ row, a.IsNumber))

/-- The exact values of a row. -/
def rowUnits (row : List Amount) : List Int := row.map (·.units)

lemma numbers_cons {a : Amount} {row : List Amount} :
    Numbers (a :: row) ↔ a.IsNumber ∧ Numbers row :=
  List.forall_mem_cons

lemma nowhere_more_iff {a b : List Amount} (ha : Numbers a) (hb : Numbers b)
    (hlength : a.length = b.length) :
    (∀ p ∈ a.zip b, ¬ p.2 < p.1) ↔ List.Forall₂ (· ≤ ·) (rowUnits a) (rowUnits b) := by
  induction a generalizing b with
  | nil =>
    cases b with
    | nil => exact iff_of_true nofun .nil
    | cons y b => cases hlength
  | cons x a ih =>
    cases b with
    | nil => cases hlength
    | cons y b =>
      obtain ⟨hx, ha⟩ := numbers_cons.mp ha
      obtain ⟨hy, hb⟩ := numbers_cons.mp hb
      change _ ↔ List.Forall₂ _ (x.units :: rowUnits a) (y.units :: rowUnits b)
      rw [List.zip_cons_cons, List.forall_mem_cons, List.forall₂_cons,
        ih ha hb (Nat.succ.inj hlength), Amount.lt_iff_units hy hx, Int.not_lt]

lemma somewhere_less_iff {a b : List Amount} (ha : Numbers a) (hb : Numbers b)
    (hle : List.Forall₂ (· ≤ ·) (rowUnits a) (rowUnits b)) :
    (∃ p ∈ a.zip b, p.1 < p.2) ↔ rowUnits a ≠ rowUnits b := by
  induction a generalizing b with
  | nil =>
    cases b with
    | nil => exact iff_of_false (fun ⟨p, hp, _⟩ => nomatch hp) (fun h => h rfl)
    | cons y b => cases hle
  | cons x a ih =>
    cases b with
    | nil => cases hle
    | cons y b =>
      obtain ⟨hx, ha⟩ := numbers_cons.mp ha
      obtain ⟨hy, hb⟩ := numbers_cons.mp hb
      obtain ⟨hxy, hab⟩ := List.forall₂_cons.mp hle
      change _ ↔ x.units :: rowUnits a ≠ y.units :: rowUnits b
      rw [List.zip_cons_cons, List.exists_mem_cons_iff, ih ha hb hab, Amount.lt_iff_units hx hy,
        ne_eq, ne_eq, List.cons.injEq, not_and_or]
      apply or_congr_left
      constructor
      · exact Int.ne_of_lt
      · exact fun hne => Int.lt_iff_le_and_ne.mpr ⟨hxy, hne⟩

/-- Dominance of defined rows: no more anywhere, and not the same. -/
theorem dominates_iff {a b : List Amount} (ha : Numbers a) (hb : Numbers b)
    (hlength : a.length = b.length) :
    dominates a b ↔ List.Forall₂ (· ≤ ·) (rowUnits a) (rowUnits b) ∧ rowUnits a ≠ rowUnits b := by
  unfold dominates
  dsimp only
  rw [Bool.and_eq_true, Bool.not_eq_true', List.any_eq_false, List.any_eq_true]
  simp only [decide_eq_true_eq]
  rw [nowhere_more_iff ha hb hlength]
  constructor
  · rintro ⟨hle, hless⟩
    exact ⟨hle, (somewhere_less_iff ha hb hle).mp hless⟩
  · rintro ⟨hle, hne⟩
    exact ⟨hle, (somewhere_less_iff ha hb hle).mpr hne⟩

/-- Nothing dominates itself. -/
lemma not_dominates_self (row : List Amount) : ¬ dominates row row := by
  unfold dominates
  dsimp only
  rw [Bool.and_eq_true, Bool.not_eq_true', List.any_eq_false, List.any_eq_true]
  rintro ⟨hmore, p, hp, hless⟩
  have hsame : p.1 = p.2 := List.forall₂_zip (List.forall₂_refl row) hp
  rw [hsame] at hless
  exact hmore p hp (by rwa [hsame])

lemma forall₂_le_trans {a b c : List Int} (hab : List.Forall₂ (· ≤ ·) a b)
    (hbc : List.Forall₂ (· ≤ ·) b c) : List.Forall₂ (· ≤ ·) a c := by
  induction hab generalizing c with
  | nil => exact hbc
  | cons hxy _ ih =>
    cases hbc with
    | cons hyz hbc => exact .cons (Int.le_trans hxy hyz) (ih hbc)

lemma forall₂_le_antisymm {a b : List Int} (hab : List.Forall₂ (· ≤ ·) a b)
    (hba : List.Forall₂ (· ≤ ·) b a) : a = b := by
  induction hab with
  | nil => rfl
  | cons hxy _ ih =>
    cases hba with
    | cons hyx hba => rw [Int.le_antisymm hxy hyx, ih hba]

lemma less_trans {a b c : List Int} (hab : List.Forall₂ (· ≤ ·) a b ∧ a ≠ b)
    (hbc : List.Forall₂ (· ≤ ·) b c) : List.Forall₂ (· ≤ ·) a c ∧ a ≠ c := by
  refine ⟨forall₂_le_trans hab.1 hbc, fun hsame => hab.2 ?_⟩
  rw [← hsame] at hbc
  exact forall₂_le_antisymm hab.1 hbc

lemma dominates_trans {a b c : List Amount} (ha : Numbers a) (hb : Numbers b) (hc : Numbers c)
    (hlength : a.length = b.length) (hlength' : b.length = c.length) (hab : dominates a b)
    (hbc : dominates b c) : dominates a c :=
  (dominates_iff ha hc (hlength.trans hlength')).mpr <|
    less_trans ((dominates_iff ha hb hlength).mp hab) ((dominates_iff hb hc hlength').mp hbc).1

/-! ## Judgements -/

namespace Judgement

/-- All costs, of which there are `n`, and the violation are numbers. -/
structure Defined (n : Nat) (j : Judgement) : Prop where
  length_eq : j.costs.length = n
  numbers : Numbers j.costs
  violation : Number.IsNumber j.violation

instance (n : Nat) (j : Judgement) : Decidable (j.Defined n) :=
  decidable_of_iff (j.costs.length = n ∧ Numbers j.costs ∧ Number.IsNumber j.violation)
    ⟨fun h => ⟨h.1, h.2.1, h.2.2⟩, fun h => ⟨h.length_eq, h.numbers, h.violation⟩⟩

/-- The violation as it counts between candidates: none is below zero. -/
def penalty (j : Judgement) : Int := max (Number.units j.violation) 0

variable {n : Nat} {a b : Judgement}

lemma feasible_iff (ha : a.Defined n) : a.feasible ↔ a.penalty = 0 := by
  unfold feasible penalty
  rw [decide_eq_true_eq, Number.le_iff_units ha.violation Number.isNumber_zero,
    Number.units_zero]
  omega

/-- Between defined candidates the penalties decide, then dominance. -/
theorem beats_iff (ha : a.Defined n) (hb : b.Defined n) :
    a.beats b ↔ a.penalty < b.penalty ∨ a.penalty = b.penalty ∧
      List.Forall₂ (· ≤ ·) (rowUnits a.costs) (rowUnits b.costs) ∧
        rowUnits a.costs ≠ rowUnits b.costs := by
  have hdominates := dominates_iff ha.numbers hb.numbers (ha.length_eq.trans hb.length_eq.symm)
  rw [← hdominates]
  have hfa := feasible_iff ha
  have hfb := feasible_iff hb
  have hpa : 0 ≤ a.penalty := Int.le_max_right _ _
  have hpb : 0 ≤ b.penalty := Int.le_max_right _ _
  unfold beats
  cases ha' : a.feasible with
  | true =>
    have hza := hfa.mp ha'
    cases hb' : b.feasible with
    | true =>
      have hzb := hfb.mp hb'
      constructor
      · exact fun h => Or.inr ⟨by omega, h⟩
      · rintro (h | h)
        · omega
        · exact h.2
    | false =>
      have hzb := mt hfb.mpr (Bool.eq_false_iff.mp hb')
      exact iff_of_true rfl (Or.inl (by omega))
  | false =>
    have hza := mt hfa.mpr (Bool.eq_false_iff.mp ha')
    cases hb' : b.feasible with
    | true =>
      have hzb := hfb.mp hb'
      exact iff_of_false Bool.false_ne_true (by omega)
    | false =>
      have hzb := mt hfb.mpr (Bool.eq_false_iff.mp hb')
      have hlt := Number.lt_iff_units ha.violation hb.violation
      have hgt := Number.lt_iff_units hb.violation ha.violation
      unfold penalty at hza hzb ⊢
      dsimp only
      split
      · rename_i h
        have := hlt.mp h
        exact iff_of_true rfl (Or.inl (by omega))
      · rename_i h
        have := mt hlt.mpr h
        split
        · rename_i h
          have := hgt.mp h
          exact iff_of_false Bool.false_ne_true (by omega)
        · rename_i h
          have := mt hgt.mpr h
          constructor
          · exact fun h => Or.inr ⟨by omega, h⟩
          · rintro (h | h)
            · omega
            · exact h.2

/-- Nothing beats itself, whether it is defined or not. -/
theorem not_beats_self (a : Judgement) : ¬ a.beats a := by
  unfold beats
  cases a.feasible with
  | true => exact not_dominates_self a.costs
  | false =>
    dsimp only
    rw [if_neg (Number.not_lt_self a.violation), if_neg (Number.not_lt_self a.violation)]
    exact not_dominates_self a.costs

/-- Of two candidates one of which dominates the other, one beats the other. -/
lemma beats_or_beats_of_dominates (h : dominates a.costs b.costs) :
    a.beats b ∨ b.beats a := by
  unfold beats
  cases a.feasible with
  | true =>
    cases b.feasible with
    | true => exact Or.inl h
    | false => exact Or.inl rfl
  | false =>
    cases b.feasible with
    | true => exact Or.inr rfl
    | false =>
      by_cases hless : a.violation < b.violation
      · exact Or.inl (by simp only [if_pos hless])
      · by_cases hmore : b.violation < a.violation
        · exact Or.inr (by simp only [if_pos hmore])
        · exact Or.inl (by simpa only [if_neg hless, if_neg hmore] using h)

theorem beats_trans (ha : a.Defined n) (hb : b.Defined n) (hc : c.Defined n)
    (hab : a.beats b) (hbc : b.beats c) : a.beats c := by
  rw [beats_iff ha hb] at hab
  rw [beats_iff hb hc] at hbc
  rw [beats_iff ha hc]
  rcases hab with hab | ⟨heq, hle, hne⟩
  · rcases hbc with hbc | ⟨heq', -, -⟩
    · exact Or.inl (by omega)
    · exact Or.inl (by omega)
  · rcases hbc with hbc | ⟨heq', hle', -⟩
    · exact Or.inl (by omega)
    · exact Or.inr ⟨by omega, less_trans ⟨hle, hne⟩ hle'⟩

end Judgement

end Retrofit
