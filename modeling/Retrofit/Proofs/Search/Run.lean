import Mathlib.Data.List.Forall2
import Mathlib.Tactic.Lemma
import Retrofit.Search.Problem

/-!
# Steps that return

`Returns m t a t'` says that a search, or a draw that may be broken off, returns `a` from the state
`t` and leaves `t'`. The lemmas take apart what a calculation did that returned.
-/

namespace Retrofit

open Retrofit.Random

variable {ε τ α β : Type}

/-- A calculation returns a value from a state and leaves a state. -/
def Returns (m : ExceptT ε (StateM τ) α) (t : τ) (a : α) (t' : τ) : Prop :=
  m.run.run t = (.ok a, t')

/-- The value that a calculation returns from a state, or a substitute. -/
def returnedOr (m : ExceptT ε (StateM τ) α) (t : τ) (substitute : α) : α :=
  match (m.run.run t).1 with
  | .ok a => a
  | .error _ => substitute

lemma returns_of_isOk {m : ExceptT ε (StateM τ) α} {t : τ} (substitute : α)
    (h : (m.run.run t).1.isOk) : Returns m t (returnedOr m t substitute) (m.run.run t).2 := by
  unfold Returns returnedOr
  generalize m.run.run t = outcome at h
  obtain ⟨result, t'⟩ := outcome
  cases result with
  | error reason => exact absurd h Bool.false_ne_true
  | ok a => rfl

section Steps

variable {m : ExceptT ε (StateM τ) α} {f : α → ExceptT ε (StateM τ) β} {t t' : τ} {a a' : α} {b : β}

/-- A calculation returns one value and leaves one state. -/
lemma Returns.unique {t₁ : τ} (h : Returns m t a t') (h₁ : Returns m t a' t₁) :
    a = a' ∧ t' = t₁ := by
  unfold Returns at h h₁
  rw [h] at h₁
  cases h₁
  exact ⟨rfl, rfl⟩

lemma run_bind (m : ExceptT ε (StateM τ) α) (f : α → ExceptT ε (StateM τ) β) (t : τ) :
    (m >>= f).run.run t =
      match m.run.run t with
      | (.ok a, t') => (f a).run.run t'
      | (.error reason, t') => (.error reason, t') := by
  change (ExceptT.bindCont f (m.run.run t).1).run (m.run.run t).2 = _
  generalize m.run.run t = outcome
  obtain ⟨result, t'⟩ := outcome
  cases result <;> rfl

lemma returns_pure : Returns (pure a : ExceptT ε (StateM τ) α) t a' t' ↔ a = a' ∧ t = t' := by
  change ((Except.ok a, t) : Except ε α × τ) = (Except.ok a', t') ↔ _
  rw [Prod.mk.injEq, Except.ok.injEq]

lemma not_returns_throw {reason : ε} :
    ¬ Returns (throw reason : ExceptT ε (StateM τ) α) t a t' :=
  nofun

lemma returns_bind : Returns (m >>= f) t b t' ↔
    ∃ a t₁, Returns m t a t₁ ∧ Returns (f a) t₁ b t' := by
  unfold Returns
  rw [run_bind]
  constructor
  · intro h
    split at h
    · rename_i a t₁ heq
      exact ⟨a, t₁, heq, h⟩
    · cases h
  · rintro ⟨a, t₁, hm, hf⟩
    rw [hm]
    exact hf

/-- A calculation that ends under some condition did not meet it. -/
lemma returns_ite_throw {c : Prop} [Decidable c] {reason : ε}
    {rest : β → ExceptT ε (StateM τ) α} {r : β} :
    Returns (if c then throw reason >>= rest else rest r) t a t' ↔
      ¬ c ∧ Returns (rest r) t a t' := by
  split
  · rename_i hc
    refine iff_of_false (fun h => ?_) (fun h => h.1 hc)
    obtain ⟨_, _, hthrow, -⟩ := returns_bind.mp h
    exact not_returns_throw hthrow
  · rename_i hc
    exact ⟨fun h => ⟨hc, h⟩, And.right⟩

/-- What every step of a sequence establishes, and what it keeps. -/
theorem forall₂_of_returns_mapM {g : α → ExceptT ε (StateM τ) β} {I : τ → Prop}
    {R : α → β → Prop} {l : List α}
    (step : ∀ a ∈ l, ∀ t b t', I t → Returns (g a) t b t' → R a b ∧ I t')
    {r : List β} (ht : I t) (h : Returns (l.mapM g) t r t') : List.Forall₂ R l r ∧ I t' := by
  induction l generalizing t r with
  | nil =>
    rw [List.mapM_nil] at h
    obtain ⟨rfl, rfl⟩ := returns_pure.mp h
    exact ⟨.nil, ht⟩
  | cons x l ih =>
    rw [List.mapM_cons] at h
    obtain ⟨b, t₁, hb, h⟩ := returns_bind.mp h
    obtain ⟨bs, t₂, hbs, h⟩ := returns_bind.mp h
    obtain ⟨rfl, rfl⟩ := returns_pure.mp h
    obtain ⟨hR, hI⟩ := step x List.mem_cons_self t b t₁ ht hb
    obtain ⟨hall, hlast⟩ := ih (fun a ha => step a (List.mem_cons_of_mem x ha)) hI hbs
    exact ⟨.cons hR hall, hlast⟩

end Steps

/-! ## Draws within a search -/

section Draws

variable {γ : Type} {s s' : γ} {t t' : τ} {a : α}

lemma returns_lift {d : Draw γ α} :
    Returns (liftM d : DrawAttempt γ α) s a s' ↔ d.run s = (a, s') := by
  change ((Except.ok (d.run s).1, (d.run s).2) : Except DrawError α × γ) = (Except.ok a, s') ↔ _
  generalize d.run s = outcome
  rw [Prod.mk.injEq, Except.ok.injEq, Prod.ext_iff]

lemma returns_draw {attempt : DrawAttempt γ α} :
    Returns (Search.draw attempt s : Search τ (α × γ)) t (a, s') t' ↔
      Returns attempt s a s' ∧ t = t' := by
  unfold Search.draw Returns
  change _ ↔ attempt.run s = (.ok a, s') ∧ t = t'
  generalize attempt.run s = outcome
  obtain ⟨result, next⟩ := outcome
  cases result with
  | error reason => exact iff_of_false nofun nofun
  | ok value =>
    change ((Except.ok (value, next), t) : Except SearchError (α × γ) × τ) = _ ↔ _
    rw [Prod.mk.injEq, Except.ok.injEq, Prod.mk.injEq, Prod.mk.injEq, Except.ok.injEq]

lemma returns_spent {p : Problem τ} {n : Nat} :
    Returns p.spent t n t' ↔ p.evaluations t = n ∧ t = t' := by
  change ((Except.ok (p.evaluations t), t) : Except SearchError Nat × τ) = (Except.ok n, t') ↔ _
  rw [Prod.mk.injEq, Except.ok.injEq]

end Draws

end Retrofit
