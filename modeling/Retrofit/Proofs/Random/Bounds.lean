import Mathlib.Tactic.Lemma
import Retrofit.Search.Variation

/-!
# What draws can yield

`Always d P` says that a draw yields values with a property from every state of every source. Drawn
positions lie below the bound that was asked for, so the winner of a tournament is a member of the
population (`always_tournament`).
-/

namespace Retrofit.Random

variable {γ α β : Type}

/-- Whatever the state of the source, the drawn value has the property. -/
def Always (d : Draw γ α) (P : α → Prop) : Prop := ∀ s, P (d.run s).1

section Steps

variable {d : Draw γ α} {f : α → Draw γ β} {P : α → Prop} {R : β → Prop}

lemma always_pure {a : α} (h : P a) : Always (pure a : Draw γ α) P := fun _ => h

lemma always_bind (hd : Always d P) (hf : ∀ a, P a → Always (f a) R) : Always (d >>= f) R :=
  fun s => hf (d.run s).1 (hd s) (d.run s).2

lemma always_untilSome {word : Draw γ Nat} {accept : Nat → Option α} {fallback : α}
    {Q : Nat → Prop} (hword : Always word Q)
    (haccept : ∀ w v, Q w → accept w = some v → P v) (hfallback : P fallback) (fuel : Nat) :
    Always (untilSome word accept fallback fuel) P := by
  induction fuel with
  | zero => exact always_pure hfallback
  | succ fuel ih =>
    refine always_bind hword fun w hw => ?_
    split
    · rename_i value heq
      exact always_pure (haccept w value hw heq)
    · exact ih

end Steps

variable [Source γ]

lemma always_word32 : Always (word32 : Draw γ Nat) (· < 1 <<< 32) :=
  fun s => (Source.next s).1.toNat_lt

lemma always_word64 : Always (word64 : Draw γ Nat) (· < 1 <<< 64) := by
  refine always_bind always_word32 fun low hlow => ?_
  refine always_bind always_word32 fun high hhigh => always_pure ?_
  rw [Nat.one_shiftLeft] at hlow hhigh ⊢
  omega

lemma lt_of_scaled? {bits width zone word v : Nat} (hwidth : 0 < width) (hword : word < 1 <<< bits)
    (h : scaled? bits width zone word = some v) : v < width := by
  unfold scaled? at h
  split at h
  · cases h
    rw [Nat.one_shiftLeft] at hword
    rw [Nat.shiftRight_eq_div_pow, Nat.div_lt_iff_lt_mul (Nat.two_pow_pos bits),
      Nat.mul_comm width]
    exact Nat.mul_lt_mul_of_pos_right hword hwidth
  · cases h

lemma always_below32 {width : Nat} (h : 0 < width) :
    Always (below32 width : Draw γ Nat) (· < width) :=
  always_untilSome always_word32 (fun _ _ hw heq => lt_of_scaled? h hw heq) h retries

lemma always_below64 {width : Nat} (h : 0 < width) :
    Always (below64 width : Draw γ Nat) (· < width) :=
  always_untilSome always_word64 (fun _ _ hw heq => lt_of_scaled? h hw heq) h retries

/-! ## Positions -/

/-- All positions of an array lie below a bound. -/
def Within (n : Nat) (items : Array Nat) : Prop := ∀ i ∈ items, i < n

variable {n : Nat} {items : Array Nat}

lemma within_addNew (ordered : Bool) {j t : Nat} (h : Within n items) (hj : j < n) (ht : t < n) :
    Within n (addNew ordered items j t) := by
  intro i hi
  unfold addNew at hi
  split at hi
  · split at hi
    · unfold Array.insertIdxIfInBounds at hi
      split at hi
      · rcases Array.mem_insertIdx.mp hi with rfl | hi
        · exact hj
        · exact h i hi
      · exact h i hi
    · rcases Array.mem_push.mp hi with hi | rfl
      · exact h i hi
      · exact hj
  · rcases Array.mem_push.mp hi with hi | rfl
    · exact h i hi
    · exact ht

lemma always_floyd (ordered : Bool) {count j : Nat} (h : Within n items) (hj : j + count ≤ n) :
    Always (floyd ordered count j items : Draw γ (Array Nat)) (Within n) := by
  induction count generalizing j items with
  | zero => exact always_pure h
  | succ count ih =>
    refine always_bind (always_below32 (Nat.succ_pos j)) fun t ht => ?_
    exact ih (within_addNew ordered h (by omega) (by omega)) (by omega)

lemma within_swap (h : Within n items) (i j : Nat) : Within n (items.swapIfInBounds i j) := by
  intro k hk
  rw [Array.swapIfInBounds_def] at hk
  split at hk
  · split at hk
    · exact h k ((Array.swap_perm _ _).mem_iff.mp hk)
    · exact h k hk
  · exact h k hk

lemma always_shuffleDown (last : Nat) (h : Within n items) :
    Always (shuffleDown last items : Draw γ (Array Nat)) (Within n) := by
  induction last generalizing items with
  | zero => exact always_pure h
  | succ last ih =>
    refine always_bind (always_below32 (Nat.succ_pos _)) fun t _ => ?_
    exact ih (within_swap h _ _)

lemma always_shuffleUp (count place : Nat) (h : Within n items) :
    Always (shuffleUp count place items : Draw γ (Array Nat)) (Within n) := by
  induction count generalizing place items with
  | zero => exact always_pure h
  | succ count ih =>
    intro s
    exact ih (place + 1) (within_swap h _ _) _

lemma always_drawNew (hn : 0 < n) (count : Nat) (h : Within n items) :
    Always (drawNew n count items : Draw γ (Array Nat)) (Within n) := by
  induction count generalizing items with
  | zero => exact always_pure h
  | succ count ih =>
    have hfresh : ∀ w v, w < 2 ^ 32 →
        ((scaled? 32 n (fullZone 32 n) w).filter fun t => !items.contains t) = some v → v < n := by
      intro w v hw heq
      exact lt_of_scaled? hn hw (Option.eq_some_of_filter_eq_some heq)
    refine always_bind (always_untilSome always_word32 hfresh hn retries) fun t ht => ?_
    refine ih fun i hi => ?_
    rcases Array.mem_push.mp hi with hi | rfl
    · exact h i hi
    · exact ht

/-- Drawn positions lie below the bound. -/
theorem always_indices {k : Nat} (hn : 0 < n) (hk : k ≤ n) :
    Always (indices n k : Draw γ (List Nat)) (∀ i ∈ ·, i < n) := by
  have hnone : Within n #[] := fun i hi => absurd hi (Array.not_mem_empty i)
  unfold indices
  split
  · have hall : Within n (Array.range n) := fun i hi => Array.mem_range.mp hi
    refine always_bind (always_shuffleUp k 0 hall) fun items h => ?_
    exact always_pure fun i hi => h i (Array.mem_toList_iff.mp (List.mem_of_mem_take hi))
  · split
    · refine always_bind (always_floyd _ hnone (by omega)) fun picked h => ?_
      split
      · exact always_pure fun i hi => h i (Array.mem_toList_iff.mp hi)
      · refine always_bind (always_shuffleDown _ h) fun shuffled h => ?_
        exact always_pure fun i hi => h i (Array.mem_toList_iff.mp hi)
    · refine always_bind (always_drawNew hn k hnone) fun picked h => ?_
      exact always_pure fun i hi => h i (Array.mem_toList_iff.mp hi)

end Retrofit.Random

namespace Retrofit

open Retrofit.Random

variable {γ : Type} [Source γ]

lemma winner_lt {size : Nat} (better : Nat → Nat → Bool) {contestants : List Nat}
    (hsize : 0 < size) (h : ∀ i ∈ contestants, i < size) : winner better contestants < size := by
  cases contestants with
  | nil => exact hsize
  | cons first rest =>
    obtain ⟨hfirst, hrest⟩ := List.forall_mem_cons.mp h
    clear h
    change rest.foldl (fun best challenger => if better challenger best then challenger else best)
      first < size
    induction rest generalizing first with
    | nil => exact hfirst
    | cons challenger rest ih =>
      obtain ⟨hchallenger, hrest⟩ := List.forall_mem_cons.mp hrest
      rw [List.foldl_cons]
      split
      · exact ih challenger hchallenger hrest
      · exact ih first hfirst hrest

/-- The winner of a tournament is a member of the population. -/
theorem always_tournament {size : Nat} (k : Nat) (better : Nat → Nat → Bool) (hsize : 0 < size) :
    Always (tournament size k better : Draw γ Nat) (· < size) := by
  unfold tournament
  rw [if_neg (Nat.ne_of_gt hsize)]
  refine always_bind (always_indices hsize (Nat.min_le_right _ _)) fun contestants h => ?_
  exact always_pure (winner_lt better hsize h)

end Retrofit
