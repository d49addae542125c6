import Mathlib.Data.List.Forall2
import Mathlib.Order.Lattice
import Mathlib.Tactic.Lemma

/-!
# Lists that are related one by one, and sorted lists
-/

namespace Retrofit

variable {α β γ : Type} {l : List α} {r : List β}

section

variable {R : α → β → Prop}

lemma exists_of_mem_right {b : β} (h : List.Forall₂ R l r) (hb : b ∈ r) : ∃ a ∈ l, R a b := by
  induction h with
  | nil => cases hb
  | cons hab _ ih =>
    rcases List.mem_cons.mp hb with rfl | hb
    · exact ⟨_, List.mem_cons_self, hab⟩
    · obtain ⟨a, ha, hR⟩ := ih hb
      exact ⟨a, List.mem_cons_of_mem _ ha, hR⟩

lemma exists_of_mem_left {a : α} (h : List.Forall₂ R l r) (ha : a ∈ l) : ∃ b ∈ r, R a b :=
  exists_of_mem_right (List.Forall₂.flip h) ha

lemma exists_forall₂_of_forall (h : ∀ a ∈ l, ∃ b, R a b) : ∃ r, List.Forall₂ R l r := by
  induction l with
  | nil => exact ⟨[], .nil⟩
  | cons a l ih =>
    obtain ⟨b, hb⟩ := h a List.mem_cons_self
    obtain ⟨r, hr⟩ := ih fun a' ha' => h a' (List.mem_cons_of_mem _ ha')
    exact ⟨b :: r, .cons hb hr⟩

lemma rel_head? (h : List.Forall₂ R l r) : Option.Rel R l.head? r.head? := by
  cases h with
  | nil => exact .none
  | cons hab _ => exact .some hab

end

lemma forall₂_true_iff : List.Forall₂ (fun _ _ => True) l r ↔ l.length = r.length :=
  ⟨List.Forall₂.length_eq, fun h => List.forall₂_iff_zip.mpr ⟨h, fun _ => trivial⟩⟩

lemma forall₂_conj {R S : α → β → Prop} (h : List.Forall₂ R l r) (h' : List.Forall₂ S l r) :
    List.Forall₂ (fun a b => R a b ∧ S a b) l r :=
  List.forall₂_iff_zip.mpr
    ⟨h.length_eq, fun hmem => ⟨List.forall₂_zip h hmem, List.forall₂_zip h' hmem⟩⟩

lemma forall₂_of_common {P : α → β → Prop} {Q : α → γ → Prop} {r' : List γ}
    (h : List.Forall₂ P l r) (h' : List.Forall₂ Q l r') :
    List.Forall₂ (fun b b' => ∃ a ∈ l, P a b ∧ Q a b') r r' := by
  induction h generalizing r' with
  | nil =>
    cases h'
    exact .nil
  | cons hab _ ih =>
    cases h' with
    | cons hac hrest =>
      refine .cons ⟨_, List.mem_cons_self, hab, hac⟩ ((ih hrest).imp ?_)
      rintro b b' ⟨a, ha, hrelated⟩
      exact ⟨a, List.mem_cons_of_mem _ ha, hrelated⟩

lemma forall₂_of_forall₂_zip {P : α × γ → β → Prop} {c : List γ} (hlength : c.length = l.length)
    (h : List.Forall₂ P (l.zip c) r) : List.Forall₂ (fun a b => ∃ y, P (a, y) b) l r := by
  induction l generalizing c r with
  | nil =>
    cases h
    exact .nil
  | cons a l ih =>
    cases c with
    | nil => cases hlength
    | cons y c =>
      cases h with
      | cons hab hrest => exact .cons ⟨y, hab⟩ (ih (Nat.succ.inj hlength) hrest)

lemma forall₂_append_left {R : α → β → Prop} {l' : List α} (h : List.Forall₂ R (l ++ l') r) :
    ∃ r₁ r₂, List.Forall₂ R l r₁ ∧ List.Forall₂ R l' r₂ ∧ r = r₁ ++ r₂ :=
  ⟨r.take l.length, r.drop l.length, (List.forall₂_take_append r l l' h.flip).flip,
    (List.forall₂_drop_append r l l' h.flip).flip, (List.take_append_drop _ _).symm⟩

lemma map_eq_map_of_forall₂ {f : α → γ} {g : β → γ} (h : List.Forall₂ (fun a b => f a = g b) l r) :
    l.map f = r.map g := by
  induction h with
  | nil => rfl
  | cons hab _ ih => rw [List.map_cons, List.map_cons, hab, ih]

lemma eq_of_mem_zip_of_nodup {a : α} {b b' : β} (hl : l.Nodup) (h : (a, b) ∈ l.zip r)
    (h' : (a, b') ∈ l.zip r) : b = b' := by
  induction l generalizing r with
  | nil => cases h
  | cons first l ih =>
    obtain ⟨hfirst, hl⟩ := List.nodup_cons.mp hl
    cases r with
    | nil => cases h
    | cons b₀ r =>
      rcases List.mem_cons.mp h with heq | hrest <;>
        rcases List.mem_cons.mp h' with heq' | hrest'
      · cases heq
        cases heq'
        rfl
      · cases heq
        exact absurd (List.of_mem_zip hrest').1 hfirst
      · cases heq'
        exact absurd (List.of_mem_zip hrest).1 hfirst
      · exact ih hl hrest hrest'

/-! ## Sorted lists -/

section Sorting

variable {κ : Type} [LinearOrder κ] (key : α → κ) (l : List α)

lemma pairwise_mergeSort_key :
    (l.mergeSort fun a b => key a ≤ key b).Pairwise fun a b => key a ≤ key b := by
  refine (List.pairwise_mergeSort ?_ ?_ l).imp of_decide_eq_true
  · intro a b c hab hbc
    exact decide_eq_true ((of_decide_eq_true hab).trans (of_decide_eq_true hbc))
  · intro a b
    rw [Bool.or_eq_true, decide_eq_true_eq, decide_eq_true_eq]
    exact le_total _ _

lemma pairwise_mergeSort_key_down :
    (l.mergeSort fun a b => key b ≤ key a).Pairwise fun a b => key b ≤ key a :=
  pairwise_mergeSort_key (fun a => OrderDual.toDual (key a)) l

end Sorting

end Retrofit
