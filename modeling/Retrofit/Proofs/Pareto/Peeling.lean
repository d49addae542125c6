import Mathlib.Data.List.Chain
import Mathlib.Data.List.Nodup
import Mathlib.Order.Bounds.Basic
import Retrofit.Proofs.Pareto.Front

/-!
# Fronts are levels of beating

Peeling puts every candidate into one front, whoever beats whom (`perm_flatten_peel`), and a member
of the front at place `r` ends a chain of `r` candidates that beat one another in turn
(`exists_chainTo`). Under an order in which every choice of candidates has an unbeaten one
(`Grounded`) no longer chain ends there, so the place of a candidate's front is the length of the
longest chain below it (`mem_peel_iff`). Among defined candidates `Judgement.beats` is such an order
(`peels_by_longest_chain`).
-/

namespace Retrofit

variable {ι κ : Type} {beats : ι → ι → Bool} {candidates : List ι}

/-! ## Rounds of peeling -/

lemma outdone_sublist : (outdone beats candidates).Sublist candidates := List.filter_sublist

@[simp] lemma peel_nil : peel beats [] = [] := by
  rw [peel, List.isEmpty_nil, if_pos rfl]

/-- If nobody is unbeaten, all that are left make up one front. -/
lemma peel_last (hne : candidates ≠ []) (hnone : unbeaten beats candidates = []) :
    peel beats candidates = [candidates] := by
  rw [peel, if_neg (mt List.isEmpty_iff.mp hne), if_pos (List.isEmpty_iff.mpr hnone)]

lemma peel_round (hfree : unbeaten beats candidates ≠ []) :
    peel beats candidates = unbeaten beats candidates :: peel beats (outdone beats candidates) := by
  have hne : candidates ≠ [] := by
    rintro rfl
    exact hfree rfl
  rw [peel, if_neg (mt List.isEmpty_iff.mp hne), if_neg (mt List.isEmpty_iff.mp hfree)]

/-- Induction on the rounds: the candidates run out, nobody is unbeaten, or the unbeaten ones leave
and the others go on. -/
@[elab_as_elim]
theorem peel_induction (beats : ι → ι → Bool) {motive : List ι → Prop} (nil : motive [])
    (last : ∀ candidates, candidates ≠ [] → unbeaten beats candidates = [] → motive candidates)
    (round : ∀ candidates, unbeaten beats candidates ≠ [] →
      motive (outdone beats candidates) → motive candidates) (candidates : List ι) :
    motive candidates := by
  induction candidates using peel.induct beats with
  | case1 candidates hempty => exact List.isEmpty_iff.mp hempty ▸ nil
  | case2 candidates hempty hnone =>
    exact last candidates (mt List.isEmpty_iff.mpr hempty) (List.isEmpty_iff.mp hnone)
  | case3 candidates _ hfree ih => exact round candidates (mt List.isEmpty_iff.mpr hfree) ih

lemma ne_nil_of_mem_peel {front : List ι} (h : front ∈ peel beats candidates) : front ≠ [] := by
  induction candidates using peel_induction beats with
  | nil => exact absurd (peel_nil ▸ h) List.not_mem_nil
  | last candidates hne hnone =>
    rw [peel_last hne hnone] at h
    rwa [List.mem_singleton.mp h]
  | round candidates hfree ih =>
    rw [peel_round hfree] at h
    rcases List.mem_cons.mp h with rfl | h
    · exact hfree
    · exact ih h

/-- Candidates keep their order within a front. -/
lemma sublist_of_mem_peel {front : List ι} (h : front ∈ peel beats candidates) :
    front.Sublist candidates := by
  induction candidates using peel_induction beats with
  | nil => exact absurd (peel_nil ▸ h) List.not_mem_nil
  | last candidates hne hnone =>
    rw [peel_last hne hnone] at h
    rw [List.mem_singleton.mp h]
  | round candidates hfree ih =>
    rw [peel_round hfree] at h
    rcases List.mem_cons.mp h with rfl | h
    · exact List.filter_sublist
    · exact (ih h).trans outdone_sublist

/-- Every candidate is in one front. -/
theorem perm_flatten_peel (beats : ι → ι → Bool) (candidates : List ι) :
    (peel beats candidates).flatten.Perm candidates := by
  induction candidates using peel_induction beats with
  | nil => rw [peel_nil, List.flatten_nil]
  | last candidates hne hnone => rw [peel_last hne hnone, List.flatten_singleton]
  | round candidates hfree ih =>
    rw [peel_round hfree, List.flatten_cons]
    refine (ih.append_left _).trans (List.perm_append_comm.trans ?_)
    exact List.filter_append_perm (beaten beats candidates) candidates

lemma length_peel_le (beats : ι → ι → Bool) (candidates : List ι) :
    (peel beats candidates).length ≤ candidates.length := by
  induction candidates using peel_induction beats with
  | nil => exact Nat.le_of_eq (congrArg List.length peel_nil)
  | last candidates hne hnone =>
    rw [peel_last hne hnone]
    exact List.length_pos_iff.mpr hne
  | round candidates hfree ih =>
    rw [peel_round hfree, List.length_cons]
    have hlt := length_outdone_lt (mt List.isEmpty_iff.mp hfree)
    omega

lemma perm_flatten_fronts (judge : ι → Judgement) (items : List ι) :
    (fronts judge items).flatten.Perm items := by
  unfold fronts
  rw [← List.map_flatten]
  refine ((perm_flatten_peel _ _).map Prod.fst).trans ?_
  rw [List.map_map]
  exact List.map_id _ ▸ .refl _

lemma mem_of_mem_fronts {judge : ι → Judgement} {items front : List ι} {x : ι}
    (hfront : front ∈ fronts judge items) (hx : x ∈ front) : x ∈ items :=
  (perm_flatten_fronts judge items).subset (List.mem_flatten.mpr ⟨front, hfront, hx⟩)

lemma exists_fronts_eq_cons (judge : ι → Judgement) {items : List ι} (h : items ≠ []) :
    ∃ rest, fronts judge items = firstFront judge items :: rest := by
  have hhead := head?_fronts judge items
  rw [List.isEmpty_eq_false_iff.mpr h, if_neg (by decide)] at hhead
  cases hfronts : fronts judge items with
  | nil =>
    rw [hfronts] at hhead
    cases hhead
  | cons front rest =>
    rw [hfronts] at hhead
    exact ⟨rest, by rw [Option.some.inj hhead]⟩

/-- Peeling looks at nothing but who beats whom. -/
lemma peel_congr {beats' : ι → ι → Bool}
    (h : ∀ x ∈ candidates, ∀ y ∈ candidates, beats x y = beats' x y) :
    peel beats candidates = peel beats' candidates := by
  have hbeaten : ∀ {rest : List ι}, (∀ x ∈ rest, ∀ y ∈ rest, beats x y = beats' x y) →
      ∀ x ∈ rest, beaten beats rest x = beaten beats' rest x := by
    intro rest h x hx
    unfold beaten
    rw [Bool.eq_iff_iff, List.any_eq_true, List.any_eq_true]
    exact exists_congr fun y => and_congr_right fun hy => by rw [h y hy x hx]
  have hunbeaten : ∀ {rest : List ι}, (∀ x ∈ rest, ∀ y ∈ rest, beats x y = beats' x y) →
      unbeaten beats rest = unbeaten beats' rest := fun h =>
    List.filter_congr fun x hx => by rw [hbeaten h x hx]
  induction candidates using peel_induction beats with
  | nil => rw [peel_nil, peel_nil]
  | last candidates hne hnone =>
    rw [peel_last hne hnone, peel_last hne (hunbeaten h ▸ hnone)]
  | round candidates hfree ih =>
    have houtdone : outdone beats candidates = outdone beats' candidates :=
      List.filter_congr (hbeaten h)
    have hfree' : unbeaten beats' candidates ≠ [] := hunbeaten h ▸ hfree
    rw [peel_round hfree, peel_round hfree', ← hunbeaten h, ← houtdone,
      ih fun x hx y hy => h x (outdone_sublist.subset hx) y (outdone_sublist.subset hy)]

lemma peel_map (beats : ι → ι → Bool) (f : κ → ι) (l : List κ) :
    peel beats (l.map f) = (peel (fun a b => beats (f a) (f b)) l).map (·.map f) := by
  have hunbeaten : ∀ l : List κ, unbeaten beats (l.map f) =
      (unbeaten (fun a b => beats (f a) (f b)) l).map f := by
    intro l
    unfold unbeaten beaten
    simp only [List.filter_map, List.any_map, Function.comp_def]
  have houtdone : ∀ l : List κ, outdone beats (l.map f) =
      (outdone (fun a b => beats (f a) (f b)) l).map f := by
    intro l
    unfold outdone beaten
    simp only [List.filter_map, List.any_map, Function.comp_def]
  induction l using peel_induction (fun a b => beats (f a) (f b)) with
  | nil => rw [List.map_nil, peel_nil, peel_nil, List.map_nil]
  | last l hne hnone =>
    have hnone' : unbeaten beats (l.map f) = [] := by rw [hunbeaten, hnone, List.map_nil]
    rw [peel_last hne hnone, peel_last (mt List.map_eq_nil_iff.mp hne) hnone', List.map_singleton]
  | round l hfree ih =>
    have hfree' : unbeaten beats (l.map f) ≠ [] := by
      rw [hunbeaten]
      exact mt List.map_eq_nil_iff.mp hfree
    rw [peel_round hfree, peel_round hfree', List.map_cons, ← ih, hunbeaten, houtdone]

/-! ## Chains -/

/-- Candidates that beat one another in turn, `x` after the last of them. -/
structure ChainTo (beats : ι → ι → Bool) (candidates : List ι) (x : ι) (chain : List ι) :
    Prop where
  subset : chain ++ [x] ⊆ candidates
  isChain : (chain ++ [x]).IsChain fun y z => beats y z

variable {x : ι} {chain : List ι}

lemma chainTo_nil (hx : x ∈ candidates) : ChainTo beats candidates x [] :=
  ⟨List.cons_subset.mpr ⟨hx, List.nil_subset _⟩, List.isChain_singleton x⟩

lemma ChainTo.mem (h : ChainTo beats candidates x chain) : x ∈ candidates :=
  h.subset (List.mem_append_right _ (List.mem_singleton_self x))

lemma mem_outdone {x : ι} :
    x ∈ outdone beats candidates ↔ x ∈ candidates ∧ ∃ y ∈ candidates, beats y x := by
  unfold outdone beaten
  rw [List.mem_filter, List.any_eq_true]

/-- A chain of beaten candidates has room for one more at its beginning. -/
lemma ChainTo.exists_cons (h : ChainTo beats (outdone beats candidates) x chain) :
    ∃ y, ChainTo beats candidates x (y :: chain) := by
  obtain ⟨first, rest, heq⟩ := List.exists_cons_of_ne_nil (List.concat_ne_nil x chain)
  have hfirst : first ∈ outdone beats candidates := h.subset (heq ▸ List.mem_cons_self)
  obtain ⟨-, y, hy, hbeats⟩ := mem_outdone.mp hfirst
  refine ⟨y, List.cons_subset.mpr ⟨hy, fun z hz => (mem_outdone.mp (h.subset hz)).1⟩, ?_⟩
  have hchain := h.isChain
  rw [List.cons_append]
  rw [heq] at hchain ⊢
  exact List.isChain_cons_cons.mpr ⟨hbeats, hchain⟩

/-- Without its first candidate a chain consists of beaten ones. -/
lemma ChainTo.outdone_of_cons {y : ι} (h : ChainTo beats candidates x (y :: chain)) :
    ChainTo beats (outdone beats candidates) x chain := by
  have houtdone : ∀ {l : List ι} {y : ι}, y :: l ⊆ candidates →
      (y :: l).IsChain (fun y z => beats y z) → l ⊆ outdone beats candidates := by
    intro l
    induction l with
    | nil => exact fun _ _ => List.nil_subset _
    | cons z l ih =>
      intro y hsubset hchain
      obtain ⟨hy, hsubset⟩ := List.cons_subset.mp hsubset
      obtain ⟨hbeats, hchain⟩ := List.isChain_cons_cons.mp hchain
      have hz := hsubset List.mem_cons_self
      exact List.cons_subset.mpr ⟨mem_outdone.mpr ⟨hz, y, hy, hbeats⟩, ih hsubset hchain⟩
  exact ⟨houtdone h.subset h.isChain, h.isChain.tail⟩

lemma mem_peel_getD {r : Nat} (hx : x ∈ (peel beats candidates).getD r []) : x ∈ candidates := by
  rw [List.getD_eq_getElem?_getD] at hx
  cases hfront : (peel beats candidates)[r]? with
  | none =>
    rw [hfront] at hx
    cases hx
  | some front =>
    rw [hfront] at hx
    exact (sublist_of_mem_peel (List.mem_of_getElem? hfront)).subset hx

/-- A member of the front at place `r` ends a chain of `r` candidates. -/
theorem exists_chainTo {r : Nat} (hx : x ∈ (peel beats candidates).getD r []) :
    ∃ chain, ChainTo beats candidates x chain ∧ chain.length = r := by
  have hmem := mem_peel_getD hx
  induction candidates using peel_induction beats generalizing r with
  | nil => cases hmem
  | last candidates hne hnone =>
    rw [peel_last hne hnone] at hx
    cases r with
    | zero => exact ⟨[], chainTo_nil hmem, rfl⟩
    | succ r => cases hx
  | round candidates hfree ih =>
    rw [peel_round hfree] at hx
    cases r with
    | zero => exact ⟨[], chainTo_nil hmem, rfl⟩
    | succ r =>
      rw [List.getD_cons_succ] at hx
      obtain ⟨chain, hchain, hlength⟩ := ih hx (mem_peel_getD hx)
      obtain ⟨y, hlonger⟩ := hchain.exists_cons
      exact ⟨y :: chain, hlonger, congrArg Nat.succ hlength⟩

/-! ## Orders without cycles -/

/-- Whatever candidates are left, one of them is unbeaten. -/
def Grounded (beats : ι → ι → Bool) (candidates : List ι) : Prop :=
  ∀ rest ⊆ candidates, rest ≠ [] → unbeaten beats rest ≠ []

lemma grounded_of_strict (irrefl : ∀ x ∈ candidates, ¬ beats x x)
    (trans : ∀ x ∈ candidates, ∀ y ∈ candidates, ∀ z ∈ candidates,
      beats x y → beats y z → beats x z) : Grounded beats candidates := by
  intro rest hrest hne
  obtain ⟨x, hx⟩ := List.exists_mem_of_ne_nil rest hne
  obtain ⟨y, hy, -⟩ := exists_unbeaten (fun x hx => irrefl x (hrest hx))
    (fun x hx y hy z hz => trans x (hrest hx) y (hrest hy) z (hrest hz)) hx
  exact List.ne_nil_of_mem hy

lemma Grounded.outdone (h : Grounded beats candidates) :
    Grounded beats (outdone beats candidates) :=
  fun rest hrest => h rest (List.Subset.trans hrest outdone_sublist.subset)

/-- No chain to a member of the front at place `r` is longer than `r`. -/
theorem ChainTo.length_le (hground : Grounded beats candidates) {r : Nat}
    (hx : x ∈ (peel beats candidates).getD r []) (h : ChainTo beats candidates x chain) :
    chain.length ≤ r := by
  induction candidates using peel_induction beats generalizing r chain with
  | nil => cases h.mem
  | last candidates hne hnone => exact absurd hnone (hground candidates (List.Subset.refl _) hne)
  | round candidates hfree ih =>
    rw [peel_round hfree] at hx
    cases chain with
    | nil => exact Nat.zero_le r
    | cons y chain =>
      have hrest := h.outdone_of_cons
      cases r with
      | zero =>
        obtain ⟨-, z, hz, hbeats⟩ := mem_outdone.mp hrest.mem
        exact absurd hbeats ((mem_unbeaten.mp hx).2 z hz)
      | succ r =>
        rw [List.getD_cons_succ] at hx
        exact Nat.succ_le_succ (ih hground.outdone hx hrest)

lemma exists_front (beats : ι → ι → Bool) (hx : x ∈ candidates) :
    ∃ r, x ∈ (peel beats candidates).getD r [] := by
  have hflat := (perm_flatten_peel beats candidates).mem_iff.mpr hx
  obtain ⟨front, hfront, hx⟩ := List.mem_flatten.mp hflat
  obtain ⟨r, hr⟩ := List.mem_iff_getElem?.mp hfront
  refine ⟨r, ?_⟩
  rw [List.getD_eq_getElem?_getD, hr]
  exact hx

/-- The place of a candidate's front is the length of the longest chain that ends in the
candidate. -/
theorem mem_peel_iff (hground : Grounded beats candidates) {r : Nat} :
    x ∈ (peel beats candidates).getD r [] ↔
      IsGreatest {k | ∃ chain, ChainTo beats candidates x chain ∧ chain.length = k} r := by
  have hgreatest : ∀ {r}, x ∈ (peel beats candidates).getD r [] →
      IsGreatest {k | ∃ chain, ChainTo beats candidates x chain ∧ chain.length = k} r := by
    intro r hx
    refine ⟨exists_chainTo hx, ?_⟩
    rintro _ ⟨chain, hchain, rfl⟩
    exact hchain.length_le hground hx
  constructor
  · exact hgreatest
  · intro hr
    obtain ⟨chain, hchain, -⟩ := hr.1
    obtain ⟨r', hr'⟩ := exists_front beats hchain.mem
    rwa [hr.unique (hgreatest hr')]

/-- Whoever beats a candidate is in an earlier front. -/
lemma lt_of_beats (hground : Grounded beats candidates) {r s : Nat} {y : ι}
    (hx : x ∈ (peel beats candidates).getD r []) (hy : y ∈ (peel beats candidates).getD s [])
    (hbeats : beats y x) : s < r := by
  obtain ⟨chain, hchain, rfl⟩ := exists_chainTo hy
  have hlonger : ChainTo beats candidates x (chain ++ [y]) := by
    refine ⟨List.append_subset.mpr ⟨hchain.subset, ?_⟩, ?_⟩
    · exact List.cons_subset.mpr ⟨mem_peel_getD hx, List.nil_subset _⟩
    · rw [List.append_assoc, List.singleton_append, List.isChain_append_cons_cons]
      exact ⟨hchain.isChain, hbeats, List.isChain_singleton x⟩
  have hle := hlonger.length_le hground hx
  rw [List.length_append, List.length_singleton] at hle
  exact hle

/-- A candidate beyond the first front is beaten by one of the front before its own. -/
lemma exists_beats_of_mem_succ (hground : Grounded beats candidates) {r : Nat}
    (hx : x ∈ (peel beats candidates).getD (r + 1) []) :
    ∃ y ∈ (peel beats candidates).getD r [], beats y x := by
  obtain ⟨chain, hchain, hlength⟩ := exists_chainTo hx
  obtain ⟨chain, y, rfl⟩ := List.eq_nil_or_concat' chain |>.resolve_left
    (List.ne_nil_of_length_eq_add_one hlength)
  rw [List.length_append, List.length_singleton] at hlength
  have hisChain := hchain.isChain
  rw [List.append_assoc, List.singleton_append, List.isChain_append_cons_cons] at hisChain
  obtain ⟨hinit, hbeats, -⟩ := hisChain
  have hy : ChainTo beats candidates y chain :=
    ⟨(List.append_subset.mp hchain.subset).1, hinit⟩
  obtain ⟨s, hs⟩ := exists_front beats hy.mem
  have hle := hy.length_le hground hs
  have hlt := lt_of_beats hground hx hs hbeats
  have heq : s = r := by omega
  exact ⟨y, heq ▸ hs, hbeats⟩

/-- The candidates that are left before a round of the peeling in which the unbeaten ones leave. -/
inductive Remaining (beats : ι → ι → Bool) (candidates : List ι) : List ι → Prop
  | start : Remaining beats candidates candidates
  | round {rest : List ι} : Remaining beats candidates rest → unbeaten beats rest ≠ [] →
      Remaining beats candidates (outdone beats rest)

lemma Remaining.subset {rest : List ι} (h : Remaining beats candidates rest) :
    rest ⊆ candidates := by
  induction h with
  | start => exact List.Subset.refl _
  | round _ _ ih => exact List.Subset.trans outdone_sublist.subset ih

/-! ## Fronts of defined candidates -/

/-- Whether the candidate at one place beats the one at another. -/
def beatsAt (candidates : List Judgement) (i j : Nat) : Bool :=
  match candidates[i]?, candidates[j]? with
  | some a, some b => a.beats b
  | _, _ => false

lemma beatsAt_iff {candidates : List Judgement} {i j : Nat} : beatsAt candidates i j ↔
    ∃ a b, candidates[i]? = some a ∧ candidates[j]? = some b ∧ a.beats b := by
  unfold beatsAt
  cases candidates[i]? <;> cases candidates[j]? <;> simp

lemma frontPlaces_eq_peel (candidates : List Judgement) :
    frontPlaces candidates = peel (beatsAt candidates) (List.range candidates.length) := by
  have hat : ∀ a ∈ candidates.zipIdx, ∀ b ∈ candidates.zipIdx,
      a.1.beats b.1 = beatsAt candidates a.2 b.2 := by
    intro a ha b hb
    unfold beatsAt
    rw [List.mem_zipIdx_iff_getElem?.mp ha, List.mem_zipIdx_iff_getElem?.mp hb]
  calc frontPlaces candidates
    _ = (peel (fun a b => a.1.beats b.1) candidates.zipIdx).map (·.map Prod.snd) := by
      unfold frontPlaces fronts
      rw [peel_map (fun a b : (Judgement × Nat) × Judgement => a.2.beats b.2) fun e => (e, e.1)]
      simp only [List.map_map, Function.comp_def, List.map_id']
    _ = (peel (fun a b => beatsAt candidates a.2 b.2) candidates.zipIdx).map
        (·.map Prod.snd) := by rw [peel_congr hat]
    _ = peel (beatsAt candidates) (candidates.zipIdx.map Prod.snd) := (peel_map _ _ _).symm
    _ = peel (beatsAt candidates) (List.range candidates.length) := by
      rw [List.zipIdx_map_snd, ← List.range_eq_range']

/-- The fronts of items hold what is at the places of the fronts of their judgements. -/
theorem fronts_eq_map_frontPlaces (judge : ι → Judgement) (items : List ι) :
    fronts judge items =
      (frontPlaces (items.map judge)).map fun front => front.filterMap (items[·]?) := by
  let indexed := peel (fun a b => (judge a.1).beats (judge b.1)) items.zipIdx
  have hfronts : fronts judge items = indexed.map (·.map Prod.fst) := by
    have hitems : items.map (fun x => (x, judge x)) =
        items.zipIdx.map fun e => (e.1, judge e.1) := by
      conv_lhs => rw [← List.zipIdx_map_fst 0 items, List.map_map]
      rfl
    unfold fronts
    rw [hitems, peel_map (fun a b : ι × Judgement => a.2.beats b.2)
      fun e : ι × Nat => (e.1, judge e.1), List.map_map]
    refine List.map_congr_left fun front _ => ?_
    exact List.map_map
  have hplaces : frontPlaces (items.map judge) = indexed.map (·.map Prod.snd) := by
    unfold frontPlaces fronts
    rw [List.zipIdx_map, peel_map (fun a b : (Judgement × Nat) × Judgement => a.2.beats b.2)
      fun e => (e, e.1), peel_map (fun a b : Judgement × Nat => a.1.beats b.1)]
    simp only [List.map_map, Function.comp_def]
    rfl
  rw [hfronts, hplaces, List.map_map]
  refine List.map_congr_left fun front hfront => ?_
  have hmem : ∀ e ∈ front, items[e.2]? = some e.1 := fun e he =>
    List.mem_zipIdx_iff_getElem?.mp ((sublist_of_mem_peel hfront).subset he)
  rw [Function.comp_apply, List.filterMap_map, ← List.filterMap_eq_map]
  exact (List.filterMap_congr hmem).symm

lemma grounded_beatsAt {candidates : List Judgement} {n : Nat}
    (defined : ∀ c ∈ candidates, c.Defined n) :
    Grounded (beatsAt candidates) (List.range candidates.length) := by
  have hdefined : ∀ {i : Nat} {a : Judgement}, candidates[i]? = some a → a.Defined n :=
    fun h => defined _ (List.mem_of_getElem? h)
  apply grounded_of_strict
  · intro i _ h
    obtain ⟨a, b, ha, hb, hbeats⟩ := beatsAt_iff.mp h
    rw [ha, Option.some.injEq] at hb
    subst hb
    exact Judgement.not_beats_self a hbeats
  · intro i _ j _ k _ hij hjk
    obtain ⟨a, b, ha, hb, hab⟩ := beatsAt_iff.mp hij
    obtain ⟨b', c, hb', hc, hbc⟩ := beatsAt_iff.mp hjk
    rw [hb, Option.some.injEq] at hb'
    subst hb'
    exact beatsAt_iff.mpr ⟨a, c, ha, hc,
      Judgement.beats_trans (hdefined ha) (hdefined hb) (hdefined hc) hab hbc⟩

/-- Peeling ends after at most as many rounds as there are candidates; its fronts are not empty,
ascend, and hold every place once, also where numbers are undefined. Among defined candidates the
front of a place is the length of the longest chain of candidates that beat one another and the last
of which beats the one at this place. So nobody is beaten from the own front or a later one,
everybody beyond the first front is beaten from the front before, and no round finds all that are
left beaten. -/
theorem peels_by_longest_chain (candidates : List Judgement) :
    let places := List.range candidates.length
    let found := frontPlaces candidates
    found.length ≤ candidates.length ∧
    (∀ front ∈ found, front ≠ [] ∧ front.Pairwise (· < ·)) ∧
    found.flatten.Perm places ∧
    ∀ n, (∀ c ∈ candidates, c.Defined n) →
      (∀ i r, i ∈ found.getD r [] ↔ IsGreatest
        {k | ∃ chain, ChainTo (beatsAt candidates) places i chain ∧ chain.length = k} r) ∧
      (∀ r s i j, i ∈ found.getD r [] → j ∈ found.getD s [] → beatsAt candidates j i → s < r) ∧
      (∀ r i, i ∈ found.getD (r + 1) [] → ∃ j ∈ found.getD r [], beatsAt candidates j i) ∧
      ∀ rest, Remaining (beatsAt candidates) places rest → rest ≠ [] →
        unbeaten (beatsAt candidates) rest ≠ [] := by
  dsimp only
  rw [frontPlaces_eq_peel]
  refine ⟨?_, fun front hfront => ⟨ne_nil_of_mem_peel hfront, ?_⟩, perm_flatten_peel _ _,
    fun n defined => ?_⟩
  · exact (length_peel_le _ _).trans_eq List.length_range
  · exact List.pairwise_lt_range.sublist (sublist_of_mem_peel hfront)
  · have hground := grounded_beatsAt defined
    exact ⟨fun i r => mem_peel_iff hground, fun r s i j => lt_of_beats hground,
      fun r i => exists_beats_of_mem_succ hground, fun rest hrest => hground rest hrest.subset⟩

/-- Costs of a terrace in pounds and tonnes. The last candidate is the best on both and violates a
constraint. -/
def terraceCandidates : List Judgement :=
  [⟨[.number 1.0, .number 5.0], 0.0⟩, ⟨[.number 5.0, .number 1.0], 0.0⟩,
    ⟨[.number 4.0, .number 4.0], 0.0⟩, ⟨[.number 6.0, .number 6.0], 0.0⟩,
    ⟨[.number 0.0, .number 0.0], 1.0⟩]

theorem peels_by_longest_chain_terrace :
    (∀ c ∈ terraceCandidates, c.Defined 2) ∧
    frontPlaces terraceCandidates = [[0, 1, 2], [3], [4]] ∧
    IsGreatest {k | ∃ chain, ChainTo (beatsAt terraceCandidates) (List.range 5) 4 chain ∧
      chain.length = k} 2 := by
  have hdefined : ∀ c ∈ terraceCandidates, c.Defined 2 := by decide +kernel
  have hfronts : frontPlaces terraceCandidates = [[0, 1, 2], [3], [4]] := by decide +kernel
  obtain ⟨-, -, -, hlevels⟩ := peels_by_longest_chain terraceCandidates
  refine ⟨hdefined, hfronts, ((hlevels 2 hdefined).1 4 2).mp ?_⟩
  rw [hfronts]
  decide

end Retrofit
