import Retrofit.Proofs.Lists
import Retrofit.Proofs.Random.Bounds
import Retrofit.Proofs.Search.Run
import Retrofit.Search.Genetic

/-!
# Chromosomes that are bred

The random steps of the searches make chromosomes from nothing, children of two parents, and mutated
copies, gene by gene. A property of the values of genes that the steps on single genes keep
(`Gene.Kept`) is kept by all of them. In particular they keep to the number of genes.
-/

namespace Retrofit

open Retrofit.Random

variable {γ α : Type}

section Steps

variable {d : DrawAttempt γ α} {P : α → Prop}

lemma forall_of_returns_several (hd : ∀ s a s', Returns d s a s' → P a) {count : Nat} {s s' : γ}
    {l : List α} (h : Returns (several d count) s l s') : l.length = count ∧ ∀ a ∈ l, P a := by
  induction count generalizing s l with
  | zero =>
    obtain ⟨rfl, rfl⟩ := returns_pure.mp h
    exact ⟨rfl, nofun⟩
  | succ count ih =>
    obtain ⟨first, s₁, hfirst, h⟩ := returns_bind.mp h
    obtain ⟨others, s₂, hothers, h⟩ := returns_bind.mp h
    obtain ⟨rfl, rfl⟩ := returns_pure.mp h
    obtain ⟨hlength, hall⟩ := ih hothers
    refine ⟨congrArg Nat.succ hlength, List.forall_mem_cons.mpr ⟨hd s first s₁ hfirst, hall⟩⟩

lemma of_returns_lift {d : Draw γ α} (hd : Always d P) {s s' : γ} {a : α}
    (h : Returns (liftM d : DrawAttempt γ α) s a s') : P a := by
  have heq := returns_lift.mp h
  have hvalue := hd s
  rwa [heq] at hvalue

end Steps

variable [Source γ]

/-- A property of the values of genes that the random steps on a single gene keep. -/
structure Gene.Kept (γ : Type) [Source γ] (genes : List Gene) (P : Gene → Float → Prop) : Prop where
  sample : ∀ g ∈ genes, ∀ s x s', Returns (g.sample : DrawAttempt γ Float) s x s' → P g x
  blend : ∀ g ∈ genes, ∀ x y, P g x → P g y →
    Always (Chromosome.blend g x y : Draw γ Float) (P g)
  nudge : ∀ g ∈ genes, ∀ rate x s y s', P g x →
    Returns (Chromosome.nudge rate g x : DrawAttempt γ Float) s y s' → P g y

lemma Gene.kept_true (genes : List Gene) : Gene.Kept γ genes fun _ _ => True :=
  ⟨fun _ _ _ _ _ _ => trivial, fun _ _ _ _ _ _ _ => trivial, fun _ _ _ _ _ _ _ _ _ => trivial⟩

lemma Gene.forall₂_true_clip {genes : List Gene} {seed : Chromosome}
    (h : seed.length = genes.length) :
    List.Forall₂ (fun _ _ => True) genes (genes.zipWith Gene.clip seed) := by
  rw [forall₂_true_iff, List.length_zipWith, h, Nat.min_self]

lemma Gene.forall₂_clip {genes : List Gene} {c : Chromosome} {P : Gene → Float → Prop}
    (hclip : ∀ g ∈ genes, ∀ x, P g x → P g (g.clip x)) (h : List.Forall₂ P genes c) :
    List.Forall₂ P genes (genes.zipWith Gene.clip c) := by
  induction h with
  | nil => exact .nil
  | cons hx _ ih =>
    obtain ⟨hfirst, hrest⟩ := List.forall_mem_cons.mp hclip
    exact .cons (hfirst _ hx) (ih hrest)

lemma Gene.Kept.of_cons {gene : Gene} {genes : List Gene} {P : Gene → Float → Prop}
    (h : Gene.Kept γ (gene :: genes) P) : Gene.Kept γ genes P :=
  ⟨fun g hg => h.sample g (List.mem_cons_of_mem _ hg),
    fun g hg => h.blend g (List.mem_cons_of_mem _ hg),
    fun g hg => h.nudge g (List.mem_cons_of_mem _ hg)⟩

namespace Chromosome

variable {genes : List Gene} {P : Gene → Float → Prop}

lemma of_returns_random (hP : Gene.Kept γ genes P) {s s' : γ} {c : Chromosome}
    (h : Returns (random genes) s c s') : List.Forall₂ P genes c :=
  (forall₂_of_returns_mapM (I := fun _ => True)
    (fun g hg s x s' _ hx => ⟨hP.sample g hg s x s' hx, trivial⟩) trivial h).1

lemma always_blendAll (hP : Gene.Kept γ genes P) {x y : Chromosome}
    (hx : List.Forall₂ P genes x) (hy : List.Forall₂ P genes y) :
    Always (blendAll genes x y : Draw γ Chromosome) (List.Forall₂ P genes) := by
  induction genes generalizing x y with
  | nil => exact always_pure .nil
  | cons gene genes ih =>
    cases hx with
    | cons hx hxs =>
      cases hy with
      | cons hy hys =>
        refine always_bind (hP.blend gene List.mem_cons_self _ _ hx hy) fun child hchild => ?_
        refine always_bind (ih hP.of_cons hxs hys) fun rest hrest => ?_
        exact always_pure (.cons hchild hrest)

lemma always_crossover (hP : Gene.Kept γ genes P) (rate : Float) {x y : Chromosome}
    (hx : List.Forall₂ P genes x) (hy : List.Forall₂ P genes y) :
    Always (crossover genes rate x y : Draw γ Chromosome) (List.Forall₂ P genes) := by
  refine always_bind (P := fun _ => True) (fun _ => trivial) fun mixed _ => ?_
  split
  · exact always_blendAll hP hx hy
  · exact always_pure hx

lemma of_returns_mutate (hP : Gene.Kept γ genes P) {rate : Float} {x c : Chromosome} {s s' : γ}
    (hx : List.Forall₂ P genes x) (h : Returns (mutate rate genes x) s c s') :
    List.Forall₂ P genes c := by
  induction genes generalizing x c s with
  | nil =>
    obtain ⟨rfl, rfl⟩ := returns_pure.mp h
    exact hx
  | cons gene genes ih =>
    cases hx with
    | cons hx hxs =>
      obtain ⟨value, s₁, hvalue, h⟩ := returns_bind.mp h
      obtain ⟨rest, s₂, hrest, h⟩ := returns_bind.mp h
      obtain ⟨rfl, rfl⟩ := returns_pure.mp h
      exact .cons (hP.nudge gene List.mem_cons_self rate _ s value s₁ hx hvalue)
        (ih hP.of_cons hxs hrest)

/-- The child of two winners of tournaments has the property if all members have it. -/
lemma of_returns_child (hP : Gene.Kept γ genes P) {size k : Nat} {better : Nat → Nat → Bool}
    {parent : Nat → Chromosome} {crossoverRate mutationRate : Float}
    {c : Chromosome} {s s' : γ} (hsize : 0 < size)
    (hparent : ∀ i < size, List.Forall₂ P genes (parent i))
    (h : Returns (do
      let first ← (liftM (tournament size k better : Draw γ Nat) : DrawAttempt γ Nat)
      let second ← (liftM (tournament size k better : Draw γ Nat) : DrawAttempt γ Nat)
      let mixed ← (liftM (crossover genes crossoverRate (parent first) (parent second) :
        Draw γ Chromosome) : DrawAttempt γ Chromosome)
      mutate mutationRate genes mixed) s c s') : List.Forall₂ P genes c := by
  obtain ⟨first, s₁, hfirst, h⟩ := returns_bind.mp h
  obtain ⟨second, s₂, hsecond, h⟩ := returns_bind.mp h
  obtain ⟨mixed, s₃, hmixed, h⟩ := returns_bind.mp h
  have hfirst := hparent first (of_returns_lift (always_tournament k better hsize) hfirst)
  have hsecond := hparent second (of_returns_lift (always_tournament k better hsize) hsecond)
  exact of_returns_mutate hP (of_returns_lift (always_crossover hP _ hfirst hsecond) hmixed) h

end Chromosome

namespace Nsga2

variable {settings : Settings} {genes : List Gene} {P : Gene → Float → Prop} {s s' : γ}
  {chromosomes : List Chromosome}

lemma of_returns_firstBrood (hP : Gene.Kept γ genes P) {seeds : List Chromosome}
    (hseeds : ∀ seed ∈ seeds, seed.length = genes.length →
      List.Forall₂ P genes (genes.zipWith Gene.clip seed))
    (h : Returns (firstBrood settings genes seeds) s chromosomes s') :
    chromosomes.length = settings.populationSize ∧
      ∀ c ∈ chromosomes, List.Forall₂ P genes c := by
  obtain ⟨others, s₁, hothers, h⟩ := returns_bind.mp h
  obtain ⟨rfl, rfl⟩ := returns_pure.mp h
  obtain ⟨hcount, hrandom⟩ :=
    forall_of_returns_several (fun _ _ _ => Chromosome.of_returns_random hP) hothers
  refine ⟨?_, fun c hc => ?_⟩
  · rw [List.length_append, hcount, List.length_take]
    omega
  · rcases List.mem_append.mp hc with hc | hc
    · obtain ⟨seed, hseed, rfl⟩ := List.mem_map.mp (List.mem_of_mem_take hc)
      obtain ⟨hmem, hlength⟩ := List.mem_filter.mp hseed
      exact hseeds seed hmem (of_decide_eq_true hlength)
    · exact hrandom c hc

lemma of_returns_brood (hP : Gene.Kept γ genes P) {population : List Member}
    (hne : population ≠ []) (hpopulation : ∀ m ∈ population, List.Forall₂ P genes m.chromosome)
    (h : Returns (brood settings genes population) s chromosomes s') :
    chromosomes.length = settings.populationSize ∧
      ∀ c ∈ chromosomes, List.Forall₂ P genes c := by
  have hsize : 0 < population.toArray.size := List.length_pos_iff.mpr hne
  refine forall_of_returns_several (fun s c s' hc => ?_) h
  refine Chromosome.of_returns_child hP hsize (fun i hi => ?_) hc
  rw [Array.getElem?_eq_getElem hi]
  exact hpopulation _ (List.getElem_mem _)

end Nsga2

namespace Genetic

variable {settings : Settings} {genes : List Gene} {P : Gene → Float → Prop} {s s' : γ}
  {chromosomes : List Chromosome}

lemma of_returns_firstBrood (hP : Gene.Kept γ genes P) {seeds : List Chromosome}
    (hseeds : ∀ seed ∈ seeds, List.Forall₂ P genes seed)
    (h : Returns (firstBrood settings genes seeds) s chromosomes s') :
    chromosomes.length = settings.populationSize ∧
      ∀ c ∈ chromosomes, List.Forall₂ P genes c := by
  obtain ⟨others, s₁, hothers, h⟩ := returns_bind.mp h
  obtain ⟨rfl, rfl⟩ := returns_pure.mp h
  obtain ⟨hcount, hrandom⟩ :=
    forall_of_returns_several (fun _ _ _ => Chromosome.of_returns_random hP) hothers
  refine ⟨?_, fun c hc => ?_⟩
  · rw [List.length_append, hcount, List.length_take]
    omega
  · rcases List.mem_append.mp hc with hc | hc
    · exact hseeds c (List.mem_of_mem_take hc)
    · exact hrandom c hc

/-- The children of a population fill the places that the elite leaves. -/
lemma of_returns_brood (hP : Gene.Kept γ genes P) {population : List Individual}
    (hne : population ≠ []) (hpopulation : ∀ i ∈ population, List.Forall₂ P genes i.chromosome)
    (h : Returns (brood settings genes population) s chromosomes s') :
    chromosomes.length = settings.populationSize - settings.eliteCount ∧
      ∀ c ∈ chromosomes, List.Forall₂ P genes c := by
  have hsize : 0 < population.toArray.size := List.length_pos_iff.mpr hne
  refine forall_of_returns_several (fun s c s' hc => ?_) h
  refine Chromosome.of_returns_child hP hsize (fun i hi => ?_) hc
  rw [Array.getElem?_eq_getElem hi]
  exact hpopulation _ (List.getElem_mem _)

end Genetic

end Retrofit
