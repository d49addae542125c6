import Mathlib.Algebra.GroupWithZero.Nat
import Retrofit.Proofs.Number.Whole
import Retrofit.Proofs.Space.Layout
import Retrofit.Search.Grid

/-!
# Discrete search spaces

In a search space without continuous genes a chromosome may hold any numbers, but what it is decoded
to depends on the clipped values alone, and these are the values of the axes of the grid. So every
chromosome is decoded like some point of the grid (`exists_mem_allPoints_decode`).
-/

namespace Retrofit

open Number

/-! ## Clipping to whole numbers -/

namespace Gene

lemma clip_integer (n : Nat) (x : Float) :
    (integer 0 n).clip x = clamp (round x) 0.0 (ofInt n) := rfl

lemma clip_of_not_isNumber {n : Nat} {x : Float} (hx : ¬ IsNumber x) :
    ¬ IsNumber ((integer 0 n).clip x) := by
  have hround := not_isNumber_round hx
  rw [clip_integer]
  unfold clamp
  dsimp only
  rw [if_neg (not_lt_of_not_isNumber (Or.inl hround)),
    if_neg (not_lt_of_not_isNumber (Or.inr hround))]
  exact hround

/-- A clipped number is the upper bound, or a whole number not above it. -/
lemma clip_of_isNumber {n : Nat} {x : Float} (hx : IsNumber x) :
    IsNumber ((integer 0 n).clip x) ∧
      units ((integer 0 n).clip x) = min (max (units (round x)) 0) (units (ofInt n)) := by
  obtain ⟨hround, -⟩ := round_whole hx
  have hupper := (faithful_ofInt n).isNumber
  have hnonneg := units_ofInt_nonneg n
  rw [clip_integer]
  unfold clamp
  dsimp only
  by_cases hlow : round x < 0.0
  · have hneg := (lt_iff_units hround isNumber_zero).mp hlow
    rw [units_zero] at hneg
    have hnot : ¬ ofInt n < 0.0 := by
      rw [lt_iff_units hupper isNumber_zero, units_zero]
      omega
    rw [if_pos hlow, if_neg hnot, units_zero]
    exact ⟨isNumber_zero, by omega⟩
  · have hge := mt (lt_iff_units hround isNumber_zero).mpr hlow
    rw [units_zero] at hge
    rw [if_neg hlow]
    by_cases hhigh : ofInt n < round x
    · have hgt := (lt_iff_units hupper hround).mp hhigh
      rw [if_pos hhigh]
      exact ⟨hupper, by omega⟩
    · have hle := mt (lt_iff_units hupper hround).mpr hhigh
      rw [if_neg hhigh]
      exact ⟨hround, by omega⟩

/-- A value of the range is clipped to itself. -/
lemma units_clip_ofInt {n k : Nat} (hle : units (ofInt k) ≤ units (ofInt n)) :
    units ((integer 0 n).clip (ofInt k)) = units (ofInt k) := by
  have hnumber := (faithful_ofInt k).isNumber
  obtain ⟨m, hm⟩ := ofInt_whole k
  rw [(clip_of_isNumber hnumber).2, units_round_of_whole hnumber hm, ← hm]
  have hnonneg := units_ofInt_nonneg k
  omega

/-- Whatever number a whole gene is given, one of its values counts the same. -/
theorem exists_toCount_clip (n : Nat) (x : Float) :
    ∃ k, k ≤ n ∧ toCount ((integer 0 n).clip (ofInt k)) = toCount ((integer 0 n).clip x) := by
  have hvalue : ∀ {k : Nat}, units (ofInt k) ≤ units (ofInt n) → ∀ {y}, IsNumber y →
      units y = units (ofInt k) →
        toCount ((integer 0 n).clip (ofInt k)) = toCount y := by
    intro k hle y hy heq
    have hclip := (clip_of_isNumber (n := n) (faithful_ofInt k).isNumber).1
    exact toCount_congr hclip hy ((units_clip_ofInt hle).trans heq.symm)
  by_cases hx : IsNumber x
  · obtain ⟨hnumber, hunits⟩ := clip_of_isNumber (n := n) hx
    obtain ⟨-, z, hz⟩ := round_whole hx
    by_cases htop : units ((integer 0 n).clip x) = units (ofInt n)
    · exact ⟨n, Nat.le_refl n, hvalue (Int.le_refl _) hnumber htop⟩
    · obtain ⟨N, hN⟩ : ∃ N : Nat, units ((integer 0 n).clip x) = (N * one : Nat) := by
        refine ⟨z.toNat, ?_⟩
        rcases Int.lt_or_le z 0 with hneg | hpos
        · have hround : z * one ≤ 0 := Int.mul_nonpos_of_nonpos_of_nonneg (by omega) (by omega)
          have hzero : z.toNat = 0 := by omega
          rw [hzero, Nat.zero_mul]
          omega
        · have hround : (0 : Int) ≤ z * one := Int.mul_nonneg hpos (by omega)
          rw [Int.natCast_mul, Int.toNat_of_nonneg hpos]
          omega
      have hle : N ≤ n := by
        apply Nat.not_lt.mp
        intro hlt
        have hmul : n * one ≤ N * one := Nat.mul_le_mul_right _ (Nat.le_of_lt hlt)
        have := (faithful_ofInt n).below _ hnumber (by omega)
        omega
      have hsame := (faithful_ofInt N).units_eq hnumber hN
      exact ⟨N, hle, hvalue (by omega) hnumber (by omega)⟩
  · have hzero : units (ofInt (0 : Nat)) = 0 := units_zero
    have hnonneg := units_ofInt_nonneg n
    refine ⟨0, Nat.zero_le n, (hvalue (by omega) isNumber_zero ?_).trans ?_⟩
    · rw [units_zero, hzero]
    · rw [toCount_of_not_isNumber (clip_of_not_isNumber hx)]
      rfl

lemma exists_clip_lt_half (x : Float) :
    ∃ k : Nat, k ≤ 1 ∧
      ((integer 0 1).clip (ofInt k) < 0.5 ↔ (integer 0 1).clip x < 0.5) := by
  by_cases h : (integer 0 1).clip x < 0.5
  · exact ⟨0, by omega, iff_of_true (by decide +kernel) h⟩
  · exact ⟨1, by omega, iff_of_false (by decide +kernel) h⟩

end Gene

/-! ## Loci -/

namespace Locus

/-- There is something to search: more than one value, counted from zero or between two bounds. -/
def WellFormed : Locus → Prop
  | presence _ => True
  | choice _ _ values => 2 ≤ values.length
  | stepped _ _ _ step last => 0 < step ∧ 0 < last ∧ last ≤ maxSteps
  | continuous _ _ min max => min.isFinite ∧ max.isFinite ∧ ¬ max < min

lemma wellFormed_of_resolve {asset attr : String} {range : AttributeRange} {l : Locus}
    (h : range.resolve asset attr = .ok (.searched l)) : l.WellFormed := by
  cases AttributeRange.resolves_of_resolve h with
  | choice values hlength => exact hlength
  | stepped min max step last hstep hpos hlast => exact ⟨hstep, hpos, hlast⟩
  | continuous min max hmin hmax horder => exact ⟨hmin, hmax, horder⟩

/-- A locus with a whole gene counts from zero. -/
lemma gene_eq_integer {l : Locus} (hl : l.WellFormed)
    (hdiscrete : ∃ lower upper, l.gene = .integer lower upper) :
    ∃ n : Nat, l.gene = .integer 0 n := by
  cases l with
  | presence asset => exact ⟨1, rfl⟩
  | choice asset attr values =>
    have hlength : 2 ≤ values.length := hl
    refine ⟨values.length - 1, ?_⟩
    change Gene.integer 0 _ = Gene.integer 0 _
    congr 1
    omega
  | stepped asset attr min step last =>
    have hlast : 0 < last := hl.2.1
    refine ⟨last.toNat, ?_⟩
    change Gene.integer 0 _ = Gene.integer 0 _
    congr 1
    omega
  | continuous asset attr min max =>
    obtain ⟨lower, upper, h⟩ := hdiscrete
    cases h

lemma apply_presence (asset : String) (x : Float) (assets : Dict AssetConfig) :
    (presence asset).apply x assets =
      if (Gene.integer 0 1).clip x < 0.5 then assets.erase asset else assets := rfl

/-- On a whole gene every number has the meaning of one of the gene's values. -/
lemma exists_mem_values_apply {l : Locus} (hl : l.WellFormed)
    (hdiscrete : ∃ lower upper, l.gene = .integer lower upper) (steps : Nat) (x : Float) :
    ∃ y ∈ (Grid.Axis.ofGene steps l.gene).values,
      ∀ assets, l.apply y assets = l.apply x assets := by
  obtain ⟨n, hn⟩ := gene_eq_integer hl hdiscrete
  have hmem : ∀ k, k ≤ n → ofInt k ∈ (Grid.Axis.ofGene steps l.gene).values := by
    intro k hk
    rw [hn]
    refine List.mem_map.mpr ⟨k, List.mem_range.mpr ?_, ?_⟩
    · change k < ((n : Int) - 0 + 1).toNat
      omega
    · change ofInt (0 + k) = ofInt k
      rw [Int.zero_add]
  cases l with
  | presence asset =>
    have hone : n = 1 := by
      injection hn with _ hn
      omega
    subst hone
    obtain ⟨k, hk, hhalf⟩ := Gene.exists_clip_lt_half x
    refine ⟨ofInt (k : Nat), hmem k hk, fun assets => ?_⟩
    simp only [apply_presence, hhalf]
  | choice asset attr values =>
    obtain ⟨k, hk, hcount⟩ := Gene.exists_toCount_clip n x
    refine ⟨ofInt k, hmem k hk, fun assets => ?_⟩
    unfold apply
    dsimp only
    rw [hn, hcount]
  | stepped asset attr min step last =>
    obtain ⟨k, hk, hcount⟩ := Gene.exists_toCount_clip n x
    refine ⟨ofInt k, hmem k hk, fun assets => ?_⟩
    unfold apply
    dsimp only
    rw [hn, hcount]
  | continuous asset attr min max => cases hn

end Locus

/-! ## Points of the grid -/

namespace Grid

/-- The points of a grid have a value of every axis. -/
theorem mem_allPoints {axes : List Axis} {c : Chromosome} :
    c ∈ allPoints axes ↔ List.Forall₂ (fun axis x => x ∈ axis.values) axes c := by
  induction axes generalizing c with
  | nil => rw [List.forall₂_nil_left_iff, allPoints, List.mem_singleton]
  | cons axis rest ih =>
    rw [allPoints, List.mem_flatMap, List.forall₂_cons_left_iff]
    constructor
    · rintro ⟨x, hx, hc⟩
      obtain ⟨tail, htail, rfl⟩ := List.mem_map.mp hc
      exact ⟨x, tail, hx, ih.mp htail, rfl⟩
    · rintro ⟨x, tail, hx, htail, rfl⟩
      exact ⟨x, hx, List.mem_map.mpr ⟨tail, ih.mpr htail, rfl⟩⟩

theorem length_of_mem_allPoints {axes : List Axis} {c : Chromosome} (h : c ∈ allPoints axes) :
    c.length = axes.length :=
  (mem_allPoints.mp h).length_eq.symm

end Grid

/-! ## Spaces -/

namespace SiteSpace

lemma wellFormed_of_ofSite {site : Site} {space : SiteSpace} (h : ofSite site = .ok space) :
    ∀ l ∈ space.loci, l.WellFormed := by
  intro l hl
  obtain ⟨e, -, ⟨-, rfl⟩ | ⟨attr, -, hresolve⟩⟩ := (laidOut_of_ofSite h).origin l hl
  · trivial
  · exact Locus.wellFormed_of_resolve hresolve

/-- Whole genes have a point of the grid with the meaning of the chromosome. -/
lemma exists_mem_allPoints_apply (steps : Nat) {loci : List Locus}
    (hwf : ∀ l ∈ loci, l.WellFormed)
    (hdiscrete : ∀ l ∈ loci, ∃ lower upper, l.gene = .integer lower upper) {c : Chromosome}
    (hc : c.length = loci.length) :
    ∃ p ∈ Grid.allPoints ((loci.map (·.gene)).map (Grid.Axis.ofGene steps)), ∀ assets,
      (loci.zip p).foldl (fun assets e => e.1.apply e.2 assets) assets =
        (loci.zip c).foldl (fun assets e => e.1.apply e.2 assets) assets := by
  induction loci generalizing c with
  | nil => exact ⟨[], List.mem_singleton.mpr rfl, fun assets => rfl⟩
  | cons l loci ih =>
    cases c with
    | nil => cases hc
    | cons x c =>
      obtain ⟨y, hy, happly⟩ := Locus.exists_mem_values_apply (hwf l List.mem_cons_self)
        (hdiscrete l List.mem_cons_self) steps x
      obtain ⟨p, hp, hfold⟩ := ih (fun l' hl' => hwf l' (List.mem_cons_of_mem l hl'))
        (fun l' hl' => hdiscrete l' (List.mem_cons_of_mem l hl')) (Nat.succ.inj hc)
      refine ⟨y :: p, ?_, fun assets => ?_⟩
      · exact Grid.mem_allPoints.mpr (.cons hy (Grid.mem_allPoints.mp hp))
      · rw [List.zip_cons_cons, List.zip_cons_cons, List.foldl_cons, List.foldl_cons]
        dsimp only
        rw [happly, hfold]

/-- On a site without continuous genes every chromosome has the meaning of a point of the grid. -/
lemma exists_mem_allPoints_decode {space : SiteSpace} (hwf : ∀ l ∈ space.loci, l.WellFormed)
    (hdiscrete : ∀ g ∈ space.genes, ∃ lower upper, g = .integer lower upper) (steps : Nat)
    {c : Chromosome} (hc : c.length = space.loci.length) :
    ∃ p ∈ Grid.allPoints (space.genes.map (Grid.Axis.ofGene steps)),
      space.decode p = space.decode c := by
  obtain ⟨p, hp, hfold⟩ := exists_mem_allPoints_apply steps hwf
    (fun l hl => hdiscrete l.gene (List.mem_map.mpr ⟨l, hl, rfl⟩)) hc
  refine ⟨p, hp, ?_⟩
  unfold decode assets
  rw [hfold]

lemma length_genes (space : SiteSpace) : space.genes.length = space.loci.length :=
  List.length_map _

end SiteSpace

namespace Space

/-- No gene is continuous. -/
def Discrete (space : Space) : Prop :=
  ∀ g ∈ space.genes, ∃ lower upper, g = .integer lower upper

lemma wellFormed_of_ofPortfolio {portfolio : List Site} {space : Space}
    (h : ofPortfolio portfolio = .ok space) :
    ∀ site ∈ space.sites, ∀ l ∈ site.loci, l.WellFormed := by
  obtain ⟨sites, hsites, heq⟩ := bind_eq_ok.mp h
  cases heq
  intro site hsite
  obtain ⟨source, -, hof⟩ := exists_of_mem_mapM hsites hsite
  exact SiteSpace.wellFormed_of_ofSite hof

lemma decodeFrom_cons (site : SiteSpace) (rest : List SiteSpace) (c : Chromosome) :
    decodeFrom (site :: rest) c =
      site.decode (c.take site.loci.length) :: decodeFrom rest (c.drop site.loci.length) := by
  rw [decodeFrom, List.splitAt_eq]

lemma decodeFrom_append (site : SiteSpace) (rest : List SiteSpace) {own : Chromosome}
    (others : Chromosome) (h : own.length = site.loci.length) :
    decodeFrom (site :: rest) (own ++ others) = site.decode own :: decodeFrom rest others := by
  rw [decodeFrom_cons, ← h, List.take_left, List.drop_left]

lemma length_decodeFrom (sites : List SiteSpace) (c : Chromosome) :
    (decodeFrom sites c).length = sites.length := by
  induction sites generalizing c with
  | nil => rfl
  | cons site rest ih => exact congrArg Nat.succ (ih _)

lemma length_genes_cons (space : SiteSpace) (rest : List SiteSpace) :
    (genes ⟨space :: rest⟩).length = space.loci.length + (genes ⟨rest⟩).length := by
  rw [genes, List.flatMap_cons, List.length_append, space.length_genes]
  rfl

/-- In a space without continuous genes every chromosome has the meaning of a point of the grid. -/
theorem exists_mem_allPoints_decode {portfolio : List Site} {space : Space}
    (h : ofPortfolio portfolio = .ok space) (hdiscrete : space.Discrete) (steps : Nat)
    {c : Chromosome} (hc : c.length = space.genes.length) :
    ∃ p ∈ Grid.allPoints (space.genes.map (Grid.Axis.ofGene steps)),
      space.decode p = space.decode c := by
  have hwf := wellFormed_of_ofPortfolio h
  obtain ⟨sites⟩ := space
  clear h
  induction sites generalizing c with
  | nil => exact ⟨[], List.mem_singleton.mpr rfl, rfl⟩
  | cons site rest ih =>
    have hlength : c.length = site.loci.length + (genes ⟨rest⟩).length := by
      rw [hc, length_genes_cons]
    have hdrop : (c.drop site.loci.length).length = (genes ⟨rest⟩).length := by
      rw [List.length_drop]
      omega
    have htake : (c.take site.loci.length).length = site.loci.length := by
      rw [List.length_take]
      omega
    have hgenes : genes ⟨site :: rest⟩ = site.genes ++ genes ⟨rest⟩ := rfl
    obtain ⟨p, hp, hdecode⟩ := SiteSpace.exists_mem_allPoints_decode
      (hwf site List.mem_cons_self)
      (fun g hg => hdiscrete g (hgenes ▸ List.mem_append_left _ hg)) steps htake
    obtain ⟨q, hq, hrest⟩ := ih (fun g hg => hdiscrete g (hgenes ▸ List.mem_append_right _ hg))
      hdrop fun other hother => hwf other (List.mem_cons_of_mem _ hother)
    have hown : p.length = site.loci.length := by
      rw [Grid.length_of_mem_allPoints hp, List.length_map, SiteSpace.genes, List.length_map]
    refine ⟨p ++ q, ?_, ?_⟩
    · rw [hgenes, List.map_append]
      exact Grid.mem_allPoints.mpr
        (List.rel_append (Grid.mem_allPoints.mp hp) (Grid.mem_allPoints.mp hq))
    · have hsplit : c = c.take site.loci.length ++ c.drop site.loci.length :=
        (List.take_append_drop _ _).symm
      unfold decode at hrest ⊢
      dsimp only at hrest ⊢
      rw [decodeFrom_append site rest q hown, hdecode, hrest]
      conv_rhs => rw [hsplit]
      rw [decodeFrom_append site rest _ htake]

end Space

end Retrofit
