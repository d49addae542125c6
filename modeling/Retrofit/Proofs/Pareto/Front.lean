import Mathlib.Data.List.Count
import Retrofit.Proofs.Pareto.Costs

/-!
# What fronts contain

If any candidate is unbeaten, the first front holds exactly the unbeaten ones
(`mem_firstFront_of_free`), and among defined candidates every one is in it or beaten by one of its
members (`exists_best`). The best front has each of the costs of the unbeaten solutions
(`exists_mem_bestFront`), without repeats (`nodup_points_paretoSet`).
-/

namespace Retrofit

variable {ι κ : Type}

/-! ## Unbeaten candidates -/

/-- Under a strict order every candidate is unbeaten or beaten by an unbeaten one. -/
theorem exists_unbeaten {beats : ι → ι → Bool} {candidates : List ι}
    (irrefl : ∀ x ∈ candidates, ¬ beats x x)
    (trans : ∀ x ∈ candidates, ∀ y ∈ candidates, ∀ z ∈ candidates,
      beats x y → beats y z → beats x z) {x : ι} (hx : x ∈ candidates) :
    ∃ y ∈ unbeaten beats candidates, y = x ∨ beats y x := by
  -- The number of candidates that beat `x` decreases from `x` to one that beats it.
  induction hn : candidates.countP (beats · x) using Nat.strongRecOn generalizing x with
  | ind n ih =>
    by_cases hfree : x ∈ unbeaten beats candidates
    · exact ⟨x, hfree, Or.inl rfl⟩
    · obtain ⟨y, hy, hyx⟩ : ∃ y ∈ candidates, beats y x := by
        rw [mem_unbeaten, not_and] at hfree
        have hbeaten := hfree hx
        push Not at hbeaten
        exact hbeaten
      have hfewer : candidates.countP (beats · y) < n := by
        have hsub : candidates.countP (beats · y) =
            (candidates.filter (beats · x)).countP (beats · y) := by
          rw [List.countP_filter]
          refine List.countP_congr fun z hz => ?_
          rw [Bool.and_eq_true]
          exact ⟨fun hzy => ⟨hzy, trans z hz y hy x hx hzy hyx⟩, And.left⟩
        rw [hsub, ← hn, List.countP_eq_length_filter (p := (beats · x))]
        exact List.countP_lt_length_iff.mpr
          ⟨y, List.mem_filter.mpr ⟨hy, hyx⟩, Bool.eq_false_iff.mpr (irrefl y hy)⟩
      obtain ⟨z, hz, hzy⟩ := ih _ hfewer hy rfl
      refine ⟨z, hz, Or.inr ?_⟩
      rcases hzy with rfl | hzy
      · exact hyx
      · exact trans z (mem_unbeaten.mp hz).1 y hy x hx hzy hyx

/-! ## The first front -/

lemma mem_unbeaten_map {σ : Type} {beats : σ → σ → Bool} {judge : ι → σ} {items : List ι} {x : ι} :
    x ∈ (unbeaten (fun a b => beats a.2 b.2) (items.map fun x => (x, judge x))).map Prod.fst ↔
      x ∈ items ∧ ∀ y ∈ items, ¬ beats (judge y) (judge x) := by
  constructor
  · intro h
    obtain ⟨e, he, rfl⟩ := List.mem_map.mp h
    obtain ⟨hmem, hfree⟩ := mem_unbeaten.mp he
    obtain ⟨x, hx, rfl⟩ := List.mem_map.mp hmem
    exact ⟨hx, fun y hy => hfree (y, judge y) (List.mem_map.mpr ⟨y, hy, rfl⟩)⟩
  · rintro ⟨hx, hfree⟩
    refine List.mem_map.mpr ⟨(x, judge x), mem_unbeaten.mpr ⟨?_, ?_⟩, rfl⟩
    · exact List.mem_map.mpr ⟨x, hx, rfl⟩
    · intro e he
      obtain ⟨y, hy, rfl⟩ := List.mem_map.mp he
      exact hfree y hy

lemma mem_of_mem_firstFront {judge : ι → Judgement} {items : List ι} {x : ι}
    (h : x ∈ firstFront judge items) : x ∈ items := by
  unfold firstFront at h
  dsimp only at h
  split at h
  · exact h
  · exact ((@mem_unbeaten_map _ _ Judgement.beats _ _ _).mp h).1

lemma firstFront_ne_nil (judge : ι → Judgement) {items : List ι} (h : items ≠ []) :
    firstFront judge items ≠ [] := by
  unfold firstFront
  dsimp only
  split
  · exact h
  · rename_i hfree
    intro hnil
    rw [List.map_eq_nil_iff] at hnil
    rw [hnil] at hfree
    exact hfree rfl

/-- If any candidate is unbeaten, the first front holds the unbeaten ones. -/
theorem mem_firstFront_of_free {judge : ι → Judgement} {items : List ι} {x z : ι} (hz : z ∈ items)
    (hfree : ∀ y ∈ items, ¬ (judge y).beats (judge z)) :
    x ∈ firstFront judge items ↔ x ∈ items ∧ ∀ y ∈ items, ¬ (judge y).beats (judge x) := by
  rw [← @mem_unbeaten_map _ _ Judgement.beats]
  have hmem := mem_unbeaten_map.mpr ⟨hz, hfree⟩
  unfold firstFront
  dsimp only
  split
  · rename_i hempty
    rw [List.isEmpty_iff.mp hempty] at hmem
    exact absurd hmem List.not_mem_nil
  · rfl

/-- If every candidate is beaten, all of them are the first front. -/
lemma firstFront_of_beaten {judge : ι → Judgement} {items : List ι}
    (h : ∀ x ∈ items, ∃ y ∈ items, (judge y).beats (judge x)) : firstFront judge items = items := by
  unfold firstFront
  dsimp only
  split
  · rfl
  · rename_i hne
    obtain ⟨e, he⟩ := List.isEmpty_eq_false_iff_exists_mem.mp (Bool.eq_false_iff.mpr hne)
    obtain ⟨hx, hfree⟩ := (@mem_unbeaten_map _ _ Judgement.beats _ _ _).mp (List.mem_map_of_mem he)
    obtain ⟨y, hy, hbeats⟩ := h _ hx
    exact absurd hbeats (hfree y hy)

section Defined

variable {n : Nat} {judge : ι → Judgement} {items : List ι}

/-- Every candidate is unbeaten or beaten by an unbeaten one. -/
theorem exists_best (defined : ∀ x ∈ items, (judge x).Defined n) {x : ι} (hx : x ∈ items) :
    ∃ y ∈ items, (∀ z ∈ items, ¬ (judge z).beats (judge y)) ∧
      (y = x ∨ (judge y).beats (judge x)) := by
  obtain ⟨y, hy, hyx⟩ := @exists_unbeaten _ (fun a b => (judge a).beats (judge b)) items
    (fun x _ => Judgement.not_beats_self (judge x))
    (fun x hx y hy z hz => Judgement.beats_trans (defined x hx) (defined y hy) (defined z hz)) x hx
  obtain ⟨hmem, hfree⟩ := mem_unbeaten.mp hy
  exact ⟨y, hmem, hfree, hyx⟩

/-- The first front holds the unbeaten candidates. -/
theorem mem_firstFront (defined : ∀ x ∈ items, (judge x).Defined n) {x : ι} :
    x ∈ firstFront judge items ↔ x ∈ items ∧ ∀ y ∈ items, ¬ (judge y).beats (judge x) := by
  constructor
  · intro h
    obtain ⟨z, hz, hfree, -⟩ := exists_best defined (mem_of_mem_firstFront h)
    exact (mem_firstFront_of_free hz hfree).mp h
  · exact fun h => (mem_firstFront_of_free h.1 h.2).mpr h

lemma penalty_eq_of_unbeaten (defined : ∀ x ∈ items, (judge x).Defined n) {x y : ι}
    (hx : x ∈ firstFront judge items) (hy : y ∈ firstFront judge items) :
    (judge x).penalty = (judge y).penalty := by
  obtain ⟨hx, hfreex⟩ := (mem_firstFront defined).mp hx
  obtain ⟨hy, hfreey⟩ := (mem_firstFront defined).mp hy
  have hxy := hfreey x hx
  have hyx := hfreex y hy
  rw [Judgement.beats_iff (defined x hx) (defined y hy)] at hxy
  rw [Judgement.beats_iff (defined y hy) (defined x hx)] at hyx
  omega

end Defined

/-! ## Repetitions -/

section Distinct

variable [DecidableEq κ]

lemma mem_firstOfKeys {l : List (κ × ι)} {e : κ × ι} (h : e ∈ firstOfKeys l) : e ∈ l := by
  induction l with
  | nil => exact h
  | cons e' rest ih =>
    rcases List.mem_cons.mp h with rfl | h
    · exact List.mem_cons_self
    · exact List.mem_cons_of_mem _ (ih (List.mem_filter.mp h).1)

lemma exists_mem_firstOfKeys {l : List (κ × ι)} {e : κ × ι} (h : e ∈ l) :
    ∃ e' ∈ firstOfKeys l, e'.1 = e.1 := by
  induction l with
  | nil => exact nomatch h
  | cons first rest ih =>
    by_cases hkey : first.1 = e.1
    · exact ⟨first, List.mem_cons_self, hkey⟩
    · rcases List.mem_cons.mp h with rfl | h
      · exact absurd rfl hkey
      · obtain ⟨e', he', heq⟩ := ih h
        refine ⟨e', List.mem_cons_of_mem _ (List.mem_filter.mpr ⟨he', ?_⟩), heq⟩
        rw [heq, decide_eq_true_eq]
        exact fun h => hkey h.symm

lemma pairwise_firstOfKeys (l : List (κ × ι)) :
    (firstOfKeys l).Pairwise fun a b => a.1 ≠ b.1 := by
  induction l with
  | nil => exact .nil
  | cons e rest ih =>
    refine List.pairwise_cons.mpr ⟨fun e' he' => ?_, ih.filter _⟩
    have hne := (List.mem_filter.mp he').2
    rw [decide_eq_true_eq] at hne
    exact hne.symm

lemma key_of_mem_firstOfKeys {key : ι → κ} {items : List ι} {e : κ × ι}
    (h : e ∈ firstOfKeys (items.map fun x => (key x, x))) : e.1 = key e.2 ∧ e.2 ∈ items := by
  obtain ⟨x, hx, rfl⟩ := List.mem_map.mp (mem_firstOfKeys h)
  exact ⟨rfl, hx⟩

theorem mem_of_mem_distinctBy {key : ι → κ} {items : List ι} {x : ι}
    (h : x ∈ distinctBy key items) : x ∈ items := by
  obtain ⟨e, he, rfl⟩ := List.mem_map.mp h
  exact (key_of_mem_firstOfKeys he).2

/-- Every key is kept. -/
theorem exists_mem_distinctBy {key : ι → κ} {items : List ι} {x : ι} (h : x ∈ items) :
    ∃ y ∈ distinctBy key items, key y = key x := by
  obtain ⟨e, he, heq⟩ := exists_mem_firstOfKeys (List.mem_map.mpr ⟨x, h, rfl⟩ :
    (key x, x) ∈ items.map fun x => (key x, x))
  refine ⟨e.2, List.mem_map.mpr ⟨e, he, rfl⟩, ?_⟩
  rw [← (key_of_mem_firstOfKeys he).1, heq]

/-- No key is kept twice. -/
theorem pairwise_distinctBy (key : ι → κ) (items : List ι) :
    (distinctBy key items).Pairwise fun x y => key x ≠ key y := by
  refine List.pairwise_map.mpr ((pairwise_firstOfKeys _).imp_of_mem ?_)
  intro a b ha hb hne
  rw [← (key_of_mem_firstOfKeys ha).1, ← (key_of_mem_firstOfKeys hb).1]
  exact hne

lemma distinctBy_cons (key : ι → κ) (x : ι) (items : List ι) :
    distinctBy key (x :: items) =
      x :: (distinctBy key items).filter fun y => key y ≠ key x := by
  unfold distinctBy
  rw [List.map_cons, firstOfKeys, List.map_cons, List.filter_map]
  congr 2
  refine List.filter_congr fun e he => ?_
  rw [(key_of_mem_firstOfKeys he).1]
  rfl

/-- Nothing is dropped where no key occurs twice. -/
lemma distinctBy_eq_self {key : ι → κ} {items : List ι}
    (h : items.Pairwise fun x y => key x ≠ key y) : distinctBy key items = items := by
  induction items with
  | nil => rfl
  | cons x items ih =>
    obtain ⟨hx, hitems⟩ := List.pairwise_cons.mp h
    rw [distinctBy_cons, ih hitems]
    congr 1
    exact List.filter_eq_self.mpr fun y hy => decide_eq_true (hx y hy).symm

end Distinct

/-! ## Pareto sets of solutions -/

namespace PortfolioSolution

/-- The costs and the violation of a solution are numbers. -/
def Defined (objectives : List Objective) (s : PortfolioSolution) : Prop :=
  (s.judgement objectives).Defined objectives.length

variable {objectives : List Objective} {s t : PortfolioSolution}

lemma defined_iff : s.Defined objectives ↔
    Numbers (s.costs objectives) ∧ Number.IsNumber s.violation :=
  ⟨fun h => ⟨h.numbers, h.violation⟩, fun h => ⟨List.length_map _, h.1, h.2⟩⟩

instance : Decidable (s.Defined objectives) := decidable_of_iff' _ defined_iff

lemma dominates_iff (hs : s.Defined objectives) (ht : t.Defined objectives) :
    dominates (s.costs objectives) (t.costs objectives) ↔
      List.Forall₂ (· ≤ ·) (rowUnits (s.costs objectives)) (rowUnits (t.costs objectives)) ∧
        rowUnits (s.costs objectives) ≠ rowUnits (t.costs objectives) :=
  Retrofit.dominates_iff hs.numbers ht.numbers (hs.length_eq.trans ht.length_eq.symm)

/-- Points tell defined solutions apart by the exact values of their costs. -/
theorem point_eq_iff (hs : s.Defined objectives) (ht : t.Defined objectives) :
    s.point objectives = t.point objectives ↔
      rowUnits (s.costs objectives) = rowUnits (t.costs objectives) := by
  have hs := numbers_costs.mp hs.numbers
  have ht := numbers_costs.mp ht.numbers
  rw [point_eq_point, rowUnits_costs_eq]
  exact forall₂_congr fun o ho => Amount.add_zero_inj (hs o ho) (ht o ho)

end PortfolioSolution

variable {objectives : List Objective} {solutions : List PortfolioSolution}
  {s t : PortfolioSolution}

theorem mem_paretoSet : s ∈ paretoSet objectives solutions ↔
    s ∈ distinctBy (·.point objectives) solutions ∧
      ∀ t ∈ distinctBy (·.point objectives) solutions,
        ¬ dominates (t.costs objectives) (s.costs objectives) :=
  mem_unbeaten_map

lemma mem_of_mem_paretoSet (h : s ∈ paretoSet objectives solutions) : s ∈ solutions :=
  mem_of_mem_distinctBy (mem_paretoSet.mp h).1

/-- To dominate one of the first solutions at their points is to dominate one of all. -/
lemma free_of_distinct_iff :
    (∀ t ∈ distinctBy (·.point objectives) solutions,
      ¬ dominates (t.costs objectives) (s.costs objectives)) ↔
    ∀ t ∈ solutions, ¬ dominates (t.costs objectives) (s.costs objectives) := by
  constructor
  · intro hfree t ht
    obtain ⟨u, hu, hpoint⟩ := @exists_mem_distinctBy _ _ _ (·.point objectives) _ _ ht
    rw [← PortfolioSolution.dominates_congr hpoint rfl]
    exact hfree u hu
  · exact fun hfree t ht => hfree t (mem_of_mem_distinctBy ht)

lemma not_dominates_of_mem_paretoSet (h : s ∈ paretoSet objectives solutions) :
    ∀ t ∈ solutions, ¬ dominates (t.costs objectives) (s.costs objectives) :=
  free_of_distinct_iff.mp (mem_paretoSet.mp h).2

lemma paretoSet_eq_filter_distinct (objectives : List Objective)
    (solutions : List PortfolioSolution) :
    paretoSet objectives solutions = (distinctBy (·.point objectives) solutions).filter fun s =>
      ∀ t ∈ solutions, ¬ dominates (t.costs objectives) (s.costs objectives) := by
  unfold paretoSet unbeaten beaten
  dsimp only
  rw [List.filter_map, List.map_map]
  refine (List.map_id _).trans (List.filter_congr fun s _ => ?_)
  rw [Function.comp_apply, List.any_map, Bool.eq_iff_iff, Bool.not_eq_true', List.any_eq_false,
    decide_eq_true_eq]
  exact free_of_distinct_iff

/-- No point is reported twice. -/
theorem nodup_points_paretoSet (objectives : List Objective) (solutions : List PortfolioSolution) :
    ((paretoSet objectives solutions).map (·.point objectives)).Nodup := by
  rw [paretoSet_eq_filter_distinct]
  exact List.pairwise_map.mpr ((pairwise_distinctBy _ _).sublist List.filter_sublist)

/-- Selecting from what was selected drops nothing. -/
theorem paretoSet_paretoSet (objectives : List Objective) (solutions : List PortfolioSolution) :
    paretoSet objectives (paretoSet objectives solutions) = paretoSet objectives solutions := by
  have hdistinct := List.pairwise_map.mp (nodup_points_paretoSet objectives solutions)
  rw [paretoSet_eq_filter_distinct objectives (paretoSet objectives solutions),
    distinctBy_eq_self hdistinct]
  refine List.filter_eq_self.mpr fun s hs => decide_eq_true fun t ht => ?_
  exact (mem_paretoSet.mp hs).2 t (mem_paretoSet.mp ht).1

lemma paretoSet_bestFront (objectives : List Objective) (solutions : List PortfolioSolution) :
    paretoSet objectives (bestFront objectives solutions) = bestFront objectives solutions :=
  paretoSet_paretoSet objectives _

/-- The point of a solution that none dominates is in the Pareto set. -/
theorem exists_mem_paretoSet (hs : s ∈ solutions)
    (hfree : ∀ t ∈ solutions, ¬ dominates (t.costs objectives) (s.costs objectives)) :
    ∃ t ∈ paretoSet objectives solutions, t.point objectives = s.point objectives := by
  obtain ⟨t, ht, hpoint⟩ := @exists_mem_distinctBy _ _ _ (·.point objectives) _ _ hs
  refine ⟨t, mem_paretoSet.mpr ⟨ht, fun u hu => ?_⟩, hpoint⟩
  rw [PortfolioSolution.dominates_congr rfl hpoint]
  exact hfree u (mem_of_mem_distinctBy hu)

lemma mem_of_mem_bestFront (h : s ∈ bestFront objectives solutions) : s ∈ solutions :=
  mem_of_mem_firstFront (mem_of_mem_paretoSet h)

/-- What the best front reports is beaten by no solution. -/
theorem unbeaten_of_mem_bestFront (defined : ∀ t ∈ solutions, t.Defined objectives)
    (h : s ∈ bestFront objectives solutions) :
    s ∈ solutions ∧
      ∀ t ∈ solutions, ¬ (t.judgement objectives).beats (s.judgement objectives) :=
  (mem_firstFront defined).mp (mem_of_mem_paretoSet h)

/-- Of two unbeaten solutions neither dominates the other. -/
lemma not_dominates_of_unbeaten (hs : s ∈ solutions)
    (hfrees : ∀ u ∈ solutions, ¬ (u.judgement objectives).beats (s.judgement objectives))
    (ht : t ∈ solutions)
    (hfreet : ∀ u ∈ solutions, ¬ (u.judgement objectives).beats (t.judgement objectives)) :
    ¬ dominates (t.costs objectives) (s.costs objectives) := by
  intro h
  rcases Judgement.beats_or_beats_of_dominates (a := t.judgement objectives)
    (b := s.judgement objectives) h with hbeats | hbeats
  · exact hfrees t ht hbeats
  · exact hfreet s hs hbeats

/-- The best front has the point of every unbeaten solution. -/
theorem exists_mem_bestFront (hs : s ∈ solutions)
    (hfree : ∀ t ∈ solutions, ¬ (t.judgement objectives).beats (s.judgement objectives)) :
    ∃ t ∈ bestFront objectives solutions, t.point objectives = s.point objectives := by
  apply exists_mem_paretoSet
  · exact (mem_firstFront_of_free hs hfree).mpr ⟨hs, hfree⟩
  · intro t ht
    obtain ⟨ht, hfreet⟩ := (mem_firstFront_of_free hs hfree).mp ht
    exact not_dominates_of_unbeaten hs hfree ht hfreet

end Retrofit
