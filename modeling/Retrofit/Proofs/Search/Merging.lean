import Mathlib.Data.List.Infix
import Mathlib.Data.List.Sections
import Retrofit.Proofs.Metrics.Aggregation
import Retrofit.Proofs.Search.Reports

/-!
# Merging site by site loses no trade-off

The site-by-site search combines the fronts of the sites one after the other and goes on with the
best combinations only. For objectives that add up over the sites nothing is lost by this if sums
are exact: of two combinations of the first sites the better one is still the better one when the
same solution of the next site is added to both (`Objective.NoWorse.add`). So the combinations that
go on cover all combinations of the sites so far (`Separated.Frontier`), and the merged fronts are
the Pareto set of all combinations (`Separated.merge_exact`).
-/

namespace Retrofit

/-! ## At least as good -/

namespace Objective

/-- An exact value is at least as good for the objective as another. -/
def NoWorse (o : Objective) (a b : WithBot (WithTop ℤ)) : Prop :=
  match o.direction with
  | .maximize => b ≤ a
  | .minimize => a ≤ b

variable {o : Objective} {a b c : WithBot (WithTop ℤ)}

lemma NoWorse.refl (o : Objective) (a : WithBot (WithTop ℤ)) : o.NoWorse a a := by
  unfold NoWorse
  cases o.direction <;> exact le_rfl

lemma NoWorse.trans (hab : o.NoWorse a b) (hbc : o.NoWorse b c) : o.NoWorse a c := by
  unfold NoWorse at *
  generalize o.direction = direction at hab hbc ⊢
  cases direction with
  | maximize => exact le_trans hbc hab
  | minimize => exact le_trans hab hbc

lemma NoWorse.add (h : o.NoWorse a b) (c : WithBot (WithTop ℤ)) : o.NoWorse (a + c) (b + c) := by
  unfold NoWorse at *
  generalize o.direction = direction at h ⊢
  cases direction <;> exact add_le_add_left h c

/-- Costs are compared like the values of metrics, one way or the other. -/
lemma units_cost_le_iff {x y : Amount} (hx : x.IsNumber) (hy : y.IsNumber) :
    (o.cost x).units ≤ (o.cost y).units ↔ o.NoWorse x.extended y.extended := by
  unfold cost NoWorse
  cases o.direction with
  | maximize =>
    dsimp only
    rw [Amount.extended_le_iff hy hx, Amount.units_neg, Amount.units_neg, Int.neg_le_neg_iff]
  | minimize => exact (Amount.extended_le_iff hx hy).symm

end Objective

/-- Values that some sites have for an objective have a sum. -/
lemma exists_total_eq {sites : List (Metrics Amount)} {o : Objective} (hne : sites ≠ [])
    (h : ∀ m ∈ sites, (m.get o).isSome) : ∃ sum, total sites o = some sum := by
  obtain ⟨m, hm⟩ := List.exists_mem_of_ne_nil _ hne
  obtain ⟨a, ha⟩ := Option.isSome_iff_exists.mp (h m hm)
  unfold total
  split
  · rename_i hnil
    have hmem : a ∈ sites.filterMap (·.get o) := List.mem_filterMap.mpr ⟨m, hm, ha⟩
    rw [hnil] at hmem
    cases hmem
  · exact ⟨_, rfl⟩

namespace Separated

variable {objectives : List Objective} {limit : Nat}
  {choices done rest : List (Site × List SiteSolution)}
  {entries entries' : List (String × SiteSolution)} {partials : List (Dict SiteSolution)}

/-- The combination of some entries, judged without constraints. -/
def combination (entries : List (String × SiteSolution)) : PortfolioSolution :=
  .ofSites (Dict.ofList entries) .none

/-- The combination of one solution from every front has costs that no other such combination
dominates. -/
def Optimal (objectives : List Objective) (choices : List (Site × List SiteSolution))
    (x : PortfolioSolution) : Prop :=
  (∃ entries, Picked choices entries ∧ x = combination entries) ∧
    ∀ entries, Picked choices entries →
      ¬ dominates ((combination entries).costs objectives) (x.costs objectives)

/-- The exact sum of what the entries have for an objective. -/
def exactTotal (o : Objective) (entries : List (String × SiteSolution)) : WithBot (WithTop ℤ) :=
  ((entries.filterMap (·.2.metrics.get o)).map Amount.extended).sum

lemma exactTotal_append (o : Objective) (entries entries' : List (String × SiteSolution)) :
    exactTotal o (entries ++ entries') = exactTotal o entries + exactTotal o entries' := by
  unfold exactTotal
  rw [List.filterMap_append, List.map_append, List.sum_append]

/-- The fronts of combinations that are formed while sites are added, if all of them go on. -/
def frontsFrom (objectives : List Objective) :
    List (Site × List SiteSolution) → List (Dict SiteSolution) → List (List PortfolioSolution)
  | [], _ => []
  | (site, front) :: rest, partials =>
    let best := bestFront objectives (extend site.siteId front partials)
    best :: frontsFrom objectives rest (best.map (·.sites))

/-- What fronts are like whose combinations are compared by exact sums of their costs. -/
structure Mergeable (objectives : List Objective) (choices : List (Site × List SiteSolution)) :
    Prop where
  nodup_ids : (choices.map (·.1.siteId)).Nodup
  /-- The solutions of a site violate its constraints alike. -/
  alike : ∀ choice ∈ choices, ∀ s ∈ choice.2, ∀ s' ∈ choice.2,
    0.0 ≤ s.violation ∧ s.violation == s'.violation
  present : ∀ choice ∈ choices, ∀ s ∈ choice.2, ∀ o ∈ Objective.additive,
    ∃ a ∈ s.metrics.get o, a.IsNumber
  /-- The sums for combinations of the first sites, however many, are exact. -/
  exact : ∀ done, done <+: choices → ∀ entries, Picked done entries → ∀ o ∈ objectives,
    ∀ sum ∈ total ((Dict.ofList entries).values.map (·.metrics)) o,
      Amount.ExactSum ((Dict.ofList entries).values.filterMap (·.metrics.get o)) sum

/-- All choices of one solution from every front. -/
def picks (choices : List (Site × List SiteSolution)) : List (List (String × SiteSolution)) :=
  (choices.map fun choice => choice.2.map (choice.1.siteId, ·)).sections

lemma mem_picks : entries ∈ picks choices ↔ Picked choices entries := by
  have hmem : ∀ (choice : Site × List SiteSolution) (e : String × SiteSolution),
      e ∈ choice.2.map (choice.1.siteId, ·) ↔ e.1 = choice.1.siteId ∧ e.2 ∈ choice.2 := by
    rintro choice ⟨k, s⟩
    simp [eq_comm, and_comm]
  unfold picks Picked
  rw [List.mem_sections, List.forall₂_map_right_iff]
  exact ⟨fun h => h.flip.imp fun choice e he => (hmem choice e).mp he,
    fun h => h.flip.imp fun e choice he => (hmem choice e).mpr he⟩

namespace Mergeable

lemma iff_of_picks : Mergeable objectives choices ↔
    (choices.map (·.1.siteId)).Nodup ∧
    (∀ choice ∈ choices, ∀ s ∈ choice.2, ∀ s' ∈ choice.2,
      0.0 ≤ s.violation ∧ s.violation == s'.violation) ∧
    (∀ choice ∈ choices, ∀ s ∈ choice.2, ∀ o ∈ Objective.additive,
      ∃ a ∈ s.metrics.get o, a.IsNumber) ∧
    ∀ done ∈ choices.inits, ∀ entries ∈ picks done, ∀ o ∈ objectives,
      ∀ sum ∈ total ((Dict.ofList entries).values.map (·.metrics)) o,
        Amount.ExactSum ((Dict.ofList entries).values.filterMap (·.metrics.get o)) sum := by
  constructor
  · intro h
    exact ⟨h.nodup_ids, h.alike, h.present, fun done hdone entries hentries =>
      h.exact done ((List.mem_inits done choices).mp hdone) entries (mem_picks.mp hentries)⟩
  · rintro ⟨hids, halike, hpresent, hexact⟩
    exact ⟨hids, halike, hpresent, fun done hdone entries hentries =>
      hexact done ((List.mem_inits done choices).mpr hdone) entries (mem_picks.mpr hentries)⟩

instance : Decidable (Mergeable objectives choices) := decidable_of_iff' _ iff_of_picks

lemma of_prefix (h : Mergeable objectives choices) (hdone : done <+: choices) :
    Mergeable objectives done where
  nodup_ids := h.nodup_ids.sublist (hdone.sublist.map _)
  alike choice hchoice := h.alike choice (hdone.subset hchoice)
  present choice hchoice := h.present choice (hdone.subset hchoice)
  exact first hfirst := h.exact first (hfirst.trans hdone)

/-- Combinations of the same fronts have the same violation. -/
lemma alike_violation (h : Mergeable objectives choices) (hentries : Picked choices entries)
    (hentries' : Picked choices entries') :
    Number.Alike (combination entries).violation (combination entries').violation := by
  have hpairs : List.Forall₂ (fun e e' => e.1 = e'.1 ∧ Number.Alike e.2.violation e'.2.violation)
      entries entries' := by
    refine (forall₂_of_common hentries hentries').imp ?_
    rintro e e' ⟨choice, hchoice, ⟨hkey, hmem⟩, ⟨hkey', hmem'⟩⟩
    obtain ⟨hnonneg, hsame⟩ := h.alike choice hchoice _ hmem _ hmem'
    obtain ⟨hnumber, hnumber'⟩ := Number.isNumber_of_beq hsame
    refine ⟨hkey.trans hkey'.symm, hnumber, hnumber', ?_,
      (Number.beq_iff_units hnumber hnumber').mp hsame⟩
    have hle := (Number.le_iff_units Number.isNumber_zero hnumber).mp hnonneg
    rwa [Number.units_zero] at hle
  have hvalues := (Dict.forall₂_entries_ofList (R := fun (s s' : SiteSolution) =>
    Number.Alike s.violation s'.violation) hpairs).imp fun _ _ he => he.2
  have hsums : Number.Alike (Number.sum ((Dict.ofList entries).values.map (·.violation)))
      (Number.sum ((Dict.ofList entries').values.map (·.violation))) := by
    apply Number.alike_sum
    unfold Dict.values
    rw [List.map_map, List.map_map, List.forall₂_map_left_iff, List.forall₂_map_right_iff]
    exact hvalues
  -- There are no constraints on combinations, so zero is added to the sums.
  exact hsums.add Number.alike_zero

section Additive

variable (hobjectives : ∀ o ∈ objectives, o ∈ Objective.additive)
include hobjectives

/-- The metrics of a combination are the exact sums. -/
lemma exact_metric (h : Mergeable objectives choices) (hchoices : choices ≠ [])
    (hentries : Picked choices entries) {o : Objective} (ho : o ∈ objectives) :
    ((combination entries).metric o).IsNumber ∧
      ((combination entries).metric o).extended = exactTotal o entries := by
  have hkeys : entries.map Prod.fst = choices.map (·.1.siteId) :=
    map_eq_map_of_forall₂ (hentries.flip.imp fun _ _ he => he.1)
  have hperm : (Dict.ofList entries).entries.Perm entries :=
    Dict.perm_entries_ofList (hkeys ▸ h.nodup_ids)
  have hne : (Dict.ofList entries).values.map (·.metrics) ≠ [] := by
    intro hnil
    have hlength := hperm.length_eq.trans hentries.length_eq.symm
    rw [List.map_eq_nil_iff, Dict.values, List.map_eq_nil_iff] at hnil
    rw [hnil, List.length_nil, eq_comm, List.length_eq_zero_iff] at hlength
    exact hchoices hlength
  have hpresent : ∀ m ∈ (Dict.ofList entries).values.map (·.metrics), (m.get o).isSome := by
    intro m hm
    obtain ⟨s, hs, rfl⟩ := List.mem_map.mp hm
    obtain ⟨e, he, rfl⟩ := List.mem_map.mp hs
    obtain ⟨choice, hchoice, -, hmem⟩ := exists_of_mem_right hentries (hperm.mem_iff.mp he)
    obtain ⟨a, ha, -⟩ := h.present choice hchoice _ hmem o (hobjectives o ho)
    exact Option.isSome_iff_exists.mpr ⟨a, ha⟩
  obtain ⟨sum, hsum⟩ := exists_total_eq hne hpresent
  have hmetric : (combination entries).metric o = sum := by
    change ((portfolioMetrics _).get o).getD _ = sum
    rw [Objective.get_portfolioMetrics (hobjectives o ho), hsum, Option.getD_some]
  obtain ⟨hnumber, hexact⟩ := h.exact choices (List.prefix_refl _) entries hentries o ho sum hsum
  rw [hmetric]
  refine ⟨hnumber, hexact.trans ?_⟩
  unfold exactTotal Dict.values
  rw [List.filterMap_map]
  exact ((hperm.filterMap _).map _).sum_eq

lemma defined (h : Mergeable objectives choices) (hchoices : choices ≠ [])
    (hentries : Picked choices entries) : (combination entries).Defined objectives := by
  refine PortfolioSolution.defined_iff.mpr ⟨?_, (h.alike_violation hentries hentries).left⟩
  intro a ha
  obtain ⟨o, ho, rfl⟩ := List.mem_map.mp ha
  exact Objective.isNumber_cost.mpr (h.exact_metric hobjectives hchoices hentries ho).1

/-- Combinations are compared by their exact sums. -/
lemma rowUnits_le_iff (h : Mergeable objectives choices) (hchoices : choices ≠ [])
    (hentries : Picked choices entries) (hentries' : Picked choices entries') :
    List.Forall₂ (· ≤ ·) (rowUnits ((combination entries).costs objectives))
        (rowUnits ((combination entries').costs objectives)) ↔
      ∀ o ∈ objectives, o.NoWorse (exactTotal o entries) (exactTotal o entries') := by
  unfold rowUnits PortfolioSolution.costs
  rw [List.map_map, List.map_map, List.forall₂_map_left_iff, List.forall₂_map_right_iff,
    List.forall₂_same]
  refine forall₂_congr fun o ho => ?_
  obtain ⟨hnumber, hexact⟩ := h.exact_metric hobjectives hchoices hentries ho
  obtain ⟨hnumber', hexact'⟩ := h.exact_metric hobjectives hchoices hentries' ho
  rw [← hexact, ← hexact']
  exact Objective.units_cost_le_iff hnumber hnumber'

/-- Between combinations of the same fronts, to beat is to dominate. -/
lemma beats_iff_dominates (h : Mergeable objectives choices) (hchoices : choices ≠ [])
    (hentries : Picked choices entries) (hentries' : Picked choices entries') :
    ((combination entries).judgement objectives).beats
        ((combination entries').judgement objectives) ↔
      dominates ((combination entries).costs objectives)
        ((combination entries').costs objectives) := by
  have hdefined := h.defined hobjectives hchoices hentries
  have hdefined' := h.defined hobjectives hchoices hentries'
  have hpenalty : ((combination entries).judgement objectives).penalty =
      ((combination entries').judgement objectives).penalty :=
    congrArg (max · 0) (h.alike_violation hentries hentries').units_eq
  rw [Judgement.beats_iff hdefined hdefined', PortfolioSolution.dominates_iff hdefined hdefined']
  constructor
  · rintro (hlt | ⟨-, hdominates⟩)
    · exact absurd hpenalty (Int.ne_of_lt hlt)
    · exact hdominates
  · exact fun hdominates => Or.inr ⟨hpenalty, hdominates⟩

end Additive

end Mergeable

/-! ## The combinations that go on -/

/-- What goes on after some sites: combinations of their fronts of which none dominates another and
no costs occur twice, and which cover all combinations by their exact sums. -/
structure Frontier (objectives : List Objective) (done : List (Site × List SiteSolution))
    (partials : List (Dict SiteSolution)) : Prop where
  picked : ∀ d ∈ partials, ∃ entries, Picked done entries ∧ d = Dict.ofList entries
  covers : ∀ entries, Picked done entries → ∃ kept, Picked done kept ∧
    Dict.ofList kept ∈ partials ∧
      ∀ o ∈ objectives, o.NoWorse (exactTotal o kept) (exactTotal o entries)
  free : ∀ d ∈ partials, ∀ d' ∈ partials,
    ¬ dominates ((PortfolioSolution.ofSites d' .none).costs objectives)
      ((PortfolioSolution.ofSites d .none).costs objectives)
  distinct : (partials.map fun d => (PortfolioSolution.ofSites d .none).point objectives).Nodup

lemma frontier_empty (objectives : List Objective) : Frontier objectives [] [.empty] where
  picked := List.forall_mem_singleton.mpr ⟨[], .nil, rfl⟩
  covers entries hentries := by
    cases hentries
    exact ⟨[], .nil, List.mem_cons_self, fun o _ => .refl o _⟩
  free := by
    rw [List.forall_mem_singleton, List.forall_mem_singleton]
    exact not_dominates_self _
  distinct := List.nodup_singleton _

lemma Picked.append_singleton {site : Site} {front : List SiteSolution}
    (h : Picked (done ++ [(site, front)]) entries) :
    ∃ before s, Picked done before ∧ s ∈ front ∧ entries = before ++ [(site.siteId, s)] := by
  obtain ⟨before, last, hbefore, hlast, rfl⟩ := forall₂_append_left h
  obtain ⟨⟨k, s⟩, none, ⟨hkey, hmem⟩, hnone, rfl⟩ := List.forall₂_cons_left_iff.mp hlast
  rw [List.forall₂_nil_left_iff] at hnone
  dsimp only at hkey hmem
  subst hkey hnone
  exact ⟨before, s, hbefore, hmem, rfl⟩

lemma mem_extend {siteId : String} {front : List SiteSolution} {x : PortfolioSolution} :
    x ∈ extend siteId front partials ↔
      ∃ d ∈ partials, ∃ s ∈ front, x = .ofSites (d.insert siteId s) .none := by
  unfold extend
  rw [List.mem_flatMap]
  simp only [List.mem_map, eq_comm]

section Steps

variable (hobjectives : ∀ o ∈ objectives, o ∈ Objective.additive)
include hobjectives

/-- The best combinations with the next site are its frontier. -/
theorem Frontier.step {site : Site} {front : List SiteSolution}
    (hmergeable : Mergeable objectives (done ++ [(site, front)]))
    (h : Frontier objectives done partials) :
    Frontier objectives (done ++ [(site, front)])
      ((bestFront objectives (extend site.siteId front partials)).map (·.sites)) := by
  have hne : done ++ [(site, front)] ≠ [] := List.append_ne_nil_of_right_ne_nil _ (by simp)
  have hpicked : ∀ x ∈ extend site.siteId front partials,
      ∃ entries, Picked (done ++ [(site, front)]) entries ∧ x = combination entries := by
    intro x hx
    obtain ⟨d, hd, s, hs, rfl⟩ := mem_extend.mp hx
    obtain ⟨before, hbefore, rfl⟩ := h.picked d hd
    refine ⟨before ++ [(site.siteId, s)], List.rel_append hbefore (.cons ⟨rfl, hs⟩ .nil), ?_⟩
    rw [combination, Dict.ofList_append_singleton]
  have hdefined : ∀ x ∈ extend site.siteId front partials, x.Defined objectives := by
    intro x hx
    obtain ⟨entries, hentries, rfl⟩ := hpicked x hx
    exact hmergeable.defined hobjectives hne hentries
  have hsites : ∀ x ∈ bestFront objectives (extend site.siteId front partials),
      PortfolioSolution.ofSites x.sites .none = x := by
    intro x hx
    obtain ⟨entries, -, rfl⟩ := hpicked x (unbeaten_of_mem_bestFront hdefined hx).1
    rfl
  refine ⟨?_, fun entries hentries => ?_, ?_, ?_⟩
  · refine List.forall_mem_map.mpr fun x hx => ?_
    obtain ⟨entries, hentries, rfl⟩ := hpicked x (unbeaten_of_mem_bestFront hdefined hx).1
    exact ⟨entries, hentries, rfl⟩
  · -- A kept combination of the sites before is no worse, and stays so with the new solution.
    obtain ⟨before, s, hbefore, hs, rfl⟩ := hentries.append_singleton
    obtain ⟨kept, hkept, hmem, hcovers⟩ := h.covers before hbefore
    have hextended : Picked (done ++ [(site, front)]) (kept ++ [(site.siteId, s)]) :=
      List.rel_append hkept (.cons ⟨rfl, hs⟩ .nil)
    have hmember : combination (kept ++ [(site.siteId, s)]) ∈
        extend site.siteId front partials := by
      rw [combination, Dict.ofList_append_singleton]
      exact mem_extend.mpr ⟨_, hmem, s, hs, rfl⟩
    obtain ⟨y, hy, hfree, hbetter⟩ := exists_best hdefined hmember
    obtain ⟨t, ht, hpoint⟩ := exists_mem_bestFront hy hfree
    obtain ⟨better, hpickedy, rfl⟩ := hpicked y hy
    have htmem := (unbeaten_of_mem_bestFront hdefined ht).1
    obtain ⟨best, hbest, rfl⟩ := hpicked t htmem
    have hrows : List.Forall₂ (· ≤ ·) (rowUnits ((combination best).costs objectives))
        (rowUnits ((combination (kept ++ [(site.siteId, s)])).costs objectives)) := by
      rw [(PortfolioSolution.point_eq_iff (hdefined _ htmem) (hdefined _ hy)).mp hpoint]
      rcases hbetter with heq | hbeats
      · rw [heq]
        exact List.forall₂_refl _
      · rw [hmergeable.beats_iff_dominates hobjectives hne hpickedy hextended,
          PortfolioSolution.dominates_iff (hdefined _ hy) (hdefined _ hmember)] at hbeats
        exact hbeats.1
    rw [hmergeable.rowUnits_le_iff hobjectives hne hbest hextended] at hrows
    refine ⟨best, hbest, List.mem_map_of_mem (f := (·.sites)) ht, fun o ho => ?_⟩
    refine (hrows o ho).trans ?_
    rw [exactTotal_append, exactTotal_append]
    exact (hcovers o ho).add _
  · intro d hd d' hd'
    obtain ⟨x, hx, rfl⟩ := List.mem_map.mp hd
    obtain ⟨y, hy, rfl⟩ := List.mem_map.mp hd'
    rw [hsites x hx, hsites y hy]
    obtain ⟨hxmem, hfree⟩ := unbeaten_of_mem_bestFront hdefined hx
    have hymem := (unbeaten_of_mem_bestFront hdefined hy).1
    have hnot := hfree y hymem
    obtain ⟨entries, hentries, rfl⟩ := hpicked x hxmem
    obtain ⟨entries', hentries', rfl⟩ := hpicked y hymem
    rwa [hmergeable.beats_iff_dominates hobjectives hne hentries' hentries] at hnot
  · have hpoints : (bestFront objectives (extend site.siteId front partials)).map
        (fun x => (PortfolioSolution.ofSites x.sites .none).point objectives) =
        (bestFront objectives (extend site.siteId front partials)).map (·.point objectives) :=
      List.map_congr_left fun x hx => congrArg (·.point objectives) (hsites x hx)
    rw [List.map_map]
    exact hpoints ▸ nodup_points_paretoSet objectives _

/-- What goes on after all sites is optimal. -/
theorem Frontier.optimal (hmergeable : Mergeable objectives choices)
    (h : Frontier objectives choices partials) {d : Dict SiteSolution} (hd : d ∈ partials) :
    Optimal objectives choices (.ofSites d .none) := by
  obtain ⟨entries, hentries, rfl⟩ := h.picked d hd
  refine ⟨⟨entries, hentries, rfl⟩, fun other hother hdominates => ?_⟩
  by_cases hchoices : choices = []
  · subst hchoices
    cases hentries
    cases hother
    exact not_dominates_self _ hdominates
  · obtain ⟨kept, hkept, hmem, hcovers⟩ := h.covers other hother
    have hdefined := hmergeable.defined hobjectives hchoices hentries
    have hrows := (hmergeable.rowUnits_le_iff hobjectives hchoices hkept hother).mpr hcovers
    obtain ⟨hle, hne⟩ := (PortfolioSolution.dominates_iff
      (hmergeable.defined hobjectives hchoices hother) hdefined).mp hdominates
    refine h.free _ hd _ hmem ((PortfolioSolution.dominates_iff
      (hmergeable.defined hobjectives hchoices hkept) hdefined).mpr
        ⟨forall₂_le_trans hrows hle, fun hsame => hne ?_⟩)
    have hback : List.Forall₂ (· ≤ ·) (rowUnits ((combination entries).costs objectives))
        (rowUnits ((combination other).costs objectives)) := hsame ▸ hrows
    exact forall₂_le_antisymm hle hback

/-- The costs of every optimal combination go on. -/
theorem Frontier.exists_of_optimal (hmergeable : Mergeable objectives choices)
    (h : Frontier objectives choices partials) {y : PortfolioSolution}
    (hy : Optimal objectives choices y) :
    ∃ d ∈ partials, (PortfolioSolution.ofSites d .none).point objectives = y.point objectives := by
  obtain ⟨⟨entries, hentries, rfl⟩, hfree⟩ := hy
  obtain ⟨kept, hkept, hmem, hcovers⟩ := h.covers entries hentries
  refine ⟨_, hmem, ?_⟩
  by_cases hchoices : choices = []
  · subst hchoices
    cases hentries
    cases hkept
    rfl
  · have hdefined := hmergeable.defined hobjectives hchoices hentries
    have hkeptDefined := hmergeable.defined hobjectives hchoices hkept
    have hrows := (hmergeable.rowUnits_le_iff hobjectives hchoices hkept hentries).mpr hcovers
    have hnot := hfree kept hkept
    rw [PortfolioSolution.dominates_iff hkeptDefined hdefined, not_and, not_not] at hnot
    exact (PortfolioSolution.point_eq_iff hkeptDefined hdefined).mpr (hnot hrows)

/-- If no front is too large, what goes on is a frontier after any number of sites. -/
theorem frontier_mergeFrom (hmergeable : Mergeable objectives (done ++ rest))
    (hlimit : ∀ front ∈ frontsFrom objectives rest partials, front.length ≤ limit)
    (h : Frontier objectives done partials) :
    Frontier objectives (done ++ rest) (mergeFrom objectives limit rest partials) := by
  induction rest generalizing done partials with
  | nil => rwa [List.append_nil]
  | cons choice rest ih =>
    obtain ⟨site, front⟩ := choice
    obtain ⟨hfront, hlater⟩ := List.forall_mem_cons.mp hlimit
    rw [List.append_cons] at hmergeable ⊢
    have hstep := h.step hobjectives (hmergeable.of_prefix (List.prefix_append _ _))
    unfold mergeFrom leastCrowded
    dsimp only
    rw [if_pos hfront]
    exact ih hmergeable hlater hstep

end Steps

/-- Every merged combination has costs that no combination of the fronts dominates, and each such
costs are merged exactly once. -/
theorem merge_exact {portfolio : List Site} {fronts : List (List SiteSolution)}
    (hobjectives : ∀ o ∈ objectives, o ∈ Objective.additive)
    (hmergeable : Mergeable objectives (portfolio.zip fronts))
    (hlimit : ∀ front ∈ frontsFrom objectives (portfolio.zip fronts) [.empty],
      front.length ≤ limit) :
    (∀ x ∈ merge objectives limit portfolio fronts, Optimal objectives (portfolio.zip fronts) x) ∧
    ∀ y, Optimal objectives (portfolio.zip fronts) y →
      ((merge objectives limit portfolio fronts).map (·.point objectives)).count
        (y.point objectives) = 1 := by
  have hfrontier := frontier_mergeFrom hobjectives hmergeable hlimit (frontier_empty objectives)
  refine ⟨List.forall_mem_map.mpr fun d hd => hfrontier.optimal hobjectives hmergeable hd,
    fun y hy => ?_⟩
  obtain ⟨d, hd, hpoint⟩ := hfrontier.exists_of_optimal hobjectives hmergeable hy
  unfold merge
  rw [List.map_map]
  exact List.count_eq_one_of_mem hfrontier.distinct (List.mem_map.mpr ⟨d, hd, hpoint⟩)

end Separated

/-! ## Two piers -/

/-- A solution of a site that costs and saves whole pounds. -/
def bargain (site : Site) (capex saved : Int) : SiteSolution :=
  site.solution (.fill 0) site.baselineScenario (((Totals.fill 0).set .capex
    (.number (Number.ofInt capex))).set .electricityExportGain (.number (Number.ofInt saved)))

/-- Two sites, of which the later one in the portfolio has the smaller id. -/
def piers : List Site := [{ depot with siteId := "south" }, { depot with siteId := "north" }]

def pierFronts : List (List SiteSolution) :=
  [[bargain depot 1 2, bargain depot 3 5], [bargain depot 1 1, bargain depot 2 4, bargain depot 4 5]]

/-- Of six combinations two are dominated: four pounds save six, and five save seven. -/
theorem Separated.merge_exact_piers :
    Mergeable [.capex, .costBalance] (piers.zip pierFronts) ∧
    (merge [.capex, .costBalance] 4 piers pierFronts).map
      (fun x => (x.metrics.capex, x.metrics.costBalance)) =
        [(some (.number 2.0), some (.number 3.0)), (some (.number 3.0), some (.number 6.0)),
          (some (.number 5.0), some (.number 9.0)), (some (.number 7.0), some (.number 10.0))] ∧
    ∀ y, Optimal [.capex, .costBalance] (piers.zip pierFronts) y →
      ((merge [.capex, .costBalance] 4 piers pierFronts).map (·.point [.capex, .costBalance])).count
        (y.point [.capex, .costBalance]) = 1 := by
  have hmergeable : Mergeable [.capex, .costBalance] (piers.zip pierFronts) := by decide +kernel
  refine ⟨hmergeable, by decide +kernel, ?_⟩
  exact (merge_exact (by decide) hmergeable (by decide +kernel)).2

end Retrofit
