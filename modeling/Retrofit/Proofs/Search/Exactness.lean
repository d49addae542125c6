import Retrofit.Proofs.Search.Reports

/-!
# Grid search is exact

On a space of whole genes a grid search that has room for all points evaluates every candidate there
is, so what it reports is the best of them all (`Grid.exact_of_discrete`): none is beaten by another
candidate, whoever finds it, and the point of every unbeaten candidate is reported once.
-/

namespace Retrofit

open Retrofit.Random

variable {outcome : Scenario → Except Fault (Totals Amount)} {portfolio : List Site}
  {constraints : Constraints} {space : Space}

lemma appraise_congr {c c' : Chromosome} (h : space.decode c = space.decode c') :
    appraise outcome space portfolio constraints c =
      appraise outcome space portfolio constraints c' := by
  unfold appraise
  rw [h]

namespace Grid

variable {steps : Nat} {evaluated : List PortfolioSolution} {objectives : List Objective}

/-- The evaluated points of a grid are all candidates of a discrete space. -/
lemma exists_mem_evaluated (hspace : Space.ofPortfolio portfolio = .ok space)
    (hdiscrete : space.Discrete)
    (h : List.Forall₂ (fun c x => appraise outcome space portfolio constraints c = some x)
      (allPoints (space.genes.map (Axis.ofGene steps))) evaluated) {c : Chromosome}
    (hc : c.length = space.genes.length) :
    ∃ x ∈ evaluated, appraise outcome space portfolio constraints c = some x := by
  obtain ⟨p, hp, hdecode⟩ := Space.exists_mem_allPoints_decode hspace hdiscrete steps hc
  obtain ⟨x, hx, happraise⟩ := exists_of_mem_left h hp
  exact ⟨x, hx, (appraise_congr hdecode).symm.trans happraise⟩

lemma mem_evaluated_iff (hspace : Space.ofPortfolio portfolio = .ok space)
    (hdiscrete : space.Discrete)
    (h : List.Forall₂ (fun c x => appraise outcome space portfolio constraints c = some x)
      (allPoints (space.genes.map (Axis.ofGene steps))) evaluated) {x : PortfolioSolution} :
    x ∈ evaluated ↔ Attained outcome space portfolio constraints x := by
  constructor
  · intro hx
    obtain ⟨c, hc, happraise⟩ := exists_of_mem_right h hx
    exact ⟨c, (length_of_mem_allPoints hc).trans (List.length_map _), happraise⟩
  · rintro ⟨c, hc, happraise⟩
    obtain ⟨y, hy, happraise'⟩ := exists_mem_evaluated hspace hdiscrete h hc
    rw [happraise] at happraise'
    cases happraise'
    exact hy

/-- What is reported of some candidates is beaten by none of them. -/
lemma not_beats_of_mem_report (defined : ∀ x ∈ evaluated, x.Defined objectives)
    {x y : PortfolioSolution} (hx : x ∈ evaluated)
    (hy : y ∈ paretoSet objectives (bestFront objectives evaluated)) :
    ¬ (x.judgement objectives).beats (y.judgement objectives) :=
  (unbeaten_of_mem_bestFront defined (mem_of_mem_paretoSet hy)).2 x hx

/-- The point of a candidate that none beats is reported once. -/
lemma count_point_report {x : PortfolioSolution} (hx : x ∈ evaluated)
    (hfree : ∀ y ∈ evaluated, ¬ (y.judgement objectives).beats (x.judgement objectives)) :
    ((paretoSet objectives (bestFront objectives evaluated)).map (·.point objectives)).count
      (x.point objectives) = 1 := by
  obtain ⟨y, hy, hpoint⟩ := exists_mem_bestFront hx hfree
  rw [paretoSet_bestFront]
  apply List.count_eq_one_of_mem (nodup_points_paretoSet _ _)
  exact List.mem_map.mpr ⟨y, hy, hpoint⟩

/-- A grid search over all points of a discrete space is exact. Every chromosome has an evaluation,
which beats nothing that is reported; every point that no candidate beats is reported once; and no
search for the same portfolio, whatever it starts from, finds anything that beats what is
reported. -/
theorem exact_of_discrete {σ γ : Type} [Source γ] (engine : Engine σ γ) (settings : Settings)
    (request : Request) (outcome : Scenario → Except Fault (Totals Amount)) (space : Space)
    (cache cache' : Cache σ) (result : OptimisationResult)
    (hsimulate : engine.simulate.Computes outcome) (hcache : cache.Sound outcome)
    (hspace : Space.ofPortfolio request.portfolio = .ok space) (hdiscrete : space.Discrete)
    (hsize : size (space.genes.map (Axis.ofGene settings.continuousSteps)) ≤
      settings.maxEvaluations)
    (hdefined : ∀ c ∈ allPoints (space.genes.map (Axis.ofGene settings.continuousSteps)), ∀ x,
      appraise outcome space request.portfolio request.constraints c = some x →
        x.Defined request.objectives)
    (h : Returns (Grid.run engine settings request) cache result cache') :
    (∀ c : Chromosome, c.length = space.genes.length →
      ∃ x, appraise outcome space request.portfolio request.constraints c = some x ∧
        ∀ y ∈ result.solutions,
          ¬ (x.judgement request.objectives).beats (y.judgement request.objectives)) ∧
    (∀ x, Attained outcome space request.portfolio request.constraints x →
      (∀ y, Attained outcome space request.portfolio request.constraints y →
        ¬ (y.judgement request.objectives).beats (x.judgement request.objectives)) →
      (result.solutions.map (·.point request.objectives)).count (x.point request.objectives) = 1) ∧
    ∀ (σ' γ' : Type) [Source γ'] (engine' : Engine σ' γ') (optimiser : Optimiser)
      (existing : List PortfolioSolution) (before after : Cache σ') (other : OptimisationResult),
      engine'.simulate.Computes outcome → before.Sound outcome →
      Returns (optimiser.run engine' { request with existing }) before other after →
        ∀ x ∈ other.solutions, ∀ y ∈ result.solutions,
          ¬ (x.judgement request.objectives).beats (y.judgement request.objectives) := by
  obtain ⟨space', evaluated, hspace', hall, hsolutions⟩ := returns_run hsimulate hcache h
  rw [hspace] at hspace'
  cases hspace'
  have hpoints : ((points (space.genes.map (Axis.ofGene settings.continuousSteps))
      settings.maxEvaluations).run (engine.source settings.seed)).1 =
        allPoints (space.genes.map (Axis.ofGene settings.continuousSteps)) := by
    unfold points
    rw [if_pos hsize]
    rfl
  rw [hpoints] at hall
  have hmem := @mem_evaluated_iff outcome _ _ _ _ _ hspace hdiscrete hall
  have defined : ∀ x ∈ evaluated, x.Defined request.objectives := by
    intro x hx
    obtain ⟨c, hc, happraise⟩ := exists_of_mem_right hall hx
    exact hdefined c hc x happraise
  have hnot : ∀ x, Attained outcome space request.portfolio request.constraints x →
      ∀ y ∈ result.solutions,
        ¬ (x.judgement request.objectives).beats (y.judgement request.objectives) := by
    intro x hx y hy
    rw [hsolutions] at hy
    exact not_beats_of_mem_report defined (hmem.mpr hx) hy
  refine ⟨fun c hc => ?_, fun x hx hfree => ?_, ?_⟩
  · obtain ⟨x, hx, happraise⟩ := exists_mem_evaluated hspace hdiscrete hall hc
    exact ⟨x, happraise, hnot x (hmem.mp hx)⟩
  · rw [hsolutions]
    exact count_point_report (hmem.mpr hx) fun y hy => hfree y (hmem.mp hy)
  · intro σ' γ' _ engine' optimiser existing before after other hsimulate' hbefore hother x hx
    exact hnot x (Optimiser.honest_run hsimulate' hbefore hother space hspace x hx)

/-- On the depot the grid search reports the one point without a battery, which nothing beats that
NSGA-II finds there. -/
theorem exact_of_discrete_depot : ∃ result cache,
    Returns (Grid.run depotEngine (Settings.default 1) depotRequest) (.start ()) result cache ∧
    (∃ x, Attained depotOutcome depotProblem.space [depot] .none x ∧
      (result.solutions.map (·.point [.capex])).count (x.point [.capex]) = 1) ∧
    ∃ other cache', Returns (Nsga2.run depotEngine Nsga2.depotSettings depotRequest) (.start ())
      other cache' ∧ ∀ x ∈ other.solutions, ∀ y ∈ result.solutions,
        ¬ (x.judgement [.capex]).beats (y.judgement [.capex]) := by
  have hspace : Space.ofPortfolio [depot] = .ok depotProblem.space :=
    (PortfolioProblem.returns_build computes_depotSimulator (Cache.sound_start _ _)
      returns_build_depot).1.space
  have hgenes : depotProblem.space.genes = [.integer 0 2] := by decide +kernel
  have hdiscrete : depotProblem.space.Discrete := by
    intro g hg
    rw [hgenes, List.mem_singleton] at hg
    exact ⟨0, 2, hg⟩
  have hdefined : ∀ c ∈ allPoints (depotProblem.space.genes.map (Axis.ofGene 5)), ∀ x,
      appraise depotOutcome depotProblem.space [depot] .none c = some x →
        x.Defined [.capex] := by
    have hall : ∀ c ∈ allPoints (depotProblem.space.genes.map (Axis.ofGene 5)),
        ∀ x ∈ appraise depotOutcome depotProblem.space [depot] .none c, x.Defined [.capex] := by
      decide +kernel
    exact fun c hc x hx => hall c hc x hx
  have hgrid := returns_of_isOk ⟨[], 0, ⟨0, 0⟩, none⟩ (by decide +kernel :
    ((Grid.run depotEngine (Settings.default 1) depotRequest).run.run (.start ())).1.isOk)
  have hother := returns_of_isOk ⟨[], 0, ⟨0, 0⟩, none⟩ (by decide +kernel :
    ((Nsga2.run depotEngine Nsga2.depotSettings depotRequest).run.run (.start ())).1.isOk)
  obtain ⟨hevery, honce, hbest⟩ := exact_of_discrete depotEngine (Settings.default 1) depotRequest
    depotOutcome depotProblem.space (.start ()) _ _ computes_depotSimulator (Cache.sound_start _ _)
    hspace hdiscrete (by decide +kernel) hdefined hgrid
  refine ⟨_, _, hgrid, ?_, _, _, hother, ?_⟩
  · have hne : (returnedOr (Grid.run depotEngine (Settings.default 1) depotRequest) (.start ())
        ⟨[], 0, ⟨0, 0⟩, none⟩).solutions ≠ [] :=
      List.isEmpty_eq_false_iff.mp (by decide +kernel)
    obtain ⟨x, hx⟩ := List.exists_mem_of_ne_nil _ hne
    have hattained := Grid.honest_run computes_depotSimulator (Cache.sound_start _ _) hgrid
      depotProblem.space hspace x hx
    refine ⟨x, hattained, honce x hattained ?_⟩
    rintro y ⟨c, hc, happraise⟩
    obtain ⟨y', happraise', hnot⟩ := hevery c hc
    rw [happraise] at happraise'
    cases happraise'
    exact hnot x hx
  · exact hbest Unit ChaCha depotEngine (.nsga2 Nsga2.depotSettings) [] (.start ()) _ _
      computes_depotSimulator (Cache.sound_start _ _) hother

end Grid

end Retrofit
