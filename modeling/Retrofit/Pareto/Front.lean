import Retrofit.Pareto.Dominance

/-!
# Fronts

`peel` sorts candidates into fronts: the first holds those that no candidate beats, the next those
that no remaining one beats, and so on. If undefined numbers leave no unbeaten candidate, the
remaining ones are the last front. `fronts` does so by the judgements of the candidates.
`paretoSet` keeps the solutions that none dominates, and of several with the same costs the first;
`bestFront` is the Pareto set of the first front.
-/

namespace Retrofit

def beaten {ι : Type} (beats : ι → ι → Bool) (candidates : List ι) (x : ι) : Bool :=
  candidates.any (beats · x)

def unbeaten {ι : Type} (beats : ι → ι → Bool) (candidates : List ι) : List ι :=
  candidates.filter fun x => !beaten beats candidates x

theorem mem_unbeaten {ι : Type} {beats : ι → ι → Bool} {candidates : List ι} {x : ι} :
    x ∈ unbeaten beats candidates ↔ x ∈ candidates ∧ ∀ y ∈ candidates, ¬ beats y x := by
  simp [unbeaten, beaten]

/-- The candidates that one of them beats. -/
def outdone {ι : Type} (beats : ι → ι → Bool) (candidates : List ι) : List ι :=
  candidates.filter (beaten beats candidates)

theorem length_outdone_lt {ι : Type} {beats : ι → ι → Bool} {candidates : List ι}
    (h : ¬ (unbeaten beats candidates).isEmpty) :
    (outdone beats candidates).length < candidates.length := by
  obtain ⟨x, hx⟩ := List.isEmpty_eq_false_iff_exists_mem.mp (Bool.eq_false_iff.mpr h)
  obtain ⟨hmem, hnot⟩ := List.mem_filter.mp hx
  exact List.length_filter_lt_length_iff_exists.mpr ⟨x, hmem, by simpa using hnot⟩

/-- Sorts candidates into fronts by a relation that says who beats whom. Candidates stay in their
order within a front. -/
def peel {ι : Type} (beats : ι → ι → Bool) (candidates : List ι) : List (List ι) :=
  if candidates.isEmpty then []
  else if (unbeaten beats candidates).isEmpty then [candidates]
  else unbeaten beats candidates :: peel beats (outdone beats candidates)
termination_by candidates.length
decreasing_by exact length_outdone_lt ‹_›

/-- Sorts items into fronts by their judgements. -/
def fronts {ι : Type} (judge : ι → Judgement) (items : List ι) : List (List ι) :=
  (peel (fun a b => a.2.beats b.2) (items.map fun x => (x, judge x))).map (·.map Prod.fst)

/-- The items of the first front, without a look at the others. -/
def firstFront {ι : Type} (judge : ι → Judgement) (items : List ι) : List ι :=
  let free := unbeaten (fun a b => a.2.beats b.2) (items.map fun x => (x, judge x))
  if free.isEmpty then items else free.map Prod.fst

theorem head?_fronts {ι : Type} (judge : ι → Judgement) (items : List ι) :
    (fronts judge items).head? = if items.isEmpty then none else some (firstFront judge items) := by
  cases items with
  | nil => simp [fronts, peel]
  | cons x rest =>
    rw [fronts, peel]
    by_cases h : (unbeaten (fun a b => a.2.beats b.2)
        ((x :: rest).map fun x => (x, judge x))).isEmpty
    · simp_all [firstFront, Function.comp_def]
    · simp_all [firstFront]

/-- The places of the candidates of each front. -/
def frontPlaces (candidates : List Judgement) : List (List Nat) :=
  (fronts Prod.fst candidates.zipIdx).map (·.map Prod.snd)

/-- The places of the rows that no row dominates. -/
def nonDominatedPlaces (rows : List (List Amount)) : List Nat :=
  (unbeaten (fun a b => dominates a.1 b.1) rows.zipIdx).map Prod.snd

/-- The first entry of every key. -/
def firstOfKeys {ι κ : Type} [DecidableEq κ] : List (κ × ι) → List (κ × ι)
  | [] => []
  | e :: rest => e :: (firstOfKeys rest).filter fun e' => e'.1 ≠ e.1

/-- The first item of every key. -/
def distinctBy {ι κ : Type} [DecidableEq κ] (key : ι → κ) (items : List ι) : List ι :=
  (firstOfKeys (items.map fun x => (key x, x))).map Prod.snd

/-- The costs of a solution as a point, in which both zeros are the same. -/
def PortfolioSolution.point (objectives : List Objective) (s : PortfolioSolution) :
    List Amount :=
  (s.costs objectives).map (· + 0)

/-- The solutions that none dominates on the objectives, without repetitions of their costs. -/
def paretoSet (objectives : List Objective) (solutions : List PortfolioSolution) :
    List PortfolioSolution :=
  let distinct := distinctBy (·.point objectives) solutions
  (unbeaten (fun a b => dominates a.2 b.2) (distinct.map fun s => (s, s.costs objectives))).map
    Prod.fst

/-- The Pareto set of the solutions that no solution beats under the constraints. -/
def bestFront (objectives : List Objective) (solutions : List PortfolioSolution) :
    List PortfolioSolution :=
  paretoSet objectives (firstFront (·.judgement objectives) solutions)

end Retrofit
