import Mathlib.Data.List.Chain
import Retrofit.Proofs.Search.Meetings
import Retrofit.Proofs.Search.Shape
import Retrofit.Proofs.Search.Survival

/-!
# What the history of NSGA-II tells

The summaries of an evolution follow from its journal like its populations do, and from the counts of
evaluations at the ends of its generations (`history_of_returns_evolve`). A generation counts no more
candidates than it has places. It drops none of the members it chooses from unless the places are
full, and the feasible ones last, so it has as many feasible members as the generation before. A run
that keeps a history reports exactly this (`history_tells_run`).
-/

namespace Retrofit

open Retrofit.Random

section Pace

variable {τ : Type} {p : Problem τ}

/-- From one count of evaluations to another no more were added than there are places. -/
def Paced (places before after : Nat) : Prop := before ≤ after ∧ after ≤ before + places

/-- The evaluation of a candidate counts it once at most. -/
def Problem.CountsOnce (p : Problem τ) : Prop :=
  ∀ c t x t', Returns (p.evaluate c) t x t' → Paced 1 (p.evaluations t) (p.evaluations t')

lemma Problem.CountsOnce.evaluateAll (h : p.CountsOnce) {chromosomes : List Chromosome} {t t' : τ}
    {solutions : List PortfolioSolution}
    (hsolutions : Returns (p.evaluateAll chromosomes) t solutions t') :
    Paced chromosomes.length (p.evaluations t) (p.evaluations t') := by
  unfold Problem.evaluateAll at hsolutions
  unfold CountsOnce Paced at h
  induction chromosomes generalizing t solutions with
  | nil =>
    obtain ⟨-, rfl⟩ := returns_pure.mp hsolutions
    exact ⟨Nat.le_refl _, Nat.le_refl _⟩
  | cons c rest ih =>
    rw [List.mapM_cons] at hsolutions
    obtain ⟨x, t₁, hx, hsolutions⟩ := returns_bind.mp hsolutions
    obtain ⟨xs, t₂, hxs, hsolutions⟩ := returns_bind.mp hsolutions
    obtain ⟨-, rfl⟩ := returns_pure.mp hsolutions
    have hfirst := h c t x t₁ hx
    obtain ⟨hle, hplaces⟩ := ih hxs
    rw [List.length_cons]
    exact ⟨by omega, by omega⟩

lemma PortfolioProblem.countsOnce {σ : Type} {simulate : Simulator σ} {portfolio : List Site}
    {constraints : Constraints} {prepared : PortfolioProblem} {trial trial' : Trial σ}
    (hbuild : Returns (build simulate portfolio constraints) trial prepared trial') :
    (prepared.problem simulate).CountsOnce := by
  intro c t x t' hx
  obtain ⟨n, htallies, hcount⟩ :=
    tallies_of_returns_evaluate (length_decode_of_returns_build hbuild c) hx
  have hle : n ≤ 1 := htallies.count_eq ▸ newCandidates_le _ _
  change t.evaluations ≤ t'.evaluations ∧ t'.evaluations ≤ t.evaluations + 1
  omega

lemma Nested.FrontProblem.countsOnce (choice : FrontProblem) (evaluations : Nat) :
    (choice.problem evaluations : Problem τ).CountsOnce :=
  fun _ _ _ _ _ => ⟨Nat.le_refl _, Nat.le_succ _⟩

end Pace

namespace Nsga2

variable {objectives : List Objective}

/-- The summaries of some generations from a number on, if a journal holds their candidates and the
counts of evaluations at their ends are given. -/
def summaries (objectives : List Objective) (places : Nat) :
    (generation : Nat) → (counts : List Nat) → List Member → Journal → List GenerationSummary
  | _, [], _, _ => []
  | generation, evaluations :: counts, population, journal =>
    let next := survive objectives places (contestants population (journal.take places))
    summarise generation evaluations objectives next ::
      summaries objectives places (generation + 1) counts next (journal.drop places)

/-- Counts of evaluations at the ends of some generations. -/
structure Counts (places generations start finish : Nat) (counts : List Nat) : Prop where
  length_eq : counts.length = generations
  paced : (start :: counts).IsChain (Paced places)
  last_eq : (start :: counts).getLast (List.cons_ne_nil _ _) = finish

lemma counts_nil (places start : Nat) : Counts places 0 start start [] :=
  ⟨rfl, .singleton start, rfl⟩

lemma Counts.cons {places generations start middle finish : Nat} {counts : List Nat}
    (hfirst : Paced places start middle) (h : Counts places generations middle finish counts) :
    Counts places (generations + 1) start finish (middle :: counts) where
  length_eq := congrArg Nat.succ h.length_eq
  paced := .cons_cons hfirst h.paced
  last_eq := (List.getLast_cons (List.cons_ne_nil middle counts)).trans h.last_eq

lemma Counts.pairwise {places generations start finish : Nat} {counts : List Nat}
    (h : Counts places generations start finish counts) : counts.Pairwise (· ≤ ·) := by
  have hchain : (start :: counts).IsChain (· ≤ ·) := h.paced.imp fun _ _ hpaced => hpaced.1
  exact (List.pairwise_cons.mp hchain.pairwise).2

lemma Counts.eq_of_mem_getLast? {places generations start finish n : Nat} {counts : List Nat}
    (h : Counts places generations start finish counts) (hn : n ∈ counts.getLast?) : n = finish := by
  have hlast : n ∈ (start :: counts).getLast? := List.mem_getLast?_cons hn
  rw [List.getLast?_eq_getLast_of_ne_nil (List.cons_ne_nil _ _), h.last_eq] at hlast
  exact (Option.some.inj hlast).symm

/-! ## Replaying the history -/

section Replay

variable {τ γ : Type} [Source γ] {p : Problem τ} {settings : Settings} {source : γ} {t t' : τ}
  {population next last : List Member} {chromosomes : List Chromosome} {journal journal' : Journal}
  {history : List GenerationSummary}

lemma summaries_append {generation evaluations : Nat} {counts : List Nat} {first later : Journal} :
    summaries objectives first.length generation (evaluations :: counts) population (first ++ later) =
      (let next := survive objectives first.length (contestants population first)
      summarise generation evaluations objectives next ::
        summaries objectives first.length (generation + 1) counts next later) := by
  rw [summaries, List.take_left, List.drop_left]

/-- A generation counts no more candidates than it evaluates. -/
lemma paced_of_returns_select (hp : p.CountsOnce)
    (h : Returns (select p settings objectives population chromosomes) t next t') :
    Paced chromosomes.length (p.evaluations t) (p.evaluations t') := by
  obtain ⟨solutions, hsolutions, -⟩ := returns_select h
  exact hp.evaluateAll hsolutions

/-- The summaries of a breeding have the counts of evaluations at the ends of its generations. -/
lemma counts_of_returns_breed (hp : p.CountsOnce) {remaining generation : Nat}
    (h : Returns (breed p settings objectives remaining generation source population) t
      (last, history) t') :
    Counts settings.populationSize remaining (p.evaluations t) (p.evaluations t')
      (history.map (·.evaluations)) := by
  induction remaining generalizing generation source population history t with
  | zero =>
    obtain ⟨heq, rfl⟩ := returns_pure.mp h
    cases heq
    exact counts_nil _ _
  | succ remaining ih =>
    obtain ⟨children, source', next, t₁, later, hbrood, hselect, hrest, rfl⟩ :=
      steps_of_returns_breed h
    have hpaced := paced_of_returns_select hp hselect
    rw [length_of_returns_brood hbrood] at hpaced
    exact (ih hrest).cons hpaced

lemma counts_of_returns_evolve (hp : p.CountsOnce) {seeds : List Chromosome} {outcome : Outcome}
    (hgenes : p.genes ≠ [])
    (h : Returns (evolve p settings objectives seeds source) t outcome t') :
    Counts settings.populationSize settings.generations (p.evaluations t) (p.evaluations t')
      (outcome.history.map (·.evaluations)) := by
  obtain ⟨generations, hsucc⟩ := Nat.exists_eq_succ_of_ne_zero (ne_zero_of_returns_evolve h).2
  obtain ⟨chromosomes, source', population, t₁, last, later, hbrood, hselect, hrest, -, hhistory⟩ :=
    steps_of_returns_evolve hgenes h
  have hpaced := paced_of_returns_select hp hselect
  obtain ⟨hcount, -⟩ := of_returns_firstBrood (Gene.kept_true p.genes)
    (fun _ _ => Gene.forall₂_true_clip) hbrood
  rw [hcount] at hpaced
  rw [hsucc, Nat.succ_sub_one] at hrest
  rw [hhistory, hsucc]
  exact (counts_of_returns_breed hp hrest).cons hpaced

/-- What breeding adds to the journal, and the counts of evaluations in its summaries, determine
them. -/
lemma history_of_returns_breed {remaining generation : Nat} {entries : Journal}
    (hjournal : journal' = journal ++ entries)
    (h : Returns (breed p.logged settings objectives remaining generation source population)
      (t, journal) (last, history) (t', journal')) :
    history = summaries objectives settings.populationSize generation
      (history.map (·.evaluations)) population entries := by
  induction remaining generalizing generation source population history t journal entries with
  | zero =>
    obtain ⟨heq, -⟩ := returns_pure.mp h
    cases heq
    rfl
  | succ remaining ih =>
    obtain ⟨children, source', next, ⟨t₁, journal₁⟩, later, hbrood, hselect, hrest, rfl⟩ :=
      steps_of_returns_breed h
    obtain ⟨first, rfl, hfirst, rfl⟩ := contestants_of_returns_select hselect
    obtain ⟨rest, hlater, -⟩ := replay_of_returns_breed hrest
    have hentries : entries = first ++ rest := by
      rw [hjournal, List.append_assoc] at hlater
      exact List.append_cancel_left hlater
    have hplaces := hfirst.trans (length_of_returns_brood hbrood)
    rw [hentries, ← hplaces, List.map_cons, summaries_append]
    dsimp only
    rw [hplaces, ← ih hlater hrest]
    rfl

/-- The journal of an evolution and its counts of evaluations determine its history. -/
theorem history_of_returns_evolve {seeds : List Chromosome} {outcome : Outcome}
    (hgenes : p.genes ≠ [])
    (h : Returns (evolve p.logged settings objectives seeds source) (t, []) outcome (t', journal)) :
    outcome.history = summaries objectives settings.populationSize 0
      (outcome.history.map (·.evaluations)) [] journal := by
  obtain ⟨chromosomes, source', population, ⟨t₁, journal₁⟩, last, later, hbrood, hselect, hrest, -,
    hhistory⟩ := steps_of_returns_evolve (p := p.logged) hgenes h
  obtain ⟨first, rfl, hfirst, rfl⟩ := contestants_of_returns_select hselect
  obtain ⟨rest, rfl, -⟩ := replay_of_returns_breed hrest
  obtain ⟨hcount, -⟩ := of_returns_firstBrood (Gene.kept_true p.genes)
    (fun _ _ => Gene.forall₂_true_clip) hbrood
  have hplaces := hfirst.trans hcount
  rw [hhistory, ← hplaces, List.map_cons, summaries_append]
  dsimp only
  rw [hplaces, ← history_of_returns_breed rfl hrest]
  rfl

end Replay

/-! ## What the summaries say -/

section Summaries

variable {places generation start finish : Nat} {counts : List Nat} {population : List Member}
  {journal entries : Journal}

lemma map_generation_summaries : (summaries objectives places generation counts population
    journal).map (·.generation) = List.range' generation counts.length := by
  induction counts generalizing generation population journal with
  | nil => rfl
  | cons evaluations counts ih =>
    rw [summaries, List.map_cons, ih, List.length_cons, List.range'_succ]
    rfl

/-- Up to a generation no more is evaluated than the generations so far have places. -/
lemma evaluations_le_of_mem_summaries (hpaced : (start :: counts).IsChain (Paced places))
    {s : GenerationSummary}
    (hs : s ∈ summaries objectives places generation counts population journal) :
    s.evaluations + generation * places ≤ start + (s.generation + 1) * places := by
  induction counts generalizing start generation population journal with
  | nil => exact nomatch hs
  | cons evaluations counts ih =>
    obtain ⟨⟨-, hplaces⟩, hrest⟩ := List.isChain_cons_cons.mp hpaced
    rcases List.mem_cons.mp hs with rfl | hs
    · change evaluations + generation * places ≤ start + (generation + 1) * places
      rw [Nat.succ_mul]
      omega
    · have hlater := ih hrest hs
      rw [Nat.succ_mul generation] at hlater
      omega

/-- The last summary is that of the last population. -/
lemma getLast?_summaries (hcounts : counts ≠ []) :
    ∃ last ∈ (summaries objectives places generation counts population journal).getLast?,
      last.frontSize = ((lastPopulation objectives places counts.length population journal).filter
        (·.rank = 0)).length := by
  induction counts generalizing generation population journal with
  | nil => exact absurd rfl hcounts
  | cons evaluations counts ih =>
    rw [summaries, List.length_cons, lastPopulation]
    cases counts with
    | nil => exact ⟨_, rfl, List.countP_eq_length_filter⟩
    | cons evaluations' counts =>
      obtain ⟨last, hlast, hsize⟩ := ih (List.cons_ne_nil _ _)
      exact ⟨last, List.mem_getLast?_cons hlast, hsize⟩

/-- Items with different keys are kept, whatever follows them. -/
lemma sublist_distinctBy_append {ι κ : Type} [DecidableEq κ] {key : ι → κ} {items later : List ι}
    (h : items.Pairwise fun x y => key x ≠ key y) :
    items.Sublist (distinctBy key (items ++ later)) := by
  induction items with
  | nil => exact List.nil_sublist _
  | cons x items ih =>
    obtain ⟨hx, hitems⟩ := List.pairwise_cons.mp h
    rw [List.cons_append, distinctBy_cons]
    refine .cons_cons x ?_
    have hkept := (ih hitems).filter fun y => decide (key y ≠ key x)
    rwa [List.filter_eq_self.mpr fun y hy => decide_eq_true (hx y hy).symm] at hkept

lemma contestants_ne_nil (hentries : entries ≠ []) : contestants population entries ≠ [] := by
  obtain ⟨e, he⟩ := List.exists_mem_of_ne_nil _ hentries
  have hmem : (⟨e.1, e.2, 0, 0.0⟩ : Member) ∈ population ++ newcomers entries :=
    List.mem_append_right _ (List.mem_map_of_mem he)
  obtain ⟨d, hd, -⟩ := @exists_mem_distinctBy _ _ _ (·.solution.scenarios) _ _ hmem
  exact List.ne_nil_of_mem hd

/-- A population that generations left which have evaluated a journal. -/
structure Settled (places : Nat) (journal : Journal) (population : List Member) : Prop where
  evaluated : ∀ m ∈ population, (m.chromosome, m.solution) ∈ journal
  distinct : population.Pairwise fun m m' => m.solution.scenarios ≠ m'.solution.scenarios
  length_le : population.length ≤ places

lemma settled_nil (places : Nat) : Settled places [] [] :=
  ⟨fun _ hm => absurd hm List.not_mem_nil, .nil, Nat.zero_le _⟩

lemma length_survive_le (members : List Member) :
    (survive objectives places members).length ≤ places := by
  obtain ⟨kept, dropped, hsplit⟩ := exists_split_survive objectives places members
  rw [← hsplit.settles.length_eq, hsplit.length_eq]
  exact Nat.min_le_left _ _

lemma Settled.survive (h : Settled places journal population) :
    Settled places (journal ++ entries)
      (survive objectives places (contestants population entries)) where
  evaluated m hm := by
    obtain ⟨d, hd, hsame, -⟩ := mem_survive hm
    rw [hsame.1, hsame.2]
    exact mem_of_mem_contestants h.evaluated hd
  distinct := by
    have hdistinct := pairwise_distinctBy (·.solution.scenarios) (population ++ newcomers entries)
    exact List.pairwise_map.mp (nodup_scenarios_survive (List.pairwise_map.mpr hdistinct))
  length_le := length_survive_le _

/-- All members of a population are contestants of the next selection. -/
lemma Settled.sublist_contestants (h : Settled places journal population) :
    population.Sublist (contestants population entries) :=
  sublist_distinctBy_append h.distinct

/-- A selection among defined members keeps as many feasible ones as there were. -/
theorem countP_feasible_le_survive (h : Settled places journal population)
    (hdefined : ∀ e ∈ journal ++ entries, e.2.Defined objectives) :
    population.countP (·.solution.violation ≤ 0.0) ≤
      (survive objectives places (contestants population entries)).countP
        (·.solution.violation ≤ 0.0) := by
  rw [countP_feasible_survive fun d hd => hdefined _ (mem_of_mem_contestants h.evaluated hd)]
  exact Nat.le_min.mpr ⟨List.countP_le_length.trans h.length_le,
    h.sublist_contestants.countP_le⟩

/-- The summary of a population counts the members without a violation. -/
lemma feasibleCount_summarise (generation evaluations : Nat) (objectives : List Objective)
    (h : Settled places journal population) (hjudged : ∀ e ∈ journal, e.2.Judged) :
    (summarise generation evaluations objectives population).feasibleCount =
      population.countP (·.solution.violation ≤ 0.0) := by
  change (population.map (·.solution)).countP (·.feasible) = _
  rw [List.countP_map]
  refine List.countP_congr fun m hm => ?_
  rw [Function.comp_apply, hjudged _ (h.evaluated m hm)]

/-- Every generation has a first front, and no more feasible members than places. -/
lemma bounds_of_mem_summaries (hplaces : places ≠ 0)
    (hlength : entries.length = counts.length * places) {s : GenerationSummary}
    (hs : s ∈ summaries objectives places generation counts population entries) :
    1 ≤ s.frontSize ∧ s.feasibleCount ≤ places := by
  induction counts generalizing generation population entries with
  | nil => exact nomatch hs
  | cons evaluations counts ih =>
    rw [List.length_cons, Nat.succ_mul] at hlength
    rcases List.mem_cons.mp hs with rfl | hs
    · constructor
      · have htaken : entries.take places ≠ [] := by
          apply List.ne_nil_of_length_pos
          rw [List.length_take]
          omega
        obtain ⟨m, hm, hrank⟩ : ∃ m ∈ survive objectives places
            (contestants population (entries.take places)), m.rank = 0 :=
          exists_rank_zero hplaces (contestants_ne_nil htaken)
        exact List.countP_pos_iff.mpr ⟨m, hm, decide_eq_true hrank⟩
      · refine List.countP_le_length.trans ?_
        rw [List.length_map]
        exact length_survive_le _
    · refine ih ?_ hs
      rw [List.length_drop, hlength, Nat.add_sub_cancel]

/-- From one generation to the next the feasible members do not become fewer. -/
theorem isChain_feasibleCount {first : GenerationSummary} (h : Settled places journal population)
    (hdefined : ∀ e ∈ journal ++ entries, e.2.Defined objectives)
    (hjudged : ∀ e ∈ journal ++ entries, e.2.Judged)
    (hfirst : first.feasibleCount = population.countP (·.solution.violation ≤ 0.0)) :
    (first :: summaries objectives places generation counts population entries).IsChain
      fun s s' => s.feasibleCount ≤ s'.feasibleCount := by
  induction counts generalizing first generation population journal entries with
  | nil => exact .singleton _
  | cons evaluations counts ih =>
    rw [← List.take_append_drop places entries, ← List.append_assoc] at hdefined hjudged
    have hnext : Settled places (journal ++ entries.take places)
        (survive objectives places (contestants population (entries.take places))) := h.survive
    have hcount := feasibleCount_summarise generation evaluations objectives hnext
      fun e he => hjudged e (List.mem_append_left _ he)
    refine .cons_cons ?_ (ih hnext hdefined hjudged hcount)
    rw [hfirst, hcount]
    exact countP_feasible_le_survive h fun e he => hdefined e (List.mem_append_left _ he)

end Summaries

/-! ## Whole runs -/

section Run

variable {τ σ γ : Type} [Source γ] {settings : Settings}

/-- Without genes the one candidate is the front that is summarised. -/
lemma history_of_no_genes {p : Problem τ} {seeds : List Chromosome} {source : γ} {t t' : τ}
    {outcome : Outcome} (hgenes : p.genes = [])
    (h : Returns (evolve p settings objectives seeds source) t outcome t') :
    ∃ last, outcome.history = [last] ∧ last.frontSize = outcome.front.length := by
  obtain ⟨-, h⟩ := returns_ite_throw.mp h
  split at h
  · exact absurd h not_returns_throw
  · rw [hgenes, List.isEmpty_nil, if_pos rfl] at h
    obtain ⟨members, t₁, hmembers, h⟩ := returns_bind.mp h
    obtain ⟨evaluations, t₂, -, h⟩ := returns_bind.mp h
    obtain ⟨rfl, -⟩ := returns_pure.mp h
    obtain ⟨solutions, t₃, -, h⟩ := returns_bind.mp hmembers
    obtain ⟨rfl, -⟩ := returns_pure.mp h
    refine ⟨_, rfl, ?_⟩
    rw [List.length_map]
    refine List.countP_eq_length.mpr fun m hm => ?_
    rw [← List.map_uncurry_zip_eq_zipWith] at hm
    obtain ⟨e, -, rfl⟩ := List.mem_map.mp hm
    rfl

/-- The last summary of an evolution counts the front of its outcome. -/
theorem frontSize_of_returns_evolve {p : Problem τ} (hp : p.CountsOnce) {seeds : List Chromosome}
    {source : γ} {t t' : τ} {outcome : Outcome}
    (h : Returns (evolve p settings objectives seeds source) t outcome t') :
    ∃ last ∈ outcome.history.getLast?, last.frontSize = outcome.front.length := by
  by_cases hgenes : p.genes = []
  · obtain ⟨last, hhistory, hsize⟩ := history_of_no_genes hgenes h
    exact ⟨last, by rw [hhistory]; rfl, hsize⟩
  · have hcounts := counts_of_returns_evolve hp hgenes h
    obtain ⟨journal, hlogged⟩ := exists_returns_logged p settings objectives h
    have hne : outcome.history.map (·.evaluations) ≠ [] := by
      apply List.ne_nil_of_length_pos
      rw [hcounts.length_eq]
      exact Nat.pos_of_ne_zero (ne_zero_of_returns_evolve h).2
    rw [history_of_returns_evolve hgenes hlogged, (replay_of_returns_evolve hgenes hlogged).2,
      List.length_map, ← hcounts.length_eq]
    exact getLast?_summaries hne

/-- If all candidates of an evolution are defined, its feasible members do not become fewer. -/
theorem feasible_mono_of_returns_evolve {p : Problem τ} {seeds : List Chromosome} {source : γ}
    {t t' : τ} {outcome : Outcome} (hp : p.Yields (fun _ => True) fun _ x => x.Judged)
    (hdefined : ∀ x, Evaluates p settings objectives seeds source t x → x.Defined objectives)
    (h : Returns (evolve p settings objectives seeds source) t outcome t') :
    outcome.history.Pairwise fun s s' => s.feasibleCount ≤ s'.feasibleCount := by
  by_cases hgenes : p.genes = []
  · obtain ⟨last, hhistory, -⟩ := history_of_no_genes hgenes h
    rw [hhistory]
    exact List.pairwise_singleton _ _
  · obtain ⟨journal, hlogged⟩ := exists_returns_logged p settings objectives h
    have hentries : ∀ e ∈ journal, e.2.Defined objectives := fun e he =>
      hdefined e.2 ⟨outcome, t', journal, hlogged, List.mem_map_of_mem he⟩
    have hjudged : ∀ e ∈ journal, e.2.Judged := fun e he =>
      ((known_of_returns_evolve hp trivial hlogged).entries e he).2
    have hchain : (summarise 0 0 objectives [] :: outcome.history).IsChain
        fun s s' => s.feasibleCount ≤ s'.feasibleCount := by
      rw [history_of_returns_evolve hgenes hlogged]
      exact isChain_feasibleCount (settled_nil settings.populationSize) hentries hjudged rfl
    have hcounts : ((summarise 0 0 objectives [] :: outcome.history).map
        (·.feasibleCount)).IsChain (· ≤ ·) := (List.isChain_map _).mpr hchain
    exact List.pairwise_map.mp (List.pairwise_cons.mp hcounts.pairwise).2

/-- What the history of a run tells. -/
structure Chronicle (settings : Settings) (result : OptimisationResult)
    (history : List GenerationSummary) : Prop where
  /-- Every generation has its summary. -/
  generations : history.map (·.generation) = List.range settings.generations
  evaluations_mono : history.Pairwise fun s s' => s.evaluations ≤ s'.evaluations
  evaluations_le : ∀ s ∈ history, s.evaluations ≤ (s.generation + 1) * settings.populationSize
  feasible_le : ∀ s ∈ history, s.feasibleCount ≤ settings.populationSize
  one_le_front : ∀ s ∈ history, 1 ≤ s.frontSize
  /-- The last summary is that of the result. -/
  last : ∃ s ∈ history.getLast?, s.evaluations = result.evaluations ∧
    result.solutions.length ≤ s.frontSize

/-- The history of an evolution with genes tells every result that selects from its outcome. -/
theorem chronicle_of_returns_evolve {p : Problem τ} {seeds : List Chromosome} {source : γ} {t t' : τ}
    {outcome : Outcome} {result : OptimisationResult} (hp : p.CountsOnce) (hgenes : p.genes ≠ [])
    (hstart : p.evaluations t = 0)
    (h : Returns (evolve p settings objectives seeds source) t outcome t')
    (hevaluations : result.evaluations = p.evaluations t')
    (hsolutions : result.solutions = paretoSet objectives outcome.front) :
    Chronicle settings result outcome.history := by
  have hcounts := counts_of_returns_evolve hp hgenes h
  rw [hstart] at hcounts
  obtain ⟨journal, hlogged⟩ := exists_returns_logged p settings objectives h
  obtain ⟨hlength, -⟩ := replay_of_returns_evolve hgenes hlogged
  rw [← hcounts.length_eq] at hlength
  have hhistory := history_of_returns_evolve hgenes hlogged
  have hbounds : ∀ s ∈ outcome.history, 1 ≤ s.frontSize ∧
      s.feasibleCount ≤ settings.populationSize := by
    intro s hs
    rw [hhistory] at hs
    exact bounds_of_mem_summaries (ne_zero_of_returns_evolve h).1 hlength hs
  refine ⟨?_, List.pairwise_map.mp hcounts.pairwise, fun s hs => ?_, fun s hs => (hbounds s hs).2,
    fun s hs => (hbounds s hs).1, ?_⟩
  · rw [hhistory, map_generation_summaries, hcounts.length_eq, List.range_eq_range']
  · rw [hhistory] at hs
    have hle := evaluations_le_of_mem_summaries hcounts.paced hs
    omega
  · obtain ⟨last, hlast, hsize⟩ := frontSize_of_returns_evolve hp h
    refine ⟨last, hlast, ?_, ?_⟩
    · rw [hevaluations]
      apply hcounts.eq_of_mem_getLast?
      rw [List.getLast?_map]
      exact Option.mem_map_of_mem _ hlast
    · rw [hsolutions, hsize]
      exact paretoSet_sublist.length_le

/-- A run with genes that keeps a history reports one that tells the run, from the first generation
to the result. The feasible members of its populations do not become fewer, as long as all
candidates are defined. -/
theorem history_tells_run {engine : Engine σ γ} {request : Request} {cache cache' : Cache σ}
    {result : OptimisationResult} {space : Space} (hrecord : settings.recordHistory)
    (hspace : Space.ofPortfolio request.portfolio = .ok space) (hgenes : space.genes ≠ [])
    (h : Returns (run engine settings request) cache result cache') :
    ∃ history, result.history = some history ∧ Chronicle settings result history ∧
      ((∀ x, Optimiser.Considers engine request cache x (.nsga2 settings) →
          x.Defined request.objectives) →
        history.Pairwise fun s s' => s.feasibleCount ≤ s'.feasibleCount) := by
  obtain ⟨prepared, trial, outcome, count, hbuild, hevolve, hreported⟩ := steps_of_returns_run h
  have hgenes : (prepared.problem engine.simulate).genes ≠ [] := by
    cases hspace.symm.trans (PortfolioProblem.steps_of_returns_build hbuild).1
    exact hgenes
  refine ⟨outcome.history, by rw [hreported.history_eq, if_pos hrecord], ?_, fun hdefined => ?_⟩
  · exact chronicle_of_returns_evolve (PortfolioProblem.countsOnce hbuild) hgenes
      (tallies_of_returns_build hbuild).2 hevolve hreported.evaluations_eq hreported.solutions_eq
  · exact feasible_mono_of_returns_evolve (PortfolioProblem.yields_judged engine.simulate prepared)
      (fun x hx => hdefined x ⟨prepared, trial, hbuild, hx⟩) hevolve

/-- The history of two generations at the depot. -/
theorem history_tells_run_depot : ∃ result cache history,
    Returns (run depotEngine depotSettings depotRequest) (.start ()) result cache ∧
    result.history = some history ∧ Chronicle depotSettings result history ∧
    history.Pairwise fun s s' => s.feasibleCount ≤ s'.feasibleCount := by
  have hrun := returns_of_isOk ⟨[], 0, ⟨0, 0⟩, none⟩ (by decide +kernel :
    ((run depotEngine depotSettings depotRequest).run.run (.start ())).1.isOk)
  obtain ⟨history, hhistory, hchronicle, hfeasible⟩ := history_tells_run rfl
    (PortfolioProblem.steps_of_returns_build returns_build_depot).1 (by decide +kernel) hrun
  refine ⟨_, _, history, hrun, hhistory, hchronicle, hfeasible ?_⟩
  rintro x ⟨prepared, trial, hbuild, outcome, t', journal, hlogged, hx⟩
  obtain ⟨rfl, rfl⟩ := hbuild.unique returns_build_depot
  have hjournal : journal = ((evolve (depotProblem.problem depotSimulator).logged depotSettings
      [.capex] [] (ChaCha.ofSeed 0)).run.run (depotTrial, [])).2.2 := by
    change Returns (evolve (depotProblem.problem depotSimulator).logged _ [.capex] []
      (ChaCha.ofSeed 0)) _ _ _ at hlogged
    rw [hlogged]
  have hdefined : ∀ x ∈ journal.map Prod.snd, x.Defined [.capex] := by
    rw [hjournal]
    decide +kernel
  exact hdefined x hx

end Run

end Nsga2

end Retrofit
