import Mathlib.Data.Set.Card
import Mathlib.Logic.Function.Basic
import Mathlib.Tactic.Lemma
import Retrofit.Simulation.Cache

/-!
# The cache as a memo

A memo is a partial map from scenarios to results, with the scenarios for which its simulator was
called. `Memo.Step` says what it replies to a query and what it is afterwards, rule by rule and
without a word about slots. The cache, which keeps a slot for a scenario whose call failed, replies
to every sequence of queries as the memo does (`Cache.refines_memo`), whatever its simulator does.
-/

namespace Retrofit

variable {σ : Type}

/-! ## Queries -/

namespace Cache

/-- What is asked of a cache. -/
inductive Query where
  /-- The result of a scenario. -/
  | evaluate (scenario : Scenario)
  /-- The result of a scenario, and whether the simulator was called for it. -/
  | evaluateTracked (scenario : Scenario)
  | clear
  | size
  | evaluations

/-- What a query shows to whoever asks. -/
inductive Reply where
  | result (answer : Except Fault (Totals Amount))
  | tracked (answer : Except Fault (Totals Amount × Bool))
  | cleared
  | count (n : Nat)

def reply (simulate : Simulator σ) (cache : Cache σ) : Query → Reply × Cache σ
  | .evaluate scenario => ((result simulate scenario).run cache).map .result id
  | .evaluateTracked scenario => ((evaluate simulate scenario).run cache).map .tracked id
  | .clear => (.cleared, cache.clear)
  | .size => (.count cache.size, cache)
  | .evaluations => (.count cache.evaluations, cache)

/-- The replies to queries one after the other, and the cache after them. -/
def replies (simulate : Simulator σ) : List Query → Cache σ → List Reply × Cache σ
  | [], cache => ([], cache)
  | query :: rest, cache =>
    let (first, cache) := cache.reply simulate query
    let (others, cache) := replies simulate rest cache
    (first :: others, cache)

end Cache

/-! ## The memo -/

structure Memo (σ : Type) where
  results : Scenario → Option (Totals Amount)
  /-- The scenarios for which the simulator was called, in order. -/
  calls : List Scenario
  /-- The state of the simulator. -/
  world : σ

namespace Memo

open Cache (Query Reply)

/-- The memo without results, whose simulator was not called yet. -/
def start (world : σ) : Memo σ := ⟨fun _ => none, [], world⟩

/-- What a query does to a memo, and what the reply is. -/
inductive Step (simulate : Simulator σ) : Memo σ → Query → Reply → Memo σ → Prop
  /-- A result that is there is given without a call. -/
  | known {m : Memo σ} {scenario : Scenario} {result : Totals Amount}
    (h : m.results scenario = some result) :
    Step simulate m (.evaluateTracked scenario) (.tracked (.ok (result, false))) m
  /-- Otherwise the simulator is called, once, and its result is kept. -/
  | learnt {m : Memo σ} {scenario : Scenario} {result : Totals Amount} {world : σ}
    (h : m.results scenario = none) (hcall : simulate scenario m.world = (.ok result, world)) :
    Step simulate m (.evaluateTracked scenario) (.tracked (.ok (result, true)))
      ⟨Function.update m.results scenario (some result), m.calls ++ [scenario], world⟩
  /-- Of a call without a result nothing is kept but the count. -/
  | failed {m : Memo σ} {scenario : Scenario} {fault : Fault} {world : σ}
    (h : m.results scenario = none) (hcall : simulate scenario m.world = (.error fault, world)) :
    Step simulate m (.evaluateTracked scenario) (.tracked (.error fault))
      ⟨m.results, m.calls ++ [scenario], world⟩
  | untracked {m m' : Memo σ} {scenario : Scenario} {answer : Except Fault (Totals Amount × Bool)}
    (h : Step simulate m (.evaluateTracked scenario) (.tracked answer) m') :
    Step simulate m (.evaluate scenario) (.result (answer.map Prod.fst)) m'
  | clear {m : Memo σ} : Step simulate m .clear .cleared { m with results := fun _ => none }
  | size {m : Memo σ} (hfinite : {scenario | m.results scenario ≠ none}.Finite) :
    Step simulate m .size (.count {scenario | m.results scenario ≠ none}.ncard) m
  | evaluations {m : Memo σ} : Step simulate m .evaluations (.count m.calls.length) m

/-- What several queries do to a memo, one after the other. -/
inductive Run (simulate : Simulator σ) : Memo σ → List Query → List Reply → Memo σ → Prop
  | nil {m : Memo σ} : Run simulate m [] [] m
  | cons {m m₁ m' : Memo σ} {query : Query} {reply : Reply} {queries : List Query}
    {replies : List Reply} (hfirst : Step simulate m query reply m₁)
    (hrest : Run simulate m₁ queries replies m') :
    Run simulate m (query :: queries) (reply :: replies) m'

variable {simulate : Simulator σ} {m m₁ m₂ : Memo σ} {query : Query} {reply reply' : Reply}

/-- The rules leave no choice. -/
theorem Step.unique (h : Step simulate m query reply m₁) (h' : Step simulate m query reply' m₂) :
    reply = reply' ∧ m₁ = m₂ := by
  induction h generalizing reply' with
  | known hknown =>
    cases h' with
    | known hknown' => cases hknown.symm.trans hknown'; exact ⟨rfl, rfl⟩
    | learnt hnone => cases hknown.symm.trans hnone
    | failed hnone => cases hknown.symm.trans hnone
  | learnt hnone hcall =>
    cases h' with
    | known hknown => cases hknown.symm.trans hnone
    | learnt _ hcall' => cases hcall.symm.trans hcall'; exact ⟨rfl, rfl⟩
    | failed _ hcall' => cases hcall.symm.trans hcall'
  | failed hnone hcall =>
    cases h' with
    | known hknown => cases hknown.symm.trans hnone
    | learnt _ hcall' => cases hcall.symm.trans hcall'
    | failed _ hcall' => cases hcall.symm.trans hcall'; exact ⟨rfl, rfl⟩
  | untracked _ ih =>
    cases h' with
    | untracked htracked' =>
      obtain ⟨heq, rfl⟩ := ih htracked'
      cases heq
      exact ⟨rfl, rfl⟩
  | clear => cases h'; exact ⟨rfl, rfl⟩
  | size => cases h'; exact ⟨rfl, rfl⟩
  | evaluations => cases h'; exact ⟨rfl, rfl⟩

theorem Run.unique {queries : List Query} {replies replies' : List Reply}
    (h : Run simulate m queries replies m₁) (h' : Run simulate m queries replies' m₂) :
    replies = replies' ∧ m₁ = m₂ := by
  induction h generalizing replies' with
  | nil => cases h'; exact ⟨rfl, rfl⟩
  | cons hfirst _ ih =>
    cases h' with
    | cons hfirst' hrest' =>
      obtain ⟨rfl, rfl⟩ := hfirst.unique hfirst'
      obtain ⟨rfl, rfl⟩ := ih hrest'
      exact ⟨rfl, rfl⟩

end Memo

/-! ## What a cache looks like from outside -/

namespace Cache

open Memo (Step Run)

/-- The cache finds what the memo knows, and has counted the calls. -/
structure Shows (cache : Cache σ) (m : Memo σ) : Prop where
  results : cache.find? = m.results
  calls : cache.evaluations = m.calls.length
  world : cache.world = m.world

variable {simulate : Simulator σ} {cache : Cache σ} {m : Memo σ}

/-- No scenario has two results. -/
lemma nodup_known (cache : Cache σ) : (cache.known.map Prod.fst).Nodup := by
  unfold known
  refine List.pairwise_map.mpr (List.Pairwise.filterMap _ ?_ cache.slots.distinct)
  rintro ⟨scenario, kept⟩ ⟨scenario', kept'⟩ hne e he e' he'
  obtain ⟨result, -, rfl⟩ := Option.map_eq_some_iff.mp he
  obtain ⟨result', -, rfl⟩ := Option.map_eq_some_iff.mp he'
  exact hne

/-- The scenarios that have a result are those of the results that are known. -/
lemma coe_known (cache : Cache σ) : ((cache.known.map Prod.fst).toFinset : Set Scenario) =
    {scenario | cache.find? scenario ≠ none} := by
  ext scenario
  rw [List.coe_toFinset]
  change scenario ∈ cache.known.map Prod.fst ↔ cache.find? scenario ≠ none
  rw [Option.ne_none_iff_exists']
  constructor
  · intro hmem
    obtain ⟨⟨_, result⟩, hknown, rfl⟩ := List.mem_map.mp hmem
    exact ⟨result, find?_eq_some_iff.mpr hknown⟩
  · rintro ⟨result, hfind⟩
    exact List.mem_map.mpr ⟨_, find?_eq_some_iff.mp hfind, rfl⟩

/-- Slots that stayed empty do not count: the size is that of the partial map. -/
theorem size_eq_ncard (cache : Cache σ) :
    cache.size = {scenario | cache.find? scenario ≠ none}.ncard := by
  rw [← coe_known, Set.ncard_coe_finset, List.toFinset_card_of_nodup cache.nodup_known,
    List.length_map]
  rfl

lemma shows_start (world : σ) : (start world).Shows (.start world) :=
  ⟨rfl, rfl, rfl⟩

lemma find?_learnt (cache : Cache σ) (scenario : Scenario) (result : Totals Amount)
    (evaluations : Nat) (world : σ) :
    (⟨(cache.slots.withSlot scenario).fill scenario result, evaluations, world⟩ : Cache σ).find? =
      Function.update cache.find? scenario (some result) := by
  funext scenario'
  rw [Function.update_apply]
  exact Slots.result?_fill_withSlot

/-- A scenario that is asked for is answered by the rules. -/
lemma Shows.evaluate (h : cache.Shows m) (simulate : Simulator σ) (scenario : Scenario) :
    ∃ m', Step simulate m (.evaluateTracked scenario)
      (.tracked (Cache.evaluate simulate scenario cache).1) m' ∧
      (Cache.evaluate simulate scenario cache).2.Shows m' := by
  cases hfind : cache.find? scenario with
  | some result =>
    rw [evaluate_of_find?_eq_some hfind]
    exact ⟨m, .known (h.results ▸ hfind), h⟩
  | none =>
    have hnone : m.results scenario = none := h.results ▸ hfind
    rcases hcall : simulate scenario cache.world with ⟨answer, world⟩
    have hcall' := hcall
    rw [h.world] at hcall'
    have hcount : cache.evaluations + 1 = (m.calls ++ [scenario]).length := by
      rw [h.calls, List.length_append, List.length_singleton]
    cases answer with
    | ok result =>
      rw [evaluate_of_answer hfind hcall]
      refine ⟨_, .learnt hnone hcall', ?_, hcount, rfl⟩
      rw [find?_learnt, h.results]
    | error fault =>
      rw [evaluate_of_fault hfind hcall]
      refine ⟨_, .failed hnone hcall', ?_, hcount, rfl⟩
      rw [← h.results]
      exact funext fun _ => Slots.result?_withSlot

/-- Every query is replied to by the rules. -/
theorem Shows.reply (h : cache.Shows m) (simulate : Simulator σ) (query : Query) :
    ∃ m', Step simulate m query (cache.reply simulate query).1 m' ∧
      (cache.reply simulate query).2.Shows m' := by
  cases query with
  | evaluate scenario =>
    obtain ⟨m', hstep, hshows⟩ := h.evaluate simulate scenario
    exact ⟨m', .untracked hstep, hshows⟩
  | evaluateTracked scenario => exact h.evaluate simulate scenario
  | clear => exact ⟨_, .clear, rfl, h.calls, h.world⟩
  | size =>
    refine ⟨m, ?_, h⟩
    change Step simulate m .size (.count cache.size) m
    have hfinite := Finset.finite_toSet (cache.known.map Prod.fst).toFinset
    rw [coe_known, h.results] at hfinite
    rw [size_eq_ncard, h.results]
    exact .size hfinite
  | evaluations =>
    refine ⟨m, ?_, h⟩
    change Step simulate m .evaluations (.count cache.evaluations) m
    rw [h.calls]
    exact .evaluations

theorem Shows.replies (h : cache.Shows m) (simulate : Simulator σ) (queries : List Query) :
    ∃ m', Run simulate m queries (replies simulate queries cache).1 m' ∧
      (Cache.replies simulate queries cache).2.Shows m' := by
  induction queries generalizing cache m with
  | nil => exact ⟨m, .nil, h⟩
  | cons query rest ih =>
    obtain ⟨m₁, hfirst, hshows⟩ := h.reply simulate query
    obtain ⟨m', hrest, hshows'⟩ := ih hshows
    exact ⟨m', .cons hfirst hrest, hshows'⟩

/-- Whatever the simulator does, and whatever is asked in which order: the memo has exactly one run,
and its replies are those of the cache. In the end the cache finds what the memo knows, its count is
that of the calls made since it was new, and its simulator is in the same state. -/
theorem refines_memo (simulate : Simulator σ) (world : σ) (queries : List Query) :
    ∃ m, Run simulate (.start world) queries (replies simulate queries (.start world)).1 m ∧
      (replies simulate queries (.start world)).2.Shows m ∧
      ∀ given m', Run simulate (.start world) queries given m' →
        given = (replies simulate queries (.start world)).1 ∧ m' = m := by
  obtain ⟨m, hrun, hshows⟩ := (shows_start world).replies simulate queries
  exact ⟨m, hrun, hshows, fun given m' hrun' => hrun'.unique hrun⟩

/-- The two zeros and the whole number zero are different values of an attribute. -/
example : (replies (fun _ calls => (.ok (Totals.fill 0), calls))
    ([.float 0.0, .float (-0.0), .int 0, .float 0.0].map fun value =>
      .evaluate ⟨"depot", "depot", Dict.ofList [("tank", Dict.ofList [("level", value)])]⟩)
    (.start ())).2.evaluations = 3 := by
  decide +kernel

end Cache

end Retrofit
