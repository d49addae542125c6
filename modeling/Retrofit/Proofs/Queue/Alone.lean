import Retrofit.Proofs.Queue.Crew
import Retrofit.Proofs.Search.Schedules

/-!
# A task alone

Workers that follow one practice have simulators with the same outcomes, the same random numbers for
a seed, the same optimisers and the same store; how the threads of their searches take turns is left
open. Two of them whose caches know the same send the same report of a task, or none
(`Worker.execute_alike`); so with an empty cache a worker stores what a fresh worker stores that is
given nothing but this task (`Worker.execute_as_alone`). The counts in the reports are the same for
tasks that are run on one thread.
-/

namespace Retrofit

open Retrofit.Random

variable {σ σ' γ τ : Type}

/-! ## Payloads -/

/-- Payloads that differ at most in the counts of evaluated candidates, in when the search ended and
in how long it took. -/
structure ResultPayload.SameReport (counting : Counting) (p p' : ResultPayload) : Prop where
  taskId : p.taskId = p'.taskId
  clientId : p.clientId = p'.clientId
  objectives : p.objectives = p'.objectives
  result : p.result.Alike counting p'.result

/-- Results that are the same up to counts that are compared at all either have both evaluated
something or neither has. -/
lemma OptimisationResult.Alike.presence {counting : Counting} {r r' : OptimisationResult}
    (h : r.Alike counting r') (hcounting : counting ≠ .free) : r.Alike .presence r' where
  solutions_eq := h.solutions_eq
  evaluations := h.evaluations.eq_zero_iff hcounting
  history := by
    have hsummary : ∀ {s s' : GenerationSummary}, s.Alike counting s' → s.Alike .presence s' :=
      fun hs => ⟨hs.evaluations.eq_zero_iff hcounting, hs.others_eq⟩
    have hrel := h.history
    generalize r.history = history at hrel ⊢
    generalize r'.history = history' at hrel ⊢
    cases hrel with
    | none => exact .none
    | some hsummaries => exact .some (hsummaries.imp fun _ _ => hsummary)

/-- Payloads were appended that report what the expected ones do, as exactly as is said for each. -/
def Appends (before after : List ResultPayload) (expected : List (Counting × ResultPayload)) :
    Prop :=
  ∃ payloads, after = before ++ payloads ∧
    payloads.Forall₂ (fun payload e => payload.SameReport e.1 e.2) expected

namespace Appends

variable {before middle after : List ResultPayload}
  {expected expected' : List (Counting × ResultPayload)}

lemma nothing (payloads : List ResultPayload) : Appends payloads payloads [] :=
  ⟨[], (List.append_nil _).symm, .nil⟩

lemma append (h : Appends before middle expected) (h' : Appends middle after expected') :
    Appends before after (expected ++ expected') := by
  obtain ⟨payloads, rfl, hsame⟩ := h
  obtain ⟨payloads', rfl, hsame'⟩ := h'
  exact ⟨payloads ++ payloads', List.append_assoc .., List.rel_append hsame hsame'⟩

lemma of_nil (h : Appends [] after expected) :
    after.Forall₂ (fun payload e => payload.SameReport e.1 e.2) expected := by
  obtain ⟨payloads, rfl, hsame⟩ := h
  exact hsame

end Appends

namespace ResultStore

/-- Keeps the payloads that are found good, in order of arrival. -/
def judging (verdict : ResultPayload → Except Fault Unit) : ResultStore (List ResultPayload) :=
  fun payload payloads =>
    match verdict payload with
    | .ok () => (.ok (), payloads ++ [payload])
    | .error fault => (.error fault, payloads)

lemma inMemory_eq_judging : inMemory = judging fun _ => .ok () := rfl

lemma failingFor_judging (ids : List TaskId) (verdict : ResultPayload → Except Fault Unit) :
    failingFor ids (judging verdict) = judging fun payload =>
      if ids.contains payload.taskId then .error (.failed "the store rejected the result")
      else verdict payload := by
  funext payload payloads
  unfold failingFor judging
  dsimp only
  split <;> rfl

end ResultStore

/-! ## What workshops have in common -/

/-- The optimiser that a workshop builds for a task. -/
def Workshop.build (shop : Workshop σ γ τ) (task : Task) : Except ConfigurationError Optimiser :=
  shop.registry.build task.optimiser.id <| match shop.threads with
    | some threads =>
      task.optimiser.id.withDefaultConcurrency task.optimiser.hyperparameters threads
    | none => task.optimiser.hyperparameters

/-- What does not change from one task to the next: the outcomes of scenarios, the random numbers of
a seed, the optimisers, and what the store thinks of a report. Meanwhile the time passes, the
simulator may have a state of its own, threads take turns as they come, and without a seed random
numbers are new each time. -/
structure Practice (γ : Type) where
  outcome : Scenario → Except Fault (Totals Amount)
  source : Nat → γ
  build : Task → Except ConfigurationError Optimiser
  verdict : ResultPayload → Except Fault Unit
  verdict_eq : ∀ {p p' : ResultPayload}, p.SameReport .presence p' → verdict p = verdict p'

namespace Practice

variable (p : Practice γ)

/-- The workshop follows the practice, and its runs take time. -/
structure Equips (shop : Workshop σ γ (List ResultPayload)) : Prop where
  simulate : shop.engine.simulate.Computes p.outcome
  elapsed : shop.engine.elapsed.toNanos ≠ 0
  source : ∀ seed, shop.engine.source (some seed) = p.source seed
  pool : ∃ scheduler, shop.pool = shop.engine.together scheduler
  build : ∀ task, shop.build task = p.build task
  store : shop.store = .judging p.verdict

/-- The search of a task, if its optimiser can be built, has all its seeds. -/
def Seeds (task : Task) : Prop :=
  ∀ optimiser, p.build task = .ok optimiser → ¬ optimiser.Uses none

/-- How exactly reports of a task agree: the counts are the same if it is run on one thread. -/
def counting (task : Task) : Counting :=
  match p.build task with
  | .ok optimiser => .onThreads optimiser.threads
  | .error _ => .exact

variable {p}

/-- A payload that is found good is appended. -/
lemma Equips.store_snd {shop : Workshop σ γ (List ResultPayload)} (h : p.Equips shop)
    (payload : ResultPayload) (payloads : List ResultPayload) :
    (shop.store payload payloads).2 =
      match p.verdict payload with
      | .ok () => payloads ++ [payload]
      | .error _ => payloads := by
  rw [h.store]
  unfold ResultStore.judging
  cases p.verdict payload <;> rfl

end Practice

/-! ## One task -/

namespace Worker

variable [Source γ] {p : Practice γ} {shop : Workshop σ γ (List ResultPayload)}
  {shop' : Workshop σ' γ (List ResultPayload)} {task : Task}

section Executing

variable {w : Worker σ (List ResultPayload)} {optimiser : Optimiser} {cache : Cache σ}

lemma stored_execute_of_build {reason : ConfigurationError} (h : shop.build task = .error reason) :
    (execute shop task w).2.stored = w.stored := by
  unfold execute
  dsimp only
  split
  · rfl
  · rename_i hbuild
    cases hbuild.symm.trans h

lemma stored_execute_of_run {reason : SearchError} (h : shop.build task = .ok optimiser)
    (hrun : optimiser.runOn shop.engine shop.pool task.request w.cache = (.error reason, cache)) :
    (execute shop task w).2.stored = w.stored := by
  unfold execute
  dsimp only
  split
  · rfl
  · rename_i hbuild
    cases hbuild.symm.trans h
    rw [hrun]

lemma stored_execute {result : OptimisationResult} (h : shop.build task = .ok optimiser)
    (hrun : optimiser.runOn shop.engine shop.pool task.request w.cache = (.ok result, cache)) :
    (execute shop task w).2.stored =
      (shop.store (task.payload result shop.now) w.stored).2 := by
  unfold execute
  dsimp only
  split
  · rename_i hbuild
    cases hbuild.symm.trans h
  · rename_i hbuild
    cases hbuild.symm.trans h
    rw [hrun]
    dsimp only
    split <;> rename_i hstore <;> rw [hstore]

end Executing

/-- Two workers that follow a practice, and whose caches know the same outcomes, send the same report
of a task with seeds, or none. -/
theorem execute_alike (h : p.Equips shop) (h' : p.Equips shop') (hseeds : p.Seeds task)
    {w : Worker σ (List ResultPayload)} {w' : Worker σ' (List ResultPayload)}
    (hsame : SameSound p.outcome w.cache w'.cache) :
    ∃ payloads payloads', (execute shop task w).2.stored = w.stored ++ payloads ∧
      (execute shop' task w').2.stored = w'.stored ++ payloads' ∧
      payloads.Forall₂ (ResultPayload.SameReport (p.counting task)) payloads' := by
  unfold Practice.counting
  cases hbuild : p.build task with
  | error reason =>
    refine ⟨[], [], ?_, ?_, .nil⟩
    · rw [stored_execute_of_build ((h.build task).trans hbuild), List.append_nil]
    · rw [stored_execute_of_build ((h'.build task).trans hbuild), List.append_nil]
  | ok optimiser =>
    dsimp only
    have hfirst := (h.build task).trans hbuild
    have hsecond := (h'.build task).trans hbuild
    have hsource : ∀ seed, optimiser.Uses seed →
        shop.engine.source seed = shop'.engine.source seed := by
      intro seed huses
      cases seed with
      | none => exact absurd huses (hseeds optimiser hbuild)
      | some seed => exact (h.source seed).trans (h'.source seed).symm
    obtain ⟨scheduler, hpool⟩ := h.pool
    obtain ⟨scheduler', hpool'⟩ := h'.pool
    have hengines : shop.engine.Alike (SameSound p.outcome) (.onThreads optimiser.threads)
        shop'.engine :=
      ⟨answersAlike_of_sameSound h.simulate h'.simulate _, h.elapsed, h'.elapsed⟩
    have hends : Concludes (SameSound p.outcome)
        (SearchError.Races p.outcome task.request.portfolio optimiser.threads)
        (.onThreads optimiser.threads)
        (optimiser.runOn shop.engine shop.pool task.request w.cache)
        (optimiser.runOn shop'.engine shop'.pool task.request w'.cache) := by
      rw [hpool, hpool']
      exact Optimiser.paired_runOn hengines optimiser
        (hengines.together_sameSound h.simulate h'.simulate scheduler scheduler' _) hsource w.cache
        w'.cache hsame
    generalize hrun : optimiser.runOn shop.engine shop.pool task.request w.cache = answer at hends
    generalize hrun' : optimiser.runOn shop'.engine shop'.pool task.request w'.cache = answer'
      at hends
    have hcounted := Counting.onThreads_ne_free optimiser.threads
    cases hends with
    | failed reason reason' cache cache' _ =>
      refine ⟨[], [], ?_, ?_, .nil⟩
      · rw [stored_execute_of_run hfirst hrun, List.append_nil]
      · rw [stored_execute_of_run hsecond hrun', List.append_nil]
    | firstRejected hfree _ => exact absurd hfree hcounted
    | secondRejected hfree _ => exact absurd hfree hcounted
    | @reported r r' _ _ halike _ =>
      have hreport : ∀ {counting}, r.Alike counting r' →
          (task.payload r shop.now).SameReport counting (task.payload r' shop'.now) :=
        fun halike => ⟨rfl, rfl, rfl, halike⟩
      rw [stored_execute hfirst hrun, stored_execute hsecond hrun', h.store_snd, h'.store_snd,
        p.verdict_eq (hreport (halike.presence hcounted))]
      split
      · exact ⟨_, _, rfl, rfl, .cons (hreport halike) .nil⟩
      · exact ⟨[], [], (List.append_nil _).symm, (List.append_nil _).symm, .nil⟩

/-- What a fresh worker is left with that is given one task on an empty queue. -/
def alone (shop : Workshop σ γ (List ResultPayload)) (q : WorkQueue) (now : Timestamp) (world : σ)
    (task : Task) : Worker σ (List ResultPayload) :=
  (processNext shop ⟨(q.put now task).2, .start world, []⟩).2

lemma stored_alone {capacity : Nat} {q : WorkQueue} (hq : WorkQueue.ofCapacity capacity = .ok q)
    (now : Timestamp) (world : σ) (task : Task) :
    ∃ queue, (alone shop q now world task).stored =
      (execute shop task ⟨queue, .start world, []⟩).2.stored := by
  unfold WorkQueue.ofCapacity at hq
  split at hq <;> cases hq
  rename_i hcapacity
  have hput : (WorkQueue.put ⟨capacity, [], [], capacity, []⟩ now task).2 =
      ⟨capacity, [⟨⟨task.id, task.clientId, .queued, now⟩, task⟩], [task.id], capacity - 1,
        []⟩ := by
    unfold WorkQueue.put
    rw [if_neg (fun h => h.elim hcapacity (fun hwait => hwait rfl))]
    rfl
  have hget : WorkQueue.get ⟨capacity, [⟨⟨task.id, task.clientId, .queued, now⟩, task⟩], [task.id],
      capacity - 1, []⟩ = (some task,
        ⟨capacity, [⟨⟨task.id, task.clientId, .queued, now⟩, task⟩], [], capacity - 1, []⟩) := by
    simp [WorkQueue.get, WorkQueue.dispatch, WorkQueue.find?]
  obtain ⟨queue, hmark⟩ : ∃ queue, WorkQueue.markRunning
      ⟨capacity, [⟨⟨task.id, task.clientId, .queued, now⟩, task⟩], [], capacity - 1, []⟩ task.id =
        .ok queue := by
    simp [WorkQueue.markRunning, WorkQueue.leaveQueued, WorkQueue.state?, WorkQueue.find?]
  refine ⟨queue, ?_⟩
  unfold alone processNext
  rw [hput, hget]
  dsimp only
  rw [Crew.process_of_ok (w := ⟨_, .start world, []⟩) hmark]

/-- What is expected to be stored for a task: the payloads of a fresh worker that is given nothing
else, and how exactly they are to be met. -/
def expected (p : Practice γ) (shop : Workshop σ γ (List ResultPayload)) (q : WorkQueue)
    (now : Timestamp) (world : σ) (task : Task) : List (Counting × ResultPayload) :=
  (alone shop q now world task).stored.map fun payload => (p.counting task, payload)

/-- A cache without results knows what a new one does. -/
lemma sameSound_start {outcome : Scenario → Except Fault (Totals Amount)} {cache : Cache σ}
    (h : cache.known = []) (world : σ') : SameSound outcome cache (.start world) := by
  have hnone : ∀ scenario result, cache.find? scenario ≠ some result := by
    intro scenario result hfind
    have hmem := Cache.find?_eq_some_iff.mp hfind
    rw [h] at hmem
    exact nomatch hmem
  refine ⟨funext fun scenario => ?_, fun scenario result hfind => ?_, Cache.sound_start _ world⟩
  · exact Option.eq_none_iff_forall_ne_some.mpr (hnone scenario)
  · exact absurd hfind (hnone scenario result)

/-- With an empty cache a task stores what it stores alone. -/
theorem execute_as_alone (h : p.Equips shop) (h' : p.Equips shop') (hseeds : p.Seeds task)
    {w : Worker σ (List ResultPayload)} (hknown : w.cache.known = []) {capacity : Nat}
    {q : WorkQueue} (hq : WorkQueue.ofCapacity capacity = .ok q) (now : Timestamp) (world : σ') :
    Appends w.stored (execute shop task w).2.stored (expected p shop' q now world task) := by
  obtain ⟨queue, halone⟩ := @stored_alone _ _ _ shop' _ _ hq now world task
  obtain ⟨payloads, payloads', hstored, hstored', hsame⟩ :=
    @execute_alike _ _ _ _ _ _ _ _ h h' hseeds w ⟨queue, .start world, []⟩
      (sameSound_start hknown world)
  unfold expected
  rw [halone, hstored']
  exact ⟨payloads, hstored, List.forall₂_map_right_iff.mpr hsame⟩

end Worker

end Retrofit
