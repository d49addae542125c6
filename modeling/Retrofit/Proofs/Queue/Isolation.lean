import Retrofit.Proofs.Queue.Alone
import Retrofit.Proofs.Queue.Tidy

/-!
# No task notices another

Whatever was put, cancelled and processed before, a task that is run stores what it stores alone on
a fresh worker (`Crew.isolated`): a worker goes to each task with an empty cache, so nothing of an
earlier task, failed or not, is left to be seen. Only how many candidates were counted may differ, if
the search has several threads, and it differs between fresh workers as well
(`mill_counts_as_scheduled`).
-/

namespace Retrofit

open Retrofit.Random

variable {ι σ σ' γ τ : Type}

namespace Crew

/-- A task in hand can be started unless it was cancelled. -/
lemma Sound.markRunning_cases {c : Crew ι σ τ} {worker : ι} {job : Job} (h : c.Sound)
    (hjob : c.jobs worker = some job) (hstage : job.stage = .inHand) :
    (c.queue.state? job.task.id = some .cancelled ∧
      ∃ reason, c.queue.markRunning job.task.id = .error reason) ∨
    (c.queue.state? job.task.id = some .queued ∧
      ∃ queue, c.queue.markRunning job.task.id = .ok queue ∧
        (queue.done job.task.id).find? job.task.id = none) := by
  obtain ⟨l, hbooks, horderly⟩ := h
  obtain ⟨r, hr, htask, -, hinHand, -⟩ := (horderly.jobs worker job hjob).tracked
  have hstate : c.queue.state? job.task.id = some r.state := by
    rw [hbooks.state?, ← htask]
    unfold Ledger.state?
    rw [hbooks.find?_of_mem hr]
    rfl
  have hmoved := books_leaveQueued hbooks job.task.id .running .cancelled
  unfold WorkQueue.markRunning WorkQueue.leaveQueued at *
  rw [hstate] at hmoved ⊢
  cases hr : r.state with
  | running => exact absurd hr (hinHand hstage)
  | cancelled => exact Or.inl ⟨rfl, _, rfl⟩
  | queued =>
    rw [hr] at hmoved
    obtain ⟨queue, l', hqueue, -, hafter⟩ | ⟨reason, herror, -⟩ := hmoved
    · exact Or.inr ⟨rfl, queue, hqueue, hafter.find?_done job.task.id⟩
    · cases herror

section Following

variable [DecidableEq ι] [Source γ]

/-- The task that a worker runs in an action. -/
def taskRun (c : Crew ι σ τ) : Action ι → List Task
  | .execute worker =>
    match c.jobs worker with
    | some job => if job.stage = .running then [job.task] else []
    | none => []
  | _ => []

/-- One action after the other, each in the workshops of its time. -/
def follow (c : Crew ι σ τ) : List ((ι → Workshop σ γ τ) × Action ι) → Crew ι σ τ
  | [] => c
  | (shop, action) :: rest => (c.act shop action).follow rest

/-- The tasks that are run on the way, one after the other. -/
def tasksRun (c : Crew ι σ τ) : List ((ι → Workshop σ γ τ) × Action ι) → List Task
  | [] => []
  | (shop, action) :: rest => c.taskRun action ++ (c.act shop action).tasksRun rest

lemma Sound.follow {c : Crew ι σ τ} (h : c.Sound)
    (steps : List ((ι → Workshop σ γ τ) × Action ι)) : (c.follow steps).Sound := by
  induction steps generalizing c with
  | nil => exact h
  | cons step rest ih => exact ih (h.act step.2)

lemma Tidy.follow {P : Task → Prop} {c : Crew ι σ τ} (h : c.Tidy P)
    {steps : List ((ι → Workshop σ γ τ) × Action ι)}
    (hput : ∀ step ∈ steps, ∀ now task, step.2 = .put now task → P task) :
    (c.follow steps).Tidy P := by
  induction steps generalizing c with
  | nil => exact h
  | cons step rest ih =>
    exact ih (h.act step.2 (hput step List.mem_cons_self)) fun later hlater =>
      hput later (List.mem_cons_of_mem _ hlater)

variable {p : Practice γ} {c : Crew ι σ (List ResultPayload)}
  {shop : ι → Workshop σ γ (List ResultPayload)} {lone : Workshop σ' γ (List ResultPayload)}
  {capacity : Nat} {q : WorkQueue}

/-- An action stores what the task that it runs stores alone. -/
lemma Tidy.stored_act (h : c.Tidy p.Seeds) (hshop : ∀ worker, p.Equips (shop worker))
    (hlone : p.Equips lone) (hq : WorkQueue.ofCapacity capacity = .ok q) (now : Timestamp)
    (world : σ') (action : Action ι) :
    Appends c.stored (c.act shop action).stored
      ((c.taskRun action).flatMap (Worker.expected p lone q now world)) := by
  have hnothing : (c.act shop action).stored = c.stored → c.taskRun action = [] →
      Appends c.stored (c.act shop action).stored
        ((c.taskRun action).flatMap (Worker.expected p lone q now world)) := by
    intro hstored hnone
    rw [hstored, hnone]
    exact .nothing c.stored
  have hkept := @Crew.stored_act _ _ _ _ _ _ shop c action
  cases action with
  | execute worker =>
    cases hjob : c.jobs worker with
    | none =>
      refine hnothing (hkept.resolve_right ?_) ?_
      · rintro ⟨other, job, hother, heq, -⟩
        cases heq
        cases hjob.symm.trans hother
      · unfold taskRun
        dsimp only
        rw [hjob]
    | some job =>
      have hrun : c.taskRun (.execute worker) =
          if job.stage = .running then [job.task] else [] := by
        unfold taskRun
        dsimp only
        rw [hjob]
      by_cases hstage : job.stage = .running
      · rw [hrun, act_execute hjob, if_pos hstage, if_pos hstage, List.flatMap_singleton,
          (of_execute _ _ _ _).2.2]
        exact Worker.execute_as_alone (hshop worker) hlone (h.jobs worker job hjob)
          (h.known_of_stage hjob (hstage ▸ by decide)) hq now world
      · refine hnothing ?_ (hrun.trans (if_neg hstage))
        rw [act_execute hjob, if_neg hstage]
  | _ => exact hnothing (hkept.resolve_right (by rintro ⟨_, _, _, heq, _⟩; cases heq)) rfl

/-- In the course of a history the tasks that are run store what each of them stores alone. -/
theorem Tidy.stored_follow (h : c.Tidy p.Seeds)
    {steps : List ((ι → Workshop σ γ (List ResultPayload)) × Action ι)}
    (hshops : ∀ step ∈ steps, ∀ worker, p.Equips (step.1 worker))
    (hput : ∀ step ∈ steps, ∀ now task, step.2 = .put now task → p.Seeds task)
    (hlone : p.Equips lone) (hq : WorkQueue.ofCapacity capacity = .ok q) (now : Timestamp)
    (world : σ') :
    Appends c.stored (c.follow steps).stored
      ((c.tasksRun steps).flatMap (Worker.expected p lone q now world)) := by
  induction steps generalizing c with
  | nil => exact .nothing c.stored
  | cons step rest ih =>
    have hnext : (c.act step.1 step.2).Tidy p.Seeds := h.act step.2 (hput step List.mem_cons_self)
    have hfirst := h.stored_act (hshops step List.mem_cons_self) hlone hq now world step.2
    have hrest := ih hnext (fun s hs => hshops s (List.mem_cons_of_mem _ hs))
      (fun s hs => hput s (List.mem_cons_of_mem _ hs))
    rw [tasksRun, List.flatMap_append]
    exact hfirst.append hrest

/-- A task in hand is run unless it was cancelled. -/
lemma Sound.stage_start (hsound : c.Sound) {worker : ι} {job : Job}
    (hjob : c.jobs worker = some job) (hstage : job.stage = .inHand) :
    (c.act shop (.start worker)).jobs worker = some { job with
      stage := if c.queue.state? job.task.id = some .cancelled then .over else .running } := by
  rw [act_start hjob hstage]
  unfold Crew.start
  rcases hsound.markRunning_cases hjob hstage with
    ⟨hstate, reason, hmark⟩ | ⟨hstate, queue, hmark, -⟩
  · rw [hmark, if_pos hstate]
    exact jobs_assign _ _ _
  · rw [hmark, hstate, if_neg (by decide)]
    exact jobs_assign _ _ _

omit [DecidableEq ι] in
/-- What processing a task in hand does to the store, the cache and the queue. -/
lemma Tidy.process (h : c.Tidy p.Seeds) (hsound : c.Sound) {worker : ι} {job : Job}
    (hjob : c.jobs worker = some job) (hstage : job.stage = .inHand)
    {own : Workshop σ γ (List ResultPayload)} (hown : p.Equips own) (hlone : p.Equips lone)
    (hq : WorkQueue.ofCapacity capacity = .ok q) (now : Timestamp) (world : σ') :
    let processed := (Worker.process own job.task ⟨c.queue, c.caches worker, c.stored⟩).2
    Appends c.stored processed.stored
      (if c.queue.state? job.task.id = some .cancelled then []
      else Worker.expected p lone q now world job.task) ∧
      processed.cache.known = [] ∧ processed.queue.find? job.task.id = none := by
  dsimp only
  rcases hsound.markRunning_cases hjob hstage with
    ⟨hstate, reason, hmark⟩ | ⟨hstate, queue, hmark, hgone⟩
  · obtain ⟨l, hbooks, -⟩ := hsound
    rw [process_of_error (w := ⟨c.queue, c.caches worker, c.stored⟩) hmark, if_pos hstate]
    exact ⟨.nothing c.stored, rfl, hbooks.find?_done job.task.id⟩
  · rw [process_of_ok (w := ⟨c.queue, c.caches worker, c.stored⟩) hmark, hstate,
      if_neg (by decide)]
    have hknown := h.known_of_stage hjob (hstage ▸ by decide)
    exact ⟨Worker.execute_as_alone hown hlone (h.jobs worker job hjob) hknown hq now world, rfl,
      hgone⟩

/-- Take any history of a crew on one queue: tasks with seeds are put and cancelled, workers take
them, run them and finish them, the threads of their searches take turns in any order, and tasks
succeed, fail, crash or cannot be set up. What is stored in its course is what each task that was run
stores alone on a fresh queue, up to the time. The counts of evaluated candidates are the same for
tasks on one thread; on several threads they may differ, but are zero in both or in neither. The
cache of a worker without a task is empty. A task in hand that was cancelled is not run and stores
nothing; any other one is run, and processing it stores what it stores alone. Either way the cache is
empty afterwards, and the queue has forgotten the task. -/
theorem isolated (p : Practice γ) (capacity : Nat) (hcapacity : 1 ≤ capacity) (worlds : ι → σ)
    (steps : List ((ι → Workshop σ γ (List ResultPayload)) × Action ι))
    (hshops : ∀ step ∈ steps, ∀ worker, p.Equips (step.1 worker))
    (hput : ∀ step ∈ steps, ∀ now task, step.2 = .put now task → p.Seeds task)
    (hshop : ∀ worker, p.Equips (shop worker)) (hlone : p.Equips lone) (now : Timestamp)
    (world : σ') :
    ∃ q, WorkQueue.ofCapacity capacity = .ok q ∧
      let start := opening q (fun worker => .start (worlds worker)) []
      let c := start.follow steps
      (c.stored.Forall₂ (fun payload e => payload.SameReport e.1 e.2)
        ((start.tasksRun steps).flatMap (Worker.expected p lone q now world))) ∧
      (∀ worker, c.jobs worker = none → (c.caches worker).known = []) ∧
      ∀ worker job, c.jobs worker = some job →
        (job.stage = .inHand →
          let cancelled := c.queue.state? job.task.id = some .cancelled
          let processed :=
            (Worker.process (shop worker) job.task ⟨c.queue, c.caches worker, c.stored⟩).2
          (c.act shop (.start worker)).jobs worker =
            some { job with stage := if cancelled then .over else .running } ∧
          Appends c.stored processed.stored
            (if cancelled then [] else Worker.expected p lone q now world job.task) ∧
          processed.cache.known = [] ∧ processed.queue.find? job.task.id = none) ∧
        (job.stage = .over →
          let after := c.act shop (.finish worker)
          (after.caches worker).known = [] ∧ after.queue.find? job.task.id = none) := by
  have hq : WorkQueue.ofCapacity capacity = .ok ⟨capacity, [], [], capacity, []⟩ :=
    if_neg (by omega)
  refine ⟨_, hq, ?_⟩
  dsimp only
  have hopening : (opening ⟨capacity, [], [], capacity, []⟩ (fun worker => .start (worlds worker))
      ([] : List ResultPayload)).Tidy p.Seeds := tidy_opening capacity worlds []
  have hstored := hopening.stored_follow hshops hput hlone hq now world
  have htidy := hopening.follow hput
  have hsound : (Crew.follow (opening ⟨capacity, [], [], capacity, []⟩
      (fun worker => .start (worlds worker)) ([] : List ResultPayload)) steps).Sound :=
    (sound_opening capacity _ _).follow steps
  refine ⟨hstored.of_nil, fun worker hidle => htidy.known_of_idle hidle, fun worker job hjob =>
    ⟨fun hstage => ?_, fun hstage => ?_⟩⟩
  · exact ⟨hsound.stage_start hjob hstage,
      htidy.process hsound hjob hstage (hshop worker) hlone hq now world⟩
  · rw [act_finish hjob hstage]
    exact ⟨known_finish _ worker job, (hsound.finish hjob).1⟩

end Following

end Crew

/-! ## A day at the depot -/

/-- A site that no simulation gets through. -/
def quarry : Site := { depot with siteId := "quarry", bundleId := "quarry" }

def quarryOutcome (scenario : Scenario) : Except Fault (Totals Amount) :=
  if scenario.siteId = "quarry" then .error (.crashed "rockfall") else depotOutcome scenario

/-- Threads take turns on a schedule. The store does not take the result of the third task. -/
def quarryShop (schedule : Schedule) : Workshop Unit ChaCha (List ResultPayload) :=
  let engine : Engine Unit ChaCha :=
    { depotEngine with simulate := fun scenario world => (quarryOutcome scenario, world) }
  { engine
    pool := engine.together (.always schedule)
    registry := .builtin 1
    store := .failingFor [⟨3⟩] .inMemory
    threads := some 1
    now := ⟨9, 0⟩ }

def quarryPractice : Practice ChaCha where
  outcome := quarryOutcome
  source := .ofSeed
  build := (quarryShop []).build
  verdict payload :=
    if [⟨3⟩].contains payload.taskId then .error (.failed "the store rejected the result")
    else .ok ()
  verdict_eq h := by rw [h.taskId]

lemma equips_quarryShop (schedule : Schedule) : quarryPractice.Equips (quarryShop schedule) where
  simulate _ _ := rfl
  elapsed := by
    change depotEngine.elapsed.toNanos ≠ 0
    decide
  source _ := rfl
  pool := ⟨.always schedule, rfl⟩
  build _ := rfl
  store := by
    change ResultStore.failingFor [⟨3⟩] .inMemory = _
    rw [ResultStore.inMemory_eq_judging, ResultStore.failingFor_judging]
    rfl

/-- The cheapest renovation of a site on a number of threads, with a seed. -/
def siteTask (id : TaskId) (threads : Nat) (site : Site) : Task :=
  { depotTask id with
    optimiser := ⟨.gridSearch, .object [("max_concurrency", .int threads), ("seed", .int 7)]⟩
    portfolio := [site] }

/-- The optimiser of this task is not registered. -/
def exoticTask (id : TaskId) : Task :=
  { depotTask id with optimiser := ⟨.bayesian, .null⟩ }

lemma seeds_of_build {task : Task} (settings : Grid.Settings)
    (h : quarryPractice.build task = .ok (.gridSearch settings)) (hseed : settings.seed ≠ none) :
    quarryPractice.Seeds task := by
  intro optimiser hoptimiser huses
  cases h.symm.trans hoptimiser
  exact hseed huses.symm

lemma seeds_siteTask (id : TaskId) (site : Site) :
    quarryPractice.Seeds (siteTask id 1 site) ∧ quarryPractice.Seeds (siteTask id 2 site) :=
  ⟨seeds_of_build { Grid.Settings.default 1 with seed := some 7 } rfl nofun,
    seeds_of_build { Grid.Settings.default 2 with seed := some 7 } rfl nofun⟩

lemma seeds_exoticTask (id : TaskId) : quarryPractice.Seeds (exoticTask id) := by
  intro optimiser hoptimiser
  have hbuild : quarryPractice.build (exoticTask id) = .error (.unregisteredOptimiser .bayesian) :=
    rfl
  cases hbuild.symm.trans hoptimiser

/-- The first task succeeds, the second crashes, the result of the third is not taken, the fourth
cannot be set up, and the fifth is cancelled in the hand of the worker. The sixth is in hand now. -/
def quarryActions : List (Action Unit) :=
  [.put ⟨0, 0⟩ (siteTask ⟨1⟩ 2 depot), .put ⟨0, 0⟩ (siteTask ⟨2⟩ 2 quarry),
    .put ⟨0, 0⟩ (siteTask ⟨3⟩ 2 depot), .put ⟨0, 0⟩ (exoticTask ⟨4⟩),
    .put ⟨0, 0⟩ (siteTask ⟨5⟩ 2 depot), .put ⟨0, 0⟩ (siteTask ⟨6⟩ 1 depot),
    .get (), .start (), .execute (), .finish (), .get (), .start (), .execute (), .finish (),
    .get (), .start (), .execute (), .finish (), .get (), .start (), .execute (), .finish (),
    .get (), .cancel ⟨5⟩, .start (), .finish (), .get ()]

def quarryHistory : List ((Unit → Workshop Unit ChaCha (List ResultPayload)) × Action Unit) :=
  quarryActions.map fun action => (fun _ => quarryShop [1, 0, 2], action)

def quarryCrew : Crew Unit Unit (List ResultPayload) :=
  (Crew.opening ⟨6, [], [], 6, []⟩ (fun _ => .start ()) []).follow quarryHistory

lemma seeds_of_mem_quarryActions {now : Timestamp} {task : Task}
    (h : .put now task ∈ quarryActions) : quarryPractice.Seeds task := by
  simp only [quarryActions, List.mem_cons, Action.put.injEq, reduceCtorEq, List.not_mem_nil,
    or_false] at h
  rcases h with ⟨-, rfl⟩ | ⟨-, rfl⟩ | ⟨-, rfl⟩ | ⟨-, rfl⟩ | ⟨-, rfl⟩ | ⟨-, rfl⟩
  · exact (seeds_siteTask _ _).2
  · exact (seeds_siteTask _ _).2
  · exact (seeds_siteTask _ _).2
  · exact seeds_exoticTask _
  · exact (seeds_siteTask _ _).2
  · exact (seeds_siteTask _ _).1

/-- The sixth task asks for what the first one asked, on a single thread, and stores what it stores
alone, counts included. -/
theorem Crew.isolated_depot : ∃ job payloads, quarryCrew.jobs () = some job ∧ job.task.id = ⟨6⟩ ∧
    (Worker.process (quarryShop [1, 0, 2]) job.task
      ⟨quarryCrew.queue, quarryCrew.caches (), quarryCrew.stored⟩).2.stored =
        quarryCrew.stored ++ payloads ∧
    payloads.Forall₂ (fun payload e => payload.SameReport e.1 e.2)
      (Worker.expected quarryPractice (quarryShop []) ⟨6, [], [], 6, []⟩ ⟨8, 0⟩ () job.task) ∧
    quarryPractice.counting job.task = .exact ∧
    (quarryCrew.stored ++ payloads).map (·.taskId) = [⟨1⟩, ⟨6⟩] := by
  have hshops : ∀ step ∈ quarryHistory, ∀ worker, quarryPractice.Equips (step.1 worker) := by
    intro step hstep worker
    obtain ⟨action, -, rfl⟩ := List.mem_map.mp hstep
    exact equips_quarryShop _
  have hput : ∀ step ∈ quarryHistory, ∀ now task, step.2 = .put now task →
      quarryPractice.Seeds task := by
    intro step hstep now task heq
    obtain ⟨action, haction, rfl⟩ := List.mem_map.mp hstep
    obtain rfl : action = .put now task := heq
    exact seeds_of_mem_quarryActions haction
  obtain ⟨q, hq, -, -, hjobs⟩ := isolated quarryPractice 6 (by decide) (fun _ => ()) quarryHistory
    hshops hput (fun _ => equips_quarryShop [1, 0, 2]) (equips_quarryShop []) ⟨8, 0⟩ ()
  obtain rfl : ⟨6, [], [], 6, []⟩ = q := Except.ok.inj hq
  dsimp only at hjobs
  rw [← quarryCrew] at hjobs
  have hsixth : (quarryCrew.jobs ()).map (fun job => (job.task.id, job.stage,
      quarryCrew.queue.state? job.task.id, quarryPractice.counting job.task,
      (Worker.process (quarryShop [1, 0, 2]) job.task ⟨quarryCrew.queue,
        quarryCrew.caches (), quarryCrew.stored⟩).2.stored.map (·.taskId))) =
      some (⟨6⟩, .inHand, some .queued, .exact, [⟨1⟩, ⟨6⟩]) := by
    decide +kernel
  obtain ⟨job, hjob, hfacts⟩ := Option.map_eq_some_iff.mp hsixth
  simp only [Prod.mk.injEq] at hfacts
  obtain ⟨hid, hstage, hstate, hcounting, hstored⟩ := hfacts
  obtain ⟨-, ⟨payloads, happended, hsame⟩, -⟩ := (hjobs () job hjob).1 hstage
  have hqueued : ¬ quarryCrew.queue.state? job.task.id = some .cancelled := by
    rw [hstate]
    decide
  rw [if_neg hqueued] at hsame
  rw [happended] at hstored
  exact ⟨job, payloads, hjob, hid, happended, hsame, hcounting, hstored⟩

/-! ## A mill and a barn -/

/-- A mill that may get up to twenty-nine batteries. -/
def mill : Site :=
  { depot with
    siteId := "mill"
    bundleId := "mill"
    range := Dict.empty.insert "battery" ⟨true, Dict.empty.insert "units" (.stepped 0 29 1)⟩ }

def barn : Site := { mill with siteId := "barn", bundleId := "barn" }

/-- Tries sixteen ways to equip the mill and the barn on two threads. The second candidate has the
mill of the first one and the barn of the last. -/
def millTask : Task :=
  { depotTask ⟨1⟩ with
    optimiser := ⟨.gridSearch, .object [("max_concurrency", .int 2), ("max_evaluations", .int 16),
      ("seed", .int 17999)]⟩
    portfolio := [mill, barn] }

/-- While one thread waits for the first mill, the other one evaluates the last eight candidates. -/
def millSchedule : Schedule := 0 :: (List.range 8).flatMap fun k => List.replicate 4 (8 + k)

/-- The payloads of a worker that is given the task of the mill on a schedule. -/
def millStored (schedule : Schedule) : List ResultPayload :=
  ((Crew.opening ⟨8, [], [], 8, []⟩ (fun _ : Unit => Cache.start ()) []).follow
    ([.put ⟨0, 0⟩ millTask, .get (), .start (), .execute (), .finish ()].map fun action =>
      (fun _ => quarryShop schedule, action))).stored

/-- Two fresh workers that differ in nothing but the turns of their threads: the one counts all
candidates, the other one does not count the second one, as nothing about it is new by then. -/
theorem mill_counts_as_scheduled :
    WorkQueue.ofCapacity 8 = .ok ⟨8, [], [], 8, []⟩ ∧ quarryPractice.Seeds millTask ∧
    quarryPractice.Equips (quarryShop millSchedule) ∧ quarryPractice.Equips (quarryShop []) ∧
    (millStored millSchedule).map (·.result.evaluations) = [15] ∧
    (Worker.alone (quarryShop []) ⟨8, [], [], 8, []⟩ ⟨0, 0⟩ () millTask).stored.map
      (·.result.evaluations) = [16] ∧
    ¬ (millStored millSchedule).Forall₂ (ResultPayload.SameReport .exact)
      (Worker.alone (quarryShop []) ⟨8, [], [], 8, []⟩ ⟨0, 0⟩ () millTask).stored := by
  have hscheduled : (millStored millSchedule).map (·.result.evaluations) = [15] := by
    decide +kernel
  have halone : (Worker.alone (quarryShop []) ⟨8, [], [], 8, []⟩ ⟨0, 0⟩ () millTask).stored.map
      (·.result.evaluations) = [16] := by
    decide +kernel
  refine ⟨rfl, ?_, equips_quarryShop _, equips_quarryShop _, hscheduled, halone, fun hsame => ?_⟩
  · exact seeds_of_build { Grid.Settings.default 2 with
      maxEvaluations := 16, seed := some 17999 } rfl nofun
  · have hcounts : (millStored millSchedule).map (·.result.evaluations) =
        (Worker.alone (quarryShop []) ⟨8, [], [], 8, []⟩ ⟨0, 0⟩ () millTask).stored.map
          (·.result.evaluations) := by
      rw [← List.forall₂_eq_eq_eq, List.forall₂_map_left_iff, List.forall₂_map_right_iff]
      exact hsame.imp fun _ _ h => h.result.evaluations
    rw [hscheduled, halone] at hcounts
    exact absurd hcounts (by decide)

end Retrofit
