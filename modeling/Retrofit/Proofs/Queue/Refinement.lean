import Mathlib.Data.List.Basic
import Mathlib.Data.List.Nodup
import Mathlib.Tactic.Lemma
import Retrofit.Proofs.Queue.Ledger

/-!
# The queue refines the ledger

The queue answers every sequence of calls like the ledger (`WorkQueue.refines_ledger`). `Books q l`
says that the slots of the queue are the records of the ledger, and that of the records that are not
running those are pending that have not been handed out; every call keeps the books.
-/

namespace Retrofit

/-- The queue shows what the ledger says. -/
structure Books (q : WorkQueue) (l : Ledger) : Prop where
  slots : q.slots = l.records.map Record.slot
  waiting : q.waiting = l.waiting
  places : q.free + l.records.length = l.capacity
  nodup : (l.records.map (·.task.id)).Nodup
  order : q.pending.Sublist (l.records.map (·.task.id))
  pending_iff : ∀ r ∈ l.records, r.state ≠ .running → (r.task.id ∈ q.pending ↔ r.handedOut = false)

section Reading

variable {q : WorkQueue} {l : Ledger}

lemma Books.find? (h : Books q l) (id : TaskId) : q.find? id = (l.find? id).map Record.slot := by
  unfold WorkQueue.find? Ledger.find?
  rw [h.slots, List.find?_map]
  rfl

lemma Books.state? (h : Books q l) (id : TaskId) : q.state? id = l.state? id := by
  unfold WorkQueue.state? Ledger.state?
  rw [h.find?, Option.map_map]
  rfl

lemma Books.size (h : Books q l) : q.size = l.records.length := by
  unfold WorkQueue.size
  rw [h.slots, List.length_map]

lemma Books.uncancelled (h : Books q l) :
    q.uncancelled = (l.records.filter (·.state ≠ .cancelled)).map (·.slot.entry) := by
  unfold WorkQueue.uncancelled
  rw [h.slots, List.map_map, List.filter_map]
  rfl

lemma Books.full_iff (h : Books q l) : q.free = 0 ↔ l.capacity ≤ l.records.length := by
  have hplaces := h.places
  omega

lemma Ledger.find?_eq_none {id : TaskId} : l.find? id = none ↔ id ∉ l.records.map (·.task.id) := by
  unfold Ledger.find?
  rw [List.find?_eq_none, List.mem_map]
  constructor
  · rintro hnone ⟨r, hr, rfl⟩
    exact hnone r hr (decide_eq_true rfl)
  · intro hnone r hr hid
    exact hnone ⟨r, hr, of_decide_eq_true hid⟩

lemma Ledger.mem_of_find? {id : TaskId} {r : Record} (h : l.find? id = some r) :
    r ∈ l.records ∧ r.task.id = id :=
  ⟨List.mem_of_find?_eq_some h,
    of_decide_eq_true (List.find?_some (p := fun r : Record => decide (r.task.id = id)) h)⟩

end Reading

lemma books_empty (capacity : Nat) :
    Books ⟨capacity, [], [], capacity, []⟩ ⟨capacity, [], []⟩ :=
  ⟨rfl, rfl, rfl, List.nodup_nil, List.Sublist.refl _, fun _ hr => absurd hr List.not_mem_nil⟩

/-! ## Tasks come and go -/

section Keeping

variable {q : WorkQueue} {l : Ledger} {now : Timestamp}

lemma books_enqueue (h : Books q l) (hplace : q.free ≠ 0) (task : Task) :
    (∃ q', q.enqueue now task = .ok q' ∧ (l.enrol now task).1 = .queued ∧
      Books q' (l.enrol now task).2) ∨
    ∃ reason, q.enqueue now task = .error reason ∧ l.enrol now task = (.refused reason, l) := by
  unfold WorkQueue.enqueue Ledger.enrol
  rw [h.find?]
  cases hfind : l.find? task.id with
  | some r => exact Or.inr ⟨_, rfl, rfl⟩
  | none =>
    have hfresh := Ledger.find?_eq_none.mp hfind
    refine Or.inl ⟨_, rfl, rfl, ?_⟩
    constructor
    · change q.slots ++ _ = _
      rw [h.slots, List.map_append]
      rfl
    · exact h.waiting
    · change q.free - 1 + (l.records ++ _).length = l.capacity
      have hplaces := h.places
      rw [List.length_append, List.length_singleton]
      omega
    · change ((l.records ++ _).map _).Nodup
      rw [List.map_append, List.nodup_append]
      refine ⟨h.nodup, List.nodup_singleton _, fun a ha b hb heq => hfresh ?_⟩
      rw [List.map_singleton, List.mem_singleton] at hb
      exact hb ▸ heq ▸ ha
    · change (q.pending ++ _).Sublist ((l.records ++ _).map _)
      rw [List.map_append]
      exact h.order.append (List.Sublist.refl _)
    · intro r hr hstate
      change r.task.id ∈ q.pending ++ [task.id] ↔ _
      rcases List.mem_append.mp hr with hr | hr
      · have hne : r.task.id ≠ task.id := fun heq => hfresh (heq ▸ List.mem_map_of_mem hr)
        rw [List.mem_append, List.mem_singleton, or_iff_left hne]
        exact h.pending_iff r hr hstate
      · rw [List.mem_singleton.mp hr]
        exact iff_of_true (List.mem_append_right _ List.mem_cons_self) rfl

lemma Books.with_waiting (h : Books q l) (tasks : List Task) :
    Books { q with waiting := tasks } { l with waiting := tasks } :=
  ⟨h.slots, rfl, h.places, h.nodup, h.order, h.pending_iff⟩

lemma books_put (h : Books q l) (task : Task) :
    (q.put now task).1 = (l.put now task).1 ∧ Books (q.put now task).2 (l.put now task).2 := by
  unfold WorkQueue.put Ledger.put
  by_cases hwait : q.free = 0 ∨ q.waiting ≠ []
  · rw [if_pos hwait, if_pos (by rwa [← h.full_iff, ← h.waiting]), h.waiting]
    exact ⟨rfl, h.with_waiting _⟩
  · rw [if_neg hwait, if_neg (by rwa [← h.full_iff, ← h.waiting])]
    obtain ⟨hfree, -⟩ := not_or.mp hwait
    rcases books_enqueue h hfree task with ⟨q', hq', hadmission, hbooks⟩ | ⟨reason, hq, henrol⟩
    · rw [hq']
      exact ⟨hadmission.symm, hbooks⟩
    · rw [hq, henrol]
      exact ⟨rfl, h⟩

lemma books_resumeAll {tasks : List Task} (h : Books q l) :
    (WorkQueue.resumeAll now tasks q).1 = (Ledger.enrolAll now tasks l).1 ∧
      Books (WorkQueue.resumeAll now tasks q).2 (Ledger.enrolAll now tasks l).2 := by
  induction tasks generalizing q l with
  | nil => exact ⟨rfl, h⟩
  | cons task rest ih =>
    unfold WorkQueue.resumeAll Ledger.enrolAll
    by_cases hfree : q.free = 0
    · rw [if_pos hfree, if_pos (h.full_iff.mp hfree)]
      exact ⟨rfl, h.with_waiting _⟩
    · rw [if_neg hfree, if_neg (h.full_iff.not.mp hfree)]
      rcases books_enqueue h hfree task with ⟨q', hq', hadmission, hbooks⟩ | ⟨reason, hq, henrol⟩
      · rw [hq']
        obtain ⟨hothers, hlast⟩ := ih hbooks
        refine ⟨?_, hlast⟩
        dsimp only
        rw [hadmission, hothers]
      · rw [hq, henrol]
        obtain ⟨hothers, hlast⟩ := ih h
        refine ⟨?_, hlast⟩
        dsimp only
        rw [hothers]

lemma books_resume (h : Books q l) :
    (q.resume now).1 = (l.resume now).1 ∧ Books (q.resume now).2 (l.resume now).2 := by
  unfold WorkQueue.resume Ledger.resume
  rw [h.waiting]
  exact books_resumeAll (h.with_waiting [])

/-- Ids tell records apart. -/
lemma Books.find?_of_mem (h : Books q l) {r : Record} (hr : r ∈ l.records) :
    l.find? r.task.id = some r := by
  cases hfind : l.find? r.task.id with
  | none => exact absurd (List.mem_map_of_mem hr) (Ledger.find?_eq_none.mp hfind)
  | some r' =>
    obtain ⟨hr', hid⟩ := Ledger.mem_of_find? hfind
    exact congrArg some (List.inj_on_of_nodup_map h.nodup hr' hr hid)

lemma books_setState (h : Books q l) {id : TaskId} (hstate : l.state? id = some .queued)
    (state : TaskState) : Books (q.setState id state) (l.setState id state) := by
  have hids : (l.setState id state).records.map (·.task.id) = l.records.map (·.task.id) := by
    unfold Ledger.setState
    rw [List.map_map]
    refine List.map_congr_left fun r _ => ?_
    rw [Function.comp_apply]
    split <;> rfl
  constructor
  · change q.slots.map _ = (l.records.map _).map _
    rw [h.slots, List.map_map, List.map_map]
    refine List.map_congr_left fun r _ => ?_
    rw [Function.comp_apply, Function.comp_apply, apply_ite Record.slot]
    rfl
  · exact h.waiting
  · change q.free + (l.records.map _).length = l.capacity
    rw [List.length_map]
    exact h.places
  · exact hids ▸ h.nodup
  · exact hids ▸ h.order
  · intro r' hr' hrunning
    obtain ⟨r, hr, rfl⟩ := List.mem_map.mp hr'
    by_cases hid : r.task.id = id
    · have hqueued : r.state = .queued := by
        unfold Ledger.state? at hstate
        rw [← hid, h.find?_of_mem hr] at hstate
        exact Option.some.inj hstate
      rw [if_pos hid]
      exact h.pending_iff r hr (by rw [hqueued]; decide)
    · rw [if_neg hid] at hrunning ⊢
      exact h.pending_iff r hr hrunning

lemma books_leaveQueued (h : Books q l) (id : TaskId) (state : TaskState) (obstacle : Obstacle) :
    (∃ q' l', q.leaveQueued id state obstacle = .ok q' ∧ l.leaveQueued id state obstacle = .ok l' ∧
      Books q' l') ∨
    ∃ reason, q.leaveQueued id state obstacle = .error reason ∧
      l.leaveQueued id state obstacle = .error reason := by
  unfold WorkQueue.leaveQueued Ledger.leaveQueued
  rw [h.state?]
  cases hstate : l.state? id with
  | none => exact Or.inr ⟨_, rfl, rfl⟩
  | some current =>
    cases current with
    | queued => exact Or.inl ⟨_, _, rfl, rfl, books_setState h hstate state⟩
    | running => exact Or.inr ⟨_, rfl, rfl⟩
    | cancelled => exact Or.inr ⟨_, rfl, rfl⟩

lemma eraseP_eq_filter {records : List Record} (hnodup : (records.map (·.task.id)).Nodup)
    (id : TaskId) :
    records.eraseP (·.task.id = id) = records.filter (·.task.id ≠ id) := by
  induction records with
  | nil => rfl
  | cons r rest ih =>
    obtain ⟨hfresh, hrest⟩ := List.nodup_cons.mp hnodup
    rw [List.eraseP_cons, List.filter_cons]
    by_cases hid : r.task.id = id
    · have hothers : rest.filter (·.task.id ≠ id) = rest := by
        refine List.filter_eq_self.mpr fun r' hr' => decide_eq_true fun hid' => hfresh ?_
        exact List.mem_map.mpr ⟨r', hr', hid'.trans hid.symm⟩
      rw [decide_eq_true hid, cond_true, if_neg (by simp [hid]), hothers]
    · rw [decide_eq_false hid, cond_false, if_pos (decide_eq_true hid), ih hrest]

lemma books_done (h : Books q l) (id : TaskId) : Books (q.done id) (l.done id) := by
  unfold WorkQueue.done Ledger.done
  rw [h.find?]
  cases hfind : l.find? id with
  | none =>
    have hsame : l.records.filter (·.task.id ≠ id) = l.records := by
      refine List.filter_eq_self.mpr fun r hr => decide_eq_true fun hid => ?_
      exact Ledger.find?_eq_none.mp hfind (hid ▸ List.mem_map_of_mem hr)
    rw [hsame]
    exact h
  | some r =>
    obtain ⟨hr, hid⟩ := Ledger.mem_of_find? hfind
    have hfilter := eraseP_eq_filter h.nodup id
    constructor
    · change q.slots.eraseP _ = (l.records.filter _).map _
      rw [h.slots, List.eraseP_map, ← hfilter]
      rfl
    · exact h.waiting
    · change q.free + 1 + (l.records.filter _).length = l.capacity
      have hlength := List.length_eraseP_of_mem (p := fun r : Record => decide (r.task.id = id)) hr
        (decide_eq_true hid)
      have hpos := List.length_pos_of_mem hr
      have hplaces := h.places
      rw [← hfilter, hlength]
      omega
    · exact (List.filter_sublist.map _).nodup h.nodup
    · change (q.pending.filter _).Sublist ((l.records.filter _).map _)
      have hmap : (l.records.filter (·.task.id ≠ id)).map (·.task.id) =
          (l.records.map (·.task.id)).filter (· ≠ id) := by
        rw [List.filter_map]
        rfl
      rw [hmap]
      exact h.order.filter _
    · intro r' hr' hstate
      obtain ⟨hr', hne⟩ := List.mem_filter.mp hr'
      change r'.task.id ∈ q.pending.filter _ ↔ _
      rw [List.mem_filter, and_iff_left hne]
      exact h.pending_iff r' hr' hstate

/-- A task that is done is not tracked any more. -/
lemma Books.find?_done (h : Books q l) (id : TaskId) : (q.done id).find? id = none := by
  rw [(books_done h id).find?, Option.map_eq_none_iff]
  refine Ledger.find?_eq_none.mpr fun hmem => ?_
  obtain ⟨r, hr, hid⟩ := List.mem_map.mp hmem
  exact of_decide_eq_true (List.mem_filter.mp hr).2 hid

end Keeping

/-! ## Handing out -/

namespace Ledger

variable {before after records : List Record} {r : Record}

lemma take_append (h : ∀ r ∈ before, r.ready = false ∧ r.lapsed = false) :
    take (before ++ after) = ((take after).1, before ++ (take after).2) := by
  have hpass : ∀ r ∈ before, (!r.ready) = true := by
    intro r hr
    rw [(h r hr).1]
    rfl
  have hfilter : before.filter (!·.lapsed) = before := by
    refine List.filter_eq_self.mpr fun r hr => ?_
    rw [(h r hr).2]
    rfl
  unfold take
  rw [List.takeWhile_append_of_pos hpass, List.dropWhile_append_of_pos hpass, List.filter_append,
    hfilter]
  split
  · rfl
  · exact Prod.ext rfl (List.append_assoc _ _ _)

lemma take_of_forall (h : ∀ r ∈ records, r.ready = false ∧ r.lapsed = false) :
    take records = (none, records) := by
  have htake := @take_append records [] h
  rw [List.append_nil] at htake
  rw [htake]
  exact Prod.ext rfl (List.append_nil _)

lemma take_cons_of_ready (h : r.ready = true) :
    take (r :: after) = (some r.task, { r with handedOut := true } :: after) := by
  unfold take
  rw [List.takeWhile_cons_of_neg (by rw [h]; decide),
    List.dropWhile_cons_of_neg (by rw [h]; decide)]
  rfl

lemma take_cons_of_lapsed (hready : r.ready = false) (h : r.lapsed = true) :
    take (r :: after) = take after := by
  unfold take
  rw [List.takeWhile_cons_of_pos (by rw [hready]; rfl),
    List.dropWhile_cons_of_pos (by rw [hready]; rfl), List.filter_cons_of_neg (by rw [h]; decide)]

end Ledger

section HandingOut

variable {q : WorkQueue} {l : Ledger}

lemma Record.open_of_not_handedOut {r : Record} (h : ¬ (r.ready = false ∧ r.lapsed = false)) :
    r.state ≠ .running ∧ r.handedOut = false := by
  unfold Record.ready Record.lapsed at h
  revert h
  cases r.state <;> cases r.handedOut <;> decide

/-- The first pending id is that of a record before which nothing is ready or lapsed. -/
lemma exists_split {id : TaskId} {rest : List TaskId}
    (h : Books { q with pending := id :: rest } l) :
    ∃ before r after, l.records = before ++ r :: after ∧ r.task.id = id ∧
      id ∉ (before ++ after).map (·.task.id) ∧ id ∉ rest ∧
      ∀ r' ∈ before, r'.ready = false ∧ r'.lapsed = false := by
  obtain ⟨ids₁, ids₂, hids, hid, hrest⟩ := List.cons_sublist_iff.mp h.order
  obtain ⟨first, second, hrecords, rfl, rfl⟩ := List.map_eq_append_iff.mp hids
  obtain ⟨r, hr, hrid⟩ := List.mem_map.mp hid
  obtain ⟨before, mid, rfl⟩ := List.append_of_mem hr
  rw [List.append_assoc, List.cons_append] at hrecords
  have hnodup := h.nodup
  rw [hrecords, List.map_append, List.map_cons, List.nodup_middle, List.nodup_cons, hrid,
    ← List.map_append] at hnodup
  obtain ⟨hfresh, hnodup⟩ := hnodup
  have hrest : rest.Sublist ((mid ++ second).map (·.task.id)) := by
    rw [List.map_append]
    exact hrest.trans (List.sublist_append_right _ _)
  refine ⟨before, r, mid ++ second, hrecords, hrid, hfresh, fun hmem => hfresh ?_, ?_⟩
  · rw [List.map_append]
    exact List.mem_append_right _ (hrest.subset hmem)
  · -- A ready or lapsed record would be pending, and pending behind its own place.
    intro r' hr'
    by_contra hopen
    obtain ⟨hstate, hhanded⟩ := Record.open_of_not_handedOut hopen
    have hmem : r' ∈ l.records := by
      rw [hrecords]
      exact List.mem_append_left _ hr'
    have hbefore : r'.task.id ∈ before.map (·.task.id) := List.mem_map_of_mem hr'
    rcases List.mem_cons.mp ((h.pending_iff r' hmem hstate).mpr hhanded) with heq | hpending
    · apply hfresh
      rw [← heq, List.map_append]
      exact List.mem_append_left _ hbefore
    · rw [List.map_append, List.nodup_append] at hnodup
      exact hnodup.2.2 _ hbefore _ (hrest.subset hpending) rfl

lemma books_handOut {before after : List Record} {r : Record} {rest : List TaskId}
    (h : Books { q with pending := r.task.id :: rest } { l with records := before ++ r :: after })
    (hother : r.task.id ∉ (before ++ after).map (·.task.id)) (hfresh : r.task.id ∉ rest) :
    Books { q with pending := rest }
      { l with records := before ++ { r with handedOut := true } :: after } := by
  have hids : (before ++ { r with handedOut := true } :: after).map (·.task.id) =
      (before ++ r :: after).map (·.task.id) := by
    rw [List.map_append, List.map_append]
    rfl
  constructor
  · rw [h.slots, List.map_append, List.map_append]
    rfl
  · exact h.waiting
  · have hplaces := h.places
    rw [List.length_append, List.length_cons] at hplaces ⊢
    exact hplaces
  · exact hids ▸ h.nodup
  · exact hids ▸ (List.sublist_cons_self _ _).trans h.order
  · intro r' hr' hstate
    change r'.task.id ∈ rest ↔ _
    have hold : r' ∈ before ++ after → (r'.task.id ∈ rest ↔ r'.handedOut = false) := by
      intro hr'
      have hne : r'.task.id ≠ r.task.id := fun heq => hother (heq ▸ List.mem_map_of_mem hr')
      have hmem : r' ∈ before ++ r :: after :=
        ((List.sublist_cons_self _ _).append_left before).subset hr'
      rw [← h.pending_iff r' hmem hstate, List.mem_cons, or_iff_right hne]
    rcases List.mem_append.mp hr' with hr' | hr'
    · exact hold (List.mem_append_left _ hr')
    · rcases List.mem_cons.mp hr' with rfl | hr'
      · exact iff_of_false hfresh Bool.noConfusion
      · exact hold (List.mem_append_right _ hr')

lemma books_pass {id : TaskId} {r : Record} {rest : List TaskId}
    (h : Books { q with pending := id :: rest } l) (hr : r ∈ l.records) (hid : r.task.id = id)
    (hstate : r.state = .running) : Books { q with pending := rest } l := by
  refine ⟨h.slots, h.waiting, h.places, h.nodup, (List.sublist_cons_self _ _).trans h.order, ?_⟩
  intro r' hr' hstate'
  have hne : r'.task.id ≠ id := by
    intro heq
    rw [List.inj_on_of_nodup_map h.nodup hr' hr (heq.trans hid.symm)] at hstate'
    exact hstate' hstate
  rw [← h.pending_iff r' hr' hstate', List.mem_cons, or_iff_right hne]

/-- A pending id of a cancelled task is forgotten with the task. -/
lemma books_sweep {id : TaskId} {rest : List TaskId} {slot : Slot}
    (h : Books { q with pending := id :: rest } l) (hfind : q.find? id = some slot)
    (hfresh : id ∉ rest) : Books { q.done id with pending := rest } (l.done id) := by
  have hdone := books_done h id
  have hpending : (id :: rest).filter (· ≠ id) = rest := by
    rw [List.filter_cons_of_neg (by simp)]
    exact List.filter_eq_self.mpr fun id' hid' => decide_eq_true fun heq => hfresh (heq ▸ hid')
  have heq : ({ q with pending := id :: rest } : WorkQueue).done id =
      { q.done id with pending := rest } := by
    have hfind' : ({ q with pending := id :: rest } : WorkQueue).find? id = some slot := hfind
    unfold WorkQueue.done
    rw [hfind, hfind']
    dsimp only
    rw [hpending]
  exact heq ▸ hdone

/-- Going through the pending ids hands out what the ledger hands out. -/
theorem books_dispatch {ids : List TaskId} (h : Books { q with pending := ids } l) :
    (WorkQueue.dispatch ids q).1 = (Ledger.take l.records).1 ∧
      Books (WorkQueue.dispatch ids q).2 { l with records := (Ledger.take l.records).2 } := by
  induction ids generalizing q l with
  | nil =>
    have hnone : ∀ r ∈ l.records, r.ready = false ∧ r.lapsed = false := by
      intro r hr
      by_contra hopen
      obtain ⟨hstate, hhanded⟩ := Record.open_of_not_handedOut hopen
      exact absurd ((h.pending_iff r hr hstate).mpr hhanded) List.not_mem_nil
    rw [Ledger.take_of_forall hnone]
    exact ⟨rfl, h⟩
  | cons id rest ih =>
    obtain ⟨before, r, after, hrecords, rfl, hother, hfresh, hbefore⟩ := exists_split h
    have hr : r ∈ l.records := by
      rw [hrecords]
      exact List.mem_append_right _ List.mem_cons_self
    have hfind : q.find? r.task.id = some r.slot := by
      have hfind := h.find? r.task.id
      rw [h.find?_of_mem hr] at hfind
      exact hfind
    have hhanded : r.state ≠ .running → r.handedOut = false :=
      fun hstate => (h.pending_iff r hr hstate).mp List.mem_cons_self
    have htake : Ledger.take l.records =
        ((Ledger.take (r :: after)).1, before ++ (Ledger.take (r :: after)).2) := by
      rw [hrecords, Ledger.take_append hbefore]
    have hshown : r.slot.entry.state = r.state := rfl
    unfold WorkQueue.dispatch
    rw [hfind]
    dsimp only
    rw [hshown]
    cases hstate : r.state with
    | queued =>
      have hready : r.ready = true := by
        unfold Record.ready
        rw [hstate, hhanded (by rw [hstate]; decide)]
        decide
      rw [htake, Ledger.take_cons_of_ready hready]
      change _ ∧ Books { q with pending := rest } _
      refine ⟨rfl, books_handOut ?_ hother hfresh⟩
      rw [← hrecords]
      exact h
    | cancelled =>
      have hlapsed : r.ready = false ∧ r.lapsed = true := by
        unfold Record.ready Record.lapsed
        rw [hstate, hhanded (by rw [hstate]; decide)]
        decide
      have hdone : (l.done r.task.id).records = before ++ after := by
        have hkeep : (before ++ after).filter (·.task.id ≠ r.task.id) = before ++ after := by
          refine List.filter_eq_self.mpr fun r' hr' => decide_eq_true fun heq => hother ?_
          exact heq ▸ List.mem_map_of_mem hr'
        change l.records.filter _ = _
        rw [hrecords, List.filter_append, List.filter_cons_of_neg (by simp), ← List.filter_append,
          hkeep]
      obtain ⟨htask, hbooks⟩ := ih (books_sweep h hfind hfresh)
      rw [hdone, Ledger.take_append hbefore] at htask hbooks
      rw [htake, Ledger.take_cons_of_lapsed hlapsed.1 hlapsed.2]
      exact ⟨htask, hbooks⟩
    | running => exact ih (books_pass h hr rfl hstate)

lemma books_get (h : Books q l) : q.get.1 = l.get.1 ∧ Books q.get.2 l.get.2 :=
  books_dispatch h

/-- Every call has the same reply, and keeps the books. -/
theorem books_answer (now : Timestamp) (h : Books q l) (call : Call) :
    (q.answer now call).1 = (l.answer now call).1 ∧
      Books (q.answer now call).2 (l.answer now call).2 := by
  have hmove : ∀ id state obstacle,
      (Reply.ofMove q (q.leaveQueued id state obstacle)).1 =
        (Reply.ofMove l (l.leaveQueued id state obstacle)).1 ∧
      Books (Reply.ofMove q (q.leaveQueued id state obstacle)).2
        (Reply.ofMove l (l.leaveQueued id state obstacle)).2 := by
    intro id state obstacle
    rcases books_leaveQueued h id state obstacle with
      ⟨q', l', hq, hl, hbooks⟩ | ⟨reason, hq, hl⟩
    · rw [hq, hl]
      exact ⟨rfl, hbooks⟩
    · rw [hq, hl]
      exact ⟨rfl, h⟩
  cases call with
  | put task =>
    obtain ⟨hadmission, hbooks⟩ := @books_put _ _ now h task
    exact ⟨congrArg Reply.admission hadmission, hbooks⟩
  | resume =>
    obtain ⟨hadmissions, hbooks⟩ := @books_resume _ _ now h
    exact ⟨congrArg Reply.resumed hadmissions, hbooks⟩
  | get =>
    obtain ⟨htask, hbooks⟩ := books_get h
    exact ⟨congrArg Reply.task htask, hbooks⟩
  | markRunning id => exact hmove id _ _
  | cancel id => exact hmove id _ _
  | done id => exact ⟨rfl, books_done h id⟩
  | uncancelled => exact ⟨congrArg Reply.entries h.uncancelled, h⟩
  | size => exact ⟨congrArg Reply.size h.size, h⟩
  | state id => exact ⟨congrArg Reply.state (h.state? id), h⟩

/-- Every sequence of calls has the same replies, and keeps the books. -/
theorem books_converse {calls : List (Timestamp × Call)} (h : Books q l) :
    (converse WorkQueue.answer calls q).1 = (converse Ledger.answer calls l).1 ∧
      Books (converse WorkQueue.answer calls q).2 (converse Ledger.answer calls l).2 := by
  induction calls generalizing q l with
  | nil => exact ⟨rfl, h⟩
  | cons timed rest ih =>
    obtain ⟨hreply, hbooks⟩ := books_answer timed.1 h timed.2
    obtain ⟨hreplies, hlast⟩ := ih hbooks
    exact ⟨congrArg₂ List.cons hreply hreplies, hlast⟩

end HandingOut

/-! ## Whole sequences of calls -/

lemma Ledger.capacity_enrolAll (now : Timestamp) (tasks : List Task) (l : Ledger) :
    (enrolAll now tasks l).2.capacity = l.capacity := by
  induction tasks generalizing l with
  | nil => rfl
  | cons task rest ih =>
    unfold enrolAll
    split
    · rfl
    · refine (ih _).trans ?_
      unfold enrol
      split <;> rfl

lemma Ledger.capacity_answer (now : Timestamp) (l : Ledger) (call : Call) :
    (l.answer now call).2.capacity = l.capacity := by
  have hmove : ∀ id state obstacle,
      (Reply.ofMove l (l.leaveQueued id state obstacle)).2.capacity = l.capacity := by
    intro id state obstacle
    unfold leaveQueued
    split <;> rfl
  cases call with
  | put task =>
    change (l.put now task).2.capacity = l.capacity
    unfold put enrol
    split
    · rfl
    · split <;> rfl
  | resume => exact capacity_enrolAll now l.waiting _
  | markRunning id => exact hmove id _ _
  | cancel id => exact hmove id _ _
  | get => rfl
  | done id => rfl
  | uncancelled => rfl
  | size => rfl
  | state id => rfl

lemma Ledger.capacity_converse (calls : List (Timestamp × Call)) (l : Ledger) :
    (converse answer calls l).2.capacity = l.capacity := by
  induction calls generalizing l with
  | nil => rfl
  | cons timed rest ih => exact (ih _).trans (capacity_answer timed.1 l timed.2)

/-- Waiting tasks are let in as long as there are free places. -/
lemma WorkQueue.waiting_resumeAll (now : Timestamp) {tasks : List Task} {q : WorkQueue}
    (hq : q.waiting = []) :
    (resumeAll now tasks q).2.waiting = [] ∨ (resumeAll now tasks q).2.free = 0 := by
  induction tasks generalizing q with
  | nil => exact Or.inl hq
  | cons task rest ih =>
    unfold resumeAll
    split
    · rename_i hfree
      exact Or.inr hfree
    · split
      · rename_i q' heq
        have hq' : q'.waiting = [] := by
          unfold enqueue at heq
          split at heq
          · cases heq
          · cases heq
            exact hq
        exact ih hq'
      · exact ih hq

/-- A queue of a positive capacity answers every sequence of calls like the ledger. No id is ever
tracked twice, a place is free or taken by a tracked task, and once waiting tasks have been let in a
task waits only if as many tasks are tracked as there are places. -/
theorem WorkQueue.refines_ledger (capacity : Nat) (hcapacity : 1 ≤ capacity)
    (calls : List (Timestamp × Call)) :
    ∃ q, ofCapacity capacity = .ok q ∧
      (converse answer calls q).1 = (converse Ledger.answer calls ⟨capacity, [], []⟩).1 ∧
      ((converse answer calls q).2.slots.map (·.entry.taskId)).Nodup ∧
      (converse answer calls q).2.free + (converse answer calls q).2.size = capacity ∧
      ∀ now, ((converse answer calls q).2.resume now).2.waiting = [] ∨
        ((converse answer calls q).2.resume now).2.size = capacity := by
  refine ⟨_, if_neg (by omega), ?_⟩
  obtain ⟨hreplies, hbooks⟩ := @books_converse _ _ calls (books_empty capacity)
  have hplaces : ∀ {q l}, Books q l → l.capacity = capacity → q.free + q.size = capacity := by
    intro q l h hl
    rw [h.size, ← hl]
    exact h.places
  have hkept := Ledger.capacity_converse calls ⟨capacity, [], []⟩
  refine ⟨hreplies, ?_, hplaces hbooks hkept, fun now => ?_⟩
  · rw [hbooks.slots, List.map_map]
    exact hbooks.nodup
  · have hresumed := (@books_resume _ _ now hbooks).2
    have htaken := hplaces hresumed ((Ledger.capacity_enrolAll now _ _).trans hkept)
    refine (waiting_resumeAll now ?_).imp id fun hfree => ?_
    · rfl
    · unfold resume at htaken ⊢
      omega

/-- A task that asks for nothing. -/
def idleTask (id : TaskId) : Task where
  id := id
  clientId := "depot"
  objectives := []
  optimiser := ⟨.gridSearch, .null⟩
  portfolio := []
  constraints := .none
  existing := none
  createdAt := ⟨0, 0⟩

/-- With one place the second task waits until the first, cancelled, is swept by the next `get`. -/
theorem WorkQueue.refines_ledger_one : ∃ q, ofCapacity 1 = .ok q ∧
    (converse answer [(⟨0, 0⟩, .put (idleTask ⟨1⟩)), (⟨1, 0⟩, .put (idleTask ⟨2⟩)),
      (⟨2, 0⟩, .cancel ⟨1⟩), (⟨3, 0⟩, .get), (⟨3, 0⟩, .resume), (⟨4, 0⟩, .state ⟨2⟩)] q).1 =
      [.admission .queued, .admission .waiting, .moved (.ok ()), .task none,
        .resumed [(⟨2⟩, .queued)], .state (some .queued)] := by
  obtain ⟨q, hq, hreplies, -⟩ := refines_ledger 1 (Nat.le_refl 1)
    [(⟨0, 0⟩, .put (idleTask ⟨1⟩)), (⟨1, 0⟩, .put (idleTask ⟨2⟩)), (⟨2, 0⟩, .cancel ⟨1⟩),
      (⟨3, 0⟩, .get), (⟨3, 0⟩, .resume), (⟨4, 0⟩, .state ⟨2⟩)]
  refine ⟨q, hq, ?_⟩
  rw [hreplies]
  rfl

end Retrofit
