import Mathlib.Data.List.Count
import Retrofit.Proofs.Queue.Crew
import Retrofit.Proofs.Queue.Refinement

/-!
# What the journal and the ledger agree on

`Orderly l c` ties the journal of a crew to the ledger that its queue refines, and both to the jobs
of the workers: every job is about the latest submission of its id, whose record is tracked and was
handed out. Whatever a client or a worker does keeps it. An event concerns one id, and what is known
of all other ids is carried over once and for all (`Concerns.orderly`).
-/

namespace Retrofit

variable {ι σ γ τ : Type}

/-- What the journal may hold of a submission. -/
structure Fate (journal : List Event) (s : Submission) : Prop where
  accepted : journal.count (.accepted s) ≤ 1
  handedOut : journal.count (.handedOut s) ≤ 1
  started : journal.count (.started s) ≤ 1
  stored : journal.count (.stored s) ≤ journal.count (.started s)
  cancelled : .cancelled s ∈ journal → .started s ∉ journal

/-- The journal agrees with a record about the latest submission of its id. -/
structure Record.Fits (rounds : TaskId → Nat) (journal : List Event) (r : Record) : Prop where
  handedOut : r.handedOut = false → .handedOut ⟨r.task.id, rounds r.task.id⟩ ∉ journal
  started : r.state ≠ .running → .started ⟨r.task.id, rounds r.task.id⟩ ∉ journal
  cancelled : .cancelled ⟨r.task.id, rounds r.task.id⟩ ∈ journal → r.state = .cancelled
  running : r.state = .running → r.handedOut = true
  finished : .finished ⟨r.task.id, rounds r.task.id⟩ ∉ journal

/-- A job is about the latest submission of its id, whose record was handed out. -/
structure Job.Fits (records : List Record) (rounds : TaskId → Nat) (journal : List Event)
    (j : Job) : Prop where
  latest : j.submission = ⟨j.task.id, rounds j.task.id⟩
  tracked : ∃ r ∈ records, r.task = j.task ∧ r.handedOut = true ∧
    (j.stage = .inHand → r.state ≠ .running) ∧ (j.stage = .running → r.state = .running)
  started : j.stage = .running → .started j.submission ∈ journal
  stored : j.stage ≠ .over → .stored j.submission ∉ journal

/-- The journal, the records and the jobs agree, and no two workers are at the same id. -/
structure Orderly (l : Ledger) (c : Crew ι σ τ) : Prop where
  past : ∀ e ∈ c.journal, e.submission.round ≤ c.rounds e.submission.id
  fates : ∀ s, Fate c.journal s
  records : ∀ r ∈ l.records, r.Fits c.rounds c.journal
  jobs : ∀ w j, c.jobs w = some j → j.Fits l.records c.rounds c.journal
  alone : ∀ w w' j j', c.jobs w = some j → c.jobs w' = some j' → j.task.id = j'.task.id → w = w'

/-! ## What an event adds to the journal -/

section Journal

variable {journal : List Event} {rounds rounds' : TaskId → Nat} {s : Submission} {e : Event}

lemma count_cons_le_one {a : Event} (h : journal.count a ≤ 1) (hfirst : e = a → a ∉ journal) :
    (e :: journal).count a ≤ 1 := by
  by_cases heq : e = a
  · have hone : (e :: journal).count a = 0 + 1 := by
      rw [heq, List.count_cons_self, List.count_eq_zero.mpr (hfirst heq)]
    exact Nat.le_of_eq hone
  · rwa [List.count_cons_of_ne heq]

/-- An event may follow that is the first of its kind for the submission. -/
lemma Fate.note (h : Fate journal s) (haccepted : e = .accepted s → .accepted s ∉ journal)
    (hhandedOut : e = .handedOut s → .handedOut s ∉ journal)
    (hstarted : e = .started s → .started s ∉ journal ∧ .cancelled s ∉ journal)
    (hstored : e = .stored s → .started s ∈ journal ∧ .stored s ∉ journal)
    (hcancelled : e = .cancelled s → .started s ∉ journal) : Fate (e :: journal) s := by
  constructor
  · exact count_cons_le_one h.accepted haccepted
  · exact count_cons_le_one h.handedOut hhandedOut
  · exact count_cons_le_one h.started fun heq => (hstarted heq).1
  · by_cases heq : e = .stored s
    · obtain ⟨hbefore, hfirst⟩ := hstored heq
      rw [heq, List.count_cons_self, List.count_eq_zero.mpr hfirst, List.count_cons_of_ne (by simp)]
      exact List.count_pos_iff.mpr hbefore
    · rw [List.count_cons_of_ne heq]
      exact Nat.le_trans h.stored List.count_le_count_cons
  · intro hmem hstart
    rcases List.mem_cons.mp hmem with rfl | hbefore
    · exact hcancelled rfl (List.mem_of_ne_of_mem (by simp) hstart)
    · rcases List.mem_cons.mp hstart with rfl | hstart
      · exact (hstarted rfl).2 hbefore
      · exact h.cancelled hbefore hstart

lemma Fate.stored_not_mem (h : Fate journal s) (hidle : .started s ∉ journal) :
    .stored s ∉ journal := by
  have hstored := h.stored
  rw [List.count_eq_zero.mpr hidle] at hstored
  exact List.count_eq_zero.mp (Nat.le_zero.mp hstored)

lemma Fate.note_other (h : Fate journal s) (he : e.submission ≠ s) : Fate (e :: journal) s := by
  apply h.note <;> rintro rfl <;> exact absurd rfl he

lemma mem_note_other {a : Event} (h : e.submission ≠ a.submission) :
    a ∈ e :: journal ↔ a ∈ journal := by
  rw [List.mem_cons, or_iff_right]
  rintro rfl
  exact h rfl

lemma Record.Fits.note {r : Record} (h : r.Fits rounds journal)
    (hhanded : e = .handedOut ⟨r.task.id, rounds r.task.id⟩ → r.handedOut = true)
    (hstarted : e = .started ⟨r.task.id, rounds r.task.id⟩ → r.state = .running)
    (hcancelled : e = .cancelled ⟨r.task.id, rounds r.task.id⟩ → r.state = .cancelled)
    (hfinished : e ≠ .finished ⟨r.task.id, rounds r.task.id⟩) : r.Fits rounds (e :: journal) := by
  refine ⟨fun hnot => ?_, fun hstate => ?_, fun hmem => ?_, h.running, ?_⟩
  · refine List.not_mem_cons_of_ne_of_not_mem (fun heq => ?_) (h.handedOut hnot)
    exact Bool.noConfusion ((hhanded heq.symm).symm.trans hnot)
  · exact List.not_mem_cons_of_ne_of_not_mem (fun heq => hstate (hstarted heq.symm))
      (h.started hstate)
  · exact (List.mem_cons.mp hmem).elim (fun heq => hcancelled heq.symm) h.cancelled
  · exact List.not_mem_cons_of_ne_of_not_mem hfinished.symm h.finished

lemma Record.Fits.note_other {r : Record} (h : r.Fits rounds journal)
    (he : e.submission.id ≠ r.task.id) (hrounds : rounds' r.task.id = rounds r.task.id) :
    r.Fits rounds' (e :: journal) := by
  have hsame : r.Fits rounds (e :: journal) := by
    apply h.note <;> rintro rfl <;> exact absurd rfl he
  refine ⟨?_, ?_, ?_, h.running, ?_⟩ <;> rw [hrounds]
  · exact hsame.handedOut
  · exact hsame.started
  · exact hsame.cancelled
  · exact hsame.finished

lemma Job.Fits.note_other {records : List Record} {j : Job} (h : j.Fits records rounds journal)
    (he : e.submission.id ≠ j.task.id) (hrounds : rounds' j.task.id = rounds j.task.id) :
    j.Fits records rounds' (e :: journal) := by
  have hne : e.submission ≠ j.submission := by
    intro heq
    rw [heq, h.latest] at he
    exact he rfl
  refine ⟨?_, h.tracked, ?_, ?_⟩
  · rw [hrounds]
    exact h.latest
  · rw [mem_note_other hne]
    exact h.started
  · rw [mem_note_other hne]
    exact h.stored

/-- A job keeps its record when records that were not handed out come and go. -/
lemma Job.Fits.of_records {records records' : List Record} {j : Job}
    (h : j.Fits records rounds journal)
    (hrecords : ∀ r ∈ records, r.task.id = j.task.id → r.handedOut = true → r ∈ records') :
    j.Fits records' rounds journal := by
  obtain ⟨r, hr, htask, hhanded, hstages⟩ := h.tracked
  exact ⟨h.latest, ⟨r, hrecords r hr (htask ▸ rfl) hhanded, htask, hhanded, hstages⟩, h.started,
    h.stored⟩

end Journal

/-- An event about the latest submission of an id, which leaves all other ids alone. -/
structure Concerns (id : TaskId) (e : Event) (l l' : Ledger) (c c' : Crew ι σ τ) : Prop where
  submission : e.submission = ⟨id, c'.rounds id⟩
  journal : c'.journal = e :: c.journal
  rounds_le : c.rounds id ≤ c'.rounds id
  rounds : ∀ id', id' ≠ id → c'.rounds id' = c.rounds id'
  records : ∀ r ∈ l'.records, r.task.id ≠ id → r ∈ l.records
  kept : ∀ r ∈ l.records, r.task.id ≠ id → r.handedOut = true → r ∈ l'.records
  jobs : ∀ w j, c'.jobs w = some j → j.task.id ≠ id → c.jobs w = some j

/-- After an event only what concerns its id has to be looked at. -/
lemma Concerns.orderly {id : TaskId} {e : Event} {l l' : Ledger} {c c' : Crew ι σ τ}
    (hc : Concerns id e l l' c c') (h : Orderly l c)
    (hfate : Fate (e :: c.journal) e.submission)
    (hrecord : ∀ r ∈ l'.records, r.task.id = id → r.Fits c'.rounds (e :: c.journal))
    (hjob : ∀ w j, c'.jobs w = some j → j.task.id = id →
      j.Fits l'.records c'.rounds (e :: c.journal))
    (halone : ∀ w w' j j', c'.jobs w = some j → c'.jobs w' = some j' → j.task.id = id →
      j'.task.id = id → w = w') :
    Orderly l' c' := by
  have hid : e.submission.id = id := congrArg Submission.id hc.submission
  constructor <;> try rw [hc.journal]
  · intro a ha
    rcases List.mem_cons.mp ha with heq | ha
    · exact heq ▸ hc.submission ▸ Nat.le_refl _
    · have hpast := h.past a ha
      by_cases heq : a.submission.id = id
      · rw [heq] at hpast ⊢
        exact Nat.le_trans hpast hc.rounds_le
      · rwa [hc.rounds _ heq]
  · intro s
    by_cases heq : e.submission = s
    · exact heq ▸ hfate
    · exact (h.fates s).note_other heq
  · intro r hr
    by_cases heq : r.task.id = id
    · exact hrecord r hr heq
    · exact (h.records r (hc.records r hr heq)).note_other (hid ▸ Ne.symm heq) (hc.rounds _ heq)
  · intro w j hj
    by_cases heq : j.task.id = id
    · exact hjob w j hj heq
    · have hfits : j.Fits l'.records c.rounds c.journal :=
        (h.jobs w j (hc.jobs w j hj heq)).of_records fun r hr hrj => hc.kept r hr (hrj ▸ heq)
      exact hfits.note_other (hid ▸ Ne.symm heq) (hc.rounds _ heq)
  · intro w w' j j' hj hj' hsame
    by_cases heq : j.task.id = id
    · exact halone w w' j j' hj hj' heq (hsame ▸ heq)
    · exact h.alone w w' j j' (hc.jobs w j hj heq) (hc.jobs w' j' hj' (hsame ▸ heq)) hsame

/-! ## Requests of clients -/

section Clients

variable {l : Ledger} {c : Crew ι σ τ} {now : Timestamp}

/-- Without an event, as long as the records stay that were handed out. -/
lemma Orderly.of_records {l' : Ledger} (h : Orderly l c)
    (hsub : ∀ r ∈ l'.records, r ∈ l.records)
    (hkept : ∀ r ∈ l.records, r.handedOut = true → r ∈ l'.records) : Orderly l' c := by
  refine ⟨h.past, h.fates, fun r hr => h.records r (hsub r hr), fun w j hj => ?_, h.alone⟩
  exact (h.jobs w j hj).of_records fun r hr _ => hkept r hr

/-- The queue itself, the caches and the store do not matter. -/
lemma Orderly.congr {c' : Crew ι σ τ} (h : Orderly l c) (hjobs : c'.jobs = c.jobs)
    (hrounds : c'.rounds = c.rounds) (hjournal : c'.journal = c.journal) : Orderly l c' := by
  constructor
  · rw [hjournal, hrounds]
    exact h.past
  · rw [hjournal]
    exact h.fates
  · rw [hjournal, hrounds]
    exact h.records
  · rw [hjobs, hjournal, hrounds]
    exact h.jobs
  · rw [hjobs]
    exact h.alone

/-- No event is about the next submission of an id, as its number has not come up before. -/
lemma Orderly.not_mem_next (h : Orderly l c) {id : TaskId} {e : Event}
    (he : e.submission = ⟨id, c.rounds id + 1⟩) : e ∉ c.journal := by
  intro hmem
  have hpast := h.past e hmem
  rw [he] at hpast
  exact Nat.not_succ_le_self _ hpast

lemma Orderly.nobody (h : Orderly l c) {id : TaskId}
    (hnone : ∀ r ∈ l.records, r.task.id = id → r.handedOut = false) {w : ι} {j : Job}
    (hj : c.jobs w = some j) : j.task.id ≠ id := by
  intro heq
  obtain ⟨r, hr, htask, hhanded, -⟩ := (h.jobs w j hj).tracked
  exact Bool.noConfusion (hhanded.symm.trans (hnone r hr (htask ▸ heq)))

lemma orderly_enrol (h : Orderly l c) (task : Task) :
    Orderly (l.enrol now task).2
      (if (l.enrol now task).1 = .queued then c.accept task.id else c) := by
  unfold Ledger.enrol
  cases hfind : l.find? task.id with
  | some r => exact h
  | none =>
    have hfresh : ∀ r ∈ l.records, r.task.id ≠ task.id := fun r hr heq =>
      Ledger.find?_eq_none.mp hfind (heq ▸ List.mem_map_of_mem hr)
    have hround : (c.accept task.id).rounds task.id = c.rounds task.id + 1 :=
      Function.update_self ..
    have hfirst : ∀ e : Event, e.submission = ⟨task.id, c.rounds task.id + 1⟩ →
        e ≠ .accepted ⟨task.id, c.rounds task.id + 1⟩ → e ∉ (c.accept task.id).journal :=
      fun e he hne => List.not_mem_cons_of_ne_of_not_mem hne (h.not_mem_next he)
    have hnobody : ∀ w j, c.jobs w = some j → j.task.id ≠ task.id := fun w j =>
      h.nobody fun r hr hid => absurd hid (hfresh r hr)
    have hconcerns : Concerns task.id (.accepted ⟨task.id, c.rounds task.id + 1⟩) l
        { l with records := l.records ++ [⟨task, .queued, false, now⟩] } c
        (c.accept task.id) := by
      constructor
      · rw [hround]
        rfl
      · rfl
      · rw [hround]
        exact Nat.le_succ _
      · exact fun id hid => Function.update_of_ne hid ..
      · intro r hr hid
        refine (List.mem_append.mp hr).resolve_right fun hr => hid ?_
        rw [List.mem_singleton.mp hr]
      · exact fun r hr _ _ => List.mem_append_left _ hr
      · exact fun w j hj _ => hj
    refine hconcerns.orderly h ?_ ?_ ?_ ?_
    · apply (h.fates _).note <;> intro heq <;> cases heq
      exact h.not_mem_next rfl
    · intro r hr hid
      rcases List.mem_append.mp hr with hr | hr
      · exact absurd hid (hfresh r hr)
      · rw [List.mem_singleton.mp hr]
        refine ⟨?_, ?_, ?_, nofun, ?_⟩ <;> dsimp only <;> rw [hround]
        · exact fun _ => hfirst _ rfl (by simp)
        · exact fun _ => hfirst _ rfl (by simp)
        · exact fun hmem => absurd hmem (hfirst _ rfl (by simp))
        · exact hfirst _ rfl (by simp)
    · exact fun w j hj hid => absurd hid (hnobody w j hj)
    · exact fun w w' j j' hj _ hid => absurd hid (hnobody w j hj)

lemma orderly_put (h : Orderly l c) (task : Task) :
    Orderly (l.put now task).2 (c.acceptAll [(task.id, (l.put now task).1)]) := by
  unfold Ledger.put
  split
  · exact h.of_records (fun _ hr => hr) fun _ hr _ => hr
  · exact orderly_enrol h task

lemma orderly_enrolAll {tasks : List Task} (h : Orderly l c) :
    Orderly (Ledger.enrolAll now tasks l).2 (c.acceptAll (Ledger.enrolAll now tasks l).1) := by
  induction tasks generalizing l c with
  | nil => exact h
  | cons task rest ih =>
    unfold Ledger.enrolAll
    split
    · exact h.of_records (fun _ hr => hr) fun _ hr _ => hr
    · exact ih (orderly_enrol h task)

lemma orderly_resume (h : Orderly l c) :
    Orderly (l.resume now).2 (c.acceptAll (l.resume now).1) :=
  orderly_enrolAll (h.of_records (fun _ hr => hr) fun _ hr _ => hr)

lemma Ledger.mem_setState {id : TaskId} {state : TaskState} {r' : Record} :
    r' ∈ (l.setState id state).records ↔
      (r' ∈ l.records ∧ r'.task.id ≠ id) ∨
        ∃ r ∈ l.records, r.task.id = id ∧ r' = { r with state } := by
  unfold setState
  rw [List.mem_map]
  constructor
  · rintro ⟨r, hr, rfl⟩
    by_cases hid : r.task.id = id
    · rw [if_pos hid]
      exact Or.inr ⟨r, hr, hid, rfl⟩
    · rw [if_neg hid]
      exact Or.inl ⟨hr, hid⟩
  · rintro (⟨hr', hid⟩ | ⟨r, hr, hid, rfl⟩)
    · exact ⟨r', hr', if_neg hid⟩
    · exact ⟨r, hr, if_pos hid⟩

lemma Ledger.of_leaveQueued {l' : Ledger} {id : TaskId} {state : TaskState} {obstacle : Obstacle}
    (h : l.leaveQueued id state obstacle = .ok l') :
    (∃ r, l.find? id = some r ∧ r.state = .queued) ∧ l' = l.setState id state := by
  unfold leaveQueued at h
  split at h
  · cases h
  · rename_i hstate
    exact ⟨Option.map_eq_some_iff.mp hstate, (Except.ok.inj h).symm⟩
  · cases h
  · cases h

lemma concerns_setState {c' : Crew ι σ τ} {id : TaskId} {e : Event} (state : TaskState)
    (he : e.submission = c'.latest id) (hjournal : c'.journal = e :: c.journal)
    (hrounds : c'.rounds = c.rounds)
    (hjobs : ∀ w j, c'.jobs w = some j → j.task.id ≠ id → c.jobs w = some j) :
    Concerns id e l (l.setState id state) c c' := by
  refine ⟨he, hjournal, ?_, fun id' _ => ?_, fun r hr hid => ?_, fun r hr hid _ => ?_, hjobs⟩
  · exact hrounds ▸ Nat.le_refl _
  · rw [hrounds]
  · rcases Ledger.mem_setState.mp hr with ⟨hr, -⟩ | ⟨r₀, -, hr₀, rfl⟩
    · exact hr
    · exact absurd hr₀ hid
  · exact Ledger.mem_setState.mpr (Or.inl ⟨hr, hid⟩)

lemma orderly_cancel {l' : Ledger} {id : TaskId} (hnodup : (l.records.map (·.task.id)).Nodup)
    (h : Orderly l c) (hcancel : l.leaveQueued id .cancelled .alreadyCancelled = .ok l') :
    Orderly l' (c.note (.cancelled (c.latest id))) := by
  obtain ⟨⟨r, hfind, hqueued⟩, rfl⟩ := Ledger.of_leaveQueued hcancel
  obtain ⟨hr, rfl⟩ := Ledger.mem_of_find? hfind
  have honly : ∀ r' ∈ l.records, r'.task.id = r.task.id → r' = r := fun r' hr' hid =>
    List.inj_on_of_nodup_map hnodup hr' hr hid
  have hfits := h.records r hr
  have hidle : .started (c.latest r.task.id) ∉ c.journal :=
    hfits.started (by rw [hqueued]; decide)
  have hconcerns : Concerns r.task.id (.cancelled (c.latest r.task.id)) l
      (l.setState r.task.id .cancelled) c (c.note (.cancelled (c.latest r.task.id))) :=
    concerns_setState .cancelled rfl rfl rfl fun w j hj _ => hj
  refine hconcerns.orderly h ?_ ?_ ?_ ?_
  · apply (h.fates _).note <;> intro heq <;> cases heq
    exact hidle
  · intro r' hr' hid
    rcases Ledger.mem_setState.mp hr' with ⟨-, hne⟩ | ⟨r₀, hr₀, hid₀, rfl⟩
    · exact absurd hid hne
    · obtain rfl := honly r₀ hr₀ hid₀
      have hbefore : Record.Fits c.rounds c.journal { r₀ with state := .cancelled } :=
        ⟨hfits.handedOut, fun _ => hidle, fun _ => rfl, nofun, hfits.finished⟩
      apply hbefore.note <;> intro heq <;> cases heq
      rfl
  · -- A worker may have the task in hand, but does not run it.
    intro w j hj hid
    have hjob := h.jobs w j hj
    obtain ⟨r₀, hr₀, htask, hhanded, -, hrun⟩ := hjob.tracked
    obtain rfl := honly r₀ hr₀ (htask ▸ hid)
    refine ⟨hjob.latest, ⟨{ r₀ with state := .cancelled }, ?_, htask, hhanded, nofun, ?_⟩, ?_, ?_⟩
    · exact Ledger.mem_setState.mpr (Or.inr ⟨r₀, hr₀, rfl, rfl⟩)
    · intro hstage
      rw [hrun hstage] at hqueued
      cases hqueued
    · exact fun hstage => List.mem_cons_of_mem _ (hjob.started hstage)
    · exact fun hstage => List.not_mem_cons_of_ne_of_not_mem (by simp) (hjob.stored hstage)
  · exact fun w w' j j' hj hj' hid hid' => h.alone w w' j j' hj hj' (hid.trans hid'.symm)

end Clients

/-! ## Steps of workers -/

namespace Ledger

/-- Either no record is ready, or the earliest ready one is handed out. -/
lemma take_cases (records : List Record) :
    take records = (none, records.filter (!·.lapsed)) ∨
      ∃ before r after, records = before ++ r :: after ∧ r.ready = true ∧
        take records =
          (some r.task, before.filter (!·.lapsed) ++ { r with handedOut := true } :: after) := by
  have hparts := @List.takeWhile_append_dropWhile _ (!·.ready) records
  unfold take
  cases hdrop : records.dropWhile (!·.ready) with
  | nil =>
    rw [hdrop, List.append_nil] at hparts
    rw [hparts]
    exact Or.inl rfl
  | cons r after =>
    rw [hdrop] at hparts
    refine Or.inr ⟨_, r, after, hparts.symm, ?_, rfl⟩
    have hhead := List.head?_dropWhile_not (!·.ready) records
    rw [hdrop] at hhead
    simpa using hhead

/-- A record that was handed out before stays. -/
lemma mem_take {records : List Record} {r : Record} (hr : r ∈ records)
    (hhanded : r.handedOut = true) : r ∈ (take records).2 := by
  have hlapsed : (!r.lapsed) = true := by
    unfold Record.lapsed
    rw [hhanded, Bool.not_true, Bool.and_false]
    rfl
  rcases take_cases records with htake | ⟨before, r₀, after, rfl, hready, htake⟩
  · rw [htake]
    exact List.mem_filter.mpr ⟨hr, hlapsed⟩
  · rw [htake]
    rcases List.mem_append.mp hr with hr | hr
    · exact List.mem_append_left _ (List.mem_filter.mpr ⟨hr, hlapsed⟩)
    · rcases List.mem_cons.mp hr with rfl | hr
      · unfold Record.ready at hready
        rw [hhanded, Bool.not_true, Bool.and_false] at hready
        cases hready
      · exact List.mem_append_right _ (List.mem_cons_of_mem _ hr)

/-- Handing out a record changes no other. -/
lemma mem_of_take {records before after : List Record} {r : Record}
    (hrecords : records = before ++ r :: after)
    (htake : take records =
      (some r.task, before.filter (!·.lapsed) ++ { r with handedOut := true } :: after)) :
    { r with handedOut := true } ∈ (take records).2 ∧
      ∀ r' ∈ (take records).2, r'.task.id ≠ r.task.id → r' ∈ records := by
  rw [htake, hrecords]
  refine ⟨List.mem_append_right _ List.mem_cons_self, fun r' hr' hne => ?_⟩
  rcases List.mem_append.mp hr' with hr' | hr'
  · exact List.mem_append_left _ (List.mem_filter.mp hr').1
  · rcases List.mem_cons.mp hr' with rfl | hr'
    · exact absurd rfl hne
    · exact List.mem_append_right _ (List.mem_cons_of_mem _ hr')

end Ledger

section Workers

variable [DecidableEq ι] {l : Ledger} {c : Crew ι σ τ} {worker : ι} {job : Job}

lemma jobs_assign_cases {job : Option Job} {w : ι} {j : Job}
    (hj : (c.assign worker job).jobs w = some j) :
    (w = worker ∧ job = some j) ∨ (w ≠ worker ∧ c.jobs w = some j) := by
  by_cases hw : w = worker
  · rw [hw, Crew.jobs_assign] at hj
    exact Or.inl ⟨hw, hj⟩
  · exact Or.inr ⟨hw, (Function.update_of_ne hw ..).symm.trans hj⟩

/-- A worker is handed a task that nobody else works on. -/
lemma orderly_handOut (hbooks : Books c.queue l) (h : Orderly l c) {r : Record}
    (hr : r ∈ l.records) (hready : r.ready = true)
    (hmem : { r with handedOut := true } ∈ l.get.2.records)
    (hothers : ∀ r' ∈ l.get.2.records, r'.task.id ≠ r.task.id → r' ∈ l.records) :
    Orderly l.get.2 (({ c with queue := c.queue.get.2 }.assign worker
      (some ⟨r.task, c.latest r.task.id, .inHand⟩)).note (.handedOut (c.latest r.task.id))) := by
  obtain ⟨hqueued, hhanded⟩ : r.state = .queued ∧ r.handedOut = false := by
    unfold Record.ready at hready
    simpa using hready
  have hnobody : ∀ w j, c.jobs w = some j → j.task.id ≠ r.task.id := fun w j =>
    h.nobody fun r' hr' hid => List.inj_on_of_nodup_map hbooks.nodup hr' hr hid ▸ hhanded
  have hfits := h.records r hr
  have hidle : .started (c.latest r.task.id) ∉ c.journal :=
    hfits.started (by rw [hqueued]; decide)
  have hconcerns : Concerns r.task.id (.handedOut (c.latest r.task.id)) l l.get.2 c
      (({ c with queue := c.queue.get.2 }.assign worker
        (some ⟨r.task, c.latest r.task.id, .inHand⟩)).note
          (.handedOut (c.latest r.task.id))) := by
    refine ⟨rfl, rfl, Nat.le_refl _, fun _ _ => rfl, hothers,
      fun r' hr' _ => Ledger.mem_take hr', ?_⟩
    intro w j hj hne
    rcases jobs_assign_cases hj with ⟨-, hjob⟩ | ⟨-, hj⟩
    · exact absurd (Option.some.inj hjob ▸ rfl) hne
    · exact hj
  refine hconcerns.orderly h ?_ ?_ ?_ ?_
  · apply (h.fates _).note <;> intro heq <;> cases heq
    exact hfits.handedOut hhanded
  · intro r' hr' hid
    obtain rfl : r' = { r with handedOut := true } :=
      List.inj_on_of_nodup_map (books_get hbooks).2.nodup hr' hmem hid
    have hbefore : Record.Fits c.rounds c.journal { r with handedOut := true } :=
      ⟨nofun, hfits.started, hfits.cancelled, fun _ => rfl, hfits.finished⟩
    apply hbefore.note <;> intro heq <;> cases heq
    rfl
  · intro w j hj hid
    rcases jobs_assign_cases hj with ⟨-, hjob⟩ | ⟨-, hj⟩
    · obtain rfl := Option.some.inj hjob
      refine ⟨rfl, ⟨_, hmem, rfl, rfl, fun _ => ?_, nofun⟩, nofun, fun _ => ?_⟩
      · rw [hqueued]
        decide
      · exact List.not_mem_cons_of_ne_of_not_mem (by simp) ((h.fates _).stored_not_mem hidle)
    · exact absurd hid (hnobody w j hj)
  · intro w w' j j' hj hj' hid hid'
    rcases jobs_assign_cases hj with ⟨hw, -⟩ | ⟨-, hj⟩
    · rcases jobs_assign_cases hj' with ⟨hw', -⟩ | ⟨-, hj'⟩
      · exact hw.trans hw'.symm
      · exact absurd hid' (hnobody w' j' hj')
    · exact absurd hid (hnobody w j hj)

lemma orderly_get (hbooks : Books c.queue l) (h : Orderly l c) :
    Orderly l.get.2 (c.get worker) := by
  obtain ⟨htask, -⟩ := books_get hbooks
  unfold Crew.get
  rcases Ledger.take_cases l.records with htake | ⟨before, r, after, hrecords, hready, htake⟩
  · have hget : c.queue.get = (none, c.queue.get.2) :=
      Prod.ext (htask.trans (congrArg Prod.fst htake)) rfl
    have hsub : ∀ r ∈ l.get.2.records, r ∈ l.records := by
      change ∀ r ∈ (Ledger.take l.records).2, r ∈ l.records
      rw [htake]
      exact fun r hr => (List.mem_filter.mp hr).1
    rw [hget]
    exact (h.of_records hsub fun r => Ledger.mem_take).congr rfl rfl rfl
  · have hget : c.queue.get = (some r.task, c.queue.get.2) :=
      Prod.ext (htask.trans (congrArg Prod.fst htake)) rfl
    have hr : r ∈ l.records := by
      rw [hrecords]
      exact List.mem_append_right _ List.mem_cons_self
    obtain ⟨hmem, hothers⟩ := Ledger.mem_of_take hrecords htake
    rw [hget]
    exact orderly_handOut hbooks h hr hready hmem hothers

lemma Orderly.own {new : Option Job} {w : ι} {j : Job} (h : Orderly l c)
    (hjob : c.jobs worker = some job) (hj : (c.assign worker new).jobs w = some j)
    (hid : j.task.id = job.task.id) : w = worker ∧ new = some j := by
  rcases jobs_assign_cases hj with hown | ⟨hne, hj⟩
  · exact hown
  · exact absurd (h.alone w worker j job hj hjob hid) hne

/-- A worker that gave its task up, or has run it, may be done with it. -/
lemma orderly_over (h : Orderly l c) (hjob : c.jobs worker = some job) :
    Orderly l (c.assign worker (some { job with stage := .over })) := by
  have hfits := h.jobs worker job hjob
  refine ⟨h.past, h.fates, h.records, fun w j hj => ?_, fun w w' j j' hj hj' hid => ?_⟩
  · rcases jobs_assign_cases hj with ⟨-, hnew⟩ | ⟨-, hj⟩
    · obtain rfl := Option.some.inj hnew
      obtain ⟨r, hr, htask, hhanded, -⟩ := hfits.tracked
      exact ⟨hfits.latest, ⟨r, hr, htask, hhanded, nofun, nofun⟩, nofun, fun hne => absurd rfl hne⟩
    · exact h.jobs w j hj
  · rcases jobs_assign_cases hj with ⟨hw, hnew⟩ | ⟨-, hold⟩
    · have hsame : j.task.id = job.task.id := Option.some.inj hnew ▸ rfl
      exact hw.trans (h.own hjob hj' (hid.symm.trans hsame)).1.symm
    · rcases jobs_assign_cases hj' with ⟨hw', hnew⟩ | ⟨-, hold'⟩
      · have hsame : j'.task.id = job.task.id := Option.some.inj hnew ▸ rfl
        exact (h.own hjob hj (hid.trans hsame)).1.trans hw'.symm
      · exact h.alone w w' j j' hold hold' hid

lemma orderly_start {l' : Ledger} (hnodup : (l.records.map (·.task.id)).Nodup) (h : Orderly l c)
    (hjob : c.jobs worker = some job) (hstage : job.stage = .inHand)
    (hstart : l.leaveQueued job.task.id .running .cancelled = .ok l') :
    Orderly l' ((c.assign worker (some { job with stage := .running })).note
      (.started job.submission)) := by
  obtain ⟨⟨r, hfind, hqueued⟩, rfl⟩ := Ledger.of_leaveQueued hstart
  obtain ⟨hr, hrid⟩ := Ledger.mem_of_find? hfind
  have honly : ∀ r' ∈ l.records, r'.task.id = job.task.id → r' = r := fun r' hr' hid =>
    List.inj_on_of_nodup_map hnodup hr' hr (hid.trans hrid.symm)
  have hfits := h.records r hr
  have hjobfits := h.jobs worker job hjob
  have hsubmission : job.submission = ⟨r.task.id, c.rounds r.task.id⟩ := by
    rw [hjobfits.latest, hrid]
  have hidle : .started job.submission ∉ c.journal := by
    rw [hsubmission]
    exact hfits.started (by rw [hqueued]; decide)
  have hspared : .cancelled job.submission ∉ c.journal := by
    intro hcancelled
    rw [hsubmission] at hcancelled
    cases hqueued.symm.trans (hfits.cancelled hcancelled)
  obtain ⟨htask, hhanded⟩ : r.task = job.task ∧ r.handedOut = true := by
    obtain ⟨r₀, hr₀, htask₀, hhanded₀, -⟩ := hjobfits.tracked
    exact honly r₀ hr₀ (htask₀ ▸ rfl) ▸ ⟨htask₀, hhanded₀⟩
  have hconcerns : Concerns job.task.id (.started job.submission) l
      (l.setState job.task.id .running) c
      ((c.assign worker (some { job with stage := .running })).note (.started job.submission)) := by
    refine concerns_setState .running hjobfits.latest rfl rfl fun w j hj hid => ?_
    rcases jobs_assign_cases hj with ⟨-, hnew⟩ | ⟨-, hj⟩
    · exact absurd (Option.some.inj hnew ▸ rfl) hid
    · exact hj
  refine hconcerns.orderly h ?_ ?_ ?_ ?_
  · apply (h.fates _).note <;> intro heq <;> cases heq
    exact ⟨hidle, hspared⟩
  · intro r' hr' hid
    rcases Ledger.mem_setState.mp hr' with ⟨-, hne⟩ | ⟨r₀, hr₀, hid₀, rfl⟩
    · exact absurd hid hne
    · obtain rfl := honly r₀ hr₀ hid₀
      have hbefore : Record.Fits c.rounds c.journal { r₀ with state := .running } :=
        ⟨hfits.handedOut, fun hne => absurd rfl hne,
          fun hcancelled => absurd (hsubmission ▸ hcancelled) hspared, fun _ => hhanded,
          hfits.finished⟩
      refine hbefore.note ?_ (fun _ => rfl) ?_ ?_ <;> intro heq <;> cases heq
  · intro w j hj hid
    obtain ⟨-, hnew⟩ := h.own hjob hj hid
    obtain rfl := Option.some.inj hnew
    refine ⟨hjobfits.latest,
      ⟨{ r with state := .running }, ?_, htask, hhanded, nofun, fun _ => rfl⟩,
      fun _ => List.mem_cons_self, fun _ => ?_⟩
    · exact Ledger.mem_setState.mpr (Or.inr ⟨r, hr, hrid, rfl⟩)
    · refine List.not_mem_cons_of_ne_of_not_mem (by simp) (hjobfits.stored ?_)
      rw [hstage]
      decide
  · intro w w' j j' hj hj' hid hid'
    exact (h.own hjob hj hid).1.trans (h.own hjob hj' hid').1.symm

lemma orderly_store (h : Orderly l c) (hjob : c.jobs worker = some job)
    (hstage : job.stage = .running) :
    Orderly l ((c.assign worker (some { job with stage := .over })).note
      (.stored job.submission)) := by
  have hover := orderly_over h hjob
  have hjobfits := h.jobs worker job hjob
  have hfitsover := hover.jobs worker _ (Crew.jobs_assign _ _ _)
  have hstarted := hjobfits.started hstage
  have hfirst := hjobfits.stored (by rw [hstage]; decide)
  have hconcerns : Concerns job.task.id (.stored job.submission) l l
      (c.assign worker (some { job with stage := .over }))
      ((c.assign worker (some { job with stage := .over })).note (.stored job.submission)) :=
    ⟨hjobfits.latest, rfl, Nat.le_refl _, fun _ _ => rfl, fun _ hr _ => hr, fun _ hr _ _ => hr,
      fun _ _ hj _ => hj⟩
  refine hconcerns.orderly hover ?_ ?_ ?_ ?_
  · apply (h.fates _).note <;> intro heq <;> cases heq
    exact ⟨hstarted, hfirst⟩
  · intro r hr _
    apply (h.records r hr).note <;> intro heq <;> cases heq
  · intro w j hj hid
    obtain ⟨-, hnew⟩ := h.own hjob hj hid
    obtain rfl := Option.some.inj hnew
    exact ⟨hfitsover.latest, hfitsover.tracked, nofun, fun hne => absurd rfl hne⟩
  · intro w w' j j' hj hj' hid hid'
    exact (h.own hjob hj hid).1.trans (h.own hjob hj' hid').1.symm

lemma orderly_finish (h : Orderly l c) (hjob : c.jobs worker = some job) :
    Orderly (l.done job.task.id) ((c.assign worker none).note (.finished job.submission)) := by
  have hjobfits := h.jobs worker job hjob
  have hconcerns : Concerns job.task.id (.finished job.submission) l (l.done job.task.id) c
      ((c.assign worker none).note (.finished job.submission)) := by
    refine ⟨hjobfits.latest, rfl, Nat.le_refl _, fun _ _ => rfl, fun r hr _ => ?_,
      fun r hr hid _ => ?_, fun w j hj hid => ?_⟩
    · exact (List.mem_filter.mp hr).1
    · exact List.mem_filter.mpr ⟨hr, decide_eq_true hid⟩
    · exact (jobs_assign_cases hj).elim (fun hnew => nomatch hnew.2) And.right
  have hnobody : ∀ w j, (c.assign worker none).jobs w = some j → j.task.id ≠ job.task.id := by
    intro w j hj hid
    cases (h.own hjob hj hid).2
  refine hconcerns.orderly h ?_ ?_ ?_ ?_
  · apply (h.fates _).note <;> intro heq <;> cases heq
  · intro r hr hid
    exact absurd hid (of_decide_eq_true (List.mem_filter.mp hr).2)
  · exact fun w j hj hid => absurd hid (hnobody w j hj)
  · exact fun w w' j j' hj _ hid => absurd hid (hnobody w j hj)

end Workers

end Retrofit
