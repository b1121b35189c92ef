import StreamStore.Proofs.Engine.Reports

/-!
# Who puts batches into the write queue

Only an append does, with the step that hands its events off, and only where the queue
takes them.  No other task but the worker has to do with the queue, and no move from
outside does but for closing it.
-/

namespace StreamStore

/-! ## Batches in a log -/

/-- The batch that the write queue took. -/
def Happening.batch? : Happening → Option Batch
  | admitted _ r events => some ⟨r.stream, events⟩
  | _ => none

/-- Whether a batch is neither taken by the write queue nor dropped. -/
def Happening.isAside : Happening → Bool
  | admitted .. => false
  | lost _ => false
  | _ => true

namespace Log

/-- The batches that the write queue took, in order. -/
def batches (log : List Happening) : List Batch := log.filterMap Happening.batch?

variable {log more : List Happening}

theorem batches_append (log more : List Happening) :
    batches (log ++ more) = batches log ++ batches more := List.filterMap_append

theorem batches_eq_nil (h : ∀ happening ∈ log, happening.isAside = true) :
    batches log = [] := by
  rw [batches, List.filterMap_eq_nil_iff]
  intro happening hmem
  have haside := h happening hmem
  cases happening with
  | admitted => cases haside
  | _ => rfl

theorem batches_admitted (t : TaskId) (r : AppendRequest) (events : List Event)
    (h : ∀ happening ∈ log, happening.isAside = true) :
    batches (.admitted t r events :: log) = [⟨r.stream, events⟩] := by
  rw [← List.singleton_append, batches_append, batches_eq_nil h]
  rfl

theorem written_of_isAside (h : ∀ happening ∈ log, happening.isAside = true) :
    Written log := by
  intro b hmem
  cases h _ hmem

end Log

/-! ## The write queue -/

theorem WriteQueue.received_of_send {q q' : WriteQueue} {b : Batch} (h : q.send b = .ok q') :
    q.received = true := by
  rw [send, refusal?] at h
  by_cases hreceived : q.received = true
  · exact hreceived
  · rw [if_pos (.inr (by simp [hreceived]))] at h
    cases h

/-- What others than the worker do to the write queue, with what is noted of it: nothing,
or the queue takes a batch, or it is closed. -/
inductive Engine.QueueMove (e : Engine) (noted : List Happening) (e' : Engine) : Prop
  | keep (hqueue : e'.queue = e.queue)
      (hnoted : ∀ happening ∈ noted, happening.isAside = true)
  | send (t : TaskId) (r : AppendRequest) (events : List Event) (rest : List Happening)
      (hsend : e.queue.send ⟨r.stream, events⟩ = .ok e'.queue)
      (hnoted : noted = .admitted t r events :: rest)
      (hrest : ∀ happening ∈ rest, happening.isAside = true)
  | close (hqueue : e'.queue = e.queue.close)
      (hnoted : ∀ happening ∈ noted, happening.isAside = true)

theorem Engine.QueueMove.of_eq {e e' : Engine} (hqueue : e'.queue = e.queue) :
    e.QueueMove [] e' := .keep hqueue (List.forall_mem_nil _)

theorem Engine.QueueMove.append {e e' : Engine} {noted more : List Happening}
    (h : e.QueueMove noted e') (hmore : ∀ happening ∈ more, happening.isAside = true) :
    e.QueueMove (noted ++ more) e' := by
  cases h with
  | keep hqueue hnoted => exact .keep hqueue (List.forall_mem_append.mpr ⟨hnoted, hmore⟩)
  | send t r events rest hsend hnoted hrest =>
      refine .send t r events (rest ++ more) hsend ?_
        (List.forall_mem_append.mpr ⟨hrest, hmore⟩)
      rw [hnoted, List.cons_append]
  | close hqueue hnoted => exact .close hqueue (List.forall_mem_append.mpr ⟨hnoted, hmore⟩)

/-- One engine comes from another without a change of the write queue or of the lines for files. -/
structure Engine.Bypasses (e e' : Engine) : Prop where
  queue_eq : e'.queue = e.queue
  extents_eq : e'.extents = e.extents

section Steps

variable {e e' : Engine} {s : StreamId} {t : TaskId} {cancelled : Bool} {w : Weather}

theorem Residence.bypasses_step {residence residence' : Residence}
    (h : residence.step e s t cancelled w = some (e', residence')) : e.Bypasses e' := by
  cases residence with
  | asking phase =>
      cases phase with
      | finding =>
          rw [step] at h
          split at h
          · cases h
            exact ⟨rfl, rfl⟩
          · split at h <;> cases h
            exact ⟨rfl, rfl⟩
      | _ =>
          simp only [step] at h
          obtain ⟨found, -, heq⟩ := Option.map_eq_some_iff.mp h
          cases heq
          exact ⟨rfl, rfl⟩
  | loading events =>
      cases h
      exact ⟨rfl, rfl⟩
  | loaded events =>
      cases h
      exact ⟨rfl, rfl⟩

theorem Reading.bypasses_step {α : Type} {n : EntryId} {look : List Event → α}
    {phase phase' : Reading α} (h : phase.step e n t look = some (e', phase')) :
    e.Bypasses e' := by
  cases phase with
  | inLine =>
      rw [step] at h
      split at h <;> cases h
      exact ⟨rfl, rfl⟩
  | done seen => cases h
  | _ =>
      cases h
      exact ⟨rfl, rfl⟩

theorem Paging.bypasses_step {r : PageRequest} {phase phase' : Paging}
    (h : phase.step e r t cancelled w = some (e', phase')) : e.Bypasses e' := by
  cases phase with
  | start =>
      cases h
      exact ⟨rfl, rfl⟩
  | finding residence =>
      rw [step] at h
      split at h
      · cases h
        exact ⟨rfl, rfl⟩
      · cases h
        exact ⟨rfl, rfl⟩
      · obtain ⟨⟨e₁, residence₁⟩, hstep, heq⟩ := Option.map_eq_some_iff.mp h
        cases heq
        exact Residence.bypasses_step hstep
  | reading n phase =>
      rw [step] at h
      split at h
      · cases h
        exact ⟨rfl, rfl⟩
      · obtain ⟨⟨e₁, phase₁⟩, hstep, heq⟩ := Option.map_eq_some_iff.mp h
        cases heq
        exact Reading.bypasses_step hstep
  | done result => cases h

theorem Measuring.bypasses_step {phase phase' : Measuring}
    (h : phase.step e s t cancelled w = some (e', phase')) : e.Bypasses e' := by
  cases phase with
  | finding residence =>
      rw [step] at h
      split at h
      · cases h
        exact ⟨rfl, rfl⟩
      · cases h
        exact ⟨rfl, rfl⟩
      · obtain ⟨⟨e₁, residence₁⟩, hstep, heq⟩ := Option.map_eq_some_iff.mp h
        cases heq
        exact Residence.bypasses_step hstep
  | reading n phase =>
      rw [step] at h
      split at h
      · cases h
        exact ⟨rfl, rfl⟩
      · obtain ⟨⟨e₁, phase₁⟩, hstep, heq⟩ := Option.map_eq_some_iff.mp h
        cases heq
        exact Reading.bypasses_step hstep
  | done result => cases h

theorem Peeking.bypasses_step {phase phase' : Peeking}
    (h : phase.step e s t = some (e', phase')) : e.Bypasses e' := by
  cases phase with
  | start =>
      rw [step] at h
      split at h <;> cases h <;> exact ⟨rfl, rfl⟩
  | reading n phase =>
      rw [step] at h
      split at h
      · cases h
        exact ⟨rfl, rfl⟩
      · obtain ⟨⟨e₁, phase₁⟩, hstep, heq⟩ := Option.map_eq_some_iff.mp h
        cases heq
        exact Reading.bypasses_step hstep
  | done events => cases h

theorem Counting.bypasses_step {phase phase' : Counting}
    (h : phase.step e s t = some (e', phase')) : e.Bypasses e' := by
  cases phase with
  | start =>
      rw [step] at h
      split at h <;> cases h <;> exact ⟨rfl, rfl⟩
  | reading n phase =>
      rw [step] at h
      split at h
      · cases h
        exact ⟨rfl, rfl⟩
      · cases h
        exact ⟨rfl, rfl⟩
      · obtain ⟨⟨e₁, phase₁⟩, hstep, heq⟩ := Option.map_eq_some_iff.mp h
        cases heq
        exact Reading.bypasses_step hstep
  | onDisk =>
      cases h
      exact ⟨rfl, rfl⟩
  | done result => cases h

theorem Listing.bypasses_step {filter : Option StreamType} {phase phase' : Listing}
    (h : phase.step e filter t = some (e', phase')) : e.Bypasses e' := by
  cases phase with
  | start =>
      rw [step] at h
      split at h <;> cases h <;> exact ⟨rfl, rfl⟩
  | listed onDisk =>
      cases h
      exact ⟨rfl, rfl⟩
  | counting s phase rest found =>
      rw [step] at h
      split at h
      · cases h
        exact ⟨rfl, rfl⟩
      · cases h
        exact ⟨rfl, rfl⟩
      · cases h
        exact ⟨rfl, rfl⟩
      · obtain ⟨⟨e₁, phase₁⟩, hstep, heq⟩ := Option.map_eq_some_iff.mp h
        cases heq
        exact Counting.bypasses_step hstep
  | done result => cases h

theorem Retiring.bypasses_step {phase phase' : Retiring}
    (h : phase.step e s t = some (e', phase')) : e.Bypasses e' := by
  cases phase with
  | inLine =>
      rw [step] at h
      split at h <;> cases h
      exact ⟨rfl, rfl⟩
  | held =>
      rw [step] at h
      split at h <;> cases h <;> exact ⟨rfl, rfl⟩
  | inEntryLine n =>
      rw [step] at h
      split at h <;> cases h
      exact ⟨rfl, rfl⟩
  | retired => cases h
  | _ =>
      cases h
      exact ⟨rfl, rfl⟩

theorem Removing.queue_step {phase phase' : Removing}
    (h : phase.step e s t w = some (e', phase')) : e'.queue = e.queue := by
  unfold step at h
  split at h
  · split at h <;> cases h
    rfl
  · obtain ⟨⟨e₁, phase₁⟩, hstep, heq⟩ := Option.map_eq_some_iff.mp h
    cases heq
    exact (Retiring.bypasses_step hstep).queue_eq
  · cases h
    rfl
  · split at h <;> cases h
    rfl
  · cases h
    rfl
  · cases h
    rfl
  · cases h

/-- Whether a task may hand a batch off with its next step, or is the worker. -/
def Work.handlesBatches : Work → Bool
  | append _ (.current _) => true
  | writeBack _ => true
  | _ => false

theorem Work.isAside_of_mem_deeds {work work' : Work} (hwork : work.handlesBatches = false) :
    ∀ happening ∈ deeds t work work', happening.isAside = true := by
  intro happening hmem
  unfold deeds at hmem
  split at hmem
  · cases hwork
  · cases hwork
  · cases List.mem_singleton.mp hmem
    rfl
  · cases List.mem_singleton.mp hmem
    rfl
  · cases hmem

theorem Appending.queueMove_step {r : AppendRequest} {phase phase' : Appending}
    (h : phase.step e r t cancelled w = some (e', phase')) :
    e.QueueMove (Work.deeds t (.append r phase) (.append r phase')) e' := by
  cases phase with
  | current n =>
      have hrefused : ∀ refusal, e.QueueMove
          (Work.deeds t (.append r (.current n)) (.append r (.refused n refusal))) e :=
        fun _ => .of_eq rfl
      simp only [step, Option.some.injEq, handOff] at h
      split at h
      · cases h
        exact hrefused _
      · split at h
        next queue hsend =>
          cases h
          exact .send t r _ [] hsend rfl (List.forall_mem_nil _)
        · cases h
          exact hrefused _
  | finding residence =>
      refine .keep ?_ (Work.isAside_of_mem_deeds rfl)
      rw [step] at h
      split at h
      · cases h
        rfl
      · cases h
        rfl
      · obtain ⟨⟨e₁, residence₁⟩, hstep, heq⟩ := Option.map_eq_some_iff.mp h
        cases heq
        exact (Residence.bypasses_step hstep).queue_eq
  | inLine n =>
      refine .keep ?_ (Work.isAside_of_mem_deeds rfl)
      simp only [step] at h
      split at h
      · cases h
        rfl
      · split at h <;> cases h
        rfl
  | done result => cases h
  | _ =>
      refine .keep ?_ (Work.isAside_of_mem_deeds rfl)
      cases h
      rfl

/-- Only an append puts a batch into the write queue, and only the worker takes one out
or drops it. -/
theorem Work.queueMove_step {work work' : Work} (hadmissible : work.Admissible)
    (hnot : ∀ k, work ≠ .writeBack k)
    (h : work.step e t cancelled w = some (e', work')) :
    e.QueueMove (deeds t work work') e' := by
  cases work with
  | append r phase =>
      obtain ⟨⟨e₁, phase₁⟩, hstep, heq⟩ := Option.map_eq_some_iff.mp h
      cases heq
      exact Appending.queueMove_step hstep
  | page r phase =>
      obtain ⟨⟨e₁, phase₁⟩, hstep, heq⟩ := Option.map_eq_some_iff.mp h
      cases heq
      exact .keep (Paging.bypasses_step hstep).queue_eq (isAside_of_mem_deeds rfl)
  | measure s phase =>
      obtain ⟨⟨e₁, phase₁⟩, hstep, heq⟩ := Option.map_eq_some_iff.mp h
      cases heq
      exact .keep (Measuring.bypasses_step hstep).queue_eq (isAside_of_mem_deeds rfl)
  | peek s phase =>
      obtain ⟨⟨e₁, phase₁⟩, hstep, heq⟩ := Option.map_eq_some_iff.mp h
      cases heq
      exact .keep (Peeking.bypasses_step hstep).queue_eq (isAside_of_mem_deeds rfl)
  | count s phase =>
      obtain ⟨⟨e₁, phase₁⟩, hstep, heq⟩ := Option.map_eq_some_iff.mp h
      cases heq
      exact .keep (Counting.bypasses_step hstep).queue_eq (isAside_of_mem_deeds rfl)
  | list filter phase =>
      obtain ⟨⟨e₁, phase₁⟩, hstep, heq⟩ := Option.map_eq_some_iff.mp h
      cases heq
      exact .keep (Listing.bypasses_step hstep).queue_eq (isAside_of_mem_deeds rfl)
  | remove s phase =>
      obtain ⟨⟨e₁, phase₁⟩, hstep, heq⟩ := Option.map_eq_some_iff.mp h
      cases heq
      exact .keep (Removing.queue_step hstep) (isAside_of_mem_deeds rfl)
  | flush isDone =>
      rw [step] at h
      split at h <;> cases h
      exact .keep rfl (isAside_of_mem_deeds rfl)
  | writeBack k => exact absurd rfl (hnot k)
  | persist s events phase => exact hadmissible.elim
  | hold n access joined => exact hadmissible.elim
  | retire s phase => exact hadmissible.elim

end Steps

/-! ## Runs -/

/-- Whoever writes back works. -/
theorem Work.works_stance_writeBack (k : Worker) : (writeBack k).stance.works = true := by
  obtain ⟨source, phase, report⟩ := k
  cases phase with
  | writing b phase => cases phase <;> rfl
  | _ => rfl

/-- All that a task notes of a step beside what it did is that it ends. -/
theorem Work.notes_eq (t : TaskId) (work work' : Work) :
    ∃ more, notes t work work' = deeds t work work' ++ more ∧
      ∀ happening ∈ more, happening.isAside = true := by
  refine ⟨_, rfl, ?_⟩
  split <;> simp [Happening.isAside]

namespace Moment

variable {m m' : Moment}

/-- The first task is a worker in this state. -/
def HasWorker (m : Moment) (k : Worker) : Prop :=
  ∃ task, m.system.task? 0 = some task ∧ task.work = .writeBack k

theorem HasWorker.unique {k k' : Worker} (h : m.HasWorker k) (h' : m.HasWorker k') :
    k = k' := by
  obtain ⟨task, htask, hwork⟩ := h
  obtain ⟨task', htask', hwork'⟩ := h'
  cases htask.symm.trans htask'
  cases hwork.symm.trans hwork'
  rfl

theorem hasWorker_opening (settings : Settings) (archive : Archive) (clock : Int64) :
    (opening settings archive clock).HasWorker {} :=
  ⟨⟨0, .writeBack {}, false⟩, System.task?_start rfl _ _ 0, rfl⟩

/-- What a move is for the worker and for the queue: the worker takes a step, or the
others do what they can do to the queue. -/
inductive WorkerMove (m m' : Moment) (k : Worker) : Prop
  | stepped (k' : Worker) (weather : Weather) (hworker : m'.HasWorker k')
      (hstep : k.step m.system.engine 0 weather = some (m'.system.engine, k'))
      (hlog : m'.log = m.log ++ Work.notes 0 (.writeBack k) (.writeBack k'))
  | kept (noted : List Happening) (hworker : m'.HasWorker k)
      (hqueue : m.system.engine.QueueMove noted m'.system.engine)
      (hlog : m'.log = m.log ++ noted)

/-- A move of which nothing is noted, and which leaves the worker as it is. -/
theorem WorkerMove.of_silent {k : Worker} (hworker : m'.HasWorker k)
    (hqueue : m.system.engine.QueueMove [] m'.system.engine) (hlog : m'.log = m.log) :
    m.WorkerMove m' k :=
  .kept [] hworker hqueue (hlog.trans (List.append_nil _).symm)

/-- In a run only the first task writes back. -/
theorem ne_writeBack (hsettled : m.system.engine.Settled m.stances) {t : TaskId} {task : Task}
    (htask : m.system.task? t = some task) (ht : t ≠ 0) (k : Worker) :
    task.work ≠ .writeBack k := by
  intro hwork
  refine ht (hsettled.worker t ?_)
  rw [stances_eq htask, hwork]
  exact Work.works_stance_writeBack k

theorem Orderly.workerMove (h : m.Orderly) (hsettled : m.system.engine.Settled m.stances)
    {k : Worker} (hworker : m.HasWorker k) {mv : Move} (hmove : m.move mv = some m') :
    m.WorkerMove m' k := by
  obtain ⟨task, htask, hwork⟩ := hworker
  cases mv with
  | start work cancelled =>
      rw [Moment.move] at hmove
      split at hmove <;> cases hmove
      have hne : 0 ≠ m.system.nextTask := by
        intro heq
        rw [h.fresh 0 (Nat.le_of_eq heq.symm)] at htask
        cases htask
      have hself := System.task?_start (h.fresh _ Nat.le.refl) work cancelled 0
      rw [if_neg hne, htask] at hself
      exact .kept [.started m.system.nextTask work] ⟨task, hself, hwork⟩
        (.keep rfl (by simp [Happening.isAside])) rfl
  | step t weather =>
      obtain ⟨task', e', work', htask', hstep, rfl⟩ := move_step_eq_some hmove
      by_cases ht : t = 0
      · subst ht
        cases htask.symm.trans htask'
        rw [hwork] at hstep ⊢
        obtain ⟨⟨engine, k'⟩, htaken, heq⟩ := Option.map_eq_some_iff.mp hstep
        cases heq
        have hself := System.task?_record_self (y := { m.system with engine := e' }) htask
          (.writeBack k')
        exact .stepped k' weather ⟨_, hself, rfl⟩ htaken rfl
      · have hother := System.task?_record_of_ne { m.system with engine := e' }
          (Ne.symm ht) work'
        obtain ⟨more, hnotes, haside⟩ := Work.notes_eq t task'.work work'
        refine .kept _ ⟨task, hother.trans htask, hwork⟩ ?_ rfl
        rw [hnotes]
        exact (Work.queueMove_step (h.admissible t task' htask')
          (ne_writeBack hsettled htask' ht) hstep).append haside
  | cancel t =>
      cases hmove
      have hself := System.task?_cancel m.system t 0
      rw [htask, Option.map_some] at hself
      refine .of_silent ⟨_, hself, ?_⟩ (.of_eq rfl) rfl
      split <;> exact hwork
  | evict count =>
      cases hmove
      exact .of_silent ⟨task, htask, hwork⟩ (.of_eq rfl) rfl
  | tick now =>
      cases hmove
      exact .of_silent ⟨task, htask, hwork⟩ (.of_eq rfl) rfl
  | close =>
      cases hmove
      exact .of_silent ⟨task, htask, hwork⟩ (.close rfl (List.forall_mem_nil _)) rfl

end Moment

end StreamStore
