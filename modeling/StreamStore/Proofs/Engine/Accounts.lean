import StreamStore.Proofs.Engine.Histories
import StreamStore.Proofs.Engine.Queue

/-!
# What the worker accounts for

As long as no write fails, the batches that the worker counted, the one in its hands and
those in the queue are all that the queue took, in order.  Once the worker is finished,
the queue is empty and takes nothing more: the report counts all batches there ever were.
-/

namespace StreamStore

/-! ## What the worker does with the queue -/

/-- What one step of the worker does to the queue, to its phase and to its report. -/
inductive Worker.QueueStep (q : WriteQueue) : Worker → WriteQueue → Worker → Prop
  | take {b : Batch} {rest : List Batch} {report : WriteReport} (hreceived : q.received = true)
      (hbatches : q.batches = b :: rest) :
      QueueStep q ⟨.queue, .receiving, report⟩ { q with batches := rest }
        ⟨.queue, .writing b .start, report⟩
  | finish {report : WriteReport} (hreceived : q.received = true) (hbatches : q.batches = [])
      (hclosed : q.closed = true) :
      QueueStep q ⟨.queue, .receiving, report⟩ q.abandon ⟨.queue, .finished, report⟩
  | finishLost {report : WriteReport} (hreceived : q.received = false) :
      QueueStep q ⟨.queue, .receiving, report⟩ q ⟨.queue, .finished, report⟩
  | write {b : Batch} {phase phase' : Persisting} {report : WriteReport} :
      QueueStep q ⟨.queue, .writing b phase, report⟩ q ⟨.queue, .writing b phase', report⟩
  | count {b : Batch} {result : Except StorageFault Unit} {report : WriteReport} :
      QueueStep q ⟨.queue, .writing b (.done result), report⟩ q
        ⟨.queue, .written b, report.count b result⟩
  | countOff {b : Batch} {report : WriteReport} :
      QueueStep q ⟨.queue, .written b, report⟩ q ⟨.queue, .receiving, report⟩

/-- To write a batch leaves the queue alone. -/
theorem Persisting.queue_step {e e' : Engine} {s : StreamId} {events : List Event} {t : TaskId}
    {patience : Patience} {w : Weather} {phase phase' : Persisting}
    (h : phase.step e s events t patience w = some (e', phase')) : e'.queue = e.queue := by
  cases phase with
  | start =>
      rw [step] at h
      split at h <;> cases h <;> rfl
  | inLine =>
      simp only [step] at h
      split at h <;> cases h
      rfl
  | unlocking result =>
      cases h
      rfl
  | done result => cases h

theorem Worker.queueStep_of_step {e e' : Engine} {t : TaskId} {w : Weather} {k k' : Worker}
    (hsource : k.source = .queue) (h : k.step e t w = some (e', k')) :
    QueueStep e.queue k e'.queue k' := by
  obtain ⟨source, phase, report⟩ := k
  cases hsource
  cases phase with
  | receiving =>
      simp only [step, receive, WriteQueue.receive] at h
      by_cases hreceived : e.queue.received = true
      · rw [if_neg (by simp [hreceived])] at h
        cases hbatches : e.queue.batches with
        | cons b rest =>
            rw [hbatches] at h
            cases h
            exact .take hreceived hbatches
        | nil =>
            rw [hbatches] at h
            cases hclosed : e.queue.closed with
            | true =>
                simp only [hclosed, if_true] at h
                cases h
                exact .finish hreceived hbatches hclosed
            | false =>
                rw [hclosed] at h
                cases h
      · rw [if_pos (by simp [hreceived])] at h
        cases h
        exact .finishLost (Bool.not_eq_true _ ▸ hreceived)
  | writing b phase =>
      simp only [step] at h
      cases phase with
      | done result =>
          cases h
          exact .count
      | _ =>
          obtain ⟨⟨e₁, phase₁⟩, hstep, heq⟩ := Option.map_eq_some_iff.mp h
          cases heq
          rw [Persisting.queue_step hstep]
          exact .write
  | written b =>
      cases h
      exact .countOff
  | finished => cases h

/-! ## What the worker wrote -/

/-- The report of a worker that wrote some batches, and failed at none. -/
def WriteReport.ofBatches (batches : List Batch) : WriteReport where
  batchesWritten := batches.length
  eventsWritten := (batches.flatMap (·.events)).length

theorem WriteReport.count_ofBatches (batches : List Batch) (b : Batch) :
    (ofBatches batches).count b (.ok ()) = ofBatches (batches ++ [b]) := by
  simp only [count, ofBatches, List.length_append, List.length_singleton, List.flatMap_append,
    List.flatMap_singleton]

namespace Working

/-- The batch that is not counted yet. -/
def held : Working → List Batch
  | writing b _ => [b]
  | _ => []

/-- Whether a write failed that is not counted yet. -/
def hasFailed : Working → Bool
  | writing _ (.unlocking (.error _)) => true
  | writing _ (.done (.error _)) => true
  | _ => false

end Working

/-- A write that fails is noted. -/
theorem Worker.unfailed_of_step {e e' : Engine} {t : TaskId} {w : Weather} {k k' : Worker}
    (hunfailed : k.phase.hasFailed = false) (hstep : k.step e t w = some (e', k'))
    (hwritten : Log.Written (Work.deeds t (.writeBack k) (.writeBack k'))) :
    k'.phase.hasFailed = false := by
  obtain ⟨source, phase, report⟩ := k
  cases phase with
  | receiving =>
      simp only [Worker.step, receive] at hstep
      split at hstep
      · cases hstep
        rfl
      · cases hstep
        rfl
      · split at hstep <;> cases hstep <;> rfl
  | writing b phase =>
      cases phase with
      | start =>
          simp only [Worker.step, Persisting.result?, Persisting.step] at hstep
          split at hstep <;> cases hstep <;> rfl
      | inLine =>
          simp only [Worker.step, Persisting.result?, Persisting.step] at hstep
          split at hstep
          · cases hrun : Persisting.write e.archive b.stream b.events none w with
            | mk result archive =>
            rw [hrun] at hstep
            cases hstep
            cases result with
            | error fault => exact absurd List.mem_cons_self (hwritten b)
            | ok _ => rfl
          · cases hstep
      | unlocking result =>
          cases hstep
          cases result with
          | error fault => cases hunfailed
          | ok _ => rfl
      | done result =>
          cases hstep
          rfl
  | written b =>
      cases hstep
      rfl
  | finished => cases hstep

/-- A worker wrote, holds or will find in the queue just some batches, in order, and
once it is finished none will come any more. -/
structure Worker.Accounts (k : Worker) (q : WriteQueue) (batches : List Batch) : Prop where
  source : k.source = .queue
  report : ∃ written, k.report = .ofBatches written ∧
    written ++ k.phase.held ++ q.batches = batches
  unfailed : k.phase.hasFailed = false
  abandoned : q.received = false → q.batches = []
  finished : k.phase = .finished → q.received = false

namespace Worker.Accounts

variable {e e' : Engine} {t : TaskId} {w : Weather} {k k' : Worker} {q : WriteQueue}
  {batches : List Batch} {noted : List Happening}

theorem empty (capacity : Option Nat) : Worker.Accounts {} (.ofCapacity capacity) [] where
  source := rfl
  report := ⟨[], rfl, rfl⟩
  unfailed := rfl
  abandoned := nofun
  finished := nofun

/-- What others do to the queue is accounted for. -/
theorem queueMove (h : k.Accounts e.queue batches) (hmove : e.QueueMove noted e') :
    k.Accounts e'.queue (batches ++ Log.batches noted) := by
  obtain ⟨written, hreport, heq⟩ := h.report
  cases hmove with
  | keep hqueue hnoted =>
      rw [hqueue, Log.batches_eq_nil hnoted, List.append_nil]
      exact h
  | send t r events rest hsend hnoted hrest =>
      have hreceived := WriteQueue.received_of_send hsend
      rw [WriteQueue.send_eq_ok hsend, hnoted, Log.batches_admitted t r events hrest]
      refine ⟨h.source, ⟨written, hreport, ?_⟩, h.unfailed, fun hnot => ?_, h.finished⟩
      · rw [← heq, List.append_assoc _ _ [_]]
      · cases hreceived.symm.trans hnot
  | close hqueue hnoted =>
      rw [hqueue, Log.batches_eq_nil hnoted, List.append_nil]
      exact ⟨h.source, h.report, h.unfailed, h.abandoned, h.finished⟩

/-- What the worker does is accounted for, as long as no write fails. -/
theorem step (h : k.Accounts e.queue batches) (hstep : k.step e t w = some (e', k'))
    (hwritten : Log.Written (Work.deeds t (.writeBack k) (.writeBack k'))) :
    k'.Accounts e'.queue batches := by
  obtain ⟨written, hreport, heq⟩ := h.report
  have hunfailed := h.unfailed
  have hunfailed' := Worker.unfailed_of_step hunfailed hstep hwritten
  have habandoned := h.abandoned
  have hqueue := queueStep_of_step h.source hstep
  generalize e.queue = q at heq habandoned hqueue
  generalize e'.queue = q' at hqueue ⊢
  cases hqueue with
  | take hreceived hbatches =>
      refine ⟨rfl, ⟨written, hreport, ?_⟩, hunfailed', fun hnot => ?_, nofun⟩
      · simp only [Working.held, List.append_nil] at heq ⊢
        rw [← heq, hbatches, List.append_assoc, List.singleton_append]
      · cases hreceived.symm.trans hnot
  | finish hreceived hbatches hclosed =>
      refine ⟨rfl, ⟨written, hreport, ?_⟩, hunfailed', fun _ => rfl, fun _ => rfl⟩
      rw [← heq, hbatches]
      rfl
  | finishLost hreceived =>
      exact ⟨rfl, ⟨written, hreport, heq⟩, hunfailed', habandoned, fun _ => hreceived⟩
  | write => exact ⟨rfl, ⟨written, hreport, heq⟩, hunfailed', habandoned, nofun⟩
  | @count b result report =>
      cases result with
      | error fault => cases hunfailed
      | ok _ =>
          refine ⟨rfl, ⟨written ++ [b], ?_, ?_⟩, hunfailed', habandoned, nofun⟩
          · rw [← WriteReport.count_ofBatches, ← hreport]
          · simp only [Working.held, List.append_nil] at heq ⊢
            exact heq
  | countOff => exact ⟨rfl, ⟨written, hreport, heq⟩, hunfailed', habandoned, nofun⟩

end Worker.Accounts

/-! ## Runs -/

/-- The worker takes nothing into the queue. -/
theorem Work.batches_notes_writeBack (t : TaskId) (k k' : Worker) :
    Log.batches (notes t (.writeBack k) (.writeBack k')) = [] := by
  have hdeeds : Log.batches (deeds t (.writeBack k) (.writeBack k')) = [] := by
    obtain ⟨source, phase, report⟩ := k
    obtain ⟨source', phase', report'⟩ := k'
    unfold deeds
    split
    next heq _ => cases heq
    all_goals rfl
  obtain ⟨more, hnotes, haside⟩ := notes_eq t (.writeBack k) (.writeBack k')
  rw [hnotes, Log.batches_append, hdeeds, Log.batches_eq_nil haside]
  rfl

namespace Moment

variable {settings : Settings} {archive : Archive} {clock : Int64} {moves : List Move}
  {m m' : Moment} {report : WriteReport}

/-- The worker accounts for all batches that the queue took. -/
def IsAccounted (m : Moment) : Prop :=
  ∃ k, m.HasWorker k ∧ k.Accounts m.system.engine.queue (Log.batches m.log)

theorem IsAccounted.move (h : m.IsAccounted) (horderly : m.Orderly)
    (hsettled : m.system.engine.Settled m.stances) {mv : Move} (hmove : m.move mv = some m')
    (hwritten : Log.Written m'.log) : m'.IsAccounted := by
  obtain ⟨k, hworker, haccounts⟩ := h
  cases horderly.workerMove hsettled hworker hmove with
  | stepped k' weather hworker' hstep hlog =>
      refine ⟨k', hworker', ?_⟩
      rw [hlog] at hwritten ⊢
      rw [Log.batches_append, Work.batches_notes_writeBack, List.append_nil]
      refine haccounts.step hstep ?_
      exact (Log.written_append.mp (Log.written_append.mp hwritten).2).1
  | kept noted hworker' hqueue hlog =>
      refine ⟨k, hworker', ?_⟩
      rw [hlog, Log.batches_append]
      exact haccounts.queueMove hqueue

/-- As long as no write fails, the worker accounts for all batches. -/
theorem isAccounted_of_play (hrun : (opening settings archive clock).play moves = some m)
    (hwritten : Log.Written m.log) : m.IsAccounted := by
  refine play_induction (P := fun m => Log.Written m.log → m.IsAccounted) hrun
    (fun _ => ⟨{}, hasWorker_opening .., .empty settings.writeQueueCapacity⟩) ?_ hwritten
  intro before a mv b hbefore haccounted hmove hwritten
  have horderly := orderly_of_play hbefore
  obtain ⟨-, u, deeds, σ, hfollows⟩ := horderly.move hmove
  obtain ⟨remarks, hlog, -⟩ := hfollows.log_eq
  have hwritten' : Log.Written (a.log ++ (deeds ++ remarks)) := by
    rwa [← List.append_assoc, ← hlog]
  exact (haccounted (Log.written_append.mp hwritten').1).move horderly
    (settled_of_play hbefore) hmove hwritten

/-! ## After the worker is finished -/

/-- The report of the worker, once it is finished. -/
def report? (m : Moment) : Option WriteReport :=
  (m.system.task? 0).bind fun task =>
    match task.work with
    | .writeBack worker => worker.result?
    | _ => none

theorem hasWorker_of_report (hreport : m.report? = some report) :
    ∃ source, m.HasWorker ⟨source, .finished, report⟩ := by
  obtain ⟨task, htask, hresult⟩ := Option.bind_eq_some_iff.mp hreport
  split at hresult
  next worker hwork =>
    obtain ⟨source, phase, found⟩ := worker
    cases phase with
    | finished =>
        cases hresult
        exact ⟨source, task, htask, hwork⟩
    | _ => cases hresult
  · cases hresult

/-- The worker is finished and nothing is in the queue, which takes nothing more. -/
structure IsDrained (m : Moment) : Prop where
  finished : ∃ k, m.HasWorker k ∧ k.phase = .finished
  received : m.system.engine.queue.received = false
  batches : m.system.engine.queue.batches = []

theorem IsDrained.transit_eq_nil (h : m.IsDrained) : m.transit = [] := by
  obtain ⟨⟨source, phase, report⟩, ⟨task, htask, hwork⟩, hphase⟩ := h.finished
  cases hphase
  rw [transit, htask, Option.elim_some, hwork, h.batches]
  rfl

/-- A worker that is finished wrote all batches that the queue ever took. -/
theorem IsAccounted.drained (h : m.IsAccounted) (hreport : m.report? = some report) :
    m.IsDrained ∧ report = .ofBatches (Log.batches m.log) := by
  obtain ⟨k, hworker, haccounts⟩ := h
  obtain ⟨source, hworker'⟩ := hasWorker_of_report hreport
  cases hworker.unique hworker'
  have hreceived := haccounts.finished rfl
  have hempty := haccounts.abandoned hreceived
  obtain ⟨written, hwritten, heq⟩ := haccounts.report
  rw [hempty] at heq
  simp only [Working.held, List.append_nil] at heq
  subst heq
  exact ⟨⟨⟨_, hworker, rfl⟩, hreceived, hempty⟩, hwritten⟩

/-- Nothing is let into the queue any more, and nothing is dropped. -/
theorem IsDrained.move (h : m.IsDrained) (horderly : m.Orderly)
    (hsettled : m.system.engine.Settled m.stances) {mv : Move}
    (hmove : m.move mv = some m') :
    m'.IsDrained ∧ ∃ noted, m'.log = m.log ++ noted ∧
      ∀ happening ∈ noted, happening.isAside = true := by
  obtain ⟨k, hworker, hphase⟩ := h.finished
  cases horderly.workerMove hsettled hworker hmove with
  | stepped k' weather hworker' hstep hlog =>
      rw [Worker.step, hphase] at hstep
      cases hstep
  | kept noted hworker' hqueue hlog =>
      cases hqueue with
      | keep hqueue hnoted =>
          exact ⟨⟨⟨k, hworker', hphase⟩, hqueue ▸ h.received, hqueue ▸ h.batches⟩,
            noted, hlog, hnoted⟩
      | send t r events rest hsend hnoted hrest =>
          cases h.received.symm.trans (WriteQueue.received_of_send hsend)
      | close hqueue hnoted =>
          refine ⟨⟨⟨k, hworker', hphase⟩, ?_, ?_⟩, noted, hlog, hnoted⟩
          · rw [hqueue]
            exact h.received
          · rw [hqueue]
            exact h.batches

end Moment

end StreamStore
