import Mathlib.Algebra.BigOperators.Group.Finset.Basic
import Mathlib.Algebra.GroupWithZero.Nat
import StreamStore.Proofs.Engine.Accounts
import StreamStore.Proofs.Engine.Dropping

/-!
# What the backlog counts

At all times of a run, whatever fails, is refused, starts over or is dropped, the backlog counts for
each stream the batches in the write queue, the one that the worker holds and has not counted off
yet, and those that an append announced and neither handed off nor took back.  Nothing is counted
off that was not counted, and no count is zero.  So once a stream is idle, the worker is done with
all batches that the queue ever took for it.
-/

namespace StreamStore

theorem sum_map_toNat {α : Type} (p : α → Bool) (xs : List α) :
    (xs.map fun x => (p x).toNat).sum = xs.countP p := by
  induction xs with
  | nil => rfl
  | cons x xs ih =>
      rw [List.map_cons, List.sum_cons, ih, List.countP_cons, Nat.add_comm]
      cases p x <;> rfl

/-! ## Counts of the backlog -/

namespace Backlog

variable {b b' : Backlog} {s : StreamId}

/-- One backlog comes from another by one batch at most, which was counted if it is counted off. -/
inductive Move (b b' : Backlog) : Prop
  | keep (heq : b' = b)
  | announce (s : StreamId) (heq : b' = b.announce s)
  | settle (s : StreamId) (n : Nat) (hcount : b.counts.find? s = some n) (hpos : 1 ≤ n)
      (heq : b' = b.settle s)

theorem Positive.move (h : b.Positive) (hmove : b.Move b') : b'.Positive := by
  cases hmove with
  | keep heq =>
      rw [heq]
      exact h
  | announce s heq =>
      rw [heq]
      exact h.announce s
  | settle s n hcount hpos heq =>
      rw [heq]
      exact h.settle s

end Backlog

/-- A step changes the backlog by a batch that its task announces or answers for. -/
theorem Change.backlogMove {e e' : Engine} {t : TaskId} {σ σ' : Stance} {deeds : List Happening}
    (h : Change e t σ deeds e' σ') (howes : ∀ s, σ.owes s ≤ e.backlog.count s) :
    e.backlog.Move e'.backlog := by
  have hsettle : ∀ s, σ.owes s = 1 → e.backlog.Move (e.backlog.settle s) := by
    intro s howe
    have hpos : 0 < e.backlog.count s := by
      have hle := howes s
      omega
    exact .settle s _ (Backlog.find?_of_count_pos hpos) hpos rfl
  cases h with
  | frame hframe => exact .keep hframe.backlog_eq
  | find hframe | turn hframe | turnHit hframe | turnMiss hframe | finish hframe =>
      exact .keep hframe.backlog_eq
  | announce => exact .announce _ rfl
  | takeBack => exact hsettle _ (if_pos rfl)
  | countOff => exact hsettle _ (if_pos rfl)
  | _ => exact .keep rfl

/-! ## What a task answers for -/

namespace Working

/-- The batch that is not counted off yet. -/
def inHand : Working → List Batch
  | writing b _ => [b]
  | written b => [b]
  | _ => []

/-- The batch that is counted in the report, but not counted off yet. -/
def counted : Working → List Batch
  | written b => [b]
  | _ => []

end Working

/-- How many batches a worker is done with, whether or not they are on disk. -/
def WriteReport.dealt (r : WriteReport) : Nat := r.batchesWritten + r.batchesFailed

theorem WriteReport.dealt_count (r : WriteReport) (b : Batch) (result : Except StorageFault Unit) :
    (r.count b result).dealt = r.dealt + 1 := by
  cases result with
  | ok _ => exact Nat.add_right_comm _ _ _
  | error fault => rfl

namespace Work

/-- The batches that the worker has not counted off yet. -/
def inHand : Work → List Batch
  | writeBack worker => worker.phase.inHand
  | _ => []

/-- Whether an append to a stream announced a batch that it neither handed off nor took back. -/
def isAnnouncing (s : StreamId) : Work → Bool
  | append r (.announced _) => r.stream = s
  | append r (.stale _) => r.stream = s
  | append r (.current _) => r.stream = s
  | append r (.refused _ _) => r.stream = s
  | _ => false

/-- A task answers for the batch it announced and for the batch it writes back. -/
theorem owes_stance (work : Work) (s : StreamId) :
    work.stance.owes s = (work.isAnnouncing s).toNat + Batch.countOf s work.inHand := by
  by_cases hdrop : work.mayDrop = true
  · rw [owes_of_mayDrop hdrop]
    cases work with
    | append r phase => cases phase <;> first | rfl | cases hdrop
    | writeBack worker => cases hdrop
    | _ => rfl
  · cases work with
    | append r phase =>
        cases phase with
        | announced n | stale n | current n | refused n refusal =>
            by_cases hs : r.stream = s
            · simp [stance, Appending.stance, Stance.owes, isAnnouncing, inHand, Batch.countOf, hs]
            · simp [stance, Appending.stance, Stance.owes, isAnnouncing, inHand, Batch.countOf, hs]
        | locked n | unlockingStale n | queued n events | extended n | unlocking n result => rfl
        | _ => exact absurd rfl hdrop
    | writeBack worker =>
        obtain ⟨source, phase, report⟩ := worker
        cases phase with
        | writing b phase =>
            cases phase <;> simp [stance, Working.stance, Persisting.stance, Stance.owes,
              isAnnouncing, inHand, Working.inHand, Batch.countOf, List.countP_singleton]
        | written b =>
            simp [stance, Working.stance, Stance.owes, isAnnouncing, inHand, Working.inHand,
              Batch.countOf, List.countP_singleton]
        | _ => rfl
    | _ => exact absurd rfl hdrop

end Work

/-! ## What the worker tallies -/

/-- What the queue took is what the worker is done with, what it has in hand and what waits in the
queue, in order. -/
structure Worker.Tallies (k : Worker) (q : WriteQueue) (batches : List Batch) : Prop where
  source : k.source = .queue
  processed : ∃ processed, batches = processed ++ (k.phase.inHand ++ q.batches) ∧
    k.report.dealt = (processed ++ k.phase.counted).length
  abandoned : q.received = false → q.batches = []
  finished : k.phase = .finished → q.received = false

namespace Worker.Tallies

variable {e e' : Engine} {t : TaskId} {w : Weather} {k k' : Worker} {q : WriteQueue}
  {batches : List Batch} {noted : List Happening}

theorem empty (capacity : Option Nat) : Worker.Tallies {} (.ofCapacity capacity) [] where
  source := rfl
  processed := ⟨[], rfl, rfl⟩
  abandoned := nofun
  finished := nofun

theorem queueMove (h : k.Tallies e.queue batches) (hmove : e.QueueMove noted e') :
    k.Tallies e'.queue (batches ++ Log.batches noted) := by
  obtain ⟨processed, heq, hdealt⟩ := h.processed
  cases hmove with
  | keep hqueue hnoted =>
      rw [hqueue, Log.batches_eq_nil hnoted, List.append_nil]
      exact h
  | send t r events rest hsend hnoted hrest =>
      have hreceived := WriteQueue.received_of_send hsend
      rw [WriteQueue.send_eq_ok hsend, hnoted, Log.batches_admitted t r events hrest]
      refine ⟨h.source, ⟨processed, ?_, hdealt⟩, fun hnot => ?_, h.finished⟩
      · rw [heq, List.append_assoc, List.append_assoc]
      · cases hreceived.symm.trans hnot
  | close hqueue hnoted =>
      rw [hqueue, Log.batches_eq_nil hnoted, List.append_nil]
      exact ⟨h.source, h.processed, h.abandoned, h.finished⟩

/-- Every step of the worker keeps the tally, also where a write fails. -/
theorem step (h : k.Tallies e.queue batches) (hstep : k.step e t w = some (e', k')) :
    k'.Tallies e'.queue batches := by
  obtain ⟨processed, heq, hdealt⟩ := h.processed
  have habandoned := h.abandoned
  have hqueue := queueStep_of_step h.source hstep
  generalize e.queue = q at heq habandoned hqueue
  generalize e'.queue = q' at hqueue ⊢
  cases hqueue with
  | take hreceived hbatches =>
      refine ⟨rfl, ⟨processed, ?_, hdealt⟩, fun hnot => ?_, nofun⟩
      · rw [heq, hbatches]
        rfl
      · cases hreceived.symm.trans hnot
  | finish hreceived hbatches hclosed =>
      refine ⟨rfl, ⟨processed, ?_, hdealt⟩, fun _ => rfl, fun _ => rfl⟩
      rw [heq, hbatches]
      rfl
  | finishLost hreceived => exact ⟨rfl, ⟨processed, heq, hdealt⟩, habandoned, fun _ => hreceived⟩
  | write => exact ⟨rfl, ⟨processed, heq, hdealt⟩, habandoned, nofun⟩
  | count =>
      refine ⟨rfl, ⟨processed, heq, ?_⟩, habandoned, nofun⟩
      rw [WriteReport.dealt_count, hdealt]
      simp [Working.counted]
  | @countOff b report =>
      refine ⟨rfl, ⟨processed ++ [b], ?_, ?_⟩, habandoned, nofun⟩
      · rw [heq, List.append_assoc]
        rfl
      · rw [hdealt]
        simp [Working.counted]

end Worker.Tallies

/-! ## Runs -/

namespace Moment

variable {settings : Settings} {archive : Archive} {clock : Int64} {incidents : List Incident}
  {m m' : Moment} {k : Worker} {s : StreamId}

/-- How many appends to a stream announced a batch that they neither handed off nor took back. -/
def announcements (m : Moment) (s : StreamId) : Nat :=
  m.system.tasks.countP fun task => task.work.isAnnouncing s

/-- The worker tallies what the queue took. -/
def IsTallied (m : Moment) : Prop :=
  ∃ k, m.HasWorker k ∧ k.Tallies m.system.engine.queue (Log.batches m.log)

theorem IsTallied.meet (h : m.IsTallied) (horderly : m.Orderly)
    (hsettled : m.system.engine.Settled m.stances) {incident : Incident}
    (hmeet : m.meet incident = some m') : m'.IsTallied := by
  obtain ⟨k, hworker, htallies⟩ := h
  cases incident with
  | move mv =>
      cases horderly.workerMove hsettled hworker hmeet with
      | stepped k' weather hworker' hstep hlog =>
          refine ⟨k', hworker', ?_⟩
          rw [hlog, Log.batches_append, Work.batches_notes_writeBack, List.append_nil]
          exact htallies.step hstep
      | kept noted hworker' hqueue hlog =>
          refine ⟨k, hworker', ?_⟩
          rw [hlog, Log.batches_append]
          exact htallies.queueMove hqueue
  | drop t =>
      obtain ⟨task, htask, hmay, rfl⟩ := meet_drop_eq_some hmeet
      obtain ⟨task₀, htask₀, hwork⟩ := hworker
      refine ⟨k, ⟨task₀, ?_, hwork⟩, htallies⟩
      have ht : 0 ≠ t := by
        rintro rfl
        cases htask.symm.trans htask₀
        rw [hwork] at hmay
        cases hmay
      exact (System.task?_forget _ t 0).trans ((if_neg ht).trans htask₀)

theorem isTallied_of_undergo (hrun : (opening settings archive clock).undergo incidents = some m) :
    m.IsTallied := by
  refine undergo_induction hrun
    ⟨{}, hasWorker_opening settings archive clock, .empty settings.writeQueueCapacity⟩ ?_
  intro before a incident b hbefore htallied hmeet
  exact htallied.meet (orderly_of_undergo hbefore) (settled_of_undergo hbefore) hmeet

/-- Only the worker has a batch in hand. -/
theorem countOf_inHand (hdistinct : m.Distinct) (hsettled : m.system.engine.Settled m.stances)
    (hworker : m.HasWorker k) {task : Task} (hmem : task ∈ m.system.tasks) :
    Batch.countOf s task.work.inHand =
      if task.id = 0 then Batch.countOf s k.phase.inHand else 0 := by
  obtain ⟨task₀, htask₀, hwork⟩ := hworker
  have htask := hdistinct.task?_of_mem hmem
  split
  next hid =>
    rw [hid] at htask
    cases htask₀.symm.trans htask
    rw [hwork]
    rfl
  next hid =>
    have hnot := ne_writeBack hsettled htask hid
    cases hkind : task.work with
    | writeBack worker => exact absurd hkind (hnot worker)
    | _ => rfl

theorem sum_inHand (hdistinct : m.Distinct) (hsettled : m.system.engine.Settled m.stances)
    (hworker : m.HasWorker k) :
    (m.system.tasks.map fun task => Batch.countOf s task.work.inHand).sum =
      Batch.countOf s k.phase.inHand := by
  have hmem : 0 ∈ (m.system.tasks.map (·.id)).toFinset := by
    obtain ⟨task₀, htask₀, -⟩ := hworker
    obtain ⟨hmem, hid⟩ := mem_of_task? htask₀
    exact List.mem_toFinset.mpr (List.mem_map.mpr ⟨task₀, hmem, hid⟩)
  have hsum := Finset.sum_ite_eq' (m.system.tasks.map (·.id)).toFinset 0 fun _ =>
    Batch.countOf s k.phase.inHand
  rw [if_pos hmem, List.sum_toFinset _ hdistinct, List.map_map] at hsum
  rw [List.map_congr_left fun task => countOf_inHand hdistinct hsettled hworker]
  exact hsum

/-- What tasks answer for is what appends announced and what the worker has in hand. -/
theorem owed_eq (hdistinct : m.Distinct) (hsettled : m.system.engine.Settled m.stances)
    (hworker : m.HasWorker k) {n : Nat} (howed : Owed m.stances s n) :
    n = m.announcements s + Batch.countOf s k.phase.inHand := by
  obtain ⟨tasks, hothers, rfl⟩ := howed
  let ids := m.system.tasks.map (·.id)
  calc ∑ t ∈ tasks, (m.stances t).owes s
      = ∑ t ∈ tasks ∪ ids.toFinset, (m.stances t).owes s :=
        Finset.sum_subset Finset.subset_union_left fun t _ ht => hothers t ht
    _ = ∑ t ∈ ids.toFinset, (m.stances t).owes s := by
        refine (Finset.sum_subset Finset.subset_union_right fun t _ ht => ?_).symm
        rw [stances_eq_free (System.task?_eq_none.mpr fun hmem => ht (List.mem_toFinset.mpr hmem))]
        rfl
    _ = (m.system.tasks.map fun task => task.work.stance.owes s).sum := by
        rw [List.sum_toFinset _ hdistinct, List.map_map]
        refine congrArg List.sum (List.map_congr_left fun task hmem => ?_)
        exact congrArg (Stance.owes s) (stances_eq (hdistinct.task?_of_mem hmem))
    _ = (m.system.tasks.map fun task => (task.work.isAnnouncing s).toNat +
          Batch.countOf s task.work.inHand).sum := by
        refine congrArg List.sum (List.map_congr_left fun task _ => ?_)
        exact task.work.owes_stance s
    _ = m.announcements s + Batch.countOf s k.phase.inHand := by
        rw [List.sum_map_add, sum_inHand hdistinct hsettled hworker, sum_map_toNat]
        rfl

/-- The backlog counts what is on its way, nothing is counted off that was not counted, and the
worker is done with all that is not on its way any more. -/
structure CountsPending (m : Moment) (k : Worker) : Prop where
  count_eq : ∀ s, m.system.engine.backlog.count s =
    Batch.countOf s m.system.engine.queue.batches + Batch.countOf s k.phase.inHand +
      m.announcements s
  positive : m.system.engine.backlog.Positive
  backlogMove : ∀ incident m', m.meet incident = some m' →
    m.system.engine.backlog.Move m'.system.engine.backlog
  processed : ∃ processed,
    Log.batches m.log = processed ++ (k.phase.inHand ++ m.system.engine.queue.batches) ∧
    k.report.dealt = (processed ++ k.phase.counted).length ∧
    ∀ s, m.system.engine.backlog.isIdle s = true →
      (Log.batches m.log).filter (·.stream = s) = processed.filter (·.stream = s)

theorem backlogMove_of_meet (horderly : m.Orderly)
    (hsettled : m.system.engine.Settled m.stances) {incident : Incident}
    (hmeet : m.meet incident = some m') :
    m.system.engine.backlog.Move m'.system.engine.backlog := by
  cases incident with
  | move mv =>
      obtain ⟨-, t, deeds, σ, hfollows⟩ := horderly.move hmeet
      apply hfollows.change.backlogMove
      intro s
      obtain ⟨n, howed, hcount⟩ := hsettled.counted s
      exact (howed.le t).trans (hcount ▸ Nat.le_add_right _ _)
  | drop t =>
      obtain ⟨task, -, -, rfl⟩ := meet_drop_eq_some hmeet
      exact .keep rfl

theorem positive_of_undergo (hrun : (opening settings archive clock).undergo incidents = some m) :
    m.system.engine.backlog.Positive := by
  refine undergo_induction (P := fun m => m.system.engine.backlog.Positive) hrun nofun ?_
  intro before a incident b hbefore hpositive hmeet
  exact hpositive.move (backlogMove_of_meet (orderly_of_undergo hbefore)
    (settled_of_undergo hbefore) hmeet)

/-- The batches on their way are in the queue, with the worker or with the appends that announced
them. -/
theorem count_eq_of_undergo (hrun : (opening settings archive clock).undergo incidents = some m)
    (hworker : m.HasWorker k) (s : StreamId) :
    m.system.engine.backlog.count s =
      Batch.countOf s m.system.engine.queue.batches + Batch.countOf s k.phase.inHand +
        m.announcements s := by
  have hsettled := settled_of_undergo hrun
  obtain ⟨n, howed, hcount⟩ := hsettled.counted s
  have heq := owed_eq (distinct_of_undergo hrun) hsettled hworker howed
  omega

/-- At all times of a run the backlog counts what is on its way to disk. -/
theorem countsPending_of_undergo
    (hrun : (opening settings archive clock).undergo incidents = some m) :
    ∃ k, m.HasWorker k ∧ m.CountsPending k := by
  obtain ⟨k, hworker, htallies⟩ := isTallied_of_undergo hrun
  obtain ⟨processed, hlog, hdealt⟩ := htallies.processed
  have hcount := count_eq_of_undergo hrun hworker
  refine ⟨k, hworker, hcount, positive_of_undergo hrun, ?_, processed, hlog, hdealt, ?_⟩
  · intro incident m' hmeet
    exact backlogMove_of_meet (orderly_of_undergo hrun) (settled_of_undergo hrun) hmeet
  · intro s hidle
    have hzero := hcount s
    rw [Backlog.count_of_isIdle hidle] at hzero
    have hnone : ∀ batches : List Batch, Batch.countOf s batches = 0 →
        batches.filter (·.stream = s) = [] := by
      intro batches hbatches
      rw [Batch.countOf, List.countP_eq_zero] at hbatches
      exact List.filter_eq_nil_iff.mpr hbatches
    have hhand : Batch.countOf s k.phase.inHand = 0 := by omega
    have hqueue : Batch.countOf s m.system.engine.queue.batches = 0 := by omega
    rw [hlog, List.filter_append, List.filter_append, hnone _ hhand, hnone _ hqueue,
      List.append_nil, List.append_nil]

/-- An append of one event to one stream. -/
def appending (name : String) (byte : UInt8) (expected : Option Nat) : Incident :=
  .move (.start (.append ⟨Archive.orders, [⟨name, [byte]⟩], expected⟩ .start) false)

/-- A task goes on for a number of steps. -/
def steps (count : Nat) (t : TaskId) : List Incident := List.replicate count (.move (.step t {}))

/-- The disk fails the first batch, a second one waits in the queue, an append is refused, another
one loses its entry to an eviction and has to start over, and one is dropped in line. -/
def crowding : List Incident :=
  [appending "placed" 1 none] ++ steps 17 1 ++ steps 2 0 ++
    [.move (.step 0 { writeCut := some 0 })] ++ steps 2 0 ++
    [appending "paid" 2 none] ++ steps 11 2 ++
    [appending "early" 3 (some 9)] ++ steps 10 3 ++
    [appending "late" 4 none] ++ steps 5 4 ++ [.move (.evict 1)] ++ steps 2 4 ++
    [appending "gone" 5 none] ++ steps 4 5 ++ [.drop 5]

theorem countsPending_of_crowding :
    ∃ m, (opening {} Archive.blank 0).undergo crowding = some m ∧
      m.system.engine.backlog.count Archive.orders = 3 ∧
      m.system.engine.queue.batches.length = 1 ∧ m.announcements Archive.orders = 1 ∧
      ∃ k, m.HasWorker k ∧ m.CountsPending k := by
  have hundergone : ((opening {} Archive.blank 0).undergo crowding).any (fun m =>
      m.system.engine.backlog.count Archive.orders == 3 &&
        m.system.engine.queue.batches.length == 1 &&
        m.announcements Archive.orders == 1) = true := by
    decide +kernel
  obtain ⟨m, hrun, hm⟩ := (Option.any_eq_true _ _).mp hundergone
  simp only [Bool.and_eq_true, beq_iff_eq] at hm
  obtain ⟨⟨hcount, hqueue⟩, hannounced⟩ := hm
  exact ⟨m, hrun, hcount, hqueue, hannounced, countsPending_of_undergo hrun⟩

end Moment

end StreamStore
