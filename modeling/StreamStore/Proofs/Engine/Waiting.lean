import Mathlib.Data.Prod.Lex
import Mathlib.Logic.Relation
import StreamStore.Proofs.Engine.Pending
import StreamStore.Proofs.Engine.Places

/-!
# Who waits for whom

A task waits for its turn in the line of a stream, for the lock of an entry, for the files of a
stream, or until no write is on its way.  Who stands first in the line of a stream may in turn wait
for anything else, but whoever waits for writes is waited for in that line at most, and whoever
waits for a lock or for files has nothing that those before it wait for.  So a rank goes down from
each task that waits to those in its way, nobody waits in a circle, and behind every call that has
not returned there is a task that can go on.
-/

namespace StreamStore

/-! ## What a task waits for -/

/-- What a task may have to wait for. -/
inductive Wait
  /-- To be first in the line of a stream. -/
  | turn (s : StreamId)
  | lock (n : EntryId)
  | files (s : StreamId)
  /-- That no write is on its way. -/
  | quiet (want : Quiet)
  /-- That there is a batch to write back. -/
  | batch

/-- Whether a task has what it may have to wait for. -/
def Wait.isGranted (e : Engine) (t : TaskId) : Wait → Bool
  | turn s => e.pool.lines.holds s t
  | lock n => e.holdsEntry n t
  | files s => e.extents.holds s t
  | quiet want => e.backlog.isQuiet want
  | batch => !e.queue.received || !e.queue.batches.isEmpty || e.queue.closed

def Residence.wait? (s : StreamId) (cancelled : Bool) : Residence → Option Wait
  | asking .inLine => some (.turn s)
  | asking .finding => if cancelled then none else some (.quiet (.stream s))
  | _ => none

def Reading.wait? {α : Type} (n : EntryId) : Reading α → Option Wait
  | inLine => some (.lock n)
  | _ => none

def Counting.wait? : Counting → Option Wait
  | reading n phase => phase.wait? n
  | _ => none

def Retiring.wait? (s : StreamId) : Retiring → Option Wait
  | inLine => some (.turn s)
  | inEntryLine n => some (.lock n)
  | retired => some (.quiet (.stream s))
  | _ => none

def Working.wait? : Working → Option Wait
  | receiving => some .batch
  | writing b .inLine => some (.files b.stream)
  | _ => none

/-- What a task has to wait for where it is, if it has to. -/
def Work.wait? (cancelled : Bool) : Work → Option Wait
  | append r (.finding residence) => residence.wait? r.stream cancelled
  | append _ (.inLine n) => if cancelled then none else some (.lock n)
  | page r (.finding residence) => residence.wait? r.stream cancelled
  | page _ (.reading n phase) => phase.wait? n
  | measure s (.finding residence) => residence.wait? s cancelled
  | measure _ (.reading n phase) => phase.wait? n
  | peek _ (.reading n phase) => phase.wait? n
  | count _ phase => phase.wait?
  | list _ (.counting _ phase _ _) => phase.wait?
  | remove s (.retiring phase) => phase.wait? s
  | remove s .inExtentLine => some (.files s)
  | flush false => some (.quiet .everything)
  | writeBack worker => worker.phase.wait?
  | _ => none

/-- What it may have to wait for tells in which line a task stands. -/
inductive Wait.Fits : Stance → Option StreamId → Wait → Prop
  | turn {s : StreamId} : Fits (.queueing s) none (.turn s)
  | lock {σ : Stance} {n : EntryId} {access : Access} (hplace : σ.place? = some (n, access)) :
      Fits σ none (.lock n)
  | files {σ : Stance} {s : StreamId} (hplace : σ.place? = none) : Fits σ (some s) (.files s)
  | quiet {σ : Stance} {want : Quiet} (hplace : σ.place? = none) : Fits σ none (.quiet want)
  | batch : Fits .receiving none .batch

theorem Residence.fits_wait {s : StreamId} {cancelled : Bool} {residence : Residence} {wait : Wait}
    (h : residence.wait? s cancelled = some wait) :
    Wait.Fits (residence.stance s) none wait := by
  cases residence with
  | asking phase =>
      cases phase with
      | inLine =>
          cases h
          exact .turn
      | finding =>
          rw [wait?] at h
          split at h <;> cases h
          exact .quiet rfl
      | _ => cases h
  | _ => cases h

theorem Reading.fits_wait {α : Type} {n : EntryId} {phase : Reading α} {wait : Wait}
    (h : phase.wait? n = some wait) (s : StreamId) :
    Wait.Fits (phase.stance s n) none wait := by
  cases phase with
  | inLine =>
      cases h
      exact .lock rfl
  | _ => cases h

theorem Counting.fits_wait {phase : Counting} {wait : Wait} (h : phase.wait? = some wait)
    (s : StreamId) : Wait.Fits (phase.stance s) none wait := by
  cases phase with
  | reading n phase => exact Reading.fits_wait h s
  | _ => cases h

theorem Retiring.fits_wait {s : StreamId} {phase : Retiring} {wait : Wait}
    (h : phase.wait? s = some wait) : Wait.Fits (phase.stance s) none wait := by
  cases phase with
  | inLine =>
      cases h
      exact .turn
  | inEntryLine n =>
      cases h
      exact .lock rfl
  | retired =>
      cases h
      exact .quiet rfl
  | _ => cases h

theorem Work.fits_wait {cancelled : Bool} {work : Work} {wait : Wait}
    (h : work.wait? cancelled = some wait) : Wait.Fits work.stance work.files? wait := by
  cases work with
  | append r phase =>
      cases phase with
      | finding residence => exact Residence.fits_wait h
      | inLine n =>
          rw [wait?] at h
          split at h <;> cases h
          exact .lock rfl
      | _ => cases h
  | page r phase =>
      cases phase with
      | finding residence => exact Residence.fits_wait h
      | reading n phase => exact Reading.fits_wait h r.stream
      | _ => cases h
  | measure s phase =>
      cases phase with
      | finding residence => exact Residence.fits_wait h
      | reading n phase => exact Reading.fits_wait h s
      | _ => cases h
  | peek s phase =>
      cases phase with
      | reading n phase => exact Reading.fits_wait h s
      | _ => cases h
  | count s phase => exact Counting.fits_wait h s
  | list filter phase =>
      cases phase with
      | counting s phase rest found => exact Counting.fits_wait h s
      | _ => cases h
  | remove s phase =>
      cases phase with
      | retiring phase => exact Retiring.fits_wait h
      | inExtentLine =>
          cases h
          exact .files rfl
      | _ => cases h
  | flush isDone =>
      cases isDone with
      | false =>
          cases h
          exact .quiet rfl
      | true => cases h
  | writeBack worker =>
      obtain ⟨source, phase, report⟩ := worker
      cases phase with
      | receiving =>
          cases h
          exact .batch
      | writing b phase =>
          cases phase with
          | inLine =>
              cases h
              exact .files rfl
          | _ => cases h
      | _ => cases h
  | _ => cases h

/-! ## Steps that are possible -/

section Steps

variable {e : Engine} {s : StreamId} {t : TaskId} {cancelled : Bool}

theorem Residence.isSome_step {residence : Residence} (hresult : residence.result? = none)
    (hwait : ∀ wait, residence.wait? s cancelled = some wait → wait.isGranted e t = true)
    (w : Weather) : (residence.step e s t cancelled w).isSome = true := by
  cases residence with
  | asking phase =>
      cases phase with
      | inLine =>
          have hturn : e.pool.lines.holds s t = true := hwait _ rfl
          simp only [step, Pool.advance, hturn, if_true]
          split <;> rfl
      | finding =>
          simp only [step]
          cases cancelled with
          | true =>
              cases e.backlog.isIdle s <;> cases w.prefersCancel <;> rfl
          | false =>
              have hidle : e.backlog.isIdle s = true := hwait _ rfl
              simp [hidle]
      | looking =>
          simp only [step, Pool.advance]
          split <;> rfl
      | done result => cases hresult
      | _ => rfl
  | _ => rfl

theorem Reading.isSome_step {α : Type} {n : EntryId} {look : List Event → α} {phase : Reading α}
    (hresult : phase.result? = none)
    (hwait : ∀ wait, phase.wait? n = some wait → wait.isGranted e t = true) :
    (phase.step e n t look).isSome = true := by
  cases phase with
  | inLine =>
      have hlock : e.holdsEntry n t = true := hwait _ rfl
      simp [step, hlock]
  | done seen => cases hresult
  | _ => rfl

theorem Counting.isSome_step {phase : Counting} (hresult : phase.result? = none)
    (hwait : ∀ wait, phase.wait? = some wait → wait.isGranted e t = true) :
    (phase.step e s t).isSome = true := by
  cases phase with
  | start =>
      rw [step]
      split <;> rfl
  | reading n phase =>
      rw [step]
      split
      · rfl
      · rfl
      next hphase =>
        rw [Option.isSome_map]
        exact Reading.isSome_step hphase hwait
  | onDisk => rfl
  | done result => cases hresult

theorem Retiring.isSome_step {phase : Retiring} (hphase : phase ≠ .retired)
    (hwait : ∀ wait, phase.wait? s = some wait → wait.isGranted e t = true) :
    (phase.step e s t).isSome = true := by
  cases phase with
  | inLine =>
      have hturn : e.pool.lines.holds s t = true := hwait _ rfl
      rw [step, if_pos hturn]
      rfl
  | held =>
      rw [step]
      split <;> rfl
  | inEntryLine n =>
      have hlock : e.holdsEntry n t = true := hwait _ rfl
      rw [step, if_pos hlock]
      rfl
  | retired => exact absurd rfl hphase
  | _ => rfl

theorem Appending.isSome_step {r : AppendRequest} {phase : Appending}
    (hresult : phase.result? = none)
    (hwait : ∀ wait, (Work.append r phase).wait? cancelled = some wait →
      wait.isGranted e t = true) (w : Weather) :
    (phase.step e r t cancelled w).isSome = true := by
  cases phase with
  | finding residence =>
      rw [step]
      split
      · rfl
      · rfl
      next hresidence =>
        rw [Option.isSome_map]
        exact Residence.isSome_step hresidence hwait w
  | inLine n =>
      simp only [step]
      split
      · rfl
      next hnot =>
        cases cancelled with
        | true =>
            have hlock : e.holdsEntry n t = true := by
              by_contra hnone
              exact hnot ⟨rfl, .inr (by simp [hnone])⟩
            rw [if_pos hlock]
            rfl
        | false =>
            have hlock : e.holdsEntry n t = true := hwait _ rfl
            rw [if_pos hlock]
            rfl
  | done result => cases hresult
  | _ => rfl

theorem Paging.isSome_step {r : PageRequest} {phase : Paging} (hresult : phase.result? = none)
    (hwait : ∀ wait, (Work.page r phase).wait? cancelled = some wait →
      wait.isGranted e t = true) (w : Weather) :
    (phase.step e r t cancelled w).isSome = true := by
  cases phase with
  | start => rfl
  | finding residence =>
      rw [step]
      split
      · rfl
      · rfl
      next hresidence =>
        rw [Option.isSome_map]
        exact Residence.isSome_step hresidence hwait w
  | reading n phase =>
      rw [step]
      split
      · rfl
      next hphase =>
        rw [Option.isSome_map]
        exact Reading.isSome_step hphase hwait
  | done result => cases hresult

theorem Measuring.isSome_step {phase : Measuring} (hresult : phase.result? = none)
    (hwait : ∀ wait, (Work.measure s phase).wait? cancelled = some wait →
      wait.isGranted e t = true) (w : Weather) :
    (phase.step e s t cancelled w).isSome = true := by
  cases phase with
  | finding residence =>
      rw [step]
      split
      · rfl
      · rfl
      next hresidence =>
        rw [Option.isSome_map]
        exact Residence.isSome_step hresidence hwait w
  | reading n phase =>
      rw [step]
      split
      · rfl
      next hphase =>
        rw [Option.isSome_map]
        exact Reading.isSome_step hphase hwait
  | done result => cases hresult

theorem Peeking.isSome_step {phase : Peeking} (hresult : phase.result? = none)
    (hwait : ∀ wait, (Work.peek s phase).wait? cancelled = some wait →
      wait.isGranted e t = true) : (phase.step e s t).isSome = true := by
  cases phase with
  | start =>
      rw [step]
      split <;> rfl
  | reading n phase =>
      rw [step]
      split
      · rfl
      next hphase =>
        rw [Option.isSome_map]
        exact Reading.isSome_step hphase hwait
  | done result => cases hresult

theorem Listing.isSome_step {filter : Option StreamType} {phase : Listing}
    (hresult : phase.result? = none)
    (hwait : ∀ wait, (Work.list filter phase).wait? cancelled = some wait →
      wait.isGranted e t = true) : (phase.step e filter t).isSome = true := by
  cases phase with
  | start =>
      rw [step]
      split <;> rfl
  | listed onDisk => rfl
  | counting s phase rest found =>
      rw [step]
      split
      · rfl
      · rfl
      · rfl
      next hphase =>
        rw [Option.isSome_map]
        exact Counting.isSome_step hphase hwait
  | done result => cases hresult

theorem Removing.isSome_step {phase : Removing} (hresult : phase.result? = none)
    (hwait : ∀ wait, (Work.remove s phase).wait? cancelled = some wait →
      wait.isGranted e t = true) (w : Weather) : (phase.step e s t w).isSome = true := by
  cases phase with
  | retiring phase =>
      by_cases hphase : phase = .retired
      · subst hphase
        have hidle : e.backlog.isIdle s = true := hwait _ rfl
        rw [step, if_pos hidle]
        rfl
      · rw [step, Option.isSome_map]
        · exact Retiring.isSome_step hphase hwait
        · exact hphase
  | inExtentLine =>
      have hfiles : e.extents.holds s t = true := hwait _ rfl
      rw [step, if_pos hfiles]
      rfl
  | done result => cases hresult
  | _ => rfl

theorem Worker.isSome_step {k : Worker} (hsource : k.source = .queue) (hresult : k.result? = none)
    (hwait : ∀ wait, k.phase.wait? = some wait → wait.isGranted e t = true) (w : Weather) :
    (k.step e t w).isSome = true := by
  obtain ⟨source, phase, report⟩ := k
  cases hsource
  cases phase with
  | receiving =>
      have hbatch : Wait.batch.isGranted e t = true := hwait _ rfl
      simp only [Wait.isGranted, Bool.or_eq_true, Bool.not_eq_true', List.isEmpty_eq_false_iff]
        at hbatch
      simp only [step, receive, WriteQueue.receive]
      by_cases hreceived : e.queue.received = true
      · rw [if_neg (by simp [hreceived])]
        cases hbatches : e.queue.batches with
        | cons b rest => rfl
        | nil =>
            have hclosed : e.queue.closed = true := by
              rcases hbatch with (hnot | hne) | hclosed
              · cases hreceived.symm.trans hnot
              · exact absurd hbatches hne
              · exact hclosed
            rw [hclosed]
            rfl
      · rw [if_pos (by simp [hreceived])]
        rfl
  | writing b phase =>
      cases phase with
      | start =>
          simp only [step, Persisting.result?, Persisting.step]
          split <;> rfl
      | inLine =>
          have hfiles : e.extents.holds b.stream t = true := hwait _ rfl
          simp only [step, Persisting.result?, Persisting.step, hfiles, if_true]
          rfl
      | _ => rfl
  | written b => rfl
  | finished => cases hresult

/-- A task that is not done and has what it may have to wait for can take a step. -/
theorem Work.isSome_step {work : Work} (hadmissible : work.Admissible)
    (hdone : work.isDone = false)
    (hwait : ∀ wait, work.wait? cancelled = some wait → wait.isGranted e t = true) (w : Weather) :
    (work.step e t cancelled w).isSome = true := by
  have hanswer : work.answer? = none :=
    Option.isNone_iff_eq_none.mp (Option.isSome_eq_false_iff.mp hdone)
  cases work with
  | append r phase =>
      rw [step, Option.isSome_map]
      exact Appending.isSome_step (Option.map_eq_none_iff.mp hanswer) hwait w
  | page r phase =>
      rw [step, Option.isSome_map]
      exact Paging.isSome_step (Option.map_eq_none_iff.mp hanswer) hwait w
  | measure s phase =>
      rw [step, Option.isSome_map]
      exact Measuring.isSome_step (Option.map_eq_none_iff.mp hanswer) hwait w
  | peek s phase =>
      rw [step, Option.isSome_map]
      exact Peeking.isSome_step (Option.map_eq_none_iff.mp hanswer) hwait
  | count s phase =>
      rw [step, Option.isSome_map]
      exact Counting.isSome_step (Option.map_eq_none_iff.mp hanswer) hwait
  | list filter phase =>
      rw [step, Option.isSome_map]
      exact Listing.isSome_step (Option.map_eq_none_iff.mp hanswer) hwait
  | remove s phase =>
      rw [step, Option.isSome_map]
      exact Removing.isSome_step (Option.map_eq_none_iff.mp hanswer) hwait w
  | flush isDone =>
      cases isDone with
      | true => cases hanswer
      | false =>
          have hquiet : e.backlog.isEmpty = true := hwait _ rfl
          rw [step, if_pos ⟨rfl, hquiet⟩]
          rfl
  | writeBack worker =>
      rw [step, Option.isSome_map]
      exact Worker.isSome_step hadmissible (Option.map_eq_none_iff.mp hanswer) hwait w
  | persist s events phase => exact hadmissible.elim
  | hold n access joined => exact hadmissible.elim
  | retire s phase => exact hadmissible.elim

end Steps

/-! ## Busy tasks -/

/-- Whether a task with this stance is on its way to something. -/
def Stance.isBusy : Stance → Bool
  | free => false
  | receiving => false
  | finished => false
  | _ => true

theorem Stance.isBusy_of_line? {σ : Stance} {s : StreamId} (h : σ.line? = some s) :
    σ.isBusy = true := by
  cases σ <;> first | rfl | cases h

theorem Stance.isBusy_of_place? {σ : Stance} {n : EntryId} {access : Access}
    (h : σ.place? = some (n, access)) : σ.isBusy = true := by
  cases σ <;> first | rfl | cases h

namespace Work

theorem isBusy_of_files? {work : Work} {s : StreamId} (h : work.files? = some s) :
    work.stance.isBusy = true := by
  unfold files? at h
  split at h <;> first | rfl | cases h

theorem isBusy_of_isAnnouncing {work : Work} {s : StreamId} (h : work.isAnnouncing s = true) :
    work.stance.isBusy = true := by
  unfold isAnnouncing at h
  split at h <;> first | rfl | cases h

theorem isBusy_of_inHand {worker : Worker} {b : Batch} (h : b ∈ worker.phase.inHand) :
    (writeBack worker).stance.isBusy = true := by
  obtain ⟨source, phase, report⟩ := worker
  cases phase with
  | writing b phase => cases phase <;> rfl
  | written b => rfl
  | _ => cases h

/-- A task that is done is in nobody's way. -/
theorem isBusy_of_isDone {work : Work} (h : work.isDone = true) : work.stance.isBusy = false := by
  cases work with
  | append r phase => cases phase <;> first | rfl | cases h
  | page r phase => cases phase <;> first | rfl | cases h
  | measure s phase => cases phase <;> first | rfl | cases h
  | peek s phase => cases phase <;> first | rfl | cases h
  | count s phase => cases phase <;> first | rfl | cases h
  | list filter phase => cases phase <;> first | rfl | cases h
  | remove s phase => cases phase <;> first | rfl | cases h
  | writeBack worker =>
      obtain ⟨source, phase, report⟩ := worker
      cases phase <;> first | rfl | cases h
  | _ => rfl

theorem wait?_of_isAnnouncing {work : Work} {s : StreamId} (h : work.isAnnouncing s = true)
    (cancelled : Bool) : work.wait? cancelled = none := by
  unfold isAnnouncing at h
  split at h <;> first | rfl | cases h

end Work

/-! ## Who is in the way of whom -/

/-- The tasks in the line in which one stands who waits. -/
def Engine.lineFor (e : Engine) : Wait → List TaskId
  | .turn s => e.pool.lines.line s
  | .lock n => (e.entry n).lock.line.map (·.1)
  | .files s => e.extents.line s
  | .quiet _ => []
  | .batch => []

/-- Whoever waits for something waits at most for those who wait for something on the same level,
or further down. -/
def Wait.level : Wait → Nat
  | turn _ => 3
  | quiet _ => 2
  | lock _ => 1
  | files _ => 1
  | batch => 0

theorem Wait.Fits.level_of_line? {σ : Stance} {files : Option StreamId} {wait : Wait}
    {s : StreamId} (h : Fits σ files wait) (hline : σ.line? = some s) :
    wait.level < 3 ∨ wait = .turn s := by
  cases h with
  | turn =>
      cases hline
      exact .inr rfl
  | batch => cases hline
  | lock | files => exact .inl (Nat.lt_of_sub_eq_succ rfl)
  | quiet => exact .inl Nat.le.refl

theorem Wait.Fits.eq_of_place? {σ : Stance} {files : Option StreamId} {wait : Wait} {n : EntryId}
    {access : Access} (h : Fits σ files wait) (hplace : σ.place? = some (n, access)) :
    wait = .lock n := by
  cases h with
  | lock hplace' =>
      cases hplace'.symm.trans hplace
      rfl
  | files hplace' | quiet hplace' => cases hplace'.symm.trans hplace
  | _ => cases hplace

theorem Wait.Fits.eq_of_files {σ : Stance} {wait : Wait} {s : StreamId}
    (h : Fits σ (some s) wait) : wait = .files s := by
  cases h
  rfl

theorem Working.level_of_wait? {phase : Working} {wait : Wait} (h : phase.wait? = some wait) :
    wait.level < 2 := by
  unfold wait? at h
  split at h
  · cases h
    exact Nat.zero_lt_two
  · cases h
    exact Nat.one_lt_two
  · cases h

/-- Whoever is not the first in a line has somebody before it, who is the first. -/
theorem exists_head?_of_mem {line : List TaskId} {t : TaskId} (hmem : t ∈ line)
    (hhead : line.head? ≠ some t) :
    ∃ u, line.head? = some u ∧ line.idxOf u < line.idxOf t := by
  cases line with
  | nil => cases hmem
  | cons u line =>
      refine ⟨u, rfl, ?_⟩
      have hne : u ≠ t := fun heq => hhead (congrArg some heq)
      rw [List.idxOf_cons_self, List.idxOf_cons_ne _ hne]
      exact Nat.succ_pos _

namespace Moment

variable {settings : Settings} {archive : Archive} {clock : Int64} {incidents : List Incident}
  {m : Moment} {t u : TaskId} {s : StreamId} {wait : Wait}

/-- What a task waits for, if it has not got it yet. -/
def need? (m : Moment) (t : TaskId) : Option Wait :=
  (m.system.task? t).bind fun task =>
    (task.work.wait? task.cancelled).filter fun wait => !wait.isGranted m.system.engine t

/-- Who is to end the batches of a stream that are on their way: an append that announced one, and
the worker for those that the queue took. -/
inductive Answers (m : Moment) (s : StreamId) : TaskId → Prop
  | announcing {u : TaskId} {task : Task} (htask : m.system.task? u = some task)
      (hannouncing : task.work.isAnnouncing s = true) : Answers m s u
  | writingBack {worker : Worker} {b : Batch} (hworker : m.HasWorker worker)
      (hmem : b ∈ worker.phase.inHand ++ m.system.engine.queue.batches) (hstream : b.stream = s) :
      Answers m s 0

/-- Who keeps a task from what it waits for: those before it in line, or those who are to end the
batches that are on their way. -/
inductive InTheWay (m : Moment) (t : TaskId) : Wait → TaskId → Prop
  | ahead {wait : Wait} {u : TaskId}
      (hbefore : (m.system.engine.lineFor wait).idxOf u < (m.system.engine.lineFor wait).idxOf t) :
      InTheWay m t wait u
  | answers {want : Quiet} {s : StreamId} {u : TaskId} (hcovers : want.covers s = true)
      (hanswers : m.Answers s u) : InTheWay m t (.quiet want) u

/-- One task waits for another. -/
def WaitsFor (m : Moment) (t u : TaskId) : Prop :=
  ∃ wait, m.need? t = some wait ∧ m.InTheWay t wait u

/-- A task can take a step, whatever the weather. -/
def CanStep (m : Moment) (t : TaskId) : Prop :=
  ∀ weather, (m.system.step t weather).isSome = true

/-- A task that is neither done nor a worker without work. -/
def Engaged (m : Moment) (t : TaskId) : Prop :=
  ∃ task, m.system.task? t = some task ∧ task.work.isDone = false ∧ m.need? t ≠ some .batch

/-- What is known of the tasks and of the engine at all times of a run. -/
structure Sound (m : Moment) : Prop where
  orderly : m.Orderly
  distinct : m.Distinct
  settled : m.system.engine.Settled m.stances
  complete : m.system.engine.Complete m.stances
  files : m.system.engine.Files m.files?
  positive : m.system.engine.backlog.Positive
  worker : ∃ k, m.HasWorker k ∧ k.Tallies m.system.engine.queue (Log.batches m.log) ∧
    ∀ s, m.system.engine.backlog.count s =
      Batch.countOf s m.system.engine.queue.batches + Batch.countOf s k.phase.inHand +
        m.announcements s

theorem sound_of_undergo (hrun : (opening settings archive clock).undergo incidents = some m) :
    m.Sound := by
  obtain ⟨k, hworker, htallies⟩ := isTallied_of_undergo hrun
  exact ⟨orderly_of_undergo hrun, distinct_of_undergo hrun, settled_of_undergo hrun,
    complete_of_undergo hrun, files_of_undergo hrun, positive_of_undergo hrun,
    k, hworker, htallies, count_eq_of_undergo hrun hworker⟩

/-! ### What is known of a task that waits -/

theorem need?_eq_some_iff {task : Task} (htask : m.system.task? t = some task) :
    m.need? t = some wait ↔
      task.work.wait? task.cancelled = some wait ∧ wait.isGranted m.system.engine t = false := by
  rw [need?, htask, Option.bind_some, Option.filter_eq_some_iff, Bool.not_eq_true']

theorem exists_of_need? (hneed : m.need? t = some wait) :
    ∃ task, m.system.task? t = some task ∧ task.work.wait? task.cancelled = some wait ∧
      wait.isGranted m.system.engine t = false := by
  obtain ⟨task, htask, -⟩ := Option.bind_eq_some_iff.mp hneed
  exact ⟨task, htask, (need?_eq_some_iff htask).mp hneed⟩

theorem fits_of_need? (hneed : m.need? t = some wait) :
    Wait.Fits (m.stances t) (m.files? t) wait := by
  obtain ⟨task, htask, hwait, -⟩ := exists_of_need? hneed
  rw [stances_eq htask, files?_eq htask]
  exact Work.fits_wait hwait

/-- A task that waits for nothing and is not done can take a step. -/
theorem canStep_of_need?_eq_none (horderly : m.Orderly) {task : Task}
    (htask : m.system.task? t = some task) (hdone : task.work.isDone = false)
    (hneed : m.need? t = none) : m.CanStep t := by
  intro weather
  have hgranted : ∀ wait, task.work.wait? task.cancelled = some wait →
      wait.isGranted m.system.engine t = true := by
    intro wait hwait
    by_contra hnot
    have hsome := (need?_eq_some_iff htask).mpr ⟨hwait, Bool.eq_false_iff.mpr hnot⟩
    cases hneed.symm.trans hsome
  rw [System.step, htask, Option.bind_some, Option.isSome_map]
  exact Work.isSome_step (horderly.admissible t task htask) hdone hgranted weather

theorem engaged_of_isBusy (hbusy : (m.stances t).isBusy = true) : m.Engaged t := by
  cases htask : m.system.task? t with
  | none =>
      rw [stances_eq_free htask] at hbusy
      cases hbusy
  | some task =>
      refine ⟨task, htask, ?_, fun hneed => ?_⟩
      · by_contra hdone
        rw [stances_eq htask, Work.isBusy_of_isDone (Bool.eq_true_of_not_eq_false hdone)] at hbusy
        cases hbusy
      · have hfits := fits_of_need? hneed
        generalize m.stances t = σ at hbusy hfits
        generalize m.files? t = files at hfits
        cases hfits
        cases hbusy

theorem engaged_of_files (hfiles : m.files? t = some s) : m.Engaged t := by
  obtain ⟨task, htask, hwork⟩ := Option.bind_eq_some_iff.mp hfiles
  apply engaged_of_isBusy
  rw [stances_eq htask]
  exact Work.isBusy_of_files? hwork

/-! ### Whom a task waits for -/

/-- Whoever is to end a batch has something to do. -/
theorem Answers.engaged (hsound : m.Sound) (h : m.Answers s u) : m.Engaged u := by
  cases h with
  | announcing htask hannouncing =>
      apply engaged_of_isBusy
      rw [stances_eq htask]
      exact Work.isBusy_of_isAnnouncing hannouncing
  | @writingBack worker b hworker hmem hstream =>
      obtain ⟨k, hworker', htallies, -⟩ := hsound.worker
      cases hworker'.unique hworker
      obtain ⟨task, htask, hwork⟩ := hworker
      rcases List.mem_append.mp hmem with hhand | hqueue
      · apply engaged_of_isBusy
        rw [stances_eq htask, hwork]
        exact Work.isBusy_of_inHand hhand
      · have hne : m.system.engine.queue.batches ≠ [] := List.ne_nil_of_mem hqueue
        refine ⟨task, htask, ?_, fun hneed => ?_⟩
        · by_contra hdone
          rw [hwork] at hdone
          obtain ⟨source, phase, report⟩ := worker
          cases phase with
          | finished => exact hne (htallies.abandoned (htallies.finished rfl))
          | _ => exact hdone rfl
        · obtain ⟨-, -, -, hnot⟩ := exists_of_need? hneed
          rw [Wait.isGranted, Bool.or_eq_false_iff, Bool.or_eq_false_iff] at hnot
          exact hne (by simpa using hnot.1.2)

/-- Some task is to end the batches of a stream, as long as there are any. -/
theorem exists_answers (hsound : m.Sound) (hbusy : m.system.engine.backlog.isIdle s = false) :
    ∃ u, m.Answers s u := by
  obtain ⟨k, hworker, -, hcount⟩ := hsound.worker
  have hpos : m.system.engine.backlog.count s ≠ 0 := by
    intro hzero
    rw [hsound.positive.isIdle_iff.mpr hzero] at hbusy
    cases hbusy
  rw [hcount] at hpos
  by_cases hannounced : m.announcements s = 0
  · have hcount : Batch.countOf s (k.phase.inHand ++ m.system.engine.queue.batches) ≠ 0 := by
      rw [Batch.countOf, List.countP_append]
      rw [Batch.countOf, Batch.countOf] at hpos
      omega
    obtain ⟨b, hmem, hstream⟩ := List.countP_pos_iff.mp (Nat.pos_of_ne_zero hcount)
    exact ⟨0, .writingBack hworker hmem (of_decide_eq_true hstream)⟩
  · obtain ⟨task, hmem, hannouncing⟩ := List.countP_pos_iff.mp (Nat.pos_of_ne_zero hannounced)
    exact ⟨task.id, .announcing (hsound.distinct.task?_of_mem hmem) hannouncing⟩

/-- Whoever is the first in a line has something to do. -/
theorem engaged_of_head? (hsound : m.Sound) (hneed : m.need? t = some wait)
    (hhead : (m.system.engine.lineFor wait).head? = some u) : m.Engaged u := by
  have hmem := List.mem_of_head? hhead
  cases wait with
  | turn s =>
      apply engaged_of_isBusy
      exact Stance.isBusy_of_line? ((hsound.settled.inOrder.lines s).stands_of_mem u hmem)
  | lock n =>
      obtain ⟨place, hplace, rfl⟩ := List.mem_map.mp hmem
      apply engaged_of_isBusy
      exact Stance.isBusy_of_place? ((hsound.settled.inOrder.locks n).stands_of_mem place hplace)
  | files s => exact engaged_of_files ((hsound.files.mem_iff s u).mp hmem)
  | _ => cases hmem

/-- Whoever is the first in a line has what it waits for there. -/
theorem head?_ne_of_not_isGranted {e : Engine} (hnot : wait.isGranted e t = false) :
    (e.lineFor wait).head? ≠ some t := by
  intro hhead
  cases wait with
  | turn s => exact absurd hhead (of_decide_eq_false hnot)
  | lock n =>
      rw [Engine.lineFor, List.head?_map] at hhead
      obtain ⟨⟨u, access⟩, hfirst, rfl⟩ := Option.map_eq_some_iff.mp hhead
      rw [Wait.isGranted, Engine.holdsEntry, SharedLock.isHolder_of_head? hfirst] at hnot
      cases hnot
  | files s => exact absurd hhead (of_decide_eq_false hnot)
  | _ => cases hhead

/-- Whoever waits in a line stands in it. -/
theorem mem_lineFor (hsound : m.Sound) (hneed : m.need? t = some wait) :
    t ∈ m.system.engine.lineFor wait ∨ (∃ want, wait = .quiet want) ∨ wait = .batch := by
  have hfits := fits_of_need? hneed
  generalize hσ : m.stances t = σ at hfits
  generalize hfiles : m.files? t = files at hfits
  cases hfits with
  | @turn s => exact .inl (hsound.complete.lines t s (hσ ▸ rfl))
  | @lock σ n access hplace =>
      refine .inl (List.mem_map.mpr ⟨(t, access), ?_, rfl⟩)
      exact hsound.complete.locks t n access (hσ ▸ hplace)
  | @files σ s hplace => exact .inl ((hsound.files.mem_iff s t).mpr hfiles)
  | quiet hplace => exact .inr (.inl ⟨_, rfl⟩)
  | batch => exact .inr (.inr rfl)

/-- Whoever waits, if not for more work, waits for somebody who has something to do. -/
theorem exists_waitsFor (hsound : m.Sound) (hneed : m.need? t = some wait)
    (hbatch : wait ≠ .batch) : ∃ u, m.WaitsFor t u ∧ m.Engaged u := by
  obtain ⟨task, htask, -, hnot⟩ := exists_of_need? hneed
  rcases mem_lineFor hsound hneed with hmem | ⟨want, rfl⟩ | rfl
  · obtain ⟨u, hhead, hbefore⟩ := exists_head?_of_mem hmem (head?_ne_of_not_isGranted hnot)
    exact ⟨u, ⟨wait, hneed, .ahead hbefore⟩, engaged_of_head? hsound hneed hhead⟩
  · obtain ⟨s, hcovers, hbusy⟩ := Backlog.exists_of_not_isQuiet hnot
    obtain ⟨u, hanswers⟩ := exists_answers hsound hbusy
    exact ⟨u, ⟨.quiet want, hneed, .answers hcovers hanswers⟩, hanswers.engaged hsound⟩
  · exact absurd rfl hbatch

/-! ### No circles -/

/-- How far down a task is among those that wait. -/
def rank (m : Moment) (t : TaskId) : Nat ×ₗ Nat :=
  match m.need? t with
  | some wait => toLex (wait.level, (m.system.engine.lineFor wait).idxOf t)
  | none => toLex (0, 0)

theorem rank_lt (hneed : m.need? t = some wait) (hlevel : 0 < wait.level)
    (hlower : ∀ wait', m.need? u = some wait' → wait'.level < wait.level ∨ wait' = wait ∧
      (m.system.engine.lineFor wait).idxOf u < (m.system.engine.lineFor wait).idxOf t) :
    m.rank u < m.rank t := by
  rw [rank, rank, hneed]
  cases hu : m.need? u with
  | none => exact Prod.Lex.toLex_lt_toLex.mpr (.inl hlevel)
  | some wait' =>
      rcases hlower wait' hu with hlt | ⟨rfl, hlt⟩
      · exact Prod.Lex.toLex_lt_toLex.mpr (.inl hlt)
      · exact Prod.Lex.toLex_lt_toLex.mpr (.inr ⟨rfl, hlt⟩)

/-- Whoever is waited for ranks lower. -/
theorem rank_lt_of_waitsFor (hsound : m.Sound) (h : m.WaitsFor t u) : m.rank u < m.rank t := by
  obtain ⟨wait, hneed, hway⟩ := h
  cases hway with
  | ahead hbefore =>
      have hmem : u ∈ m.system.engine.lineFor wait :=
        List.idxOf_lt_length_iff.mp (hbefore.trans_le List.idxOf_le_length)
      cases wait with
      | turn s =>
          refine rank_lt hneed (Nat.succ_pos 2) fun wait' hu => ?_
          have hline := (hsound.settled.inOrder.lines s).stands_of_mem u hmem
          rcases (fits_of_need? hu).level_of_line? hline with hlt | heq
          · exact .inl hlt
          · exact .inr ⟨heq, hbefore⟩
      | lock n =>
          refine rank_lt hneed Nat.one_pos fun wait' hu => ?_
          obtain ⟨place, hplace, rfl⟩ := List.mem_map.mp hmem
          have hplace := (hsound.settled.inOrder.locks n).stands_of_mem place hplace
          exact .inr ⟨(fits_of_need? hu).eq_of_place? hplace, hbefore⟩
      | files s =>
          refine rank_lt hneed Nat.one_pos fun wait' hu => ?_
          have hfits := fits_of_need? hu
          rw [(hsound.files.mem_iff s u).mp hmem] at hfits
          exact .inr ⟨hfits.eq_of_files, hbefore⟩
      | _ => cases hmem
  | answers hcovers hanswers =>
      refine rank_lt hneed Nat.two_pos fun wait' hu => .inl ?_
      obtain ⟨task, htask, hwait, -⟩ := exists_of_need? hu
      cases hanswers with
      | announcing htask' hannouncing =>
          cases htask.symm.trans htask'
          rw [Work.wait?_of_isAnnouncing hannouncing] at hwait
          cases hwait
      | writingBack hworker hmem hstream =>
          obtain ⟨task', htask', hwork⟩ := hworker
          cases htask.symm.trans htask'
          rw [hwork] at hwait
          exact Working.level_of_wait? hwait

/-- From whoever has something to do, a chain of tasks that wait leads to one that can go on. -/
theorem Engaged.exists_canStep (hsound : m.Sound) (hengaged : m.Engaged t) :
    ∃ u, Relation.ReflTransGen m.WaitsFor t u ∧ m.CanStep u := by
  have hwf : WellFounded fun u t => m.rank u < m.rank t := InvImage.wf m.rank wellFounded_lt
  induction t using hwf.induction with
  | _ t ih =>
      obtain ⟨task, htask, hdone, hbatch⟩ := hengaged
      cases hneed : m.need? t with
      | none => exact ⟨t, .refl, canStep_of_need?_eq_none hsound.orderly htask hdone hneed⟩
      | some wait =>
          have hne : wait ≠ .batch := fun heq => hbatch (heq ▸ hneed)
          obtain ⟨u, hwaits, hengaged⟩ := exists_waitsFor hsound hneed hne
          obtain ⟨v, hchain, hstep⟩ := ih u (rank_lt_of_waitsFor hsound hwaits) hengaged
          exact ⟨v, .head hwaits hchain, hstep⟩

/-! ## Runs -/

/-- No call is stuck, and the batches on their way are dealt with some time. -/
structure NeverStuck (m : Moment) : Prop where
  /-- Behind every call that has not returned there is a task that can go on. -/
  progress : ∀ t task, t ≠ 0 → m.system.task? t = some task → task.work.isDone = false →
    ∃ u, Relation.ReflTransGen m.WaitsFor t u ∧ m.CanStep u
  /-- Tasks do not wait in a circle. -/
  acyclic : ∀ t, ¬Relation.TransGen m.WaitsFor t t
  /-- Some task is to end the batches of a stream, and behind it there is one that can go on. -/
  answered : ∀ s, m.system.engine.backlog.isIdle s = false →
    ∃ u, m.Answers s u ∧ ∃ v, Relation.ReflTransGen m.WaitsFor u v ∧ m.CanStep v

/-- A call that has not returned has something to do. -/
theorem engaged_of_ne_zero (hsound : m.Sound) {task : Task} (ht : t ≠ 0)
    (htask : m.system.task? t = some task) (hdone : task.work.isDone = false) : m.Engaged t := by
  refine ⟨task, htask, hdone, fun hneed => ht (hsound.settled.worker t ?_)⟩
  have hfits := fits_of_need? hneed
  generalize m.stances t = σ at hfits ⊢
  generalize m.files? t = files at hfits
  cases hfits
  rfl

theorem rank_lt_of_transGen (hsound : m.Sound) (h : Relation.TransGen m.WaitsFor t u) :
    m.rank u < m.rank t := by
  induction h with
  | single hwaits => exact rank_lt_of_waitsFor hsound hwaits
  | tail _ hwaits ih => exact (rank_lt_of_waitsFor hsound hwaits).trans ih

/-- At all times of a run no call is stuck. -/
theorem neverStuck_of_undergo
    (hrun : (opening settings archive clock).undergo incidents = some m) : m.NeverStuck := by
  have hsound := sound_of_undergo hrun
  constructor
  · intro t task ht htask hdone
    exact (engaged_of_ne_zero hsound ht htask hdone).exists_canStep hsound
  · intro t hcircle
    exact (rank_lt_of_transGen hsound hcircle).false
  · intro s hbusy
    obtain ⟨u, hanswers⟩ := exists_answers hsound hbusy
    exact ⟨u, hanswers, (hanswers.engaged hsound).exists_canStep hsound⟩

/-- A removal waits for a batch in the queue, an append for the removal, and a flush for the
batch. -/
def jamming : List Incident :=
  [appending "placed" 1 none] ++ steps 17 1 ++
    [.move (.start (.remove Archive.orders (.retiring .start)) false)] ++ steps 6 2 ++
    [appending "paid" 2 none] ++ steps 3 3 ++
    [.move (.start (.flush false) false)]

theorem neverStuck_of_jamming :
    ∃ m, (opening {} Archive.blank 0).undergo jamming = some m ∧
      (∀ t ∈ [2, 3, 4], m.system.step t {} = none) ∧ m.NeverStuck := by
  have hundergone : ((opening {} Archive.blank 0).undergo jamming).any (fun m =>
      [2, 3, 4].all fun t => (m.system.step t {}).isNone) = true := by
    decide +kernel
  obtain ⟨m, hrun, hm⟩ := (Option.any_eq_true _ _).mp hundergone
  refine ⟨m, hrun, fun t ht => ?_, neverStuck_of_undergo hrun⟩
  exact Option.isNone_iff_eq_none.mp (List.all_eq_true.mp hm t ht)

end Moment

end StreamStore
