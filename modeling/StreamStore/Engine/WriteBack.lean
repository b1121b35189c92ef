import StreamStore.Engine.State

/-!
# Writing back

A worker takes batches from the write queue, or from a list of its own, and appends them to the
files one after another.  A batch that fails is dropped and counted as a failure, so that it does
not hold up the others; either way its announcement is counted off afterwards.
-/

namespace StreamStore

/-- How far the appending of events to a stream's files has come. -/
inductive Persisting
  | start
  | inLine
  | unlocking (result : Except StorageFault Unit)
  | done (result : Except StorageFault Unit)
deriving Repr

/-- What a worker did. -/
structure WriteReport where
  batchesWritten : Nat := 0
  eventsWritten : Nat := 0
  batchesFailed : Nat := 0
deriving DecidableEq, Repr

/-- Where a worker gets its batches. -/
inductive BatchSource
  | queue
  | own (batches : List Batch)
deriving DecidableEq, Repr

/-- What a worker is doing. -/
inductive Working
  | receiving
  | writing (batch : Batch) (phase : Persisting)
  /-- The batch is dealt with, but not counted off. -/
  | written (batch : Batch)
  | finished
deriving Repr

/-- A worker that writes batches back. -/
structure Worker where
  source : BatchSource := .queue
  phase : Working := .receiving
  report : WriteReport := {}
deriving Repr

namespace Persisting

/-- The outcome, at the end. -/
def result? : Persisting → Option (Except StorageFault Unit)
  | done result => some result
  | _ => none

/-- Append events to a stream's files, or fail on the way as the weather has it. -/
def write (a : Archive) (s : StreamId) (events : List Event) (patience : Patience) (w : Weather) :
    Except StorageFault Unit × Archive :=
  match w.writeCut with
  | some bytes => a.appendCut s events bytes
  | none => a.append s events patience

/-- One step of appending events to a stream's files. -/
def step (e : Engine) (s : StreamId) (events : List Event) (t : TaskId) (patience : Patience)
    (w : Weather) : Persisting → Option (Engine × Persisting)
  | start =>
    if events.isEmpty then some (e, done (.ok ())) else some (e.joinExtent s t, inLine)
  | inLine =>
    if e.extents.holds s t then
      let (result, archive) := write e.archive s events patience w
      some ({ e with archive }, unlocking result)
    else none
  | unlocking result => some (e.leaveExtent s t, done result)
  | done _ => none

end Persisting

namespace WriteReport

/-- Count a batch that was dealt with. -/
def count (r : WriteReport) (b : Batch) : Except StorageFault Unit → WriteReport
  | .ok () => { r with
      batchesWritten := r.batchesWritten + 1
      eventsWritten := r.eventsWritten + b.events.length }
  | .error _ => { r with batchesFailed := r.batchesFailed + 1 }

end WriteReport

namespace Worker

/-- The report, at the end. -/
def result? (k : Worker) : Option WriteReport :=
  match k.phase with
  | .finished => some k.report
  | _ => none

/-- Take the next batch. -/
def receive (e : Engine) (k : Worker) : Option (Engine × Worker) :=
  match k.source with
  | .own [] => some (e, { k with phase := .finished })
  | .own (b :: rest) => some (e, { k with source := .own rest, phase := .writing b .start })
  | .queue =>
    match e.queue.receive with
    | (.batch b, queue) => some ({ e with queue }, { k with phase := .writing b .start })
    | (.empty, _) => none
    | (.finished, queue) =>
      some ({ e with queue := queue.abandon }, { k with phase := .finished })
    | (.unreceived, _) => some (e, { k with phase := .finished })

/-- One step of a worker. -/
def step (e : Engine) (t : TaskId) (w : Weather) (k : Worker) : Option (Engine × Worker) :=
  match k.phase with
  | .receiving => receive e k
  | .writing b phase =>
    match phase.result? with
    | some result => some (e, { k with phase := .written b, report := k.report.count b result })
    | none => (phase.step e b.stream b.events t none w).map fun (e, phase) =>
        (e, { k with phase := .writing b phase })
  | .written b => some (e.settleWrite b.stream, { k with phase := .receiving })
  | .finished => none

end Worker

end StreamStore
