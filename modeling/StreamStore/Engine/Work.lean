import StreamStore.Engine.Append
import StreamStore.Engine.Catalogue
import StreamStore.Engine.Read
import StreamStore.Engine.Removal
import StreamStore.Engine.WriteBack

/-!
# Work

What the tasks of an engine do.  Each kind of work goes through phases of its own; one step of it is
one atomic step of the engine.
-/

namespace StreamStore

/-- What a task does, and how far it has come. -/
inductive Work
  | append (request : AppendRequest) (phase : Appending)
  | page (request : PageRequest) (phase : Paging)
  | measure (s : StreamId) (phase : Measuring)
  | peek (s : StreamId) (phase : Peeking)
  | count (s : StreamId) (phase : Counting)
  | list (filter : Option StreamType) (phase : Listing)
  | remove (s : StreamId) (phase : Removing)
  /-- Wait until no write is on its way. -/
  | flush (isDone : Bool)
  /-- Append to a stream's files behind the cache's back. -/
  | persist (s : StreamId) (events : List Event) (phase : Persisting)
  | writeBack (worker : Worker)
  /-- Hold an entry's lock. -/
  | hold (n : EntryId) (access : Access) (joined : Bool)
  /-- Hold a stream's line with no entry left. -/
  | retire (s : StreamId) (phase : Retiring)
deriving Repr

/-- What a task has to say at its end. -/
inductive Answer
  | accepted (result : Except Refusal Unit)
  | events (result : Except Refusal (List Event))
  /-- The events of a stream that is in memory. -/
  | resident (events : Option (List Event))
  /-- An entry and the number of its events. -/
  | size (result : Except Refusal (EntryId × Nat))
  | summary (result : Except Refusal (Option StreamSummary))
  | summaries (result : Except Refusal (List StreamSummary))
  | persisted (result : Except StorageFault Unit)
  | report (report : WriteReport)

namespace Work

/-- One step of a task's work, `none` while it waits and when it is done. -/
def step (e : Engine) (t : TaskId) (cancelled : Bool) (w : Weather) :
    Work → Option (Engine × Work)
  | append r phase => (phase.step e r t cancelled w).map fun (e, phase) => (e, append r phase)
  | page r phase => (phase.step e r t cancelled w).map fun (e, phase) => (e, page r phase)
  | measure s phase => (phase.step e s t cancelled w).map fun (e, phase) => (e, measure s phase)
  | peek s phase => (phase.step e s t).map fun (e, phase) => (e, peek s phase)
  | count s phase => (phase.step e s t).map fun (e, phase) => (e, count s phase)
  | list filter phase => (phase.step e filter t).map fun (e, phase) => (e, list filter phase)
  | remove s phase => (phase.step e s t w).map fun (e, phase) => (e, remove s phase)
  | flush isDone => if !isDone ∧ e.backlog.isEmpty then some (e, flush true) else none
  | persist s events phase =>
    (phase.step e s events t (Patience.ofCancelled cancelled) w).map fun (e, phase) =>
      (e, persist s events phase)
  | writeBack worker => (worker.step e t w).map fun (e, worker) => (e, writeBack worker)
  | hold n access joined =>
    if joined then none else some (e.joinEntry n t access, hold n access true)
  | retire s phase => (phase.step e s t).map fun (e, phase) => (e, retire s phase)

/-- What a task has to say, once it is done.  Holding something is never done by itself. -/
def answer? : Work → Option Answer
  | append _ phase => phase.result?.map .accepted
  | page _ phase => phase.result?.map .events
  | measure _ phase => phase.result?.map .size
  | peek _ phase => phase.result?.map .resident
  | count s phase => phase.result?.map fun result =>
      .summary (result.map fun n? => n?.map (⟨s, ·⟩))
  | list _ phase => phase.result?.map .summaries
  | remove _ phase => phase.result?.map .accepted
  | flush isDone => if isDone then some (.accepted (.ok ())) else none
  | persist _ _ phase => phase.result?.map .persisted
  | writeBack worker => worker.result?.map .report
  | hold .. => none
  | retire .. => none

def isDone (w : Work) : Bool := w.answer?.isSome

/-- Whether a task that holds something has what it wants to hold. -/
def isHolding (e : Engine) (t : TaskId) : Work → Bool
  | hold n _ _ => e.holdsEntry n t
  | retire _ phase => phase = .retired
  | _ => false

end Work

end StreamStore
