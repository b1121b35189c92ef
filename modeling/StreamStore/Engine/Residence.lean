import StreamStore.Engine.State

/-!
# Making a stream resident

A task that needs a stream's events looks for its entry in the cache.  On a miss it waits for its
turn, then until no write to the stream is on its way, and reads the events from disk page by page
until a page is not full.
-/

namespace StreamStore

/-- How far a task that needs a stream's entry has come. -/
inductive Residence
  | asking (phase : Fetch EntryId Refusal)
  /-- Reading from disk, with the events read so far. -/
  | loading (events : List Event)
  /-- All events are read. -/
  | loaded (events : List Event)
deriving Repr

namespace Residence

def start : Residence := asking .looking

/-- The entry or the failure, at the end. -/
def result? : Residence → Option (Except Refusal EntryId)
  | asking (.done result) => some result
  | _ => none

/-- The end of finding the entry, with the line still to leave. -/
def fail (refusal : Refusal) : Residence := asking (.leaving (.error refusal))

/-- The next page of events from disk. -/
def loadPage (e : Engine) (s : StreamId) (cancelled : Bool) (events : List Event) : Residence :=
  let size := max e.settings.hydrationPageSize 1
  match e.archive.readAll s (some events.length) (some size) cancelled with
  | .error fault => fail (Refusal.ofStorage fault)
  | .ok page =>
    if page.length < size then loaded (events ++ page) else loading (events ++ page)

/-- One step towards a stream's entry. -/
def step (e : Engine) (s : StreamId) (t : TaskId) (cancelled : Bool) (w : Weather) :
    Residence → Option (Engine × Residence)
  | asking .finding =>
    let idle := e.backlog.isIdle s
    if cancelled ∧ (w.prefersCancel ∨ !idle) then some (e, fail .cancelled)
    else if idle then some (e, loading [])
    else none
  | asking phase =>
    (e.pool.advance s t phase).map fun (pool, phase) => ({ e with pool }, asking phase)
  | loading events => some (e, loadPage e s cancelled events)
  | loaded events =>
    let (n, e) := e.newEntry events
    let (_, pool, phase) := e.pool.found s (.ok n)
    some ({ e with pool }, asking phase)

end Residence

end StreamStore
