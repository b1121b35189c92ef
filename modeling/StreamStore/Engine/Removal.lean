import StreamStore.Engine.State

/-!
# Removing a stream

To retire a stream is to hold its line, so that nobody makes it resident, and to take its entry out
of the cache while holding the entry's lock for writing.  A removal retires the stream, waits until
no write to it is on its way, and removes its files.
-/

namespace StreamStore

/-- How far the retiring of a stream has come. -/
inductive Retiring
  | start
  | inLine
  /-- The stream's line is held. -/
  | held
  /-- About to get in line for the entry's lock. -/
  | arriving (n : EntryId)
  | inEntryLine (n : EntryId)
  | unlocking (n : EntryId)
  /-- The line is held and no entry is left. -/
  | retired
deriving DecidableEq, Repr

/-- How far a removal has come. -/
inductive Removing
  | retiring (phase : Retiring)
  /-- No write is on its way. -/
  | quiet
  | inExtentLine
  | unlocking (result : Except Refusal Unit)
  | leaving (result : Except Refusal Unit)
  | done (result : Except Refusal Unit)
deriving Repr

/-- One step of retiring a stream. -/
def Retiring.step (e : Engine) (s : StreamId) (t : TaskId) : Retiring → Option (Engine × Retiring)
  | start => some (e.joinPool s t, inLine)
  | inLine => if e.pool.lines.holds s t then some (e, held) else none
  | held =>
    match e.resident? s with
    | some n => some (e, arriving n)
    | none => some (e, retired)
  | arriving n => some (e.joinEntry n t .write, inEntryLine n)
  | inEntryLine n =>
    if e.holdsEntry n t then some ((e.removeEntry s).2, unlocking n) else none
  | unlocking n => some (e.leaveEntry n t, retired)
  | retired => none

namespace Removing

/-- The outcome, at the end. -/
def result? : Removing → Option (Except Refusal Unit)
  | done result => some result
  | _ => none

/-- One step of a removal. -/
def step (e : Engine) (s : StreamId) (t : TaskId) (w : Weather) :
    Removing → Option (Engine × Removing)
  | retiring .retired => if e.backlog.isIdle s then some (e, quiet) else none
  | retiring phase => (phase.step e s t).map fun (e, phase) => (e, retiring phase)
  | quiet => some (e.joinExtent s t, inExtentLine)
  | inExtentLine =>
    if e.extents.holds s t then
      let (result, archive) := e.archive.delete s w.removal
      some ({ e with archive }, unlocking (result.mapError Refusal.ofStorage))
    else none
  | unlocking result => some (e.leaveExtent s t, leaving result)
  | leaving result => some (e.leavePool s t, done result)
  | done _ => none

end Removing

end StreamStore
