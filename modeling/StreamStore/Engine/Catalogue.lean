import StreamStore.Engine.Reading

/-!
# The catalogue

How many events a stream has is told by its resident entry, which also counts what is still on its
way to disk, and by the disk where no entry or an empty one is resident.  The catalogue goes through
the streams on disk and the resident ones, by type and then by key.
-/

namespace StreamStore

/-- How far the counting of a stream's events has come. -/
inductive Counting
  | start
  | reading (n : EntryId) (phase : Reading Nat)
  /-- About to ask the disk. -/
  | onDisk
  /-- Of an unknown stream there is no count. -/
  | done (result : Except Refusal (Option Nat))
deriving Repr

/-- How far the making of a catalogue has come. -/
inductive Listing
  | start
  /-- The streams on disk are known. -/
  | listed (onDisk : List StreamId)
  /-- One stream is being counted, others are still to do. -/
  | counting (s : StreamId) (phase : Counting) (rest : List StreamId)
      (found : List StreamSummary)
  | done (result : Except Refusal (List StreamSummary))
deriving Repr

namespace Counting

/-- The count or the failure, at the end. -/
def result? : Counting → Option (Except Refusal (Option Nat))
  | done result => some result
  | _ => none

/-- One step of counting a stream's events. -/
def step (e : Engine) (s : StreamId) (t : TaskId) : Counting → Option (Engine × Counting)
  | start =>
    match e.resident? s with
    | some n => some (e, reading n .arriving)
    | none => some (e, onDisk)
  | reading n phase =>
    match phase.result? with
    | some 0 => some (e, onDisk)
    | some length => some (e, done (.ok (some length)))
    | none => (phase.step e n t List.length).map fun (e, phase) => (e, reading n phase)
  | onDisk => some (e, done ((e.archive.length s).mapError Refusal.ofStorage))
  | done _ => none

end Counting

namespace Listing

/-- The catalogue or the failure, at the end. -/
def result? : Listing → Option (Except Refusal (List StreamSummary))
  | done result => some result
  | _ => none

/-- The streams to count: those on disk and the resident ones, each once, by type and key. -/
def streams (filter : Option StreamType) (onDisk resident : List StreamId) : List StreamId :=
  let resident := resident.filter fun s => filter.all (· = s.type)
  (onDisk ++ resident).eraseDups.mergeSort fun a b => (a.compareInCatalogue b).isLE

def next (found : List StreamSummary) : List StreamId → Listing
  | [] => done (.ok found)
  | s :: rest => counting s .start rest found

/-- One step of making a catalogue, of one type or of all. -/
def step (e : Engine) (filter : Option StreamType) (t : TaskId) :
    Listing → Option (Engine × Listing)
  | start =>
    match e.archive.streams filter with
    | .ok onDisk => some (e, listed onDisk)
    | .error fault => some (e, done (.error (Refusal.ofStorage fault)))
  | listed onDisk => some (e, next [] (streams filter onDisk e.pool.cache.keys))
  | counting s phase rest found =>
    match phase.result? with
    | some (.error refusal) => some (e, done (.error refusal))
    | some (.ok none) => some (e, next found rest)
    | some (.ok (some count)) => some (e, next (found ++ [⟨s, count⟩]) rest)
    | none => (phase.step e s t).map fun (e, phase) => (e, counting s phase rest found)
  | done _ => none

end Listing

end StreamStore
