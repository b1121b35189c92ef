import StreamStore.Storage.DataFile

/-!
# Lazy sequences of records

A sequence of headers or of events that opens its files when it is first asked for an item.  How
many headers there are is fixed from then on; after a failure it is over.  Items may be pulled many
at a time, up to a number of them.
-/

namespace StreamStore

/-- A lazy sequence of headers. -/
inductive HeaderSequence
  | unopened (extent : Extent) (skip take : Option Nat)
  | opened (ahead : PendingHeaders)

/-- Where the headers of a sequence of events come from. -/
inductive HeaderSource
  | file (skip take : Option Nat)
  | given (headers : List HeaderRecord)

/-- A lazy sequence of events. -/
inductive EventSequence
  | empty
  | unopened (extent : Extent) (source : HeaderSource)
  | opened (ahead : PendingEvents)

/-- How pulling items ended. -/
inductive PullEnd
  /-- As many as were asked for. -/
  | counted
  | finished
  /-- A failure, and whether the sequence is over after it. -/
  | failed (fault : StorageFault) (isOver : Bool)
deriving DecidableEq, Repr

/-- Pull items until there are as many as asked for, the sequence ends or fails, or the fuel is used
up; `cancelled` says whether the reader is cancelled once it has a number of items. -/
def pullWith {α σ : Type} (next : Bool → σ → Option (Except StorageFault α) × σ)
    (cancelled : Nat → Bool) (limit : Option Nat) : Nat → Nat → σ → List α × PullEnd × σ
  | 0, _, s => ([], .finished, s)
  | fuel + 1, count, s =>
    if limit = some count then ([], .counted, s)
    else
      match next (cancelled count) s with
      | (none, s) => ([], .finished, s)
      | (some (.error fault), s) =>
        let (after, s) := next (cancelled count) s
        ([], .failed fault after.isNone, s)
      | (some (.ok item), s) =>
        let (items, ending, s) := pullWith next cancelled limit fuel (count + 1) s
        (item :: items, ending, s)

namespace HeaderSequence

/-- What is ahead, once the file is open. -/
def force (d : Disk) : HeaderSequence → Except StorageFault PendingHeaders
  | unopened extent skip take => HeadersFile.open d extent skip take
  | opened ahead => .ok ahead

/-- The next header, `none` at the end. -/
def next (d : Disk) (cancelled : Bool) (s : HeaderSequence) :
    Option (Except StorageFault HeaderRecord) × HeaderSequence :=
  match s.force d with
  | .error fault => (some (.error fault), opened .none)
  | .ok ahead =>
    if ahead.size ≠ 0 ∧ cancelled then (some (.error .cancelled), opened .none)
    else
      match ahead.next d with
      | none => (none, opened .none)
      | some (item, rest) => (some item, opened rest)

/-- Pull headers. -/
def pull (d : Disk) (cancelled : Nat → Bool) (limit : Option Nat) (s : HeaderSequence) :
    List HeaderRecord × PullEnd × HeaderSequence :=
  let ahead := match s.force d with
    | .ok ahead => ahead.size
    | .error _ => 0
  pullWith (fun cancelled s => s.next d cancelled) cancelled limit (ahead + 1) 0 s

end HeaderSequence

namespace EventSequence

/-- What is ahead, once the files are open: the data file is opened first. -/
def force (d : Disk) : EventSequence → Except StorageFault PendingEvents
  | empty => .ok .none
  | unopened extent source =>
    match d.open? extent.data with
    | .error fault => .error (.io (.disk fault))
    | .ok data =>
      let headers := match source with
        | .file skip take => HeadersFile.open d extent skip take
        | .given headers => .ok (.given headers)
      headers.map fun headers => { headers, data := data.map fun source => { source } }
  | opened ahead => .ok ahead

/-- The next event, `none` at the end. -/
def next (d : Disk) (cancelled : Bool) (s : EventSequence) :
    Option (Except StorageFault Event) × EventSequence :=
  match s.force d with
  | .error fault => (some (.error fault), empty)
  | .ok ahead =>
    match ahead.next d cancelled with
    | none => (none, empty)
    | some (item, rest) => (some item, opened rest)

/-- All events ahead, or the first failure. -/
def collect (d : Disk) (cancelled : Bool) (s : EventSequence) : Except StorageFault (List Event) :=
  (s.force d).bind fun ahead => ahead.collect d cancelled

/-- Pull events. -/
def pull (d : Disk) (cancelled : Nat → Bool) (limit : Option Nat) (s : EventSequence) :
    List Event × PullEnd × EventSequence :=
  let ahead := match s.force d with
    | .ok ahead => ahead.headers.size
    | .error _ => 0
  pullWith (fun cancelled s => s.next d cancelled) cancelled limit (ahead + 1) 0 s

end EventSequence

end StreamStore
