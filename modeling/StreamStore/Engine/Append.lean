import StreamStore.Engine.Residence

/-!
# Appending

An append makes the stream resident and takes the entry's lock for writing.  It announces its batch
before it checks that the entry still speaks for the stream; if not, it starts over.  Then it
compares versions, gives the events their identities, hands the batch to the write queue, and only
when the queue took it do the events come into the entry.
-/

namespace StreamStore

/-- What a writer asks for. -/
structure AppendRequest where
  stream : StreamId
  drafts : List EventDraft
  /-- How many events the stream is expected to have. -/
  expected : Option Nat := none
deriving DecidableEq, Repr

/-- How far an append has come. -/
inductive Appending
  | start
  | finding (residence : Residence)
  /-- About to get in line for the entry's lock. -/
  | arriving (n : EntryId)
  | inLine (n : EntryId)
  /-- The lock is held. -/
  | locked (n : EntryId)
  /-- The batch is announced. -/
  | announced (n : EntryId)
  /-- The entry does not speak for the stream any more. -/
  | stale (n : EntryId)
  /-- The announcement is taken back, the lock still held. -/
  | unlockingStale (n : EntryId)
  /-- The entry speaks for the stream. -/
  | current (n : EntryId)
  /-- The batch is not to be written. -/
  | refused (n : EntryId) (refusal : Refusal)
  /-- The queue took the batch. -/
  | queued (n : EntryId) (events : List Event)
  /-- The events are in the entry. -/
  | extended (n : EntryId)
  | unlocking (n : EntryId) (result : Except Refusal Unit)
  | done (result : Except Refusal Unit)
deriving Repr

namespace AppendRequest

/-- What is wrong with a draft, of those that come first in a batch. -/
def draftFault? (limit index : Nat) (draft : EventDraft) : Option BadRequest :=
  let typeLength := draft.type.utf8ByteSize
  if typeLength = 0 then some (.emptyEventType index)
  else if maxEventTypeLength < typeLength then
    some (.longEventType index typeLength maxEventTypeLength)
  else if limit < draft.data.length then some (.largePayload index draft.data.length limit)
  else none

/-- The first thing wrong with drafts, counted from an index on. -/
def fault? (limit : Nat) : Nat → List EventDraft → Option BadRequest
  | _, [] => none
  | index, draft :: drafts =>
    match draftFault? limit index draft with
    | some fault => some fault
    | none => fault? limit (index + 1) drafts

end AppendRequest

namespace Appending

/-- The outcome, at the end. -/
def result? : Appending → Option (Except Refusal Unit)
  | done result => some result
  | _ => none

/-- The first step: nothing to write, something wrong with it, or on to the entry. -/
def begin (e : Engine) (r : AppendRequest) : Appending :=
  if r.drafts.isEmpty then done (.ok ())
  else
    match AppendRequest.fault? e.settings.maxEventSize 0 r.drafts with
    | some fault => done (.error (.badRequest fault))
    | none => finding .start

/-- The version an append should have found, where it found another one. -/
def mismatch? (r : AppendRequest) (actual : Nat) : Option Refusal :=
  match r.expected with
  | some expected => if expected = actual then none else some (.versionMismatch expected actual)
  | none => none

/-- Hand the batch to the write queue, if the version is right. -/
def handOff (e : Engine) (r : AppendRequest) (n : EntryId) : Engine × Appending :=
  let events := (e.entry n).events
  match mismatch? r events.length with
  | some refusal => (e, refused n refusal)
  | none =>
    let stamped := stamp (events.getLast?.map (·.id)) e.clock r.drafts
    match e.queue.send ⟨r.stream, stamped⟩ with
    | .ok queue => ({ e with queue }, queued n stamped)
    | .error reason => (e, refused n (.cannotInitiateWrite (.inl reason)))

/-- One step of an append. -/
def step (e : Engine) (r : AppendRequest) (t : TaskId) (cancelled : Bool) (w : Weather) :
    Appending → Option (Engine × Appending)
  | start => some (e, begin e r)
  | finding residence =>
    match residence.result? with
    | some (.ok n) => some (e, arriving n)
    | some (.error refusal) => some (e, done (.error refusal))
    | none => (residence.step e r.stream t cancelled w).map fun (e, residence) =>
        (e, finding residence)
  | arriving n => some (e.joinEntry n t .write, inLine n)
  | inLine n =>
    let turn := e.holdsEntry n t
    if cancelled ∧ (w.prefersCancel ∨ !turn) then
      some (e.leaveEntry n t, done (.error .cancelled))
    else if turn then some (e, locked n)
    else none
  | locked n => some (e.announce r.stream, announced n)
  | announced n => some (e, if e.isCurrent r.stream n then current n else stale n)
  | stale n => some (e.settleWrite r.stream, unlockingStale n)
  | unlockingStale n => some (e.leaveEntry n t, finding .start)
  | current n => some (handOff e r n)
  | refused n refusal => some (e.settleWrite r.stream, unlocking n (.error refusal))
  | queued n events =>
    some (e.changeEntry n fun entry => { entry with events := entry.events ++ events }, extended n)
  | extended n => some ((e.touch r.stream n).2, unlocking n (.ok ()))
  | unlocking n result => some (e.leaveEntry n t, done result)
  | done _ => none

end Appending

end StreamStore
