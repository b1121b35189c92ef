import StreamStore.Proofs.Cache.Contents
import StreamStore.Proofs.Engine.Run

/-!
# Stances

What the work of a task has to do with the work of others is its stance: the line
it stands in, the lock it holds, the entry it has in hand, and the batch it answers
for.  Work of different kinds goes through the same stances, so what one step can do
is said once, as a change of the engine and of the stance of one task.
-/

namespace StreamStore

/-- How a task stands to the lines, the locks and the batches of an engine. -/
inductive Stance
  /-- In no line, with nothing in hand. -/
  | free
  /-- In line for a stream. -/
  | queueing (s : StreamId)
  /-- First in line for a stream, as in the stances that follow. -/
  | guarding (s : StreamId)
  /-- An entry of the stream is in hand. -/
  | arrived (s : StreamId) (n : EntryId)
  /-- No entry of the stream is resident. -/
  | sealed (s : StreamId)
  /-- What is more, no write to the stream is on its way. -/
  | quiet (s : StreamId)
  /-- Some events are read from disk. -/
  | loading (s : StreamId) (events : List Event)
  /-- All events are read from disk. -/
  | loaded (s : StreamId) (events : List Event)
  /-- In the line of an entry that is to be taken out of the cache. -/
  | emptying (s : StreamId) (n : EntryId)
  /-- The entry is taken out, its lock still held. -/
  | emptied (s : StreamId) (n : EntryId)
  /-- In no line, with an entry in hand. -/
  | aiming (s : StreamId) (n : EntryId)
  /-- In the line of an entry, for reading it. -/
  | reading (s : StreamId) (n : EntryId)
  /-- In the line of an entry, for writing to it. -/
  | awaiting (s : StreamId) (n : EntryId)
  /-- The lock of an entry is held for writing, as in the stances that follow. -/
  | writing (s : StreamId) (n : EntryId)
  /-- A batch is announced. -/
  | announced (s : StreamId) (n : EntryId)
  /-- A batch is announced, and the entry was found to speak for its stream. -/
  | current (s : StreamId) (n : EntryId)
  /-- The queue took the events, which are not in the entry yet. -/
  | queued (s : StreamId) (n : EntryId) (events : List Event)
  | receiving
  /-- A batch is to be written to disk. -/
  | carrying (batch : Batch)
  /-- A batch is dealt with, but not counted off. -/
  | carried (batch : Batch)
  | finished

/-! ## The stances of work -/

/-- The stance of a task that makes a stream resident. -/
def Residence.stance (s : StreamId) : Residence → Stance
  | asking .looking => .free
  | asking .missed => .free
  | asking .inLine => .queueing s
  | asking .finding => .sealed s
  | asking (.leaving (.ok n)) => .arrived s n
  | asking (.leaving (.error _)) => .guarding s
  | asking (.done (.ok n)) => .aiming s n
  | asking (.done (.error _)) => .free
  | loading events => .loading s events
  | loaded events => .loaded s events

/-- The stance of a task that reads an entry of a stream. -/
def Reading.stance {α : Type} (s : StreamId) (n : EntryId) : Reading α → Stance
  | arriving => .aiming s n
  | inLine => .reading s n
  | leaving _ => .reading s n
  | done _ => .free

/-- The stance of an append to a stream. -/
def Appending.stance (s : StreamId) : Appending → Stance
  | start => .free
  | finding residence => residence.stance s
  | arriving n => .aiming s n
  | inLine n => .awaiting s n
  | locked n => .writing s n
  | announced n => .announced s n
  | stale n => .announced s n
  | unlockingStale n => .writing s n
  | current n => .current s n
  | refused n _ => .announced s n
  | queued n events => .queued s n events
  | extended n => .writing s n
  | unlocking n _ => .writing s n
  | done _ => .free

/-- The stance of a task that reads a page of a stream. -/
def Paging.stance (s : StreamId) : Paging → Stance
  | start => .free
  | finding residence => residence.stance s
  | reading n phase => phase.stance s n
  | done _ => .free

/-- The stance of a task that asks for an entry of a stream. -/
def Measuring.stance (s : StreamId) : Measuring → Stance
  | finding residence => residence.stance s
  | reading n phase => phase.stance s n
  | done _ => .free

/-- The stance of a task that looks at a resident entry. -/
def Peeking.stance (s : StreamId) : Peeking → Stance
  | start => .free
  | reading n phase => phase.stance s n
  | done _ => .free

/-- The stance of a task that counts the events of a stream. -/
def Counting.stance (s : StreamId) : Counting → Stance
  | start => .free
  | reading n phase => phase.stance s n
  | onDisk => .free
  | done _ => .free

/-- The stance of a task that makes a catalogue. -/
def Listing.stance : Listing → Stance
  | start => .free
  | listed _ => .free
  | counting s phase _ _ => phase.stance s
  | done _ => .free

/-- The stance of a task that retires a stream. -/
def Retiring.stance (s : StreamId) : Retiring → Stance
  | start => .free
  | inLine => .queueing s
  | held => .guarding s
  | arriving n => .arrived s n
  | inEntryLine n => .emptying s n
  | unlocking n => .emptied s n
  | retired => .sealed s

/-- The stance of a task that removes a stream. -/
def Removing.stance (s : StreamId) : Removing → Stance
  | retiring phase => phase.stance s
  | quiet => .quiet s
  | inExtentLine => .quiet s
  | unlocking _ => .quiet s
  | leaving _ => .quiet s
  | done _ => .free

/-- The stance of a task that writes a batch to disk. -/
def Persisting.stance (b : Batch) : Persisting → Stance
  | start => .carrying b
  | inLine => .carrying b
  | unlocking _ => .carried b
  | done _ => .carried b

/-- The stance of a worker that writes back. -/
def Working.stance : Working → Stance
  | receiving => .receiving
  | writing b phase => phase.stance b
  | written b => .carried b
  | finished => .finished

/-- The stance of a task, from its work. -/
def Work.stance : Work → Stance
  | append r phase => phase.stance r.stream
  | page r phase => phase.stance r.stream
  | measure s phase => phase.stance s
  | peek s phase => phase.stance s
  | count s phase => phase.stance s
  | list _ phase => phase.stance
  | remove s phase => phase.stance s
  | flush _ => .free
  | writeBack worker => worker.phase.stance
  | persist .. => .free
  | hold .. => .free
  | retire .. => .free

theorem Work.stance_of_isRequest {work : Work} (h : work.isRequest = true) :
    work.stance = .free := by
  unfold isRequest at h
  split at h <;> first | rfl | cases h

/-! ## What a step can do -/

/-- One engine comes from another by changes that no stance depends on: at most
entries go out of the cache. -/
structure Engine.Frame (e e' : Engine) : Prop where
  entries_eq : e'.entries = e.entries
  nextEntry_eq : e'.nextEntry = e.nextEntry
  lines_eq : e'.pool.lines = e.pool.lines
  backlog_eq : e'.backlog = e.backlog
  batches_eq : e'.queue.batches = e.queue.batches
  archive_eq : e'.archive = e.archive
  cache : ∀ table, e.pool.cache.Holds table →
    ∃ table', e'.pool.cache.Holds table' ∧ table'.Within table

theorem Engine.Frame.refl (e : Engine) : e.Frame e :=
  ⟨rfl, rfl, rfl, rfl, rfl, rfl, fun table h => ⟨table, h, fun _ _ hfind => hfind⟩⟩

/-- What is written to a queue that takes it. -/
def Engine.withBatches (e : Engine) (batches : List Batch) : Engine :=
  { e with queue := { e.queue with batches } }

/-- One step of a task: how its stance and the engine change, and what is noted. -/
inductive Change (e : Engine) (t : TaskId) :
    Stance → List Happening → Engine → Stance → Prop
  /-- Nothing that matters. -/
  | frame {e' : Engine} {σ : Stance} (hframe : e.Frame e') : Change e t σ [] e' σ
  | find {e' : Engine} {s : StreamId} {n : EntryId} (hframe : e.Frame e')
      (hresident : e.resident? s = some n) : Change e t .free [] e' (.aiming s n)
  | joinLine {s : StreamId} : Change e t .free [] (e.joinPool s t) (.queueing s)
  | turn {e' : Engine} {s : StreamId} (hframe : e.Frame e')
      (hturn : e.pool.lines.holds s t = true) : Change e t (.queueing s) [] e' (.guarding s)
  | turnHit {e' : Engine} {s : StreamId} {n : EntryId} (hframe : e.Frame e')
      (hturn : e.pool.lines.holds s t = true) (hresident : e.resident? s = some n) :
      Change e t (.queueing s) [] e' (.arrived s n)
  | turnMiss {e' : Engine} {s : StreamId} (hframe : e.Frame e')
      (hturn : e.pool.lines.holds s t = true) (hresident : e.resident? s = none) :
      Change e t (.queueing s) [] e' (.sealed s)
  | inspectHit {s : StreamId} {n : EntryId} (hresident : e.resident? s = some n) :
      Change e t (.guarding s) [] e (.arrived s n)
  | inspectMiss {s : StreamId} (hresident : e.resident? s = none) :
      Change e t (.guarding s) [] e (.sealed s)
  | giveUp {s : StreamId} : Change e t (.sealed s) [] e (.guarding s)
  | openFiles {s : StreamId} (hidle : e.backlog.isIdle s = true) :
      Change e t (.sealed s) [] e (.loading s [])
  | loadMore {s : StreamId} {events page : List Event} {size : Nat} {cancelled : Bool}
      (hread : e.archive.readAll s (some events.length) (some size) cancelled = .ok page) :
      Change e t (.loading s events) [] e (.loading s (events ++ page))
  | loadLast {s : StreamId} {events page : List Event} {size : Nat} {cancelled : Bool}
      (hread : e.archive.readAll s (some events.length) (some size) cancelled = .ok page)
      (hlast : page.length < size) :
      Change e t (.loading s events) [] e (.loaded s (events ++ page))
  | loadFail {s : StreamId} {events : List Event} :
      Change e t (.loading s events) [] e (.guarding s)
  | populate {s : StreamId} {events : List Event} :
      Change e t (.loaded s events) []
        ((e.newEntry events).2.withCache (e.pool.cache.put s e.nextEntry).2.2)
        (.arrived s e.nextEntry)
  | leaveLine {s : StreamId} {n : EntryId} :
      Change e t (.arrived s n) [] (e.leavePool s t) (.aiming s n)
  | leaveGuard {s : StreamId} : Change e t (.guarding s) [] (e.leavePool s t) .free
  | leaveQuiet {s : StreamId} : Change e t (.quiet s) [] (e.leavePool s t) .free
  | joinRead {s : StreamId} {n : EntryId} :
      Change e t (.aiming s n) [] (e.joinEntry n t .read) (.reading s n)
  | leaveRead {s : StreamId} {n : EntryId} :
      Change e t (.reading s n) [] (e.leaveEntry n t) .free
  | joinWrite {s : StreamId} {n : EntryId} :
      Change e t (.aiming s n) [] (e.joinEntry n t .write) (.awaiting s n)
  | leaveAwait {s : StreamId} {n : EntryId} :
      Change e t (.awaiting s n) [] (e.leaveEntry n t) .free
  | lock {s : StreamId} {n : EntryId} (hlock : e.holdsEntry n t = true) :
      Change e t (.awaiting s n) [] e (.writing s n)
  | announce {s : StreamId} {n : EntryId} :
      Change e t (.writing s n) [] (e.announce s) (.announced s n)
  | check {s : StreamId} {n : EntryId} (hresident : e.resident? s = some n) :
      Change e t (.announced s n) [] e (.current s n)
  | takeBack {s : StreamId} {n : EntryId} :
      Change e t (.announced s n) [] (e.settleWrite s) (.writing s n)
  | refuse {s : StreamId} {n : EntryId} : Change e t (.current s n) [] e (.announced s n)
  | handOff {r : AppendRequest} {n : EntryId} {events : List Event} (hne : events ≠ [])
      (hfits : ∀ ev ∈ events, ev.type.utf8ByteSize ≤ maxEventTypeLength)
      (hversion : ∀ version, r.expected = some version →
        version = (e.entry n).events.length)
      (hstamp : events = stamp ((e.entry n).events.getLast?.map (·.id)) e.clock r.drafts) :
      Change e t (.current r.stream n) [.admitted t r events]
        (e.withBatches (e.queue.batches ++ [⟨r.stream, events⟩])) (.queued r.stream n events)
  | extend {s : StreamId} {n : EntryId} {events : List Event} :
      Change e t (.queued s n events) []
        (e.changeEntry n fun entry => { entry with events := entry.events ++ events })
        (.writing s n)
  | leaveWrite {s : StreamId} {n : EntryId} :
      Change e t (.writing s n) [] (e.leaveEntry n t) .free
  | joinEmpty {s : StreamId} {n : EntryId} :
      Change e t (.arrived s n) [] (e.joinEntry n t .write) (.emptying s n)
  | empty {s : StreamId} {n : EntryId} (hlock : e.holdsEntry n t = true) :
      Change e t (.emptying s n) [] (e.removeEntry s).2 (.emptied s n)
  | leaveEmptied {s : StreamId} {n : EntryId} :
      Change e t (.emptied s n) [] (e.leaveEntry n t) (.sealed s)
  | hush {s : StreamId} (hidle : e.backlog.isIdle s = true) :
      Change e t (.sealed s) [] e (.quiet s)
  | delete {s : StreamId} {archive : Archive} {weather : Nat → Interference}
      (hrun : e.archive.delete s weather = (.ok (), archive)) :
      Change e t (.quiet s) [.removed t s] { e with archive } (.quiet s)
  | deleteFail {s : StreamId} {archive : Archive} {weather : Nat → Interference}
      {fault : StorageFault} (hrun : e.archive.delete s weather = (.error fault, archive)) :
      Change e t (.quiet s) [.unremoved t s] { e with archive } (.quiet s)
  | receive {b : Batch} {rest : List Batch} (hbatches : e.queue.batches = b :: rest) :
      Change e t .receiving [] (e.withBatches rest) (.carrying b)
  | finish {e' : Engine} (hframe : e.Frame e') : Change e t .receiving [] e' .finished
  | skip {b : Batch} (hempty : b.events = []) : Change e t (.carrying b) [] e (.carried b)
  | persist {b : Batch} {archive : Archive} {patience : Patience}
      (hrun : e.archive.append b.stream b.events patience = (.ok (), archive)) :
      Change e t (.carrying b) [] { e with archive } (.carried b)
  | lose {b : Batch} {archive : Archive} {w : Weather} {fault : StorageFault}
      (hrun : Persisting.write e.archive b.stream b.events none w = (.error fault, archive)) :
      Change e t (.carrying b) [.lost b] { e with archive } (.carried b)
  | countOff {b : Batch} :
      Change e t (.carried b) [] (e.settleWrite b.stream) .receiving

end StreamStore
