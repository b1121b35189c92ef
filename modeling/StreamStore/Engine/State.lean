import StreamStore.Cache.Population
import StreamStore.Settings
import StreamStore.Storage.Archive
import StreamStore.Sync.Backlog
import StreamStore.Sync.SharedLock
import StreamStore.Sync.WriteQueue

/-!
# The state of an engine

Writes go to the cache and into the write queue at once and to disk later; reads are served from
the cache, which gets a missing stream from disk.  An entry of the cache holds all events of its
stream behind a shared lock, which is also the lock for writing to the stream.  An entry speaks for
its stream only as long as it is the one the cache holds.

All operations on the state are made of atomic steps.  What no step decides by itself, such as
whether the disk fails it, comes from outside as its weather.
-/

namespace StreamStore

abbrev TaskId := Nat

abbrev EntryId := Nat

/-- All events of a stream, behind a lock. -/
structure Entry where
  events : List Event := []
  lock : SharedLock TaskId := {}
deriving Repr

/-- The state that all tasks share. -/
structure Engine where
  settings : Settings
  archive : Archive
  /-- What the clock shows. -/
  clock : Int64 := 0
  /-- The entries that speak for their streams, and the lines of those who look for more. -/
  pool : Pool StreamId EntryId TaskId
  /-- All entries there ever were. -/
  entries : Table EntryId Entry := {}
  nextEntry : EntryId := 0
  /-- The locks of the streams' files. -/
  extents : LockTable StreamId TaskId := {}
  /-- The writes on their way to disk. -/
  backlog : Backlog := {}
  queue : WriteQueue

/-- What no step decides by itself. -/
structure Weather where
  /-- Whether a task that might go on and is cancelled does not go on. -/
  prefersCancel : Bool := false
  /-- After how many bytes the disk fails a write, if it does. -/
  writeCut : Option Nat := none
  /-- What stands in the way of each round of a removal. -/
  removal : Nat → Interference := fun _ => {}

namespace Engine

/-- An engine with nothing in memory. -/
def ofArchive (settings : Settings) (archive : Archive) (clock : Int64) : Engine where
  settings
  archive := { archive with cache := {}, deleteAttempts := settings.deleteAttempts }
  clock
  pool := { cache := .ofCapacity settings.maxCachedStreams }
  queue := .ofCapacity settings.writeQueueCapacity

def entry (e : Engine) (n : EntryId) : Entry := (e.entries.find? n).getD {}

def changeEntry (e : Engine) (n : EntryId) (f : Entry → Entry) : Engine :=
  { e with entries := e.entries.insert n (f (e.entry n)) }

def joinEntry (e : Engine) (n : EntryId) (t : TaskId) (access : Access) : Engine :=
  e.changeEntry n fun entry => { entry with lock := entry.lock.join t access }

/-- Leave the line for an entry's lock, from wherever in it. -/
def leaveEntry (e : Engine) (n : EntryId) (t : TaskId) : Engine :=
  e.changeEntry n fun entry => { entry with lock := entry.lock.leave t }

def holdsEntry (e : Engine) (n : EntryId) (t : TaskId) : Bool := (e.entry n).lock.isHolder t

def joinExtent (e : Engine) (s : StreamId) (t : TaskId) : Engine :=
  { e with extents := e.extents.join s t }

def leaveExtent (e : Engine) (s : StreamId) (t : TaskId) : Engine :=
  { e with extents := e.extents.leave s t }

def joinPool (e : Engine) (s : StreamId) (t : TaskId) : Engine :=
  { e with pool := { e.pool with lines := e.pool.lines.join s t } }

def leavePool (e : Engine) (s : StreamId) (t : TaskId) : Engine :=
  { e with pool := { e.pool with lines := e.pool.lines.leave s t } }

def withCache (e : Engine) (cache : Cache StreamId EntryId) : Engine :=
  { e with pool := { e.pool with cache } }

/-- The entry that speaks for a stream. -/
def resident? (e : Engine) (s : StreamId) : Option EntryId := e.pool.cache.peek s

def isCurrent (e : Engine) (s : StreamId) (n : EntryId) : Bool := e.resident? s = some n

/-- Make a stream the most recently used one if an entry speaks for it; the answer says whether. -/
def touch (e : Engine) (s : StreamId) (n : EntryId) : Bool × Engine :=
  let (touched, cache) := e.pool.cache.touchIf s (· = n)
  (touched, e.withCache cache)

/-- Take a stream's entry out of the cache; the answer says whether there was one. -/
def removeEntry (e : Engine) (s : StreamId) : Bool × Engine :=
  let (removed, cache) := e.pool.cache.remove s
  (removed.isSome, e.withCache cache)

/-- Evict up to a number of streams, the least recently used first; the answer is how many went. -/
def dropOldest (e : Engine) (n : Nat) : Nat × Engine :=
  let (evicted, cache) := e.pool.cache.dropOldest n
  (evicted.length, e.withCache cache)

/-- Take up an entry for a stream's events. -/
def newEntry (e : Engine) (events : List Event) : EntryId × Engine :=
  (e.nextEntry, { e with
    entries := e.entries.insert e.nextEntry { events }
    nextEntry := e.nextEntry + 1 })

def announce (e : Engine) (s : StreamId) : Engine := { e with backlog := e.backlog.announce s }

def settleWrite (e : Engine) (s : StreamId) : Engine := { e with backlog := e.backlog.settle s }

/-- Take a task out of every line it stands in, and away from every lock it holds. -/
def abandon (e : Engine) (t : TaskId) : Engine :=
  { e with
    pool := e.pool.abandon t
    extents := e.extents.leaveAll t
    entries := ⟨e.entries.rows.map fun (n, entry) =>
      (n, { entry with lock := entry.lock.leave t })⟩ }

end Engine

end StreamStore
