import StreamStore.Engine.State

/-!
# Reading an entry

A task that reads an entry's events gets in line for its lock, looks at the events once when it
holds the lock, and leaves.
-/

namespace StreamStore

/-- How far a task that reads an entry has come. -/
inductive Reading (α : Type)
  | arriving
  | inLine
  | leaving (seen : α)
  | done (seen : α)
deriving Repr

namespace Reading

variable {α : Type}

/-- What was seen, at the end. -/
def result? : Reading α → Option α
  | done seen => some seen
  | _ => none

/-- One step of reading an entry; `look` is what to see in its events. -/
def step (e : Engine) (n : EntryId) (t : TaskId) (look : List Event → α) :
    Reading α → Option (Engine × Reading α)
  | arriving => some (e.joinEntry n t .read, inLine)
  | inLine => if e.holdsEntry n t then some (e, leaving (look (e.entry n).events)) else none
  | leaving seen => some (e.leaveEntry n t, done seen)
  | done _ => none

end Reading

end StreamStore
