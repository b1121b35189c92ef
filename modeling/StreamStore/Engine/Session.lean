import StreamStore.Engine.Task

/-!
# Sessions

Somebody who works with an engine runs some work at once and some in the background, and holds
locks, all under names.  Whenever everything has gone on as far as it can, the session notes which
background tasks are done and which locks are there by now.
-/

namespace StreamStore

/-- A task in the background, with whatever is to be remembered about it. -/
structure NamedTask (δ : Type) where
  id : TaskId
  name : String
  note : δ

/-- A lock that is held or awaited. -/
structure NamedLock where
  id : TaskId
  name : String
  acquired : Bool := false

/-- A system with names for some of its tasks. -/
structure Session (δ : Type) where
  system : System
  tasks : List (NamedTask δ) := []
  locks : List NamedLock := []
  /-- The background tasks that came to their end since this was last asked. -/
  finished : List (String × δ × Task) := []
  /-- The locks that came since this was last asked. -/
  acquired : List String := []

namespace Session

variable {δ : Type}

def engine (s : Session δ) : Engine := s.system.engine

def withEngine (s : Session δ) (engine : Engine) : Session δ :=
  { s with system := { s.system with engine } }

def asked (s : Session δ) : Session δ := { s with finished := [], acquired := [] }

/-- Let all tasks go on until each waits or is done. -/
def settle (s : Session δ) : Session δ :=
  let system := s.system.settle
  let task? (t : NamedTask δ) := (system.task? t.id).filter (·.work.isDone)
  let locks := s.locks.map fun l =>
    { l with acquired := (system.task? l.id).any fun t => t.work.isHolding system.engine l.id }
  let fresh := (s.locks.zip locks).filter fun (old, new) => new.acquired && !old.acquired
  { system := (s.tasks.filter fun t => (task? t).isSome).foldl (fun y t => y.forget t.id) system
    tasks := s.tasks.filter fun t => (task? t).isNone
    locks
    finished := s.finished ++ s.tasks.filterMap fun t => (task? t).map (t.name, t.note, ·)
    acquired := s.acquired ++ fresh.map fun (_, l) => l.name }

/-- Run work to its end; work that has to wait is dropped. -/
def attempt (s : Session δ) (work : Work) (cancelled : Bool) : Option Task × Session δ :=
  let (id, system) := s.system.start work cancelled
  let s := settle { s with system }
  match (s.system.task? id).filter (·.work.isDone) with
  | some task => (some task, { s with system := s.system.forget id })
  | none => (none, { s with system := s.system.abandon id })

def spawn (s : Session δ) (name : String) (work : Work) (cancelled : Bool) (note : δ) : Session δ :=
  let (id, system) := s.system.start work cancelled
  { s with system, tasks := s.tasks ++ [⟨id, name, note⟩] }

def cancel? (s : Session δ) (name : String) : Option (Session δ) :=
  (s.tasks.find? (·.name = name)).map fun t => { s with system := s.system.cancel t.id }

def abort? (s : Session δ) (name : String) : Option (Session δ) :=
  (s.tasks.find? (·.name = name)).map fun t =>
    { s with system := s.system.abandon t.id, tasks := s.tasks.filter (·.id ≠ t.id) }

/-- Wait for a lock, and hold it from then on. -/
def hold (s : Session δ) (name : String) (work : Work) : Session δ :=
  let (id, system) := s.system.start work false
  { s with system, locks := s.locks ++ [{ id, name }] }

/-- Give a lock back, or wait for it no longer. -/
def release? (s : Session δ) (name : String) : Option (Session δ) :=
  (s.locks.find? (·.name = name)).map fun l =>
    { s with system := s.system.abandon l.id, locks := s.locks.filter (·.id ≠ l.id) }

/-- Go on with another engine and none of the tasks. -/
def restart (s : Session δ) (engine : Engine) : Session δ :=
  { s with
    system := { System.ofEngine engine with nextTask := s.system.nextTask }
    tasks := []
    locks := [] }

end Session

end StreamStore
