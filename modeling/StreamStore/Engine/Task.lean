import StreamStore.Engine.Work

/-!
# Tasks

Everything that goes on in an engine at one time: each task has its work and how far it has come
with it, and one step of one task is one atomic step of the whole.  A task that can go no further
waits, and is taken out of all lines when nobody cares for it any more.
-/

namespace StreamStore

/-- A task of an engine. -/
structure Task where
  id : TaskId
  work : Work
  cancelled : Bool := false
deriving Repr

/-- An engine with its tasks, in the order in which they started. -/
structure System where
  engine : Engine
  tasks : List Task := []
  nextTask : TaskId := 0

namespace System

def ofEngine (engine : Engine) : System := { engine }

/-- Start a task; the answer is its number. -/
def start (y : System) (work : Work) (cancelled : Bool) : TaskId × System :=
  (y.nextTask, { y with
    tasks := y.tasks ++ [{ id := y.nextTask, work, cancelled }]
    nextTask := y.nextTask + 1 })

def task? (y : System) (t : TaskId) : Option Task := y.tasks.find? fun task => task.id = t

def record (y : System) (t : TaskId) (work : Work) : System :=
  { y with tasks := y.tasks.map fun task => if task.id = t then { task with work } else task }

/-- One step of one task. -/
def step (y : System) (t : TaskId) (w : Weather) : Option System :=
  (y.task? t).bind fun task =>
    (task.work.step y.engine t task.cancelled w).map fun (engine, work) =>
      { y with engine }.record t work

def cancel (y : System) (t : TaskId) : System :=
  { y with tasks := y.tasks.map fun task =>
      if task.id = t then { task with cancelled := true } else task }

def forget (y : System) (t : TaskId) : System :=
  { y with tasks := y.tasks.filter fun task => task.id ≠ t }

def abandon (y : System) (t : TaskId) : System :=
  { y with engine := y.engine.abandon t }.forget t

/-- Let a task go on until it waits or is done, in fair weather and in at most `fuel` steps; the
answer says whether it moved. -/
def run (y : System) (t : TaskId) : Nat → Bool × System
  | 0 => (false, y)
  | fuel + 1 =>
    match y.step t {} with
    | some y => (true, (run y t fuel).2)
    | none => (false, y)

/-- Let each task go on in turn, as far as it can; the answer says whether any moved. -/
def round (y : System) (fuel : Nat) : Bool × System :=
  y.tasks.foldl (fun (moved, y) task =>
    let (moves, y) := y.run task.id fuel
    (moved || moves, y)) (false, y)

/-- Go round after round until no task moves, in at most `fuel` rounds. -/
def settleIn (y : System) (steps : Nat) : Nat → System
  | 0 => y
  | fuel + 1 =>
    match y.round steps with
    | (true, y) => y.settleIn steps fuel
    | (false, y) => y

/-- A number of steps that leaves ample room for each task to come to its end. -/
def allowance (y : System) : Nat :=
  let bytes := y.engine.archive.disk.nodes.values.map fun
    | .directory => 0
    | .file content => content.length
  64 * (1 + y.tasks.length + y.engine.queue.batches.length + y.engine.pool.cache.size
    + y.engine.archive.disk.nodes.size + bytes.foldr (· + ·) 0)

def settle (y : System) : System := y.settleIn y.allowance y.allowance

end System

end StreamStore
