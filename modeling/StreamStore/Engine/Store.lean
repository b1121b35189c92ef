import StreamStore.Engine.Memory
import StreamStore.Engine.Task

/-!
# Event stores

A store is an engine over a directory with a worker that writes back all the time and a watcher of
the memory in use.  Shutting it down closes the write queue, lets the worker finish, and stops the
watcher; what is on disk then is what was written.
-/

namespace StreamStore

/-- Why a store cannot be opened. -/
inductive OpenFault
  | invalid (fault : SettingsFault)
  | disk (fault : DiskFault)
deriving DecidableEq, Repr

/-- A store for events. -/
structure Store where
  system : System
  /-- The task that writes back. -/
  worker : TaskId
  /-- Whether the store was not shut down yet. -/
  isOpen : Bool := true

namespace Store

/-- Open a store over a directory, which is made if it is missing. -/
def open? (settings : Settings) (disk : Disk) (base : Path) (clock : Int64) :
    Except OpenFault Store :=
  match settings.validate with
  | .error fault => .error (.invalid fault)
  | .ok () =>
    match disk.makeDirectories base with
    | .error fault => .error (.disk fault)
    | .ok disk =>
      let engine := Engine.ofArchive settings { base, disk } clock
      let (worker, system) := (System.ofEngine engine).start (.writeBack {}) false
      .ok { system := system.settle, worker }

def settle (s : Store) : Store := { s with system := s.system.settle }

def close (s : Store) : Store :=
  let engine := s.system.engine
  { s with system := { s.system with engine := { engine with queue := engine.queue.close } } }

/-- Shut a store down.  The answer is the worker's report, empty if that was given before, and
`none` while the worker has not finished. -/
def shutdown (s : Store) : Option WriteReport × Store :=
  if !s.isOpen then (some {}, s)
  else
    let s := { s with isOpen := false }.close.settle
    let report := (s.system.task? s.worker).bind fun task =>
      match task.work with
      | .writeBack worker => worker.result?
      | _ => none
    (report, s)

/-- One look at the memory in use, while the store is open. -/
def watchMemory (s : Store) (inUse : Option Nat) : Store :=
  if s.isOpen then
    { s with system := { s.system with engine := (s.system.engine.checkMemory inUse).2 } }
  else s

/-- Drop a store and open another one over the same files; the clock goes on. -/
def reopen? (s : Store) : Except OpenFault Store :=
  let engine := s.close.settle.system.engine
  open? engine.settings engine.archive.disk engine.archive.base engine.clock

end Store

end StreamStore
