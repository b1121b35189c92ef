import StreamStore.Cache.Population

/-!
# Tasks of a pool

Everything that goes on in a pool at one time: tasks that fetch the value of a key and tasks that
hold a key's line.  One step of one task is one atomic step of the whole, and what others can see of
it is noted.  What a fetch finds comes from outside, before the fetch gets to look for it or after.
-/

namespace StreamStore

/-- How far a task that wants to hold a key's line has come. -/
inductive Holding
  | arriving
  | inLine
  | holding
deriving DecidableEq, Repr

/-- What a task does with a key, and how far it has come. -/
inductive PoolWork (ν ε : Type)
  /-- Fetch the value; what is found for it is known once it is found. -/
  | fetch (phase : Fetch ν ε) (find? : Option (Except ε ν))
  | hold (phase : Holding)
deriving Repr

/-- A task of a pool. -/
structure PoolTask (κ ν ε : Type) where
  id : Nat
  key : κ
  work : PoolWork ν ε
deriving Repr

/-- What others can see of the tasks of a pool. -/
inductive PoolNotice (κ ν ε : Type)
  /-- A task begins to find a value. -/
  | finding (t : Nat)
  | evicted (k : κ) (v : ν)
  | holding (t : Nat)
  | finished (t : Nat) (result : Except ε ν)
deriving Repr

/-- A pool with its tasks, in the order in which they started. -/
structure PoolSystem (κ ν ε : Type) where
  pool : Pool κ ν Nat
  tasks : List (PoolTask κ ν ε) := []
  nextTask : Nat := 0
  /-- What could be seen so far, the most recent last. -/
  notices : List (PoolNotice κ ν ε) := []

namespace PoolWork

variable {κ ν ε : Type}

/-- How many moves a task has ahead at most. -/
def ahead : PoolWork ν ε → Nat
  | fetch phase _ => phase.ahead + 1
  | hold .arriving => 2
  | hold .inLine => 1
  | hold .holding => 0

variable [DecidableEq κ]

/-- One move of a task, `none` while it waits or holds a line.  A fetch that is over has no work
left. -/
def step (p : Pool κ ν Nat) (k : κ) (t : Nat) : PoolWork ν ε →
    Option (List (PoolNotice κ ν ε) × Pool κ ν Nat × Option (PoolWork ν ε))
  | fetch (.done result) _ => some ([.finished t result], p, none)
  | fetch .finding none => none
  | fetch .finding (some result) =>
    let (evicted, p, phase) := p.found k result
    some (evicted.toList.map fun (k, v) => .evicted k v, p, some (fetch phase (some result)))
  | fetch phase find? =>
    (p.advance k t phase).map fun (p, phase) =>
      (match phase with
        | .finding => [.finding t]
        | _ => [], p, some (fetch phase find?))
  | hold .arriving => some ([], { p with lines := p.lines.join k t }, some (hold .inLine))
  | hold .inLine =>
    if p.lines.holds k t then some ([.holding t], p, some (hold .holding)) else none
  | hold .holding => none

theorem ahead_lt_of_step {p p' : Pool κ ν Nat} {k : κ} {t : Nat} {w w' : PoolWork ν ε}
    {notices : List (PoolNotice κ ν ε)} (h : w.step p k t = some (notices, p', some w')) :
    w'.ahead < w.ahead := by
  have advanced {phase : Fetch ν ε} {find? : Option (Except ε ν)}
      (h : ((p.advance k t phase).map fun (p, phase) =>
        ((match phase with
          | .finding => [PoolNotice.finding t]
          | _ => [] : List (PoolNotice κ ν ε)), p, some (fetch phase find?)))
        = some (notices, p', some w')) : w'.ahead < phase.ahead + 1 := by
    obtain ⟨⟨q, next⟩, hnext, hw⟩ := Option.map_eq_some_iff.1 h
    cases hw
    exact Nat.succ_lt_succ (Pool.ahead_lt_of_advance hnext)
  cases w with
  | fetch phase find? =>
    cases phase with
    | looking => exact advanced h
    | missed => exact advanced h
    | inLine => exact advanced h
    | leaving result => exact advanced h
    | done result => simp [step] at h
    | finding =>
      cases find? with
      | none => simp [step] at h
      | some result => cases result <;> · cases h; simp [ahead, Fetch.ahead]
  | hold phase =>
    cases phase with
    | arriving => cases h; simp [ahead]
    | inLine =>
      simp only [step] at h
      split at h
      · cases h; simp [ahead]
      · cases h
    | holding => cases h

/-- Move a task on until it waits, holds its line, or is over. -/
def run (p : Pool κ ν Nat) (k : κ) (t : Nat) (w : PoolWork ν ε) :
    List (PoolNotice κ ν ε) × Pool κ ν Nat × Option (PoolWork ν ε) :=
  match h : w.step p k t with
  | none => ([], p, some w)
  | some (notices, p, none) => (notices, p, none)
  | some (notices, p, some w') =>
    have := ahead_lt_of_step h
    let (more, p, left) := w'.run p k t
    (notices ++ more, p, left)
termination_by w.ahead

end PoolWork

namespace PoolSystem

variable {κ ν ε : Type} [DecidableEq κ]

/-- Start a task; the answer is its number. -/
def start (y : PoolSystem κ ν ε) (key : κ) (work : PoolWork ν ε) : Nat × PoolSystem κ ν ε :=
  (y.nextTask, { y with
    tasks := y.tasks ++ [⟨y.nextTask, key, work⟩]
    nextTask := y.nextTask + 1 })

/-- Tell a fetch what is found for it, if that is still open; the answer says whether the task is
there. -/
def resolve (y : PoolSystem κ ν ε) (t : Nat) (result : Except ε ν) : Bool × PoolSystem κ ν ε :=
  (y.tasks.any (·.id = t), { y with tasks := y.tasks.map fun task =>
    match task.work with
    | .fetch phase none =>
      if task.id = t then { task with work := .fetch phase (some result) } else task
    | _ => task })

/-- Drop tasks, whatever they wait for or hold. -/
def abandon (y : PoolSystem κ ν ε) (ts : List Nat) : PoolSystem κ ν ε :=
  { y with
    tasks := y.tasks.filter fun task => task.id ∉ ts
    pool := ts.foldl Pool.abandon y.pool }

/-- Let each task go on in turn, as far as it can. -/
def round (y : PoolSystem κ ν ε) : PoolSystem κ ν ε :=
  y.tasks.foldl (fun y task =>
    let (notices, pool, left) := task.work.run y.pool task.key task.id
    { y with
      pool
      tasks := y.tasks ++ left.toList.map fun work => { task with work }
      notices := y.notices ++ notices }) { y with tasks := [] }

def settleIn (y : PoolSystem κ ν ε) : Nat → PoolSystem κ ν ε
  | 0 => y
  | fuel + 1 => y.round.settleIn fuel

/-- Let all tasks go on until each waits, holds its line, or is over: in each round but the last a
task comes to its end or to its line. -/
def settle (y : PoolSystem κ ν ε) : PoolSystem κ ν ε := y.settleIn (y.tasks.length + 1)

/-- The cache was used from outside; the entries that had to go are noted, in this order. -/
def report (y : PoolSystem κ ν ε) (cache : Cache κ ν) (gone : List (κ × ν)) : PoolSystem κ ν ε :=
  { y with
    pool := { y.pool with cache }
    notices := y.notices ++ gone.map fun (k, v) => .evicted k v }

/-- The entries that had to go so far. -/
def evicted (y : PoolSystem κ ν ε) : List (κ × ν) :=
  y.notices.filterMap fun
    | .evicted k v => some (k, v)
    | _ => none

/-- The tasks that began to find a value so far. -/
def finders (y : PoolSystem κ ν ε) : List Nat :=
  y.notices.filterMap fun
    | .finding t => some t
    | _ => none

/-- The tasks that came to their end, with the result, or to hold a line so far. -/
def arrivals (y : PoolSystem κ ν ε) : List (Nat × Option (Except ε ν)) :=
  y.notices.filterMap fun
    | .holding t => some (t, none)
    | .finished t result => some (t, some result)
    | _ => none

end PoolSystem

end StreamStore
