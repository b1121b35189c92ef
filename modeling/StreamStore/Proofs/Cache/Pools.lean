import Mathlib.Data.List.Nodup
import Mathlib.Logic.Function.Basic
import StreamStore.Cache.Tasks
import StreamStore.Proofs.Cache.Actions
import StreamStore.Proofs.Runs
import StreamStore.Proofs.Sync.Lines

/-!
# Runs of a pool

A run of a pool starts from a cache to which anything was done before.  Then tasks come that want
the value of a key or hold its line, a task takes a step, what a fetch finds is told, tasks are
dropped where they are, and others use the cache without writing to it.  A move changes the work of
one task at most.  To let all tasks go on as far as they can is to let them take steps.
-/

namespace StreamStore

variable {κ ν ε : Type}

/-- Whether an action may write a value. -/
def CacheAction.writes : CacheAction κ ν → Bool
  | put .. => true
  | _ => false

/-! ## Moves -/

/-- What happens to a pool, one move at a time. -/
inductive PoolMove (κ ν ε : Type)
  | start (k : κ) (work : PoolWork ν ε)
  | step (t : Nat)
  /-- What a fetch finds, or that it finds nothing, is told. -/
  | resolve (t : Nat) (result : Except ε ν)
  /-- Nobody cares any more for what a task does. -/
  | abandon (t : Nat)
  /-- Others use the cache. -/
  | act (action : CacheAction κ ν)

/-- Whether work is at its start. -/
def PoolWork.isStart : PoolWork ν ε → Bool
  | fetch .looking _ => true
  | hold .arriving => true
  | _ => false

namespace PoolSystem

def task? (y : PoolSystem κ ν ε) (t : Nat) : Option (PoolTask κ ν ε) :=
  y.tasks.find? fun task => task.id = t

/-- A task has this work left, or none. -/
def record (y : PoolSystem κ ν ε) (t : Nat) (left : Option (PoolWork ν ε)) : PoolSystem κ ν ε :=
  { y with tasks := y.tasks.filterMap fun task =>
      if task.id = t then left.map fun work => { task with work } else some task }

variable [DecidableEq κ]

/-- A pool without tasks, over an empty cache to which something was done. -/
def opening (capacity : Nat) (actions : List (CacheAction κ ν)) : PoolSystem κ ν ε where
  pool := { cache := ((Cache.ofCapacity capacity).performAll actions).2 }

/-- One step of one task. -/
def step (y : PoolSystem κ ν ε) (t : Nat) : Option (PoolSystem κ ν ε) :=
  (y.task? t).bind fun task =>
    (task.work.step y.pool task.key t).map fun (notices, pool, left) =>
      { y with pool, notices := y.notices ++ notices }.record t left

/-- The next state, `none` for a step of a task that waits or holds a line, for work that is not at
its start and for an action that writes. -/
def move (y : PoolSystem κ ν ε) : PoolMove κ ν ε → Option (PoolSystem κ ν ε)
  | .start k work => if work.isStart then some (y.start k work).2 else none
  | .step t => y.step t
  | .resolve t result => some (y.resolve t result).2
  | .abandon t => some (y.abandon [t])
  | .act action =>
    if action.writes then none
    else some { y with pool := { y.pool with cache := (y.pool.cache.perform action).2 } }

/-- The state after some moves. -/
def play (y : PoolSystem κ ν ε) (moves : List (PoolMove κ ν ε)) : Option (PoolSystem κ ν ε) :=
  moves.foldlM move y

end PoolSystem

/-! ## What a task does -/

namespace PoolWork

def place : PoolWork ν ε → LinePlace
  | fetch .inLine _ => .waiting
  | fetch .finding _ => .leading
  | fetch (.leaving _) _ => .leading
  | hold .inLine => .waiting
  | hold .holding => .leading
  | _ => .outside

/-- Work for which it is told what it finds, if that is still open. -/
def told (result : Except ε ν) : PoolWork ν ε → PoolWork ν ε
  | fetch phase none => fetch phase (some result)
  | work => work

theorem place_told (work : PoolWork ν ε) (result : Except ε ν) :
    (work.told result).place = work.place := by
  unfold told
  split
  next phase => cases phase <;> rfl
  · rfl

theorem place_of_isStart {work : PoolWork ν ε} (h : work.isStart = true) :
    work.place = .outside := by
  unfold isStart at h
  split at h <;> first | rfl | cases h

/-- What is told to a fetch leaves it where it is. -/
theorem told_eq_fetch_iff {work : PoolWork ν ε} {phase : Fetch ν ε} (result : Except ε ν) :
    (∃ find?, work.told result = fetch phase find?) ↔ ∃ find?, work = fetch phase find? := by
  unfold told
  split
  next phase' =>
    constructor
    · rintro ⟨find?, heq⟩
      cases heq
      exact ⟨none, rfl⟩
    · rintro ⟨find?, heq⟩
      cases heq
      exact ⟨some result, rfl⟩
  · rfl

variable [DecidableEq κ]

/-- What one step of a task does to the pool and what it notes, and which work is left. -/
inductive Steps (p : Pool κ ν Nat) (k : κ) (t : Nat) : PoolWork ν ε →
    List (PoolNotice κ ν ε) → Pool κ ν Nat → Option (PoolWork ν ε) → Prop
  | hit {find? : Option (Except ε ν)} {v : ν} (hheld : p.cache.peek k = some v) :
      Steps p k t (fetch .looking find?) [] { p with cache := (p.cache.lookup k).2 }
        (some (fetch (.done (.ok v)) find?))
  | miss {find? : Option (Except ε ν)} (habsent : p.cache.peek k = none) :
      Steps p k t (fetch .looking find?) [] { p with cache := (p.cache.lookup k).2 }
        (some (fetch .missed find?))
  | join {find? : Option (Except ε ν)} :
      Steps p k t (fetch .missed find?) [] { p with lines := p.lines.join k t }
        (some (fetch .inLine find?))
  | turnHit {find? : Option (Except ε ν)} {v : ν} (hturn : p.lines.holds k t = true)
      (hheld : p.cache.peek k = some v) :
      Steps p k t (fetch .inLine find?) [] { p with cache := (p.cache.recheck k).2 }
        (some (fetch (.leaving (.ok v)) find?))
  | turnMiss {find? : Option (Except ε ν)} (hturn : p.lines.holds k t = true)
      (habsent : p.cache.peek k = none) :
      Steps p k t (fetch .inLine find?) [.finding t] { p with cache := (p.cache.recheck k).2 }
        (some (fetch .finding find?))
  | found {v : ν} :
      Steps p k t (fetch .finding (some (.ok v)))
        ((p.cache.put k v).2.1.toList.map fun row => .evicted row.1 row.2)
        { p with cache := (p.cache.put k v).2.2 }
        (some (fetch (.leaving (.ok v)) (some (.ok v))))
  | fail {fault : ε} :
      Steps p k t (fetch .finding (some (.error fault))) [] p
        (some (fetch (.leaving (.error fault)) (some (.error fault))))
  | leave {find? : Option (Except ε ν)} {result : Except ε ν} :
      Steps p k t (fetch (.leaving result) find?) [] { p with lines := p.lines.leave k t }
        (some (fetch (.done result) find?))
  | finish {find? : Option (Except ε ν)} {result : Except ε ν} :
      Steps p k t (fetch (.done result) find?) [.finished t result] p none
  | joinHold :
      Steps p k t (hold .arriving) [] { p with lines := p.lines.join k t } (some (hold .inLine))
  | turnHold (hturn : p.lines.holds k t = true) :
      Steps p k t (hold .inLine) [.holding t] p (some (hold .holding))

variable {p p' : Pool κ ν Nat} {k : κ} {t : Nat} {work : PoolWork ν ε}
  {noted : List (PoolNotice κ ν ε)} {left : Option (PoolWork ν ε)}

theorem Steps.of_step (h : work.step p k t = some (noted, p', left)) :
    Steps p k t work noted p' left := by
  cases work with
  | fetch phase find? =>
      cases phase with
      | looking =>
          simp only [step, Pool.advance, Cache.lookup] at h
          cases hpeek : p.cache.peek k with
          | some v =>
              simp only [hpeek, Option.map_some, Option.some.injEq, Prod.mk.injEq] at h
              obtain ⟨rfl, rfl, rfl⟩ := h
              have hhit : Steps p k t (fetch .looking find?) [] _ _ := .hit hpeek
              rwa [Cache.lookup, hpeek] at hhit
          | none =>
              simp only [hpeek, Option.map_some, Option.some.injEq, Prod.mk.injEq] at h
              obtain ⟨rfl, rfl, rfl⟩ := h
              have hmiss : Steps p k t (fetch .looking find?) [] _ _ := .miss hpeek
              rwa [Cache.lookup, hpeek] at hmiss
      | missed =>
          cases h
          exact .join
      | inLine =>
          simp only [step, Pool.advance, Cache.recheck] at h
          split at h
          next hturn =>
            cases hpeek : p.cache.peek k with
            | some v =>
                simp only [hpeek, Option.map_some, Option.some.injEq, Prod.mk.injEq] at h
                obtain ⟨rfl, rfl, rfl⟩ := h
                exact .turnHit hturn hpeek
            | none =>
                simp only [hpeek, Option.map_some, Option.some.injEq, Prod.mk.injEq] at h
                obtain ⟨rfl, rfl, rfl⟩ := h
                exact .turnMiss hturn hpeek
          · cases h
      | finding =>
          cases find? with
          | none => cases h
          | some result =>
              cases result with
              | ok v =>
                  cases h
                  exact .found
              | error fault =>
                  cases h
                  exact .fail
      | leaving result =>
          cases h
          exact .leave
      | done result =>
          cases h
          exact .finish
  | hold phase =>
      cases phase with
      | arriving =>
          cases h
          exact .joinHold
      | inLine =>
          rw [step] at h
          split at h
          next hturn =>
            cases h
            exact .turnHold hturn
          · cases h
      | holding => cases h

theorem Steps.step_eq (h : Steps p k t work noted p' left) :
    work.step p k t = some (noted, p', left) := by
  cases h with
  | hit hheld => simp [step, Pool.advance, Cache.lookup, hheld]
  | miss habsent => simp [step, Pool.advance, Cache.lookup, habsent]
  | turnHit hturn hheld => simp [step, Pool.advance, Cache.recheck, hturn, hheld]
  | turnMiss hturn habsent => simp [step, Pool.advance, Cache.recheck, hturn, habsent]
  | turnHold hturn => rw [step, if_pos hturn]
  | _ => rfl

end PoolWork

/-! ## What a move changes -/

namespace PoolSystem

variable {y z : PoolSystem κ ν ε} {k : κ} {t u : Nat}

/-- The key of a task and what it does with it. -/
def stage (y : PoolSystem κ ν ε) (t : Nat) : Option (κ × PoolWork ν ε) :=
  (y.task? t).map fun task => (task.key, task.work)

/-- What phase a fetch of a key is in. -/
def InPhase (y : PoolSystem κ ν ε) (k : κ) (phase : Fetch ν ε) (t : Nat) : Prop :=
  ∃ find?, y.stage t = some (k, .fetch phase find?)

/-- A task is in one phase at a time. -/
theorem InPhase.eq {k' : κ} {phase phase' : Fetch ν ε} (h : y.InPhase k phase t)
    (h' : y.InPhase k' phase' t) : k = k' ∧ phase = phase' := by
  obtain ⟨find?, h⟩ := h
  obtain ⟨find?', h'⟩ := h'
  cases h.symm.trans h'
  exact ⟨rfl, rfl⟩

theorem InPhase.ne_none {phase : Fetch ν ε} (h : y.InPhase k phase t) : y.stage t ≠ none := by
  obtain ⟨find?, h⟩ := h
  rw [h]
  exact Option.some_ne_none _

theorem stage_record {task : PoolTask κ ν ε} (htask : y.task? t = some task)
    (left : Option (PoolWork ν ε)) :
    (y.record t left).stage =
      Function.update y.stage t (left.map fun work => (task.key, work)) := by
  funext u
  rw [stage, task?, record, List.find?_filterMap]
  by_cases hu : u = t
  · subst hu
    rw [Function.update_self]
    cases left with
    | some work =>
        have hsame : (fun task : PoolTask κ ν ε =>
            (if task.id = u then (some work).map fun work => { task with work }
              else some task).any fun task => task.id = u) = fun task => decide (task.id = u) := by
          funext task
          by_cases hid : task.id = u <;> simp [hid]
        have hid : task.id = u := by simpa using List.find?_some htask
        rw [hsame, show y.tasks.find? (fun task => task.id = u) = some task from htask,
          Option.bind_some, if_pos hid]
        rfl
    | none =>
        have hnone : (fun task : PoolTask κ ν ε =>
            (if task.id = u then (none : Option (PoolWork ν ε)).map fun work => { task with work }
              else some task).any fun task => task.id = u) = fun _ => false := by
          funext task
          by_cases hid : task.id = u <;> simp [hid]
        rw [hnone, List.find?_eq_none.mpr fun _ _ => Bool.false_ne_true]
        rfl
  · have hsame : (fun task : PoolTask κ ν ε =>
        (if task.id = t then left.map fun work => { task with work } else some task).any
          fun task => task.id = u) = fun task => decide (task.id = u) := by
      funext task
      by_cases hid : task.id = t
      · cases left <;> simp [hid, Ne.symm hu]
      · simp [hid]
    rw [Function.update_of_ne hu, hsame, stage, task?]
    cases hfind : y.tasks.find? fun task => task.id = u with
    | none => rfl
    | some found =>
        have hid : found.id = u := by simpa using List.find?_some hfind
        rw [Option.bind_some, if_neg (hid ▸ hu)]

theorem stage_start (y : PoolSystem κ ν ε) (hfresh : y.stage y.nextTask = none) (k : κ)
    (work : PoolWork ν ε) :
    (y.start k work).2.stage = Function.update y.stage y.nextTask (some (k, work)) := by
  funext u
  rw [stage, task?, start, List.find?_append, List.find?_singleton]
  by_cases hu : u = y.nextTask
  · subst hu
    have hnone : y.task? y.nextTask = none := Option.map_eq_none_iff.mp hfresh
    rw [Function.update_self, show y.tasks.find? (fun task => task.id = y.nextTask) = none from
      hnone, Option.none_or, if_pos (decide_eq_true rfl)]
    rfl
  · rw [Function.update_of_ne hu, if_neg (by simpa using Ne.symm hu), Option.or_none]
    rfl

/-- Only a task with this number is told anything. -/
theorem tasks_resolve (y : PoolSystem κ ν ε) (t : Nat) (result : Except ε ν) :
    (y.resolve t result).2.tasks = y.tasks.map fun task =>
      if task.id = t then { task with work := task.work.told result } else task := by
  refine List.map_congr_left fun task _ => ?_
  obtain ⟨id, key, work⟩ := task
  cases work with
  | fetch phase find? =>
      cases find? with
      | none => rfl
      | some found => exact (ite_self _).symm
  | hold phase => exact (ite_self _).symm

theorem stage_resolve (y : PoolSystem κ ν ε) (t : Nat) (result : Except ε ν) :
    (y.resolve t result).2.stage = Function.update y.stage t
      ((y.stage t).map fun x => (x.1, x.2.told result)) := by
  funext u
  have hsame : ((fun task : PoolTask κ ν ε => decide (task.id = u)) ∘ fun task =>
      if task.id = t then { task with work := task.work.told result } else task) =
        fun task => decide (task.id = u) := by
    funext task
    rw [Function.comp_apply]
    split <;> rfl
  rw [stage, task?, tasks_resolve, List.find?_map, hsame, Option.map_map]
  by_cases hu : u = t
  · subst hu
    rw [Function.update_self, stage, Option.map_map, task?]
    cases hfind : y.tasks.find? fun task => task.id = u with
    | none => rfl
    | some found =>
        have hid : found.id = u := by simpa using List.find?_some hfind
        simp only [Option.map_some, Function.comp_apply, if_pos hid]
  · rw [Function.update_of_ne hu, stage, task?]
    cases hfind : y.tasks.find? fun task => task.id = u with
    | none => rfl
    | some found =>
        have hid : found.id = u := by simpa using List.find?_some hfind
        simp only [Option.map_some, Function.comp_apply, if_neg (hid ▸ hu)]

theorem stage_abandon [DecidableEq κ] (y : PoolSystem κ ν ε) (t : Nat) :
    (y.abandon [t]).stage = Function.update y.stage t none := by
  funext u
  rw [stage, task?, abandon, List.find?_filter]
  by_cases hu : u = t
  · subst hu
    rw [Function.update_self, List.find?_eq_none.mpr]
    · rfl
    · intro task _
      simp
  · rw [Function.update_of_ne hu, stage, task?]
    congr 2
    funext task
    by_cases htask : task.id = u
    · simp [htask, hu]
    · simp [htask]

variable [DecidableEq κ]

/-- What a move changes: the work of one task at most, and what comes with it. -/
inductive Moved (y z : PoolSystem κ ν ε) : PoolMove κ ν ε → Prop
  | start {k : κ} {work : PoolWork ν ε} (hstart : work.isStart = true)
      (hstage : z.stage = Function.update y.stage y.nextTask (some (k, work)))
      (hpool : z.pool = y.pool) (hnotices : z.notices = y.notices)
      (hnext : z.nextTask = y.nextTask + 1) : Moved y z (.start k work)
  | step {t : Nat} {k : κ} {work : PoolWork ν ε} {noted : List (PoolNotice κ ν ε)}
      {left : Option (PoolWork ν ε)} (hwork : y.stage t = some (k, work))
      (hsteps : work.Steps y.pool k t noted z.pool left)
      (hstage : z.stage = Function.update y.stage t (left.map fun work => (k, work)))
      (hnotices : z.notices = y.notices ++ noted) (hnext : z.nextTask = y.nextTask) :
      Moved y z (.step t)
  | resolve {t : Nat} {result : Except ε ν}
      (hstage : z.stage = Function.update y.stage t
        ((y.stage t).map fun x => (x.1, x.2.told result)))
      (hpool : z.pool = y.pool) (hnotices : z.notices = y.notices)
      (hnext : z.nextTask = y.nextTask) : Moved y z (.resolve t result)
  | abandon {t : Nat} (hstage : z.stage = Function.update y.stage t none)
      (hpool : z.pool = y.pool.abandon t) (hnotices : z.notices = y.notices)
      (hnext : z.nextTask = y.nextTask) : Moved y z (.abandon t)
  | act {action : CacheAction κ ν} (hwrites : action.writes = false) (hstage : z.stage = y.stage)
      (hpool : z.pool = { y.pool with cache := (y.pool.cache.perform action).2 })
      (hnotices : z.notices = y.notices) (hnext : z.nextTask = y.nextTask) :
      Moved y z (.act action)

theorem step_eq_some_iff : y.step t = some z ↔
    ∃ task noted pool left, y.task? t = some task ∧
      task.work.Steps y.pool task.key t noted pool left ∧
      z = { y with pool, notices := y.notices ++ noted }.record t left := by
  rw [step, Option.bind_eq_some_iff]
  constructor
  · rintro ⟨task, htask, hstep⟩
    obtain ⟨⟨noted, pool, left⟩, hwork, rfl⟩ := Option.map_eq_some_iff.mp hstep
    exact ⟨task, noted, pool, left, htask, .of_step hwork, rfl⟩
  · rintro ⟨task, noted, pool, left, htask, hsteps, rfl⟩
    exact ⟨task, htask, by rw [hsteps.step_eq]; rfl⟩

theorem moved_of_move {mv : PoolMove κ ν ε} (hfresh : y.stage y.nextTask = none)
    (h : y.move mv = some z) : y.Moved z mv := by
  cases mv with
  | start k work =>
      rw [move] at h
      split at h <;> cases h
      next hstart => exact .start hstart (y.stage_start hfresh k work) rfl rfl rfl
  | step t =>
      obtain ⟨task, noted, pool, left, htask, hsteps, rfl⟩ := step_eq_some_iff.mp h
      have hwork : y.stage t = some (task.key, task.work) := by
        rw [stage, htask]
        rfl
      exact .step hwork hsteps
        (stage_record (y := { y with pool, notices := y.notices ++ noted }) htask left) rfl rfl
  | resolve t result =>
      cases h
      exact .resolve (y.stage_resolve t result) rfl rfl rfl
  | abandon t =>
      cases h
      exact .abandon (y.stage_abandon t) rfl rfl rfl
  | act action =>
      rw [move] at h
      split at h <;> cases h
      next hwrites => exact .act (Bool.not_eq_true _ ▸ hwrites) rfl rfl rfl rfl

/-- A number that is not in use is only ever given to the next task that comes. -/
theorem Moved.stage_eq_none {mv : PoolMove κ ν ε} (h : y.Moved z mv) (hnone : y.stage t = none) :
    z.stage t = none ∨ t = y.nextTask ∧ z.nextTask = y.nextTask + 1 := by
  cases h with
  | start hstart hstage hpool hnotices hnext =>
      by_cases ht : t = y.nextTask
      · exact .inr ⟨ht, hnext⟩
      · exact .inl (by rw [hstage, Function.update_of_ne ht, hnone])
  | @step u k work noted left hwork hsteps hstage hnotices hnext =>
      have hne : t ≠ u := by
        rintro rfl
        cases hnone.symm.trans hwork
      exact .inl (by rw [hstage, Function.update_of_ne hne, hnone])
  | @resolve u result hstage hpool hnotices hnext =>
      refine .inl ?_
      rw [hstage]
      by_cases ht : t = u
      · rw [← ht, Function.update_self, hnone]
        rfl
      · rw [Function.update_of_ne ht, hnone]
  | @abandon u hstage hpool hnotices hnext =>
      refine .inl ?_
      rw [hstage]
      by_cases ht : t = u
      · rw [ht, Function.update_self]
      · rw [Function.update_of_ne ht, hnone]
  | act hwrites hstage hpool hnotices hnext => exact .inl (hstage ▸ hnone)

theorem Moved.nextTask_le {mv : PoolMove κ ν ε} (h : y.Moved z mv) : y.nextTask ≤ z.nextTask := by
  cases h with
  | start hstart hstage hpool hnotices hnext => exact hnext ▸ Nat.le_succ _
  | step hwork hsteps hstage hnotices hnext => exact Nat.le_of_eq hnext.symm
  | resolve hstage hpool hnotices hnext => exact Nat.le_of_eq hnext.symm
  | abandon hstage hpool hnotices hnext => exact Nat.le_of_eq hnext.symm
  | act hwrites hstage hpool hnotices hnext => exact Nat.le_of_eq hnext.symm

/-- A fetch is in its phase since before a move, or came by it. -/
theorem Moved.inPhase_before {mv : PoolMove κ ν ε} (h : y.Moved z mv) {phase : Fetch ν ε}
    (hphase : z.InPhase k phase t) :
    y.InPhase k phase t ∨ phase = .looking ∨ ∃ work noted find?, mv = .step t ∧
      y.stage t = some (k, work) ∧
      work.Steps y.pool k t noted z.pool (some (.fetch phase find?)) := by
  obtain ⟨find?, hfetch⟩ := hphase
  cases h with
  | @start k' work hstart hstage hpool hnotices hnext =>
      rw [hstage] at hfetch
      by_cases ht : t = y.nextTask
      · rw [ht, Function.update_self] at hfetch
        cases hfetch
        cases phase <;> first | exact .inr (.inl rfl) | cases hstart
      · rw [Function.update_of_ne ht] at hfetch
        exact .inl ⟨find?, hfetch⟩
  | @step u k' work noted left hwork hsteps hstage hnotices hnext =>
      rw [hstage] at hfetch
      by_cases ht : t = u
      · subst ht
        rw [Function.update_self] at hfetch
        obtain ⟨next, hleft, heq⟩ := Option.map_eq_some_iff.mp hfetch
        cases heq
        rw [hleft] at hsteps
        exact .inr (.inr ⟨work, noted, find?, rfl, hwork, hsteps⟩)
      · rw [Function.update_of_ne ht] at hfetch
        exact .inl ⟨find?, hfetch⟩
  | @resolve u result hstage hpool hnotices hnext =>
      rw [hstage] at hfetch
      by_cases ht : t = u
      · subst ht
        rw [Function.update_self] at hfetch
        obtain ⟨⟨k', work⟩, hwork, heq⟩ := Option.map_eq_some_iff.mp hfetch
        obtain ⟨rfl, htold⟩ := Prod.mk.inj heq
        obtain ⟨found?, rfl⟩ := (PoolWork.told_eq_fetch_iff result).mp ⟨find?, htold⟩
        exact .inl ⟨found?, hwork⟩
      · rw [Function.update_of_ne ht] at hfetch
        exact .inl ⟨find?, hfetch⟩
  | @abandon u hstage hpool hnotices hnext =>
      rw [hstage] at hfetch
      by_cases ht : t = u
      · rw [ht, Function.update_self] at hfetch
        cases hfetch
      · rw [Function.update_of_ne ht] at hfetch
        exact .inl ⟨find?, hfetch⟩
  | act hwrites hstage hpool hnotices hnext =>
      rw [hstage] at hfetch
      exact .inl ⟨find?, hfetch⟩

/-- A fetch stays in its phase, is dropped, or takes a step. -/
theorem Moved.inPhase_after {mv : PoolMove κ ν ε} (h : y.Moved z mv)
    (hfresh : y.stage y.nextTask = none) {phase : Fetch ν ε} (hphase : y.InPhase k phase t) :
    z.InPhase k phase t ∨ (mv = .abandon t ∧ z.stage t = none) ∨
      ∃ find? noted left, mv = .step t ∧
        (PoolWork.fetch phase find?).Steps y.pool k t noted z.pool left ∧
        z.stage t = (left.map fun work => (k, work)) ∧ z.notices = y.notices ++ noted := by
  obtain ⟨find?, hfetch⟩ := hphase
  cases h with
  | start hstart hstage hpool hnotices hnext =>
      have ht : t ≠ y.nextTask := by
        rintro rfl
        cases hfresh.symm.trans hfetch
      exact .inl ⟨find?, by rw [hstage, Function.update_of_ne ht, hfetch]⟩
  | @step u k' work noted left hwork hsteps hstage hnotices hnext =>
      by_cases ht : t = u
      · subst ht
        cases hfetch.symm.trans hwork
        exact .inr (.inr ⟨find?, noted, left, rfl, hsteps,
          by rw [hstage, Function.update_self], hnotices⟩)
      · exact .inl ⟨find?, by rw [hstage, Function.update_of_ne ht, hfetch]⟩
  | @resolve u result hstage hpool hnotices hnext =>
      by_cases ht : t = u
      · subst ht
        obtain ⟨found?, htold⟩ := (PoolWork.told_eq_fetch_iff result).mpr ⟨find?, rfl⟩
        exact .inl ⟨found?, by rw [hstage, Function.update_self, hfetch, Option.map_some, htold]⟩
      · exact .inl ⟨find?, by rw [hstage, Function.update_of_ne ht, hfetch]⟩
  | @abandon u hstage hpool hnotices hnext =>
      by_cases ht : t = u
      · subst ht
        exact .inr (.inl ⟨rfl, by rw [hstage, Function.update_self]⟩)
      · exact .inl ⟨find?, by rw [hstage, Function.update_of_ne ht, hfetch]⟩
  | act hwrites hstage hpool hnotices hnext => exact .inl ⟨find?, by rw [hstage, hfetch]⟩

end PoolSystem

/-! ## Rounds -/

namespace PoolSystem

/-- No two tasks have one number. -/
def Distinct (y : PoolSystem κ ν ε) : Prop := (y.tasks.map (·.id)).Nodup

section

variable {tasks before after : List (PoolTask κ ν ε)} {t : Nat}

theorem sublist_ids_filterMap (tasks : List (PoolTask κ ν ε)) (t : Nat)
    (left : Option (PoolWork ν ε)) :
    ((tasks.filterMap fun task => if task.id = t then left.map fun work => { task with work }
      else some task).map (·.id)).Sublist (tasks.map (·.id)) := by
  induction tasks with
  | nil => exact List.Sublist.slnil
  | cons task tasks ih =>
      by_cases hid : task.id = t
      · cases left with
        | none =>
            rw [List.filterMap_cons_none (by rw [if_pos hid]; rfl), List.map_cons]
            exact ih.cons _
        | some work =>
            rw [List.filterMap_cons_some (b := { task with work }) (by rw [if_pos hid]; rfl)]
            exact ih.cons_cons _
      · rw [List.filterMap_cons_some (b := task) (by rw [if_neg hid])]
        exact ih.cons_cons _

variable [DecidableEq κ]

theorem Distinct.move {y z : PoolSystem κ ν ε} (h : y.Distinct)
    (hfresh : y.stage y.nextTask = none) {mv : PoolMove κ ν ε} (hmove : y.move mv = some z) :
    z.Distinct := by
  cases mv with
  | start k work =>
      rw [PoolSystem.move] at hmove
      split at hmove <;> cases hmove
      have hnone : y.task? y.nextTask = none := Option.map_eq_none_iff.mp hfresh
      rw [task?, List.find?_eq_none] at hnone
      rw [Distinct, PoolSystem.start, List.map_append, List.nodup_append]
      refine ⟨h, List.nodup_singleton _, ?_⟩
      rintro id hid _ hnew rfl
      obtain ⟨task, hmem, rfl⟩ := List.mem_map.mp hid
      exact hnone task hmem (decide_eq_true (List.mem_singleton.mp hnew))
  | step t =>
      obtain ⟨task, noted, pool, left, -, -, rfl⟩ := step_eq_some_iff.mp hmove
      exact h.sublist (sublist_ids_filterMap y.tasks t left)
  | resolve t result =>
      cases hmove
      have hids : (fun task : PoolTask κ ν ε => task.id) ∘ (fun task =>
          if task.id = t then { task with work := task.work.told result } else task) =
            fun task => task.id := by
        funext task
        rw [Function.comp_apply]
        split <;> rfl
      rw [Distinct, tasks_resolve, List.map_map, hids]
      exact h
  | abandon t =>
      cases hmove
      exact h.sublist (List.filter_sublist.map _)
  | act action =>
      rw [PoolSystem.move] at hmove
      split at hmove <;> cases hmove
      exact h

end

end PoolSystem

end StreamStore
