import StreamStore.Engine.Task
import StreamStore.Proofs.Runs

/-!
# Runs of an engine

A run starts from an engine over an archive, with one task that writes back, and
goes on by moves: clients start requests, a task takes a step, a token of
cancellation is used, entries are evicted, the clock changes, the write queue is
closed.  The log of a run notes which requests started and ended, which batches the
write queue took, and which ones reached their end on disk in another way than
by being written.  The history of a stream is read off the log: it is what the
write queue took for it since it was last removed.
-/

namespace StreamStore

/-- What happens in a run. -/
inductive Happening
  | started (t : TaskId) (work : Work)
  /-- The write queue took the events of a task's request. -/
  | admitted (t : TaskId) (request : AppendRequest) (events : List Event)
  /-- A batch was dropped because it could not be written. -/
  | lost (batch : Batch)
  /-- A task removed the files of a stream. -/
  | removed (t : TaskId) (s : StreamId)
  /-- A task could not remove the files of a stream, or not all of them. -/
  | unremoved (t : TaskId) (s : StreamId)
  | ended (t : TaskId) (work : Work)

namespace Work

/-- Work that clients ask for, before its first step. -/
def isRequest : Work → Bool
  | append _ .start => true
  | page _ .start => true
  | measure _ (.finding (.asking .looking)) => true
  | peek _ .start => true
  | count _ .start => true
  | list _ .start => true
  | remove _ (.retiring .start) => true
  | flush false => true
  | _ => false

/-- What one step of a task did to the history of a stream or to its files. -/
def deeds (t : TaskId) : Work → Work → List Happening
  | append r (.current _), append _ (.queued _ events) => [.admitted t r events]
  | writeBack ⟨_, .writing b .inLine, _⟩, writeBack ⟨_, .writing _ (.unlocking (.error _)), _⟩ =>
    [.lost b]
  | remove s .inExtentLine, remove _ (.unlocking (.ok _)) => [.removed t s]
  | remove s .inExtentLine, remove _ (.unlocking (.error _)) => [.unremoved t s]
  | _, _ => []

/-- What is noted of one step of a task. -/
def notes (t : TaskId) (before after : Work) : List Happening :=
  deeds t before after ++ if after.isDone then [.ended t after] else []

end Work

/-- What comes from outside, one move at a time. -/
inductive Move
  | start (work : Work) (cancelled : Bool)
  | step (t : TaskId) (weather : Weather)
  | cancel (t : TaskId)
  /-- Evict up to a number of entries, the least recently used first. -/
  | evict (count : Nat)
  | tick (now : Int64)
  /-- Let nothing more into the write queue. -/
  | close

/-- A system at some time of a run, with the log up to then. -/
structure Moment where
  system : System
  log : List Happening := []

namespace Moment

/-- The start of a run: nothing is in memory, and the first task writes back. -/
def opening (settings : Settings) (archive : Archive) (clock : Int64) : Moment where
  system := ((System.ofEngine (Engine.ofArchive settings archive clock)).start
    (.writeBack {}) false).2

/-- The system after a change of its engine. -/
def withEngine (m : Moment) (engine : Engine) : Moment :=
  { m with system := { m.system with engine } }

/-- The next moment, `none` for what clients do not ask for and for a step of a task
that waits or is done. -/
def move (m : Moment) : Move → Option Moment
  | .start work cancelled =>
    if work.isRequest then
      some ⟨(m.system.start work cancelled).2, m.log ++ [.started m.system.nextTask work]⟩
    else none
  | .step t weather =>
    (m.system.step t weather).map fun system =>
      ⟨system, m.log ++ match m.system.task? t, system.task? t with
        | some before, some after => Work.notes t before.work after.work
        | _, _ => []⟩
  | .cancel t => some { m with system := m.system.cancel t }
  | .evict count => some (m.withEngine (m.system.engine.dropOldest count).2)
  | .tick now => some (m.withEngine { m.system.engine with clock := now })
  | .close => some (m.withEngine { m.system.engine with queue := m.system.engine.queue.close })

end Moment

theorem System.task?_record_self {y : System} {t : TaskId} {task : Task}
    (h : y.task? t = some task) (work : Work) :
    (y.record t work).task? t = some { task with work } := by
  rw [task?] at h ⊢
  rw [record]
  generalize y.tasks = tasks at h ⊢
  induction tasks with
  | nil => cases h
  | cons task' tasks ih =>
      rw [List.find?_cons] at h
      rw [List.map_cons, List.find?_cons]
      by_cases hid : task'.id = t
      · rw [decide_eq_true hid] at h
        cases h
        rw [if_pos hid]
        simp only [hid, decide_true]
      · rw [decide_eq_false hid] at h
        rw [if_neg hid, decide_eq_false hid]
        exact ih h

theorem System.task?_record_of_ne (y : System) {t u : TaskId} (h : u ≠ t) (work : Work) :
    (y.record t work).task? u = y.task? u := by
  rw [task?, task?, record]
  induction y.tasks with
  | nil => rfl
  | cons task tasks ih =>
      rw [List.map_cons, List.find?_cons, List.find?_cons]
      by_cases hid : task.id = t
      · rw [if_pos hid]
        have hne : task.id ≠ u := fun heq => h (heq.symm.trans hid)
        simp only [decide_eq_false hne]
        exact ih
      · rw [if_neg hid]
        rw [ih]

namespace Moment

/-- A step changes the engine and the work of the task that takes it, and is noted. -/
theorem move_step_eq_some {m m' : Moment} {t : TaskId} {weather : Weather}
    (hmove : m.move (.step t weather) = some m') :
    ∃ task engine work, m.system.task? t = some task ∧
      task.work.step m.system.engine t task.cancelled weather = some (engine, work) ∧
      m' = ⟨{ m.system with engine }.record t work,
        m.log ++ Work.notes t task.work work⟩ := by
  rw [move, System.step] at hmove
  cases htask : m.system.task? t with
  | none =>
      rw [htask] at hmove
      cases hmove
  | some task =>
      rw [htask, Option.bind_some] at hmove
      cases hstep : task.work.step m.system.engine t task.cancelled weather with
      | none =>
          rw [hstep] at hmove
          cases hmove
      | some found =>
          obtain ⟨engine, work⟩ := found
          rw [hstep, Option.map_some, Option.map_some] at hmove
          have hself := System.task?_record_self (y := { m.system with engine }) htask work
          rw [hself] at hmove
          exact ⟨task, engine, work, rfl, hstep, (Option.some.inj hmove).symm⟩

/-- The moment after some moves. -/
def play (m : Moment) (moves : List Move) : Option Moment := moves.foldlM move m

/-- One run after another is a run. -/
theorem play_trans {m a b : Moment} {moves more : List Move} (hfirst : m.play moves = some a)
    (hthen : a.play more = some b) : m.play (moves ++ more) = some b :=
  foldlM_trans hfirst hthen

/-- What holds at the start and after each move holds at all times of a run. -/
theorem play_induction {P : Moment → Prop} {m m' : Moment} {moves : List Move}
    (hrun : m.play moves = some m') (hstart : P m)
    (hmove : ∀ before a mv b, m.play before = some a → P a → a.move mv = some b → P b) :
    P m' :=
  foldlM_induction hrun hstart hmove

end Moment

/-! ## Histories -/

namespace Log

/-- The history of a stream after one more happening. -/
def remember (s : StreamId) (history : List Event) : Happening → List Event
  | .admitted _ r events => if r.stream = s then history ++ events else history
  | .removed _ s' => if s' = s then [] else history
  | _ => history

/-- What the write queue took for a stream since it was last removed. -/
def history (s : StreamId) (log : List Happening) : List Event := log.foldl (remember s) []

/-- A happening that is no failure of the disk. -/
def isFair : Happening → Bool
  | .lost _ => false
  | .unremoved .. => false
  | _ => true

/-- Every batch that was dealt with was written, and every removal succeeded. -/
def Fair (log : List Happening) : Prop := ∀ happening ∈ log, isFair happening = true

theorem fair_append {log more : List Happening} :
    Fair (log ++ more) ↔ Fair log ∧ Fair more := by
  simp only [Fair, List.mem_append, or_imp, forall_and]

/-- Every batch that was dealt with was written. -/
def Written (log : List Happening) : Prop := ∀ batch, Happening.lost batch ∉ log

/-- Whether it is in doubt what is on disk of a stream after one more happening: a removal
that fails may have removed one of the files. -/
def doubt (s : StreamId) (doubtful : Bool) : Happening → Bool
  | .unremoved _ s' => if s' = s then true else doubtful
  | .removed _ s' => if s' = s then false else doubtful
  | _ => doubtful

/-- No removal of a stream failed since it was last removed. -/
def Intact (s : StreamId) (log : List Happening) : Prop := log.foldl (doubt s) false = false

def isLoss : Happening → Bool
  | .lost _ => true
  | _ => false

instance (log : List Happening) : Decidable (Written log) :=
  decidable_of_iff (log.all fun happening => !isLoss happening) <| by
    rw [List.all_eq_true, Written]
    constructor
    · intro h batch hmem
      cases h _ hmem
    · intro h happening hmem
      cases happening with
      | lost batch => exact absurd hmem (h batch)
      | _ => rfl

theorem written_append {log more : List Happening} :
    Written (log ++ more) ↔ Written log ∧ Written more := by
  simp only [Written, List.mem_append, not_or, forall_and]

theorem Fair.written {log : List Happening} (h : Fair log) : Written log :=
  fun _ hmem => nomatch h _ hmem

theorem history_append (s : StreamId) (log more : List Happening) :
    history s (log ++ more) = more.foldl (remember s) (history s log) :=
  List.foldl_append

variable {s : StreamId} {log more : List Happening}

theorem not_intact_append_unremoved (log : List Happening) (t : TaskId) (s : StreamId) :
    ¬ Intact s (log ++ [.unremoved t s]) := by
  rw [Intact, List.foldl_append, Bool.not_eq_false]
  exact if_pos rfl

/-- Only a removal that succeeds clears a doubt. -/
theorem Intact.of_append (h : Intact s (log ++ more))
    (hkept : ∀ t, Happening.removed t s ∉ more) : Intact s log := by
  rw [Intact, List.foldl_append] at h
  rw [Intact]
  generalize log.foldl (doubt s) false = doubtful at h ⊢
  induction more generalizing doubtful with
  | nil => exact h
  | cons happening more ih =>
      have hstep : doubt s doubtful happening = false :=
        ih (fun t hmem => hkept t (List.mem_cons_of_mem _ hmem)) _ h
      cases happening with
      | unremoved t s' =>
          rw [doubt] at hstep
          split at hstep
          · cases hstep
          · exact hstep
      | removed t s' =>
          rw [doubt, if_neg] at hstep
          · exact hstep
          · rintro rfl
            exact hkept t List.mem_cons_self
      | _ => exact hstep

/-- A removal that fails leaves a doubt until the stream is removed. -/
theorem Intact.unremoved_notMem (h : Intact s (log ++ more))
    (hkept : ∀ t, Happening.removed t s ∉ more) (t : TaskId) :
    Happening.unremoved t s ∉ more := by
  intro hmem
  obtain ⟨before, after, rfl⟩ := List.append_of_mem hmem
  rw [List.append_cons, ← List.append_assoc, ← List.append_assoc] at h
  refine not_intact_append_unremoved (log ++ before) t s (h.of_append fun u hafter => ?_)
  exact hkept u (List.mem_append_right _ (List.mem_cons_of_mem _ hafter))

theorem Fair.intact (h : Fair log) (s : StreamId) : Intact s log := by
  rw [Intact]
  induction log with
  | nil => rfl
  | cons happening log ih =>
      have hstep : doubt s false happening = false := by
        cases happening with
        | unremoved => cases h _ List.mem_cons_self
        | removed => exact ite_self _
        | _ => rfl
      rw [List.foldl_cons, hstep]
      exact ih fun other hmem => h other (List.mem_cons_of_mem _ hmem)

end Log

end StreamStore
