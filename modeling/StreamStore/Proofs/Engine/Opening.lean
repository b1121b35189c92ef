import StreamStore.Engine.Store
import StreamStore.Proofs.Engine.Accounts
import StreamStore.Proofs.Storage.Tree

/-!
# Opening a store and shutting it down

A store that is opened over a directory which is there starts like a run of an engine,
since its worker has nothing to do yet.  To shut it down is to close the write queue and
to let all tasks go on until none moves: these are moves of a run, and if the worker is
finished after them its report is the answer.
-/

namespace StreamStore

/-! ## Letting tasks go on -/

namespace System

variable {y y' y'' : System}

/-- A task that waits is not run. -/
theorem run_of_waiting {t : TaskId} (h : y.step t {} = none) (fuel : Nat) :
    y.run t fuel = (false, y) := by
  cases fuel with
  | zero => rfl
  | succ fuel => rw [run, h]

/-- Where all tasks wait, nothing moves. -/
theorem settle_of_waiting (h : ∀ task ∈ y.tasks, y.step task.id {} = none) : y.settle = y := by
  have hround : ∀ steps, y.round steps = (false, y) := by
    intro steps
    rw [round]
    generalize y.tasks = tasks at h
    induction tasks with
    | nil => rfl
    | cons task tasks ih =>
        rw [List.foldl_cons]
        simp only [run_of_waiting (h task List.mem_cons_self), Bool.or_self]
        exact ih fun other hother => h other (List.mem_cons_of_mem task hother)
  have hsettle : ∀ steps fuel, y.settleIn steps fuel = y := by
    intro steps fuel
    cases fuel with
    | zero => rfl
    | succ fuel => rw [settleIn, hround]
  exact hsettle _ _

/-- Some moves of a run lead from one system to another, whatever was noted before. -/
def GoesTo (y y' : System) : Prop :=
  ∀ log, ∃ moves log', (Moment.mk y log).play moves = some ⟨y', log'⟩

theorem GoesTo.refl (y : System) : y.GoesTo y := fun log => ⟨[], log, rfl⟩

theorem GoesTo.trans (h : y.GoesTo y') (h' : y'.GoesTo y'') : y.GoesTo y'' := by
  intro log
  obtain ⟨moves, log', hfirst⟩ := h log
  obtain ⟨more, log'', hthen⟩ := h' log'
  exact ⟨moves ++ more, log'', Moment.play_trans hfirst hthen⟩

theorem GoesTo.of_step {t : TaskId} {w : Weather} (h : y.step t w = some y') :
    y.GoesTo y' := by
  intro log
  have hmove : ∃ log', (Moment.mk y log).move (.step t w) = some ⟨y', log'⟩ := by
    rw [Moment.move, h]
    exact ⟨_, rfl⟩
  obtain ⟨log', hmove⟩ := hmove
  refine ⟨[.step t w], log', ?_⟩
  rw [Moment.play, List.foldlM_cons, hmove]
  rfl

theorem goesTo_run (y : System) (t : TaskId) (fuel : Nat) : y.GoesTo (y.run t fuel).2 := by
  induction fuel generalizing y with
  | zero => exact .refl y
  | succ fuel ih =>
      rw [run]
      cases hstep : y.step t {} with
      | none => exact .refl y
      | some y' => exact (GoesTo.of_step hstep).trans (ih y')

theorem goesTo_round (y : System) (fuel : Nat) : y.GoesTo (y.round fuel).2 := by
  rw [round]
  generalize y.tasks = tasks
  generalize false = moved
  induction tasks generalizing y moved with
  | nil => exact .refl y
  | cons task tasks ih =>
      rw [List.foldl_cons]
      exact (goesTo_run y task.id fuel).trans (ih _ _)

theorem goesTo_settle (y : System) : y.GoesTo y.settle := by
  have hrounds : ∀ steps fuel (y : System), y.GoesTo (y.settleIn steps fuel) := by
    intro steps fuel
    induction fuel with
    | zero => exact fun y => .refl y
    | succ fuel ih =>
        intro y
        have hround := goesTo_round y steps
        rw [settleIn]
        split
        next heq =>
          rw [heq] at hround
          exact hround.trans (ih _)
        next heq =>
          rw [heq] at hround
          exact hround
  exact hrounds _ _ y

end System

/-! ## Stores -/

namespace Store

variable {settings : Settings} {disk : Disk} {base : Path} {clock : Int64} {store : Store}

/-- At the start the worker waits. -/
theorem settle_opening (settings : Settings) (archive : Archive) (clock : Int64) :
    (Moment.opening settings archive clock).system.settle =
      (Moment.opening settings archive clock).system := by
  apply System.settle_of_waiting
  intro task hmem
  cases List.mem_singleton.mp hmem
  rfl

/-- A store over a directory that is there starts like a run. -/
theorem open?_eq (hbase : disk.lookup base = .ok .directory)
    (hvalid : settings.validate = .ok ()) (clock : Int64) :
    open? settings disk base clock =
      .ok { system := (Moment.opening settings { base, disk } clock).system, worker := 0 } := by
  rw [open?, hvalid]
  simp only [Disk.Rooted.makeDirectories_of_lookup hbase]
  have hsettle := settle_opening settings { base, disk } clock
  rw [Moment.opening] at hsettle ⊢
  rw [hsettle]
  rfl

theorem eq_of_open? (hbase : disk.lookup base = .ok .directory)
    (hopen : open? settings disk base clock = .ok store) :
    store = { system := (Moment.opening settings { base, disk } clock).system,
              worker := 0 } := by
  cases hvalid : settings.validate with
  | error fault =>
      rw [open?, hvalid] at hopen
      cases hopen
  | ok _ =>
      rw [open?_eq hbase hvalid] at hopen
      cases hopen
      rfl

/-- To shut a store down is to close its queue and to go on, and its answer is the report
of the worker if that is finished then. -/
theorem exists_play_of_shutdown (hopen : store.isOpen = true) (hworker : store.worker = 0)
    (log : List Happening) : ∃ moves log',
      (Moment.mk store.system log).play (.close :: moves) =
        some ⟨store.shutdown.2.system, log'⟩ ∧
      (Moment.mk store.shutdown.2.system log').report? = store.shutdown.1 := by
  obtain ⟨moves, log', hplay⟩ := System.goesTo_settle store.close.system log
  refine ⟨moves, log', ?_, ?_⟩
  · rw [shutdown, hopen, Moment.play, List.foldlM_cons]
    exact hplay
  · rw [shutdown, hopen, Moment.report?]
    simp only [settle, close, hworker]
    rfl

end Store

end StreamStore
