import Mathlib.Logic.Function.Basic
import StreamStore.Proofs.Engine.Steps

/-!
# Runs as changes

What a moment of a run shows of its tasks are their stances, and every move is one
change of the engine and of one stance, noted in the log with remarks about tasks
that start or end.  So what holds at the start of a run and after each change holds
at all its moments.
-/

namespace StreamStore

variable {e e' : Engine} {t : TaskId} {cancelled : Bool} {w : Weather}

/-! ## Admissible work stays admissible -/

theorem AppendRequest.Checked.admissible {r : AppendRequest} (h : r.Checked)
    (phase : Appending) : (Work.append r phase).Admissible := by
  cases phase with
  | start => trivial
  | done result => trivial
  | _ => exact h

/-- The first step of an append checks its request. -/
theorem Appending.admissible_begin (e : Engine) (r : AppendRequest) :
    (Work.append r (begin e r)).Admissible := by
  rw [begin]
  split
  · trivial
  next hdrafts =>
    split
    · trivial
    next hfault =>
      refine ⟨?_, AppendRequest.type_le_of_fault? hfault⟩
      rwa [List.isEmpty_iff] at hdrafts

theorem Worker.source_step {k k' : Worker} (hsource : k.source = .queue)
    (h : k.step e t w = some (e', k')) : k'.source = .queue := by
  obtain ⟨source, phase, report⟩ := k
  cases hsource
  rw [step] at h
  split at h
  · rw [receive] at h
    simp only at h
    split at h <;> cases h <;> rfl
  · split at h
    · cases h
      rfl
    · obtain ⟨found, -, heq⟩ := Option.map_eq_some_iff.mp h
      cases heq
      rfl
  · cases h
    rfl
  · cases h

theorem Work.Admissible.step {work work' : Work} (hadmissible : work.Admissible)
    (h : work.step e t cancelled w = some (e', work')) : work'.Admissible := by
  cases work with
  | append r phase =>
      obtain ⟨⟨e₁, phase₁⟩, hstep, heq⟩ := Option.map_eq_some_iff.mp h
      cases heq
      cases phase with
      | start =>
          cases hstep
          exact Appending.admissible_begin e r
      | done result => cases hstep
      | _ => exact AppendRequest.Checked.admissible hadmissible phase₁
  | writeBack worker =>
      obtain ⟨⟨e₁, worker₁⟩, hstep, heq⟩ := Option.map_eq_some_iff.mp h
      cases heq
      exact Worker.source_step hadmissible hstep
  | persist s events phase => exact hadmissible.elim
  | hold n access joined => exact hadmissible.elim
  | retire s phase => exact hadmissible.elim
  | flush isDone =>
      rw [Work.step] at h
      split at h
      · cases h
        trivial
      · cases h
  | _ =>
      obtain ⟨⟨e₁, phase₁⟩, hstep, heq⟩ := Option.map_eq_some_iff.mp h
      cases heq
      trivial

/-! ## Tasks by their numbers -/

namespace System

/-- The task that starts gets the next number, where no task has it. -/
theorem task?_start {y : System} (hfresh : y.task? y.nextTask = none) (work : Work)
    (cancelled : Bool) (t : TaskId) :
    (y.start work cancelled).2.task? t =
      if t = y.nextTask then some ⟨y.nextTask, work, cancelled⟩ else y.task? t := by
  simp only [start, task?, List.find?_append]
  by_cases ht : t = y.nextTask
  · subst ht
    rw [task?] at hfresh
    rw [if_pos rfl, hfresh, Option.none_or, List.find?_cons]
    simp only [decide_true]
  · have hne : y.nextTask ≠ t := fun heq => ht heq.symm
    rw [if_neg ht, List.find?_cons]
    simp only [decide_eq_false hne, List.find?_nil, Option.or_none]

/-- To cancel a task changes the work of none. -/
theorem task?_cancel (y : System) (t u : TaskId) :
    (y.cancel t).task? u = (y.task? u).map fun task =>
      if task.id = t then { task with cancelled := true } else task := by
  rw [task?, task?, cancel]
  induction y.tasks with
  | nil => rfl
  | cons task tasks ih =>
      rw [List.map_cons, List.find?_cons, List.find?_cons]
      have hid : (if task.id = t then { task with cancelled := true } else task).id = task.id := by
        split <;> rfl
      rw [hid]
      by_cases hu : task.id = u
      · rw [decide_eq_true hu]
        rfl
      · rw [decide_eq_false hu]
        exact ih

end System

/-! ## Stances of a moment -/

/-- A happening that only says that a task ends, or that one which is free starts. -/
def Happening.IsRemark (st : TaskId → Stance) : Happening → Prop
  | started t _ => st t = .free
  | ended .. => True
  | _ => False

namespace Moment

/-- The stances of all tasks; a task that did not start yet is free. -/
def stances (m : Moment) (t : TaskId) : Stance :=
  ((m.system.task? t).map (·.work.stance)).getD .free

/-- Tasks have the numbers that were given away, and their work is admissible. -/
structure Orderly (m : Moment) : Prop where
  fresh : ∀ t, m.system.nextTask ≤ t → m.system.task? t = none
  admissible : ∀ t task, m.system.task? t = some task → task.work.Admissible

/-- One moment comes from another by a change, with remarks. -/
structure Follows (m m' : Moment) (t : TaskId) (deeds : List Happening) (σ : Stance) :
    Prop where
  change : Change m.system.engine t (m.stances t) deeds m'.system.engine σ
  stances_eq : m'.stances = Function.update m.stances t σ
  log_eq : ∃ remarks, m'.log = m.log ++ deeds ++ remarks ∧
    ∀ remark ∈ remarks, remark.IsRemark m'.stances

theorem orderly_opening (settings : Settings) (archive : Archive) (clock : Int64) :
    (opening settings archive clock).Orderly where
  fresh := fun t ht => by
    have hpos : 0 < t := ht
    exact (System.task?_start rfl _ _ t).trans (if_neg (Nat.ne_of_gt hpos))
  admissible := fun t task htask => by
    rw [opening, System.task?_start rfl] at htask
    split at htask
    · cases htask
      rfl
    · cases htask

theorem stances_opening (settings : Settings) (archive : Archive) (clock : Int64) :
    (opening settings archive clock).stances =
      Function.update (fun _ => Stance.free) 0 .receiving := by
  funext t
  rw [stances, opening, System.task?_start rfl]
  by_cases ht : t = 0
  · subst ht
    rw [Function.update_self]
    rfl
  · have hne : t ≠ (System.ofEngine (Engine.ofArchive settings archive clock)).nextTask := ht
    rw [Function.update_of_ne ht, if_neg hne]
    rfl

variable {m m' : Moment}

theorem stances_eq {t : TaskId} {task : Task} (htask : m.system.task? t = some task) :
    m.stances t = task.work.stance := by
  rw [stances, htask]
  rfl

theorem stances_eq_free {t : TaskId} (hnone : m.system.task? t = none) : m.stances t = .free := by
  rw [stances, hnone]
  rfl

theorem Orderly.start (h : m.Orderly) {work : Work} (hrequest : work.isRequest = true)
    (cancelled : Bool) {log : List Happening}
    (hlog : log = m.log ++ [.started m.system.nextTask work]) :
    Orderly ⟨(m.system.start work cancelled).2, log⟩ ∧
      m.Follows ⟨(m.system.start work cancelled).2, log⟩ m.system.nextTask [] .free := by
  have htask := System.task?_start (h.fresh _ Nat.le.refl) work cancelled
  have hfree : m.stances m.system.nextTask = .free := stances_eq_free (h.fresh _ Nat.le.refl)
  constructor
  · constructor
    · intro t ht
      have hlt : m.system.nextTask < t := ht
      rw [htask, if_neg (Nat.ne_of_gt hlt)]
      exact h.fresh t (Nat.le_of_lt hlt)
    · intro t task hfind
      rw [htask] at hfind
      split at hfind
      · cases hfind
        exact Work.admissible_of_isRequest hrequest
      · exact h.admissible t task hfind
  · refine ⟨?_, ?_, [.started m.system.nextTask work], ?_, fun remark hremark => ?_⟩
    · rw [hfree]
      exact .frame (.refl _)
    · funext t
      rw [stances, htask]
      by_cases ht : t = m.system.nextTask
      · subst ht
        rw [Function.update_self, if_pos rfl]
        exact Work.stance_of_isRequest hrequest
      · rw [Function.update_of_ne ht, if_neg ht]
        rfl
    · rw [List.append_nil, hlog]
    · cases List.mem_singleton.mp hremark
      rw [Happening.IsRemark, stances, htask, if_pos rfl]
      exact Work.stance_of_isRequest hrequest

theorem Orderly.step (h : m.Orderly) {t : TaskId} {task : Task} {weather : Weather}
    {e' : Engine} {work' : Work} (htask : m.system.task? t = some task)
    (hstep : task.work.step m.system.engine t task.cancelled weather = some (e', work'))
    {log : List Happening} (hlog : log = m.log ++ Work.notes t task.work work') :
    Orderly ⟨{ m.system with engine := e' }.record t work', log⟩ ∧
      m.Follows ⟨{ m.system with engine := e' }.record t work', log⟩ t
        (Work.deeds t task.work work') work'.stance := by
  have hadmissible := h.admissible t task htask
  have hself := System.task?_record_self (y := { m.system with engine := e' }) htask work'
  have hother := fun u (hu : u ≠ t) =>
    System.task?_record_of_ne { m.system with engine := e' } hu work'
  constructor
  · constructor
    · intro u hu
      have hne : u ≠ t := by
        rintro rfl
        rw [h.fresh u hu] at htask
        cases htask
      exact (hother u hne).trans (h.fresh u hu)
    · intro u task' hfind
      by_cases hu : u = t
      · subst hu
        rw [hself] at hfind
        cases hfind
        exact hadmissible.step hstep
      · rw [hother u hu] at hfind
        exact h.admissible u task' hfind
  · refine ⟨?_, ?_, if work'.isDone then [.ended t work'] else [], ?_, ?_⟩
    · rw [stances_eq htask]
      exact Work.change hadmissible hstep
    · funext u
      rw [stances]
      by_cases hu : u = t
      · subst hu
        rw [hself, Function.update_self]
        rfl
      · rw [hother u hu, Function.update_of_ne hu]
        rfl
    · rw [hlog, Work.notes, List.append_assoc]
    · split <;> simp [Happening.IsRemark]

theorem Orderly.cancel (h : m.Orderly) (t : TaskId) :
    Orderly { m with system := m.system.cancel t } ∧
      m.Follows { m with system := m.system.cancel t } m.system.nextTask []
        (m.stances m.system.nextTask) := by
  have htask := System.task?_cancel m.system t
  constructor
  · constructor
    · intro u hu
      rw [htask, h.fresh u hu]
      rfl
    · intro u task hfind
      rw [htask] at hfind
      obtain ⟨task', hfind', rfl⟩ := Option.map_eq_some_iff.mp hfind
      have hadmissible := h.admissible u task' hfind'
      split <;> exact hadmissible
  · refine ⟨.frame (.refl _), ?_, [], ?_, by simp⟩
    · rw [Function.update_eq_self]
      funext u
      rw [stances, stances, htask, Option.map_map]
      congr 2
      funext task
      rw [Function.comp_apply]
      split <;> rfl
    · rw [List.append_nil, List.append_nil]

/-- What changes the engine alone leaves all tasks as they are. -/
theorem Orderly.withEngine (h : m.Orderly) {e' : Engine}
    (hframe : m.system.engine.Frame e') :
    (m.withEngine e').Orderly ∧ m.Follows (m.withEngine e') m.system.nextTask []
      (m.stances m.system.nextTask) := by
  refine ⟨⟨h.fresh, h.admissible⟩, .frame hframe, (Function.update_eq_self _ _).symm,
    [], ?_, by simp⟩
  rw [List.append_nil, List.append_nil]
  rfl

/-- Every move is a change. -/
theorem Orderly.move (h : m.Orderly) {mv : Move} (hmove : m.move mv = some m') :
    m'.Orderly ∧ ∃ t deeds σ, m.Follows m' t deeds σ := by
  cases mv with
  | start work cancelled =>
      rw [Moment.move] at hmove
      split at hmove
      next hrequest =>
        cases hmove
        obtain ⟨horderly, hfollows⟩ := h.start hrequest cancelled rfl
        exact ⟨horderly, _, _, _, hfollows⟩
      · cases hmove
  | step t weather =>
      obtain ⟨task, e', work', htask, hstep, rfl⟩ := move_step_eq_some hmove
      obtain ⟨horderly, hfollows⟩ := h.step htask hstep rfl
      exact ⟨horderly, _, _, _, hfollows⟩
  | cancel t =>
      cases hmove
      obtain ⟨horderly, hfollows⟩ := h.cancel t
      exact ⟨horderly, _, _, _, hfollows⟩
  | evict count =>
      cases hmove
      obtain ⟨horderly, hfollows⟩ := h.withEngine (m.system.engine.frame_dropOldest count)
      exact ⟨horderly, _, _, _, hfollows⟩
  | tick now =>
      cases hmove
      have hframe : m.system.engine.Frame { m.system.engine with clock := now } :=
        ⟨rfl, rfl, rfl, rfl, rfl, rfl, (Engine.Frame.refl m.system.engine).cache⟩
      obtain ⟨horderly, hfollows⟩ := h.withEngine hframe
      exact ⟨horderly, _, _, _, hfollows⟩
  | close =>
      cases hmove
      have hframe : m.system.engine.Frame
          { m.system.engine with queue := m.system.engine.queue.close } :=
        ⟨rfl, rfl, rfl, rfl, rfl, rfl, (Engine.Frame.refl m.system.engine).cache⟩
      obtain ⟨horderly, hfollows⟩ := h.withEngine hframe
      exact ⟨horderly, _, _, _, hfollows⟩

/-- What became of a task in a move: nothing, or it started, or it took a step. -/
inductive TaskMove (m m' : Moment) (t : TaskId) (work' : Work) : Prop
  | kept (task : Task) (htask : m.system.task? t = some task) (hwork : work' = task.work)
  | started (hfresh : m.system.task? t = none) (hrequest : work'.isRequest = true)
      (hlog : m'.log = m.log ++ [.started t work'])
  | stepped (task : Task) (weather : Weather) (htask : m.system.task? t = some task)
      (hstep : task.work.step m.system.engine t task.cancelled weather =
        some (m'.system.engine, work'))
      (hlog : m'.log = m.log ++ Work.notes t task.work work')

/-- Every task of a moment comes from the moment before. -/
theorem Orderly.taskMove (h : m.Orderly) {mv : Move} (hmove : m.move mv = some m')
    {t : TaskId} {task' : Task} (htask' : m'.system.task? t = some task') :
    m.TaskMove m' t task'.work := by
  cases mv with
  | start work cancelled =>
      rw [Moment.move] at hmove
      split at hmove
      next hrequest =>
        cases hmove
        rw [System.task?_start (h.fresh _ Nat.le.refl)] at htask'
        split at htask'
        next ht =>
          cases htask'
          subst ht
          exact .started (h.fresh _ Nat.le.refl) hrequest rfl
        · exact .kept task' htask' rfl
      · cases hmove
  | step u weather =>
      obtain ⟨task, e', work', htask, hstep, rfl⟩ := move_step_eq_some hmove
      by_cases ht : t = u
      · subst ht
        rw [System.task?_record_self (y := { m.system with engine := e' }) htask] at htask'
        cases htask'
        exact .stepped task weather htask hstep rfl
      · rw [System.task?_record_of_ne _ ht] at htask'
        exact .kept task' htask' rfl
  | cancel u =>
      cases hmove
      rw [System.task?_cancel] at htask'
      obtain ⟨task, htask, rfl⟩ := Option.map_eq_some_iff.mp htask'
      refine .kept task htask ?_
      split <;> rfl
  | evict count =>
      cases hmove
      exact .kept task' htask' rfl
  | tick now =>
      cases hmove
      exact .kept task' htask' rfl
  | close =>
      cases hmove
      exact .kept task' htask' rfl

/-- What a move notes: nothing, or that a task starts, or a step. -/
theorem log_of_move {mv : Move} (hmove : m.move mv = some m') :
    m'.log = m.log ∨ (∃ t work, m'.log = m.log ++ [.started t work]) ∨
      ∃ t task weather work', m.system.task? t = some task ∧
        task.work.step m.system.engine t task.cancelled weather =
          some (m'.system.engine, work') ∧
        m'.log = m.log ++ Work.notes t task.work work' := by
  cases mv with
  | start work cancelled =>
      rw [Moment.move] at hmove
      split at hmove <;> cases hmove
      exact .inr (.inl ⟨_, _, rfl⟩)
  | step t weather =>
      obtain ⟨task, e', work', htask, hstep, rfl⟩ := move_step_eq_some hmove
      exact .inr (.inr ⟨t, task, weather, work', htask, hstep, rfl⟩)
  | cancel t =>
      cases hmove
      exact .inl rfl
  | evict count =>
      cases hmove
      exact .inl rfl
  | tick now =>
      cases hmove
      exact .inl rfl
  | close =>
      cases hmove
      exact .inl rfl

variable {settings : Settings} {archive : Archive} {clock : Int64} {moves : List Move}

theorem orderly_of_play (hrun : (opening settings archive clock).play moves = some m) :
    m.Orderly :=
  play_induction hrun (orderly_opening settings archive clock)
    fun _ _ _ _ _ horderly hmove => (horderly.move hmove).1

/-- What holds of the start of a run, after each change and with each remark, holds
of all its moments. -/
theorem scene_induction {P : Engine → (TaskId → Stance) → List Happening → Prop}
    (hrun : (opening settings archive clock).play moves = some m)
    (hstart : P (Engine.ofArchive settings archive clock)
      (Function.update (fun _ => Stance.free) 0 .receiving) [])
    (hchange : ∀ e st log t deeds e' σ, P e st log → Change e t (st t) deeds e' σ →
      P e' (Function.update st t σ) (log ++ deeds))
    (hremark : ∀ e st log remark, P e st log → remark.IsRemark st →
      P e st (log ++ [remark])) :
    P m.system.engine m.stances m.log := by
  have hremarks : ∀ remarks e st log, P e st log →
      (∀ remark ∈ remarks, Happening.IsRemark st remark) → P e st (log ++ remarks) := by
    intro remarks
    induction remarks with
    | nil =>
        intro e st log hP _
        rwa [List.append_nil]
    | cons remark remarks ih =>
        intro e st log hP hall
        rw [List.append_cons]
        exact ih e st _ (hremark e st log remark hP (hall _ List.mem_cons_self))
          fun other hother => hall other (List.mem_cons_of_mem remark hother)
  refine play_induction (P := fun m => P m.system.engine m.stances m.log) hrun ?_ ?_
  · rw [stances_opening]
    exact hstart
  · intro before a mv b hbefore hP hmove
    obtain ⟨-, t, deeds, σ, hchanged, hstances, remarks, hlog, hall⟩ :=
      (orderly_of_play hbefore).move hmove
    rw [hstances] at hall ⊢
    rw [hlog]
    exact hremarks remarks _ _ _ (hchange _ _ _ t deeds _ σ hP hchanged) hall

end Moment

end StreamStore
