import StreamStore.Proofs.Engine.Attempts
import StreamStore.Proofs.Engine.Queue
import StreamStore.Proofs.Runs

/-!
# Runs with tasks that are dropped

A client may lose interest in what it asked for.  Then its task is dropped, wherever it waits: it
leaves all lines and gives its locks back, and nothing is heard of it any more.  An append that has
the lock of its entry goes on to its end without waiting, so it cannot be dropped then; the task
that writes back never is.  So a task that is dropped answers for no batch, and what is true of an
engine and of the stances of its tasks stays true.
-/

namespace StreamStore

/-! ## What may be dropped -/

/-- Whether a task may be dropped where it is. -/
def Work.mayDrop : Work → Bool
  | append _ phase => phase.mayWait || phase.result?.isSome
  | writeBack _ => false
  | _ => true

theorem Residence.owes_stance (s s' : StreamId) (residence : Residence) :
    (residence.stance s).owes s' = 0 := by
  cases residence with
  | asking phase =>
      cases phase with
      | leaving result => cases result <;> rfl
      | done result => cases result <;> rfl
      | _ => rfl
  | _ => rfl

theorem Reading.owes_stance {α : Type} (s s' : StreamId) (n : EntryId) (phase : Reading α) :
    (phase.stance s n).owes s' = 0 := by
  cases phase <;> rfl

theorem Retiring.owes_stance (s s' : StreamId) (phase : Retiring) :
    (phase.stance s).owes s' = 0 := by
  cases phase <;> rfl

/-- A task that may be dropped answers for no batch. -/
theorem Work.owes_of_mayDrop {work : Work} (h : work.mayDrop = true) (s : StreamId) :
    work.stance.owes s = 0 := by
  cases work with
  | append r phase =>
      cases phase with
      | finding residence => exact residence.owes_stance r.stream s
      | start | arriving | inLine | done => rfl
      | _ => cases h
  | page r phase =>
      cases phase with
      | finding residence => exact residence.owes_stance r.stream s
      | reading n phase => exact phase.owes_stance r.stream s n
      | _ => rfl
  | measure s' phase =>
      cases phase with
      | finding residence => exact residence.owes_stance s' s
      | reading n phase => exact phase.owes_stance s' s n
      | _ => rfl
  | peek s' phase =>
      cases phase with
      | reading n phase => exact phase.owes_stance s' s n
      | _ => rfl
  | count s' phase =>
      cases phase with
      | reading n phase => exact phase.owes_stance s' s n
      | _ => rfl
  | list filter phase =>
      cases phase with
      | counting s' phase rest found =>
          cases phase with
          | reading n phase => exact phase.owes_stance s' s n
          | _ => rfl
      | _ => rfl
  | remove s' phase =>
      cases phase with
      | retiring phase => exact phase.owes_stance s' s
      | _ => rfl
  | writeBack worker => cases h
  | _ => rfl

/-- What happens in a run where tasks may be dropped. -/
inductive Incident
  | move (mv : Move)
  /-- Nobody cares any more for what a task does. -/
  | drop (t : TaskId)

namespace Moment

/-- The next moment, `none` for a move that is not possible and for a task that is not there or may
not be dropped where it is. -/
def meet (m : Moment) : Incident → Option Moment
  | .move mv => m.move mv
  | .drop t => (m.system.task? t).bind fun task =>
      if task.work.mayDrop then some { m with system := m.system.abandon t } else none

/-- The moment after some incidents. -/
def undergo (m : Moment) (incidents : List Incident) : Option Moment := incidents.foldlM meet m

/-- What holds at the start and after each incident holds at all times of a run. -/
theorem undergo_induction {P : Moment → Prop} {m m' : Moment} {incidents : List Incident}
    (hrun : m.undergo incidents = some m') (hstart : P m)
    (hmeet : ∀ before a incident b, m.undergo before = some a → P a →
      a.meet incident = some b → P b) : P m' :=
  foldlM_induction hrun hstart hmeet

/-- A task that is dropped was there, and might be. -/
theorem meet_drop_eq_some {m m' : Moment} {t : TaskId} (h : m.meet (.drop t) = some m') :
    ∃ task, m.system.task? t = some task ∧ task.work.mayDrop = true ∧
      m' = { m with system := m.system.abandon t } := by
  obtain ⟨task, htask, hdrop⟩ := Option.bind_eq_some_iff.mp h
  split at hdrop
  next hmay =>
    cases hdrop
    exact ⟨task, htask, hmay, rfl⟩
  · cases hdrop

end Moment

/-! ## Lines without a task -/

namespace System

theorem task?_eq_none {y : System} {t : TaskId} :
    y.task? t = none ↔ t ∉ y.tasks.map (·.id) := by
  simp [task?]

theorem task?_forget (y : System) (t u : TaskId) :
    (y.forget t).task? u = if u = t then none else y.task? u := by
  rw [task?, task?, forget, List.find?_filter]
  by_cases hu : u = t
  · rw [if_pos hu, List.find?_eq_none]
    intro task _
    simp [hu]
  · rw [if_neg hu]
    congr 1
    funext task
    by_cases htask : task.id = u
    · simp [htask, hu]
    · simp [htask]

end System

namespace Engine

variable {e : Engine} {st : TaskId → Stance} {t : TaskId}

/-- Taken out of all lines, a task leaves them in order. -/
theorem InOrder.abandon (h : e.InOrder st) (t : TaskId) :
    (e.abandon t).InOrder (Function.update st t .free) := by
  obtain ⟨owner, hresident, hhand⟩ := h.owner
  refine ⟨h.cache, ⟨owner, hresident, fun u s n hu => ?_⟩, fun s => ?_, fun n => ?_⟩
  · exact hhand u s n (Stance.eq_some_of_update Stance.inHand? rfl hu).1
  · have hline := h.lines s
    have hleave : (e.abandon t).pool.lines.line s = (e.pool.lines.line s).eraseP (· == t) := by
      rw [← List.erase_eq_eraseP']
      exact LockTable.line_leaveAll hline.nodup t
    rw [hleave]
    refine hline.leave (fun x _ y _ hx hy => ?_) (fun x hx hstand => ?_) fun x hlead => ?_
    · exact (eq_of_beq hx).trans (eq_of_beq hy).symm
    · rw [Function.update_of_ne (ne_of_beq_false hx)]
      exact hstand
    · obtain ⟨hold, hne⟩ := Stance.eq_some_of_update Stance.guard? rfl hlead
      exact ⟨hold, beq_eq_false_iff_ne.mpr hne⟩
  · have hline := h.locks n
    rw [(e.entry_abandon t n).2]
    refine hline.leave (fun x hx y hy hxt hyt => ?_) (fun x hx hstand => ?_) fun x hlead => ?_
    · obtain ⟨u, access⟩ := x
      obtain ⟨v, access'⟩ := y
      cases of_decide_eq_true hxt
      cases of_decide_eq_true hyt
      have hplace : (st u).place? = some (n, access) := hline.stands_of_mem _ hx
      have hplace' : (st u).place? = some (n, access') := hline.stands_of_mem _ hy
      cases hplace.symm.trans hplace'
      rfl
    · rw [Function.update_of_ne (of_decide_eq_false hx)]
      exact hstand
    · obtain ⟨hold, hne⟩ := Stance.eq_some_of_update Stance.lock? rfl hlead.2
      exact ⟨⟨hlead.1, hold⟩, decide_eq_false hne⟩

/-- The backlog counts right without a task that answers for nothing. -/
theorem Counted.abandon (h : e.Counted st) (howes : ∀ s, (st t).owes s = 0) :
    (e.abandon t).Counted (Function.update st t .free) := by
  intro s
  obtain ⟨k, howed, hcount⟩ := h s
  have hupdate := howed.update t .free
  rw [howes s] at hupdate
  exact ⟨k, hupdate, hcount⟩

theorem Voices.of_abandon {s : StreamId} {n : EntryId}
    (h : (e.abandon t).Voices (Function.update st t .free) s n) : e.Voices st s n := by
  rcases h with hresident | ⟨u, hcurrent⟩
  · exact .inl hresident
  · refine .inr ⟨u, ?_⟩
    by_cases hu : u = t
    · rw [hu, Function.update_self] at hcurrent
      cases hcurrent
    · rwa [Function.update_of_ne hu] at hcurrent

theorem Underway.of_abandon {b : Batch}
    (h : (e.abandon t).Underway (Function.update st t .free) b) : e.Underway st b := by
  rcases h with ⟨u, hcarrying⟩ | hmem
  · refine .inl ⟨u, ?_⟩
    by_cases hu : u = t
    · rw [hu, Function.update_self] at hcarrying
      cases hcarrying
    · rwa [Function.update_of_ne hu] at hcarrying
  · exact .inr hmem

/-- An engine stays settled without a task that answers for nothing. -/
theorem Settled.abandon (h : e.Settled st) (howes : ∀ s, (st t).owes s = 0) :
    (e.abandon t).Settled (Function.update st t .free) where
  inOrder := h.inOrder.abandon t
  counted := h.counted.abandon howes
  worker u hworks := by
    by_cases hu : u = t
    · rw [hu, Function.update_self] at hworks
      cases hworks
    · rw [Function.update_of_ne hu] at hworks
      exact h.worker u hworks
  batch_ne_nil b hb := h.batch_ne_nil b hb.of_abandon
  closed u s hcloses := h.closed u s (Stance.eq_some_of_update Stance.closes? rfl hcloses).1
  hushed u s hhushes := by
    have hhushed := h.hushed u s (Stance.eq_some_of_update Stance.hushes? rfl hhushes).1
    exact ⟨fun n hvoice => hhushed.voiceless n hvoice.of_abandon,
      fun b hb => hhushed.batchless b hb.of_abandon⟩
  voice_eq s n n' hn hn' := h.voice_eq s n n' hn.of_abandon hn'.of_abandon

end Engine

/-! ## Runs -/

namespace Moment

variable {settings : Settings} {archive : Archive} {clock : Int64} {incidents : List Incident}
  {m m' : Moment} {t : TaskId}

/-- The stances without a task that is dropped. -/
theorem stances_abandon (m : Moment) (t : TaskId) :
    stances { m with system := m.system.abandon t } = Function.update m.stances t .free := by
  funext u
  have htask : (m.system.abandon t).task? u = if u = t then none else m.system.task? u :=
    System.task?_forget _ t u
  rw [stances]
  simp only [htask]
  by_cases hu : u = t
  · subst hu
    rw [Function.update_self, if_pos rfl]
    rfl
  · rw [Function.update_of_ne hu, if_neg hu]
    rfl

theorem Orderly.abandon (h : m.Orderly) (t : TaskId) :
    Orderly { m with system := m.system.abandon t } where
  fresh u hu := by
    refine (System.task?_forget _ t u).trans ?_
    rw [ite_eq_left_iff]
    exact fun _ => h.fresh u hu
  admissible u task htask := by
    have hfind := (System.task?_forget _ t u).symm.trans htask
    split at hfind
    · cases hfind
    · exact h.admissible u task hfind

/-- A task that may be dropped answers for nothing. -/
theorem owes_of_mayDrop {task : Task} (htask : m.system.task? t = some task)
    (hmay : task.work.mayDrop = true) (s : StreamId) : (m.stances t).owes s = 0 := by
  rw [stances_eq htask]
  exact Work.owes_of_mayDrop hmay s

theorem Orderly.meet (h : m.Orderly) {incident : Incident} (hmeet : m.meet incident = some m') :
    m'.Orderly := by
  cases incident with
  | move mv => exact (h.move hmeet).1
  | drop t =>
      obtain ⟨task, -, -, rfl⟩ := meet_drop_eq_some hmeet
      exact h.abandon t

theorem orderly_of_undergo (hrun : (opening settings archive clock).undergo incidents = some m) :
    m.Orderly :=
  undergo_induction hrun (orderly_opening settings archive clock)
    fun _ _ _ _ _ horderly hmeet => horderly.meet hmeet

/-- Incidents keep an engine settled. -/
theorem settled_of_meet (horderly : m.Orderly) (h : m.system.engine.Settled m.stances)
    {incident : Incident} (hmeet : m.meet incident = some m') :
    m'.system.engine.Settled m'.stances := by
  cases incident with
  | move mv =>
      obtain ⟨-, t, deeds, σ, hfollows⟩ := horderly.move hmeet
      rw [hfollows.stances_eq]
      exact h.change hfollows.change
  | drop t =>
      obtain ⟨task, htask, hmay, rfl⟩ := meet_drop_eq_some hmeet
      rw [stances_abandon]
      exact h.abandon (owes_of_mayDrop htask hmay)

theorem settled_of_undergo (hrun : (opening settings archive clock).undergo incidents = some m) :
    m.system.engine.Settled m.stances := by
  refine undergo_induction (P := fun m => m.system.engine.Settled m.stances) hrun ?_ ?_
  · rw [stances_opening]
    exact .of_archive settings archive clock
  · intro before a incident b hbefore hsettled hmeet
    exact settled_of_meet (orderly_of_undergo hbefore) hsettled hmeet

/-! ## Every task once -/

/-- No two tasks have one number. -/
def Distinct (m : Moment) : Prop := (m.system.tasks.map (·.id)).Nodup

theorem mem_of_task? {task : Task} (htask : m.system.task? t = some task) :
    task ∈ m.system.tasks ∧ task.id = t := by
  rw [System.task?] at htask
  exact ⟨List.mem_of_find?_eq_some htask, by simpa using List.find?_some htask⟩

theorem Distinct.task?_of_mem (h : m.Distinct) {task : Task} (hmem : task ∈ m.system.tasks) :
    m.system.task? task.id = some task := by
  cases hfind : m.system.task? task.id with
  | none => exact absurd (List.mem_map_of_mem hmem) (System.task?_eq_none.mp hfind)
  | some found =>
      obtain ⟨hfound, hid⟩ := mem_of_task? hfind
      rw [List.inj_on_of_nodup_map h hfound hmem hid]

theorem Distinct.meet (h : m.Distinct) (horderly : m.Orderly) {incident : Incident}
    (hmeet : m.meet incident = some m') : m'.Distinct := by
  have hids : ∀ (f : Task → Task), (∀ task, (f task).id = task.id) →
      ((m.system.tasks.map f).map (·.id)).Nodup := by
    intro f hf
    rw [List.map_map, show (fun task : Task => task.id) ∘ f = fun task => task.id from funext hf]
    exact h
  cases incident with
  | move mv =>
      cases mv with
      | start work cancelled =>
          rw [Moment.meet, Moment.move] at hmeet
          split at hmeet <;> cases hmeet
          have hfresh := System.task?_eq_none.mp (horderly.fresh _ Nat.le.refl)
          rw [Distinct, System.start, List.map_append, List.nodup_append]
          refine ⟨h, List.nodup_singleton _, ?_⟩
          rintro id hid _ hnew rfl
          cases List.mem_singleton.mp hnew
          exact hfresh hid
      | step t weather =>
          obtain ⟨task, e', work', -, -, rfl⟩ := move_step_eq_some hmeet
          exact hids _ fun task => by split <;> rfl
      | cancel t =>
          cases hmeet
          exact hids _ fun task => by split <;> rfl
      | evict count =>
          cases hmeet
          exact h
      | tick now =>
          cases hmeet
          exact h
      | close =>
          cases hmeet
          exact h
  | drop t =>
      obtain ⟨task, -, -, rfl⟩ := meet_drop_eq_some hmeet
      exact h.sublist (List.filter_sublist.map _)

theorem distinct_of_undergo (hrun : (opening settings archive clock).undergo incidents = some m) :
    m.Distinct := by
  refine undergo_induction hrun (List.nodup_singleton 0) ?_
  intro before a incident b hbefore hdistinct hmeet
  exact hdistinct.meet (orderly_of_undergo hbefore) hmeet

end Moment

end StreamStore
