import StreamStore.Proofs.Engine.Reports
import StreamStore.Proofs.Cache.Contents

/-!
# Calls made alone

Where nothing is in progress, a call takes its steps one after another and nobody comes
between them.  What it comes to does not depend on the weather then, and there is at
most one answer; a run that goes on with the call alone comes to it.  An engine is still
when its cache is in order and nobody stands in any line; a call leaves it still, and the
entries as they were.
-/

namespace StreamStore

/-! ## One step after another -/

/-- What a task does, step by step; `none` where it waits and at its end. -/
abbrev Procedure (σ : Type) := Weather → Engine → σ → Option (Engine × σ)

namespace Procedure

variable {σ τ : Type} {p : Procedure σ} {q : Procedure τ} {x y z : Engine × σ}

def play (p : Procedure σ) (x : Engine × σ) (weathers : List Weather) : Option (Engine × σ) :=
  weathers.foldlM (fun x w => p w x.1 x.2) x

/-- After a number of steps the procedure is at a point, whatever the weather was. -/
def Reaches (p : Procedure σ) (x y : Engine × σ) : Prop :=
  ∃ n, ∀ weathers : List Weather, weathers.length = n → p.play x weathers = some y

theorem play_append (p : Procedure σ) (x : Engine × σ) (weathers later : List Weather) :
    p.play x (weathers ++ later) = (p.play x weathers).bind fun y => p.play y later :=
  List.foldlM_append

theorem Reaches.refl (p : Procedure σ) (x : Engine × σ) : p.Reaches x x := by
  refine ⟨0, fun weathers hlength => ?_⟩
  rw [List.length_eq_zero_iff.mp hlength]
  rfl

theorem Reaches.trans (h : p.Reaches x y) (h' : p.Reaches y z) : p.Reaches x z := by
  obtain ⟨n, hfirst⟩ := h
  obtain ⟨m, hthen⟩ := h'
  refine ⟨n + m, fun weathers hlength => ?_⟩
  rw [← List.take_append_drop n weathers, play_append, hfirst, Option.bind_some, hthen]
  · rw [List.length_drop]
    omega
  · rw [List.length_take]
    omega

theorem Reaches.of_step (h : ∀ w, p w x.1 x.2 = some y) : p.Reaches x y := by
  refine ⟨1, fun weathers hlength => ?_⟩
  obtain ⟨w, rfl⟩ := List.length_eq_one_iff.mp hlength
  rw [play, List.foldlM_cons, h]
  rfl

/-- One step, and then on. -/
theorem Reaches.step (h : ∀ w, p w x.1 x.2 = some y) (hthen : p.Reaches y z) :
    p.Reaches x z :=
  (Reaches.of_step h).trans hthen

/-- What is reached within a part of some work is reached by the whole. -/
theorem Reaches.map {f : σ → τ} (hstep : ∀ w e a e' a', p w e a = some (e', a') →
    q w e (f a) = some (e', f a')) (h : p.Reaches x y) :
    q.Reaches (x.1, f x.2) (y.1, f y.2) := by
  obtain ⟨n, hn⟩ := h
  have hplay : ∀ (weathers : List Weather) (x : Engine × σ), p.play x weathers = some y →
      q.play (x.1, f x.2) weathers = some (y.1, f y.2) := by
    intro weathers
    induction weathers with
    | nil =>
        rintro x ⟨⟩
        rfl
    | cons w weathers ih =>
        intro x hx
        rw [play, List.foldlM_cons] at hx ⊢
        obtain ⟨x', hfirst, hrest⟩ := Option.bind_eq_some_iff.mp hx
        have hfirst' := hstep w _ _ _ _ hfirst
        simp only [hfirst']
        exact ih x' hrest
  exact ⟨n, fun weathers hlength => hplay weathers x (hn weathers hlength)⟩

/-- There is one end. -/
theorem Reaches.unique (h : p.Reaches x y) (h' : p.Reaches x z)
    (hend : ∀ w, p w y.1 y.2 = none) (hend' : ∀ w, p w z.1 z.2 = none) : y = z := by
  let fair (n : Nat) : List Weather := List.replicate n {}
  have hfair (n : Nat) : (fair n).length = n := List.length_replicate
  have hpass {y z : Engine × σ} {n m : Nat} (hlt : n < m) (hend : ∀ w, p w y.1 y.2 = none)
      (hn : p.play x (fair n) = some y) (hm : p.play x (fair m) = some z) : False := by
    have hsplit : fair m = fair n ++ ({} : Weather) :: fair (m - n - 1) := by
      rw [← List.replicate_succ, List.replicate_append_replicate]
      congr
      omega
    rw [hsplit, play_append, hn, Option.bind_some, play, List.foldlM_cons, hend] at hm
    cases hm
  obtain ⟨n, hn⟩ := h
  obtain ⟨m, hm⟩ := h'
  have hn := hn (fair n) (hfair n)
  have hm := hm (fair m) (hfair m)
  rcases Nat.lt_trichotomy n m with hlt | rfl | hlt
  · exact (hpass hlt hend hn hm).elim
  · exact Option.some.inj (hn.symm.trans hm)
  · exact (hpass hlt hend' hm hn).elim

end Procedure

/-- The work of a task that is not cancelled. -/
def Work.procedure (t : TaskId) : Procedure Work := fun w e work => work.step e t false w

/-- A call that is made alone ends with an answer, and leaves the engine in some state. -/
def Engine.Answers (e : Engine) (t : TaskId) (work : Work) (answer : Answer) (e' : Engine) :
    Prop :=
  ∃ work', (Work.procedure t).Reaches (e, work) (e', work') ∧ work'.answer? = some answer

theorem Work.step_of_answer {work : Work} {answer : Answer} (h : work.answer? = some answer)
    (e : Engine) (t : TaskId) (cancelled : Bool) (w : Weather) :
    work.step e t cancelled w = none := by
  cases hstep : work.step e t cancelled w with
  | none => rfl
  | some x =>
      have hdone := isDone_of_step hstep
      rw [isDone, h] at hdone
      cases hdone

theorem Engine.Answers.unique {e e' e'' : Engine} {t : TaskId} {work : Work}
    {answer answer' : Answer} (h : e.Answers t work answer e')
    (h' : e.Answers t work answer' e'') : answer = answer' ∧ e' = e'' := by
  obtain ⟨last, hreach, hlast⟩ := h
  obtain ⟨last', hreach', hlast'⟩ := h'
  have heq := hreach.unique hreach' (fun w => Work.step_of_answer hlast e' t false w)
    (fun w => Work.step_of_answer hlast' e'' t false w)
  cases heq
  exact ⟨Option.some.inj (hlast.symm.trans hlast'), rfl⟩

theorem Work.isDone_of_isRequest {work : Work} (h : work.isRequest = true) :
    work.isDone = false := by
  unfold isRequest at h
  split at h <;> first | rfl | cases h

namespace Moment

variable {m : Moment} {t : TaskId} {work work' : Work} {e e' : Engine}

/-- The steps of a task alone are moves of a run, and its end is noted. -/
theorem exists_play_of_procedure {weathers : List Weather} {id : TaskId}
    (hplay : (Work.procedure t).play (e, work) weathers = some (e', work'))
    (hengine : m.system.engine = e) (htask : m.system.task? t = some ⟨id, work, false⟩) :
    ∃ m', m.play (weathers.map (.step t)) = some m' ∧ m'.system.engine = e' ∧
      (weathers ≠ [] → work'.isDone = true → .ended t work' ∈ m'.log) := by
  induction weathers generalizing m e work with
  | nil =>
      cases hplay
      exact ⟨m, rfl, hengine, fun hne => absurd rfl hne⟩
  | cons w weathers ih =>
      subst hengine
      rw [Procedure.play, List.foldlM_cons] at hplay
      obtain ⟨⟨e₁, work₁⟩, hstep, hrest⟩ := Option.bind_eq_some_iff.mp hplay
      have hstep' : work.step m.system.engine t false w = some (e₁, work₁) := hstep
      have hself := System.task?_record_self (y := { m.system with engine := e₁ }) htask work₁
      let m₁ : Moment := ⟨{ m.system with engine := e₁ }.record t work₁,
        m.log ++ Work.notes t work work₁⟩
      have hmove : m.move (.step t w) = some m₁ := by
        rw [move, System.step, htask, Option.bind_some, hstep', Option.map_some, Option.map_some,
          hself]
      obtain ⟨m', hrun, hengine, hnoted⟩ := ih (m := m₁) hrest rfl hself
      refine ⟨m', ?_, hengine, fun _ hdone => ?_⟩
      · rw [List.map_cons, play, List.foldlM_cons, hmove]
        exact hrun
      · cases weathers with
        | nil =>
            cases hrest
            have hsame : m₁ = m' := Option.some.inj hrun
            rw [← hsame]
            refine List.mem_append_right _ ?_
            rw [Work.notes, if_pos hdone]
            exact List.mem_append_right _ List.mem_cons_self
        | cons => exact hnoted (List.cons_ne_nil _ _) hdone

/-- A request that is answered alone is answered so in the run that goes on with it alone. -/
theorem exists_play_of_answers (horderly : m.Orderly) (hrequest : work.isRequest = true)
    {answer : Answer} (h : m.system.engine.Answers m.system.nextTask work answer e') :
    ∃ n, ∀ weathers : List Weather, weathers.length = n → ∃ m' work',
      m.play (.start work false :: weathers.map (.step m.system.nextTask)) = some m' ∧
        m'.system.engine = e' ∧ .ended m.system.nextTask work' ∈ m'.log ∧
        work'.answer? = some answer := by
  obtain ⟨last, ⟨n, hn⟩, hanswer⟩ := h
  refine ⟨n, fun weathers hlength => ?_⟩
  have hself := System.task?_start (horderly.fresh _ Nat.le.refl) work false m.system.nextTask
  rw [if_pos rfl] at hself
  let m₁ : Moment :=
    ⟨(m.system.start work false).2, m.log ++ [.started m.system.nextTask work]⟩
  have hmove : m.move (.start work false) = some m₁ := by
    rw [move, if_pos hrequest]
  obtain ⟨m', hrun, hengine, hnoted⟩ :=
    exists_play_of_procedure (m := m₁) (hn weathers hlength) rfl hself
  have hdone : last.isDone = true := Option.isSome_iff_exists.mpr ⟨_, hanswer⟩
  have hne : weathers ≠ [] := by
    rintro rfl
    have hsame : work = last := congrArg Prod.snd (Option.some.inj (hn [] hlength))
    rw [← hsame] at hdone
    cases (Work.isDone_of_isRequest hrequest).symm.trans hdone
  refine ⟨m', last, ?_, hengine, hnoted hne hdone, hanswer⟩
  rw [play, List.foldlM_cons, hmove]
  exact hrun

end Moment

/-! ## Stillness -/

theorem SharedLock.leave_join {l : SharedLock TaskId} {t : TaskId}
    (hothers : ∀ place ∈ l.line, place.1 ≠ t) (access : Access) :
    (l.join t access).leave t = l := by
  obtain ⟨line⟩ := l
  rw [join, leave, List.eraseP_append_right]
  · simp
  · intro place hmem
    rw [decide_eq_true_iff]
    exact hothers place hmem

namespace Engine

/-- Nothing is in progress: the cache is in order, and nobody stands in a line. -/
structure Still (e : Engine) : Prop where
  cache : ∃ cached, e.pool.cache.Holds cached
  lines : ∀ s, e.pool.lines.line s = []
  locks : ∀ n, (e.entry n).lock.line = []

/-- Two engines that hold the same, in memory and on disk. -/
structure SameContent (e e' : Engine) : Prop where
  archive : e'.archive = e.archive
  pool : e'.pool = e.pool
  entry : ∀ n, e'.entry n = e.entry n

variable {e e₁ e' : Engine}

theorem SameContent.refl (e : Engine) : e.SameContent e := ⟨rfl, rfl, fun _ => rfl⟩

theorem SameContent.still (h : e.SameContent e') (hstill : e.Still) : e'.Still := by
  constructor
  · rw [h.pool]
    exact hstill.cache
  · rw [h.pool]
    exact hstill.lines
  · intro n
    rw [h.entry]
    exact hstill.locks n

theorem ofArchive_still (settings : Settings) (archive : Archive) (clock : Int64) :
    (ofArchive settings archive clock).Still :=
  ⟨⟨{}, Cache.holds_ofCapacity _⟩, fun _ => rfl, fun _ => rfl⟩

/-- Take up an entry with a stream's events, which speaks for the stream from now on. -/
def populate (e : Engine) (s : StreamId) (events : List Event) : Engine :=
  (e.newEntry events).2.withCache (e.pool.cache.put s e.nextEntry).2.2

theorem entry_populate (e : Engine) (s : StreamId) (events : List Event) (n : EntryId) :
    (e.populate s events).entry n = if n = e.nextEntry then { events } else e.entry n :=
  e.entry_newEntry events n

theorem Still.populate (h : e.Still) (s : StreamId) (events : List Event) :
    (e.populate s events).Still := by
  obtain ⟨cached, hcached⟩ := h.cache
  constructor
  · exact ⟨_, hcached.put s e.nextEntry⟩
  · exact h.lines
  · intro n
    rw [entry_populate]
    split
    · rfl
    · exact h.locks n

/-- In the line of an entry stand only others, who wait to read, so a task may read at once. -/
def IsReadable (e : Engine) (n : EntryId) (t : TaskId) : Prop :=
  ∀ place ∈ (e.entry n).lock.line, place.1 ≠ t ∧ place.2 = .read

theorem Still.isReadable (h : e.Still) (n : EntryId) (t : TaskId) : e.IsReadable n t := by
  rw [IsReadable, h.locks n]
  exact List.forall_mem_nil _

/-- Who comes to read an entry and leaves has changed nothing. -/
theorem sameContent_read {n : EntryId} {t : TaskId} (h : e.IsReadable n t) :
    e.SameContent ((e.joinEntry n t .read).leaveEntry n t) := by
  refine ⟨rfl, rfl, fun k => ?_⟩
  rw [leaveEntry, entry_changeEntry, joinEntry, entry_changeEntry, entry_changeEntry, if_pos rfl]
  split
  next heq => rw [SharedLock.leave_join fun place hmem => (h place hmem).1, heq]
  · rfl

end Engine

namespace Reading

variable {α : Type} {e : Engine} {n : EntryId}

def procedure (n : EntryId) (t : TaskId) (look : List Event → α) : Procedure (Reading α) :=
  fun _ e phase => phase.step e n t look

/-- A task that alone reads an entry sees its events. -/
theorem reaches_done {t : TaskId} (h : e.IsReadable n t) (look : List Event → α) :
    (procedure n t look).Reaches (e, arriving)
      ((e.joinEntry n t .read).leaveEntry n t, done (look (e.entry n).events)) := by
  have hholds : (e.joinEntry n t .read).holdsEntry n t = true := by
    rw [Engine.holdsEntry, Engine.joinEntry, Engine.entry_changeEntry, if_pos rfl]
    exact SharedLock.isHolder_join_read (fun place hmem => (h place hmem).2) t
  have hlook : step (e.joinEntry n t .read) n t look inLine =
      some (e.joinEntry n t .read, leaving (look (e.entry n).events)) := by
    rw [step, if_pos hholds, Engine.events_joinEntry]
  refine .step (y := (e.joinEntry n t .read, inLine)) (fun _ => rfl) ?_
  refine .step (fun _ => hlook) ?_
  exact .of_step fun _ => rfl

theorem result?_of_step {phase phase' : Reading α} {e' : Engine} {t : TaskId}
    {look : List Event → α} (h : phase.step e n t look = some (e', phase')) :
    phase.result? = none := by
  cases phase <;> first | rfl | cases h

end Reading

end StreamStore
