import StreamStore.Proofs.Engine.Alone
import StreamStore.Proofs.Engine.Histories

/-!
# Counts

A count is taken from the entry of a stream if there is one that has events, and else from
the disk.  When no append and no removal is under way, an entry has the history of its
stream, so the count is the length of it.  Without an entry the count leaves out what is
still on its way to disk: it is right just when nothing of the stream is.
-/

namespace StreamStore

/-! ## One count -/

namespace Engine

variable {e e' : Engine} {s : StreamId} {n : EntryId}

/-- The number of events in a stream's entry, if there are any. -/
def residentCount? (e : Engine) (s : StreamId) : Option Nat :=
  ((e.resident? s).map fun n => (e.entry n).events.length).filter (· ≠ 0)

/-- How many events a stream is told to have. -/
def countOf (e : Engine) (s : StreamId) : Except Refusal (Option Nat) :=
  match e.residentCount? s with
  | some count => .ok (some count)
  | none => (e.archive.length s).mapError Refusal.ofStorage

theorem SameContent.countOf_eq (h : e.SameContent e') : e'.countOf = e.countOf := by
  funext s
  simp only [countOf, residentCount?, resident?, h.archive, h.pool, h.entry]

theorem countOf_of_resident (hresident : e.resident? s = some n)
    (hevents : (e.entry n).events ≠ []) :
    e.countOf s = .ok (some (e.entry n).events.length) := by
  have hcount : e.residentCount? s = some (e.entry n).events.length := by
    rw [residentCount?, hresident, Option.map_some, Option.filter_some, if_pos]
    exact decide_eq_true (List.length_pos_of_ne_nil hevents).ne'
  rw [countOf, hcount]

theorem countOf_of_empty (hresident : e.resident? s = some n)
    (hempty : (e.entry n).events = []) :
    e.countOf s = (e.archive.length s).mapError Refusal.ofStorage := by
  have hcount : e.residentCount? s = none := by
    rw [residentCount?, hresident, Option.map_some, hempty]
    rfl
  rw [countOf, hcount]

theorem countOf_of_absent (habsent : e.resident? s = none) :
    e.countOf s = (e.archive.length s).mapError Refusal.ofStorage := by
  rw [countOf, residentCount?, habsent]
  rfl

end Engine

namespace Counting

variable {e : Engine} {s : StreamId}

def procedure (s : StreamId) (t : TaskId) : Procedure Counting :=
  fun _ e phase => phase.step e s t

/-- A count that is made alone comes to what the stream is told to have. -/
theorem reaches_done {t : TaskId} (h : ∀ n, e.resident? s = some n → e.IsReadable n t) :
    ∃ e', (procedure s t).Reaches (e, start) (e', done (e.countOf s)) ∧
      e.SameContent e' := by
  cases hresident : e.resident? s with
  | none =>
      have hstart : step e s t start = some (e, onDisk) := by
        rw [step, hresident]
      rw [Engine.countOf_of_absent hresident]
      exact ⟨e, .step (fun _ => hstart) (.of_step fun _ => rfl), .refl e⟩
  | some n =>
      let e' := (e.joinEntry n t .read).leaveEntry n t
      have hstart : step e s t start = some (e, reading n .arriving) := by
        rw [step, hresident]
      have hsame : e.SameContent e' := Engine.sameContent_read (h n hresident)
      have hread : (procedure s t).Reaches (e, reading n .arriving)
          (e', reading n (.done (e.entry n).events.length)) := by
        refine (Reading.reaches_done (h n hresident) List.length).map
          (f := reading n) fun w e a e' a' hstep => ?_
        have hstep' : a.step e n t List.length = some (e', a') := hstep
        rw [procedure, step, Reading.result?_of_step hstep', hstep']
        rfl
      refine ⟨e', .trans (.step (fun _ => hstart) hread) ?_, hsame⟩
      cases hevents : (e.entry n).events with
      | nil =>
          rw [Engine.countOf_of_empty hresident hevents, ← hsame.archive]
          exact .step (y := (e', onDisk)) (fun _ => rfl) (.of_step fun _ => rfl)
      | cons event events =>
          rw [Engine.countOf_of_resident hresident (by rw [hevents]; exact List.cons_ne_nil _ _),
            hevents]
          exact .of_step fun _ => rfl

theorem result?_of_step {phase phase' : Counting} {e' : Engine} {t : TaskId}
    (h : phase.step e s t = some (e', phase')) : phase.result? = none := by
  cases phase <;> first | rfl | cases h

end Counting

theorem Engine.answers_count {e : Engine} {s : StreamId} {t : TaskId}
    (h : ∀ n, e.resident? s = some n → e.IsReadable n t) :
    ∃ e', e.Answers t (.count s .start)
      (.summary ((e.countOf s).map fun n? => n?.map (⟨s, ·⟩))) e' := by
  obtain ⟨e', hreach, -⟩ := Counting.reaches_done h
  refine ⟨e', _, hreach.map (q := Work.procedure t) (f := Work.count s) ?_, rfl⟩
  intro w e a e' a' hstep
  have hstep' : a.step e s t = some (e', a') := hstep
  rw [Work.procedure, Work.step, hstep']
  rfl

/-! ## At rest -/

namespace Work

/-- Whether work adds to a stream or removes it. -/
def writes : Work → Bool
  | append .. => true
  | remove .. => true
  | _ => false

/-- Only appends and removals stand in the line of an entry for writing to it. -/
theorem place?_stance {work : Work} (hrest : work.writes = true → work.isDone = true)
    {n : EntryId} {access : Access} (h : work.stance.place? = some (n, access)) :
    access = .read := by
  cases work with
  | append r phase =>
      cases phase with
      | done result => cases h
      | _ => cases hrest rfl
  | remove s phase =>
      cases phase with
      | done result => cases h
      | _ => cases hrest rfl
  | writeBack worker =>
      obtain ⟨source, phase, report⟩ := worker
      cases phase with
      | writing b phase => cases phase <;> cases h
      | _ => cases h
  | _ => exact (onlooks_stance rfl).place n access h

end Work

namespace Moment

variable {m : Moment} {s : StreamId} {n : EntryId}

/-- No append and no removal is under way. -/
def AtRest (m : Moment) : Prop :=
  ∀ task ∈ m.system.tasks, task.work.writes = true → task.work.isDone = true

/-- While no append and no removal is under way, whoever comes next may read an entry at once. -/
theorem AtRest.isReadable (h : m.AtRest) (horderly : m.Orderly)
    (hsettled : m.system.engine.Settled m.stances) (n : EntryId) :
    m.system.engine.IsReadable n m.system.nextTask := by
  intro place hmem
  have hplace := (hsettled.inOrder.locks n).stands_of_mem place hmem
  rw [stances] at hplace
  cases htask : m.system.task? place.1 with
  | none =>
      rw [htask] at hplace
      cases hplace
  | some task =>
      rw [htask] at hplace
      refine ⟨?_, Work.place?_stance (h task (List.mem_of_find?_eq_some htask)) hplace⟩
      intro hnext
      rw [hnext, horderly.fresh _ le_rfl] at htask
      cases htask

/-- Entries are whole while no append is under way. -/
theorem AtRest.events_eq (h : m.AtRest)
    (hkeeps : m.system.engine.Keeps m.stances m.log s)
    (hresident : m.system.engine.resident? s = some n) :
    (m.system.engine.entry n).events = Log.history s m.log := by
  refine (resident_of_keeps hkeeps hresident).2 fun t task r events htask hwork => ?_
  have hdone := h task (List.mem_of_find?_eq_some htask)
  rw [hwork] at hdone
  cases hdone rfl

/-- Without an entry the count leaves out what is not written yet. -/
theorem exists_countOf_of_absent (hkeeps : m.system.engine.Keeps m.stances m.log s)
    (hsound : m.system.engine.archive.Sound)
    (habsent : m.system.engine.resident? s = none) :
    ∃ stored found, stored ++ Batch.eventsOf s m.transit = Log.history s m.log ∧
      m.system.engine.countOf s = .ok found ∧
      (found = some stored.length ∨ found = none ∧ stored = []) := by
  obtain ⟨stored, hstores, heq⟩ := hkeeps.stored
  rw [transit_eq] at heq
  have hcount := Engine.countOf_of_absent habsent
  rw [Archive.length_of_stores hsound.rooted hstores] at hcount
  refine ⟨stored, _, heq, hcount, ?_⟩
  split
  · exact .inl rfl
  next hnone =>
    refine .inr ⟨rfl, ?_⟩
    cases hstores with
    | absent => rfl
    | present hheaders =>
        refine absurd ?_ hnone
        rw [Archive.extent, hheaders]
        rfl

/-- At rest, the number of events that a stream is told to have is right just when there is an
entry of the stream or all its events are on disk. -/
theorem AtRest.countOf_eq_iff (h : m.AtRest)
    (hkeeps : m.system.engine.Keeps m.stances m.log s)
    (hsound : m.system.engine.archive.Sound) (hadmitted : Log.history s m.log ≠ []) :
    ∃ found, m.system.engine.countOf s = .ok found ∧
      (found = some (Log.history s m.log).length ↔
        (m.system.engine.resident? s).isSome ∨ Batch.eventsOf s m.transit = []) := by
  cases hresident : m.system.engine.resident? s with
  | some n =>
      have hevents := h.events_eq hkeeps hresident
      refine ⟨_, Engine.countOf_of_resident hresident (hevents ▸ hadmitted), ?_⟩
      rw [hevents]
      exact iff_of_true rfl (.inl rfl)
  | none =>
      obtain ⟨stored, found, heq, hcount, hfound⟩ :=
        exists_countOf_of_absent hkeeps hsound hresident
      refine ⟨found, hcount, ?_⟩
      rw [← heq] at hadmitted ⊢
      rw [List.length_append]
      constructor
      · intro hright
        right
        rcases hfound with hstored | ⟨hnone, -⟩
        · have hsame := Option.some.inj (hstored.symm.trans hright)
          exact List.eq_nil_of_length_eq_zero (by omega)
        · cases hnone.symm.trans hright
      · rintro (hsome | hwritten)
        · cases hsome
        · rw [hwritten] at hadmitted ⊢
          rcases hfound with hstored | ⟨-, hnothing⟩
          · exact hstored
          · rw [hnothing] at hadmitted
            exact absurd rfl hadmitted

/-- At rest, a request for the count of a stream that has events is answered right just when there
is an entry of the stream or all its events are on disk. -/
theorem answers_count_iff {settings : Settings} {archive : Archive} {clock : Int64}
    {moves : List Move} (hvacant : archive.disk.Vacant archive.base)
    (hrun : (opening settings archive clock).play moves = some m)
    (hwritten : Log.Written m.log) (hintact : Log.Intact s m.log) (hrest : m.AtRest)
    (hadmitted : Log.history s m.log ≠ []) :
    ∃ found e', m.system.engine.Answers m.system.nextTask (.count s .start)
        (.summary (.ok found)) e' ∧
      (found = some ⟨s, (Log.history s m.log).length⟩ ↔
        (m.system.engine.resident? s).isSome ∨ Batch.eventsOf s m.transit = []) := by
  obtain ⟨⟨-, hsound⟩, hkept⟩ :=
    keeps_of_play (Archive.recalls_of_vacant hvacant) hrun hwritten
  obtain ⟨found, hcount, hright⟩ :=
    hrest.countOf_eq_iff ((hkept s).1 hintact) hsound hadmitted
  obtain ⟨e', hanswers⟩ := Engine.answers_count fun n _ =>
    hrest.isReadable (orderly_of_play hrun) (settled_of_play hrun) n
  rw [hcount] at hanswers
  refine ⟨_, e', hanswers, ?_⟩
  rw [← hright, Option.map_eq_some_iff]
  constructor
  · rintro ⟨count, rfl, heq⟩
    rw [StreamSummary.mk.injEq] at heq
    rw [heq.2]
  · intro hfound
    exact ⟨_, hfound, rfl⟩

/-- An event is appended, and its entry evicted before the event is written. -/
def overtaking : List Move :=
  [.start (.append ⟨Archive.orders, [⟨"placed", [1]⟩], none⟩ .start) false] ++
    List.replicate 17 (.step 1 {}) ++ [.evict 1]

theorem answers_count_ne_of_overtaking :
    ∃ m, (opening {} Archive.blank 0).play overtaking = some m ∧ Log.Fair m.log ∧ m.AtRest ∧
      (Log.history Archive.orders m.log).length = 1 ∧
      ∃ found e', m.system.engine.Answers m.system.nextTask (.count Archive.orders .start)
        (.summary (.ok found)) e' ∧ found ≠ some ⟨Archive.orders, 1⟩ := by
  have hplayed : ((opening {} Archive.blank 0).play overtaking).any (fun m =>
      m.log.all Log.isFair &&
        m.system.tasks.all (fun task => !task.work.writes || task.work.isDone) &&
        (Log.history Archive.orders m.log).length == 1 &&
        (m.system.engine.resident? Archive.orders).isNone &&
        !(Batch.eventsOf Archive.orders m.transit).isEmpty) = true := by
    decide +kernel
  obtain ⟨m, hrun, hm⟩ := (Option.any_eq_true _ _).mp hplayed
  simp only [Bool.and_eq_true, beq_iff_eq, Option.isNone_iff_eq_none, Bool.not_eq_true',
    List.isEmpty_eq_false_iff] at hm
  obtain ⟨⟨⟨⟨hfair, hdone⟩, hlength⟩, hresident⟩, hwaiting⟩ := hm
  have hfair' : Log.Fair m.log := List.all_eq_true.mp hfair
  have hrest : m.AtRest := by
    intro task hmem hwrites
    have htask := List.all_eq_true.mp hdone task hmem
    rwa [hwrites, Bool.not_true, Bool.false_or] at htask
  have hadmitted : Log.history Archive.orders m.log ≠ [] := by
    intro hnone
    rw [hnone] at hlength
    cases hlength
  obtain ⟨found, e', hanswers, hright⟩ := answers_count_iff Archive.vacant_blank hrun
    hfair'.written (hfair'.intact Archive.orders) hrest hadmitted
  refine ⟨m, hrun, hfair', hrest, hlength, found, e', hanswers, fun hfound => ?_⟩
  rw [hlength] at hright
  rcases hright.mp hfound with hsome | hnothing
  · rw [hresident] at hsome
    cases hsome
  · exact hwaiting hnothing

end Moment

end StreamStore
