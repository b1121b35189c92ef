import StreamStore.Proofs.Engine.Reports
import StreamStore.Proofs.Storage.Crash

/-!
# Nothing is lost, doubled or reordered

Of a run over an empty directory in which every batch that is dealt with is written,
and every removal succeeds: what is on disk for a stream, and then what is on its way
there, is the history of the stream at all times; so is the entry that the cache holds
for it, except between the moment at which an append hands its events off and the one
at which it puts them in; and every page that a reader reports is a slice of the
history at some moment between its start and its end.
-/

namespace StreamStore

/-! ## Histories without removals -/

namespace Log

/-- The events of a stream that a happening hands off. -/
def handedOff (s : StreamId) : Happening → List Event
  | .admitted _ r events => if r.stream = s then events else []
  | _ => []

/-- As long as a stream is not removed, its history goes on by all that is handed off for
it, in order. -/
theorem history_append_eq_append {s : StreamId} (log : List Happening)
    {later : List Happening} (hkept : ∀ t, Happening.removed t s ∉ later) :
    history s (log ++ later) = history s log ++ later.flatMap (handedOff s) := by
  induction later using List.reverseRecOn with
  | nil => rw [List.append_nil, List.flatMap_nil, List.append_nil]
  | append_singleton later happening ih =>
      have hbefore : ∀ t, Happening.removed t s ∉ later := fun t hmem =>
        hkept t (List.mem_append_left _ hmem)
      rw [← List.append_assoc, history_append, ih hbefore, List.flatMap_append,
        List.flatMap_singleton, ← List.append_assoc]
      cases happening with
      | admitted t r events =>
          simp only [List.foldl_cons, List.foldl_nil, remember, handedOff]
          split
          · rfl
          · rw [List.append_nil]
      | removed t s' =>
          have hs : s' ≠ s := by
            rintro rfl
            exact hkept t (List.mem_append_right later List.mem_cons_self)
          exact (if_neg hs).trans (List.append_nil _).symm
      | _ => exact (List.append_nil _).symm

theorem history_eq_flatMap {s : StreamId} {log : List Happening}
    (hkept : ∀ t, Happening.removed t s ∉ log) : history s log = log.flatMap (handedOff s) :=
  history_append_eq_append [] hkept

end Log

/-! ## Onlookers -/

/-- The stance of a task that at most looks at what others write: it has no batch and
handed nothing off, and stands in the line of an entry only to read it. -/
structure Stance.Onlooks (σ : Stance) : Prop where
  load : σ.load = []
  handed : σ.handed? = none
  place : ∀ n access, σ.place? = some (n, access) → access = .read

theorem Residence.onlooks_stance (s : StreamId) (residence : Residence) :
    (residence.stance s).Onlooks := by
  cases residence with
  | asking phase =>
      cases phase with
      | leaving result => cases result <;> exact ⟨rfl, rfl, nofun⟩
      | done result => cases result <;> exact ⟨rfl, rfl, nofun⟩
      | _ => exact ⟨rfl, rfl, nofun⟩
  | _ => exact ⟨rfl, rfl, nofun⟩

theorem Reading.onlooks_stance {α : Type} (s : StreamId) (n : EntryId)
    (phase : Reading α) : (phase.stance s n).Onlooks := by
  constructor
  · cases phase <;> rfl
  · cases phase <;> rfl
  · intro n' access hplace
    cases phase <;> cases hplace <;> rfl

theorem Counting.onlooks_stance (s : StreamId) (phase : Counting) :
    (phase.stance s).Onlooks := by
  cases phase with
  | reading n phase => exact Reading.onlooks_stance s n phase
  | _ => exact ⟨rfl, rfl, nofun⟩

namespace Work

/-- Whether work neither adds to a stream, nor removes one, nor writes back. -/
def onlooks : Work → Bool
  | append .. => false
  | remove .. => false
  | writeBack _ => false
  | _ => true

theorem onlooks_stance {work : Work} (h : work.onlooks = true) : work.stance.Onlooks := by
  cases work with
  | append r phase => cases h
  | page r phase =>
      cases phase with
      | finding residence => exact Residence.onlooks_stance r.stream residence
      | reading n phase => exact Reading.onlooks_stance r.stream n phase
      | _ => exact ⟨rfl, rfl, nofun⟩
  | measure s phase =>
      cases phase with
      | finding residence => exact Residence.onlooks_stance s residence
      | reading n phase => exact Reading.onlooks_stance s n phase
      | done result => exact ⟨rfl, rfl, nofun⟩
  | peek s phase =>
      cases phase with
      | reading n phase => exact Reading.onlooks_stance s n phase
      | _ => exact ⟨rfl, rfl, nofun⟩
  | count s phase => exact Counting.onlooks_stance s phase
  | list filter phase =>
      cases phase with
      | counting s phase rest found => exact Counting.onlooks_stance s phase
      | _ => exact ⟨rfl, rfl, nofun⟩
  | remove s phase => cases h
  | writeBack worker => cases h
  | _ => exact ⟨rfl, rfl, nofun⟩

/-! ## What is on its way -/

/-- The batch that a worker holds and has not written yet. -/
def unwritten : Work → List Batch
  | writeBack ⟨_, .writing b .start, _⟩ => [b]
  | writeBack ⟨_, .writing b .inLine, _⟩ => [b]
  | _ => []

/-- Only the worker has a batch to write. -/
theorem load_stance (work : Work) : work.stance.load = work.unwritten := by
  cases work with
  | append r phase =>
      cases phase with
      | finding residence => exact (Residence.onlooks_stance r.stream residence).load
      | _ => rfl
  | remove s phase =>
      cases phase with
      | retiring phase => cases phase <;> rfl
      | _ => rfl
  | writeBack worker =>
      obtain ⟨source, phase, report⟩ := worker
      cases phase with
      | writing b phase => cases phase <;> rfl
      | _ => rfl
  | _ => exact (onlooks_stance rfl).load

/-- Only an append has handed events off. -/
theorem eq_queued_of_handed? {work : Work} {n : EntryId} {events : List Event}
    (h : work.stance.handed? = some (n, events)) : ∃ r, work = append r (.queued n events) := by
  cases work with
  | append r phase =>
      cases phase with
      | finding residence =>
          have hnone := (Residence.onlooks_stance r.stream residence).handed
          cases hnone.symm.trans h
      | queued n' events' =>
          cases h
          exact ⟨r, rfl⟩
      | _ => cases h
  | remove s phase =>
      cases phase with
      | retiring phase => cases phase <;> cases h
      | _ => cases h
  | writeBack worker =>
      obtain ⟨source, phase, report⟩ := worker
      cases phase with
      | writing b phase => cases phase <;> cases h
      | _ => cases h
  | _ => cases (onlooks_stance rfl).handed.symm.trans h

end Work

namespace Moment

/-- The batches on their way to disk, in order: the one that the worker holds and has
not written yet, and those in the queue. -/
def transit (m : Moment) : List Batch :=
  ((m.system.task? 0).elim [] (·.work.unwritten)) ++ m.system.engine.queue.batches

theorem transit_eq (m : Moment) : m.system.engine.transit m.stances = m.transit := by
  rw [transit, Engine.transit, stances]
  cases m.system.task? 0 with
  | none => rfl
  | some task => exact congrArg (· ++ _) (Work.load_stance task.work)

variable {m : Moment} {log : List Happening} {s : StreamId}

/-- What is on disk can be read, and what is on its way completes the history. -/
theorem readAll_of_keeps (hkeeps : m.system.engine.Keeps m.stances log s)
    (hsound : m.system.engine.archive.Sound) :
    ∃ stored, m.system.engine.archive.readAll s none none false = .ok stored ∧
      stored ++ Batch.eventsOf s m.transit = Log.history s log := by
  rw [← transit_eq]
  exact hkeeps.exists_readAll hsound

theorem exists_readAll (hfaithful : m.system.engine.Faithful m.stances log) (s : StreamId) :
    ∃ stored, m.system.engine.archive.readAll s none none false = .ok stored ∧
      stored ++ Batch.eventsOf s m.transit = Log.history s log :=
  readAll_of_keeps (hfaithful.keeps s) hfaithful.sound

/-- A resident entry has the history, or will have it once its writer has put in what it
handed off. -/
theorem resident_of_keeps (hkeeps : m.system.engine.Keeps m.stances log s)
    {n : EntryId} (hresident : m.system.engine.resident? s = some n) :
    (m.system.engine.entry n).events <+: Log.history s log ∧
      ((∀ t task r events, m.system.task? t = some task →
        task.work ≠ .append r (.queued n events)) →
        (m.system.engine.entry n).events = Log.history s log) := by
  have hshows := hkeeps.shows n (.inl hresident)
  refine ⟨hshows.isPrefix, fun hnobody => ?_⟩
  generalize Log.history s log = shown at hshows
  cases hshows with
  | @halfway t events hwriter =>
      rw [stances] at hwriter
      cases htask : m.system.task? t with
      | none =>
          rw [htask] at hwriter
          cases hwriter
      | some task =>
          rw [htask] at hwriter
          obtain ⟨r, hwork⟩ := Work.eq_queued_of_handed? hwriter
          exact absurd hwork (hnobody t task r events htask)
  | whole hnone => rfl

theorem prefix_of_resident (hfaithful : m.system.engine.Faithful m.stances log)
    {n : EntryId} (hresident : m.system.engine.resident? s = some n) :
    (m.system.engine.entry n).events <+: Log.history s log ∧
      ((∀ t task r events, m.system.task? t = some task →
        task.work ≠ .append r (.queued n events)) →
        (m.system.engine.entry n).events = Log.history s log) :=
  resident_of_keeps (hfaithful.keeps s) hresident

/-! ## Whole runs -/

/-- A history is all that was handed off, and disk, queue, cache and reports agree with
the histories of all streams. -/
structure KeepsHistories (m : Moment) : Prop where
  history : ∀ s, (∀ t, .removed t s ∉ m.log) →
    Log.history s m.log = m.log.flatMap (Log.handedOff s)
  stored : ∀ s, ∃ stored,
    m.system.engine.archive.readAll s none none false = .ok stored ∧
      stored ++ Batch.eventsOf s m.transit = Log.history s m.log
  resident : ∀ s n, m.system.engine.resident? s = some n →
    (∀ t task r events, m.system.task? t = some task →
      task.work ≠ .append r (.queued n events)) →
    (m.system.engine.entry n).events = Log.history s m.log
  page : ∀ before t r page after,
    m.log = before ++ .ended t (.page r (.done (.ok page))) :: after →
    ∃ since, since <+: before ∧ .started t (.page r .start) ∈ since ∧
      page = Page.slice (Log.history r.stream since) r.start r.direction r.limit

theorem keepsHistories_of_play {settings : Settings} {archive : Archive} {clock : Int64}
    {moves : List Move} (hvacant : archive.disk.Vacant archive.base)
    (hrun : (opening settings archive clock).play moves = some m)
    (hfair : Log.Fair m.log) : m.KeepsHistories := by
  obtain ⟨hfaithful, -⟩ := faithful_of_play hvacant hrun hfair
  obtain ⟨-, hright⟩ := right_of_play hvacant hrun hfair
  constructor
  · intro s hkept
    exact Log.history_eq_flatMap hkept
  · exact exists_readAll hfaithful
  · intro s n hresident
    exact (prefix_of_resident hfaithful hresident).2
  · intro before t r page after hlog
    exact (hright before _ after hlog).2 page rfl

/-- An event is appended and written to disk, its entry evicted, and the stream read
again. -/
def rereading : List Move :=
  [.start (.append ⟨Archive.orders, [⟨"placed", [1]⟩], none⟩ .start) false] ++
    List.replicate 17 (.step 1 {}) ++ List.replicate 6 (.step 0 {}) ++
    [.evict 1, .start (.page ⟨Archive.orders, 0, .forward, 10⟩ .start) false] ++
    List.replicate 13 (.step 2 {})

theorem keepsHistories_of_rereading :
    ∃ m, (opening {} Archive.blank 0).play rereading = some m ∧ m.log.length = 5 ∧
      Log.Fair m.log ∧ m.KeepsHistories := by
  have hplayed : ((opening {} Archive.blank 0).play rereading).any (fun m =>
      m.log.length == 5 && m.log.all Log.isFair) = true := by
    decide +kernel
  obtain ⟨m, hrun, hm⟩ := (Option.any_eq_true _ _).mp hplayed
  obtain ⟨hlength, hfair⟩ := Bool.and_eq_true_iff.mp hm
  have hfair' : Log.Fair m.log := List.all_eq_true.mp hfair
  exact ⟨m, hrun, eq_of_beq hlength, hfair',
    keepsHistories_of_play Archive.vacant_blank hrun hfair'⟩

/-- An event is appended and written to disk.  Then its stream is to be removed, and the same
stands in the way of each attempt, so the removal fails. -/
def removingInVain (hindrances : Interference) : List Move :=
  [.start (.append ⟨Archive.orders, [⟨"placed", [1]⟩], none⟩ .start) false] ++
    List.replicate 17 (.step 1 {}) ++ List.replicate 6 (.step 0 {}) ++
    [.start (.remove Archive.orders (.retiring .start)) false] ++
    List.replicate 11 (.step 2 { removal := fun _ => hindrances })

end Moment

end StreamStore
