import StreamStore.Proofs.Engine.Hydration
import StreamStore.Proofs.Engine.Opening

/-!
# Going on from what is on disk

A run over a disk that recalls the past of a stream goes on with the stream's history:
what is on disk, what the cache holds and what readers get continue it.  Once everything
is written, a disk recalls all that was handed off; so a store that is opened over it
serves just the histories there were.
-/

namespace StreamStore

/-! ## The record of a log -/

namespace Log

/-- Whether a happening makes a difference to what is on disk of a stream. -/
def isRecorded : Happening → Bool
  | .admitted .. => true
  | .removed .. => true
  | .unremoved .. => true
  | _ => false

/-- What a log says of streams, without the tasks that started and ended. -/
def record (log : List Happening) : List Happening := log.filter isRecorded

variable (s : StreamId) (past log : List Happening)

theorem history_record : history s (record past) = history s past := by
  rw [history, record, List.foldl_filter, history]
  refine congrArg (List.foldl · [] past) (funext fun events => funext fun happening => ?_)
  cases happening <;> rfl

theorem history_record_append : history s (record past ++ log) = history s (past ++ log) := by
  rw [history_append, history_record, history_append]

theorem foldl_doubt_record : (record past).foldl (doubt s) false = past.foldl (doubt s) false := by
  rw [record, List.foldl_filter]
  refine congrArg (List.foldl · false past) (funext fun doubtful => funext fun happening => ?_)
  cases happening <;> rfl

theorem intact_record_append : Intact s (record past ++ log) ↔ Intact s (past ++ log) := by
  rw [Intact, List.foldl_append, foldl_doubt_record, Intact, List.foldl_append]

theorem started_notMem_record (t : TaskId) (work : Work) : .started t work ∉ record past := by
  intro hmem
  cases (List.mem_filter.mp hmem).2

end Log

/-- A reader that did not start in the past saw a history that goes on from there. -/
theorem PageRequest.SeenIn.after {r : PageRequest} {t : TaskId}
    {past before : List Happening} {page : List Event} (h : r.SeenIn t (past ++ before) page)
    (hunstarted : .started t (.page r .start) ∉ past) :
    ∃ since, since <+: before ∧ .started t (.page r .start) ∈ since ∧
      (Log.Intact r.stream (past ++ since) → page = Page.slice
        (Log.history r.stream (past ++ since)) r.start r.direction r.limit) := by
  obtain ⟨pre, hfirst, hstarted, hpage⟩ := h
  rcases List.prefix_or_prefix_of_prefix hfirst (List.prefix_append past before) with
    hearly | ⟨since, rfl⟩
  · exact absurd (hearly.subset hstarted) hunstarted
  · exact ⟨since, (List.prefix_append_right_inj past).mp hfirst,
      (List.mem_append.mp hstarted).resolve_left hunstarted, hpage⟩

namespace Archive.Recalls

variable {a : Archive} {past : List Happening} {s : StreamId}

/-- What is on disk is read as it was handed off. -/
theorem readAll_eq (h : a.Recalls past) (hintact : Log.Intact s past) (skip take : Option Nat) :
    a.readAll s skip take false = .ok (Extent.slice skip take (Log.history s past)) :=
  Archive.readAll_of_fits h.rooted (h.stores s hintact) (h.fits s hintact) skip take

theorem record (h : a.Recalls past) : a.Recalls (Log.record past) where
  rooted := h.rooted
  stores := fun s hintact => by
    rw [Log.history_record]
    exact h.stores s ((Log.foldl_doubt_record s past).symm.trans hintact)
  fits := fun s hintact => by
    rw [Log.history_record]
    exact h.fits s ((Log.foldl_doubt_record s past).symm.trans hintact)

end Archive.Recalls

namespace Moment

variable {settings : Settings} {archive : Archive} {clock : Int64} {moves : List Move}
  {m : Moment} {past : List Happening}

/-- The history of a stream goes on from a past: with what is on disk and on its way
there, in what a resident entry has and in what readers get. -/
structure Continues (m : Moment) (past : List Happening) (s : StreamId) : Prop where
  stored : Log.Intact s (past ++ m.log) → ∃ stored,
    m.system.engine.archive.readAll s none none false = .ok stored ∧
      stored ++ Batch.eventsOf s m.transit = Log.history s (past ++ m.log)
  resident : Log.Intact s (past ++ m.log) → ∀ n, m.system.engine.resident? s = some n →
    (∀ t task r events, m.system.task? t = some task →
      task.work ≠ .append r (.queued n events)) →
    (m.system.engine.entry n).events = Log.history s (past ++ m.log)
  page : ∀ before t r page after, r.stream = s →
    m.log = before ++ .ended t (.page r (.done (.ok page))) :: after →
    (∀ since, since <+: before → .started t (.page r .start) ∈ since →
      Log.Intact s (past ++ since)) →
    ∃ since, since <+: before ∧ .started t (.page r .start) ∈ since ∧
      page = Page.slice (Log.history s (past ++ since)) r.start r.direction r.limit

theorem continues_of_play (hrecalls : archive.Recalls (Log.record past))
    (hrun : (opening settings archive clock).play moves = some m)
    (hwritten : Log.Written m.log) (s : StreamId) : m.Continues past s := by
  obtain ⟨⟨-, hsound⟩, hkept⟩ := keeps_of_play hrecalls hrun hwritten
  obtain ⟨hkeeps, -⟩ := hkept s
  rw [Log.intact_record_append] at hkeeps
  obtain ⟨-, hnoted⟩ := agrees_of_play hrecalls hrun hwritten
  refine ⟨fun hintact => ?_, fun hintact n hresident => ?_,
    fun before t r page after hr hlog hintact => ?_⟩
  · rw [← Log.history_record_append]
    exact readAll_of_keeps (hkeeps hintact) hsound
  · rw [← Log.history_record_append]
    exact (resident_of_keeps (hkeeps hintact) hresident).2
  · subst hr
    obtain ⟨-, hseen⟩ := hnoted before _ after hlog
    obtain ⟨since, hfirst, hstarted, hpage⟩ :=
      (hseen page rfl).after (Log.started_notMem_record past t _)
    rw [Log.intact_record_append, Log.history_record_append] at hpage
    exact ⟨since, hfirst, hstarted, hpage (hintact since hfirst hstarted)⟩

/-- Once nothing is on its way any more, the disk recalls all that was handed off. -/
theorem recalls_of_drained (hrecalls : archive.Recalls past)
    (hrun : (opening settings archive clock).play moves = some m)
    (hwritten : Log.Written m.log) (hdrained : m.IsDrained) :
    Archive.Recalls { base := archive.base, disk := m.system.engine.archive.disk }
      (past ++ m.log) := by
  obtain ⟨⟨hbase, hsound⟩, hkept⟩ := keeps_of_play hrecalls hrun hwritten
  refine ⟨?_, fun s hintact => ?_, fun s hintact => ((hkept s).1 hintact).fits⟩
  · rw [← hbase]
    exact hsound.rooted
  · obtain ⟨stored, hstores, heq⟩ := ((hkept s).1 hintact).stored
    rw [transit_eq, hdrained.transit_eq_nil] at heq
    rw [← heq, ← hbase]
    exact (List.append_nil stored).symm ▸ hstores

/-- What was handed off is on disk, and a store that is opened over the disk serves just
that; but where a removal failed since a stream was last removed, nothing is said of the
stream. -/
structure Survives (m : Moment) (base : Path) : Prop where
  stored : ∀ s, Log.Intact s m.log →
    m.system.engine.archive.readAll s none none false = .ok (Log.history s m.log)
  reopened : ∀ settings clock, settings.validate = .ok () → ∃ store,
    Store.open? settings m.system.engine.archive.disk base clock = .ok store ∧
      (∀ r : PageRequest, Log.Intact r.stream m.log → 0 ≤ r.start →
        ∃ e', store.system.engine.Answers store.system.nextTask (.page r .start) (.events (.ok
          (Page.slice (Log.history r.stream m.log) r.start r.direction r.limit))) e') ∧
      ∀ moves m', (Moment.mk store.system []).play moves = some m' →
        Log.Written m'.log → ∀ s, m'.Continues m.log s

theorem survives_of_drained (hvacant : archive.disk.Vacant archive.base)
    (hrun : (opening settings archive clock).play moves = some m)
    (hwritten : Log.Written m.log) (hdrained : m.IsDrained) : m.Survives archive.base := by
  have hpast := Archive.recalls_of_vacant hvacant
  have hrecalls := recalls_of_drained hpast hrun hwritten hdrained
  obtain ⟨⟨hbase, -⟩, -⟩ := keeps_of_play hpast hrun hwritten
  constructor
  · intro s hintact
    rw [← hbase] at hrecalls
    exact hrecalls.readAll_eq hintact none none
  · intro settings clock hvalid
    refine ⟨_, Store.open?_eq hrecalls.rooted.base_lookup hvalid clock,
      fun r hintact hstart => ?_, fun moves m' hrun' hwritten' s => ?_⟩
    · exact Engine.answers_page_ofArchive hstart (hrecalls.readAll_eq hintact none none)
        settings clock _
    · exact continues_of_play hrecalls.record hrun' hwritten' s

end Moment

end StreamStore
