import StreamStore.Proofs.Engine.Shifts
import StreamStore.Proofs.Storage.Commands
import StreamStore.Proofs.Storage.Midway

/-!
# A worker isolates failures

A worker that the disk fails at some batches drops these and goes on.  Once the queue is
closed it comes to its end, and then nothing is left in the queue, nothing is owed but for
what is announced and was not sent, the report adds up, and each stream has what it had
before and then the events of its batches that did not fail.  How the batches of one
stream fare does not depend on those of the others.
-/

namespace StreamStore

/-! ## Coming to the end -/

/-- How many steps a worker that is not finished takes at most until it receives again, and one
more. -/
def Working.left : Working → Nat
  | receiving => 1
  | writing _ .start => 6
  | writing _ .inLine => 5
  | writing _ (.unlocking _) => 4
  | writing _ (.done _) => 3
  | written _ => 2
  | finished => 0

namespace Shift

variable {x y : Shift} {moves : List ShiftMove} {settings : Settings} {archive : Archive}
  {clock : Int64}

/-- How many steps of the worker are left at most, when nothing more is sent. -/
def left (x : Shift) : Nat := 6 * x.engine.queue.batches.length + x.worker.phase.left

/-- Once the queue is closed, a worker that is not finished can take a step in any weather,
and then has fewer left. -/
theorem exists_work (hstaffed : x.Staffed) (hline : x.InLine)
    (hclosed : x.engine.queue.closed = true) (hphase : x.worker.phase ≠ .finished)
    (w : Weather) :
    ∃ y, x.move (.work w) = some y ∧ y.left < x.left ∧ y.engine.queue.closed = true := by
  have hreceived := hstaffed.receiving hphase
  simp only [move, Worker.step]
  cases hnow : x.worker.phase with
  | finished => exact absurd hnow hphase
  | receiving =>
      simp only [Worker.receive, hstaffed.source, WriteQueue.receive]
      rw [if_neg (by simp [hreceived])]
      cases hbatches : x.engine.queue.batches with
      | cons b rest =>
          refine ⟨_, rfl, ?_, hclosed⟩
          simp only [left, hnow, hbatches, Working.left, List.length_cons]
          omega
      | nil =>
          simp only [hclosed, if_true]
          refine ⟨_, rfl, ?_, hclosed⟩
          simp only [left, hnow, hbatches, Working.left, WriteQueue.abandon]
          omega
  | writing b phase =>
      cases phase with
      | start =>
          simp only [Persisting.result?, Persisting.step]
          by_cases hempty : b.events.isEmpty = true
          · rw [if_pos hempty]
            refine ⟨_, rfl, ?_, hclosed⟩
            simp only [left, hnow, Working.left]
            omega
          · rw [if_neg hempty]
            refine ⟨_, rfl, ?_, hclosed⟩
            simp only [left, hnow, Working.left, Engine.joinExtent]
            omega
      | inLine =>
          have hholds : x.engine.extents.holds b.stream 0 = true := by
            rw [LockTable.holds, hline b.stream, hnow, Working.lineFor, if_pos rfl]
            rfl
          simp only [Persisting.result?, Persisting.step]
          rw [if_pos hholds]
          refine ⟨_, rfl, ?_, hclosed⟩
          simp only [left, hnow, Working.left]
          omega
      | unlocking result =>
          refine ⟨_, rfl, ?_, hclosed⟩
          simp only [left, hnow, Working.left, Engine.leaveExtent]
          omega
      | done result =>
          refine ⟨_, rfl, ?_, hclosed⟩
          simp only [left, hnow, Working.left]
          omega
  | written b =>
      refine ⟨_, rfl, ?_, hclosed⟩
      simp only [left, hnow, Working.left, Engine.settleWrite]
      omega

/-- Steps of the worker in the weathers to come. -/
def works (weathers : Nat → Weather) (n : Nat) : List ShiftMove :=
  (List.range n).map fun i => .work (weathers i)

theorem works_succ (weathers : Nat → Weather) (n : Nat) :
    works weathers (n + 1) = .work (weathers 0) :: works (fun i => weathers (i + 1)) n := by
  rw [works, List.range_succ_eq_map, List.map_cons, List.map_map]
  rfl

/-- Once the queue is closed, the worker comes to its end whatever the weather. -/
theorem exists_finished (hstaffed : x.Staffed) (hline : x.InLine)
    (hclosed : x.engine.queue.closed = true) (weathers : Nat → Weather) :
    ∃ n y, x.play (works weathers n) = some y ∧ y.worker.phase = .finished := by
  generalize hleft : x.left = m
  induction m using Nat.strong_induction_on generalizing x weathers with
  | _ m ih =>
      by_cases hphase : x.worker.phase = .finished
      · exact ⟨0, x, rfl, hphase⟩
      · obtain ⟨y, hmove, hless, hclosed'⟩ :=
          exists_work hstaffed hline hclosed hphase (weathers 0)
        have hgoes := goes_of_work hstaffed hmove
        obtain ⟨n, z, hplay, hfinished⟩ := ih y.left (hleft ▸ hless) (hstaffed.goes hgoes)
          (hline.goes hgoes) hclosed' (fun i => weathers (i + 1)) rfl
        refine ⟨n + 1, z, ?_, hfinished⟩
        rw [works_succ, play, List.foldlM_cons, hmove]
        exact hplay

/-! ## All that a shift comes to -/

theorem dealt_reportOn (tries : List Try) : (reportOn tries).dealt = tries.length := by
  induction tries using List.reverseRecOn with
  | nil => rfl
  | append_singleton tries t ih =>
      rw [reportOn_concat, WriteReport.dealt_count, ih, List.length_append,
        List.length_singleton]

/-- The report counts the batches that were written, and their events. -/
theorem reportOn_eq (tries : List Try) :
    (reportOn tries).batchesWritten = (tries.filter Try.isWritten).length ∧
      (reportOn tries).eventsWritten =
        ((tries.filter Try.isWritten).map fun t => t.batch.events.length).sum := by
  induction tries using List.reverseRecOn with
  | nil => exact ⟨rfl, rfl⟩
  | append_singleton tries t ih =>
      obtain ⟨hbatches, hevents⟩ := ih
      rw [reportOn_concat, List.filter_append, List.length_append, List.map_append,
        List.sum_append, ← hbatches, ← hevents]
      cases hresult : t.result with
      | ok _ =>
          have hwritten : t.isWritten = true := by rw [Try.isWritten, hresult]; rfl
          rw [List.filter_cons_of_pos hwritten]
          exact ⟨rfl, rfl⟩
      | error fault =>
          have hwritten : ¬t.isWritten = true := by
            rw [Try.isWritten, hresult]
            exact Bool.false_ne_true
          rw [List.filter_cons_of_neg hwritten]
          exact ⟨rfl, rfl⟩

/-- What the end of the worker leaves behind, with what it reports. -/
structure Completes (x : Shift) (report : WriteReport) : Prop where
  queue_eq : x.engine.queue.batches = []
  tried_eq : x.tried.map (·.batch) = x.sent
  settled_eq : x.settled = x.sent
  news_eq : x.engine.backlog.news = x.sent.length
  count_eq : ∀ s, x.engine.backlog.count s = x.promised.count s
  isIdle : ∀ s, s ∉ x.promised → x.engine.backlog.isIdle s = true
  dealt_eq : report.batchesWritten + report.batchesFailed = x.sent.length
  written_eq : report.batchesWritten = (x.tried.filter Try.isWritten).length
  events_eq : report.eventsWritten =
    ((x.tried.filter Try.isWritten).map fun t => t.batch.events.length).sum

/-- What a worker at the queue does for every stream, at any time of its shift over an archive
that stored some events before. -/
structure Isolates (archive : Archive) (before : StreamId → List Event) (x : Shift) : Prop where
  /-- Batches are tried in the order of the queue, and counted off in that order. -/
  tried_prefix : x.tried.map (·.batch) <+: x.sent
  settled_prefix : x.settled <+: x.sent
  /-- Where no failed append of its own put down a header, a stream has what it had before and
  then the events of its batches that were written. -/
  tells : ∀ s, (∀ t ∈ Try.ofStream s x.tried, t.isQuiet = true) →
    x.engine.archive.Tells s (before s ++ Try.written s x.tried)
  reads : ∀ s, (∀ t ∈ Try.ofStream s x.tried, t.isQuiet = true) →
    (∀ e ∈ before s ++ Try.written s x.tried, e.type.utf8ByteSize ≤ maxEventTypeLength) →
    x.engine.archive.readAll s none none false = .ok (before s ++ Try.written s x.tried)
  /-- What becomes of the batches of a stream, and what its files hold, is the same as if they
  had been the only ones. -/
  alone : ∀ s, ∃ alone,
    archive.tryAll ((Try.ofStream s x.tried).map Try.request) = (Try.ofStream s x.tried, alone) ∧
    ∀ p, Extent.IsFileOf archive.base s p →
      x.engine.archive.disk.node? p = alone.disk.node? p
  /-- Once the queue is closed, the worker comes to its end whatever the weather. -/
  returns : x.engine.queue.closed = true → ∀ weathers, ∃ n y report,
    x.play (works weathers n) = some y ∧ y.worker.result? = some report
  completes : ∀ report, x.worker.result? = some report → x.Completes report

theorem phase_of_result {report : WriteReport} (h : x.worker.result? = some report) :
    x.worker.phase = .finished ∧ x.worker.report = report := by
  rw [Worker.result?] at h
  split at h
  next hphase =>
    cases h
    exact ⟨hphase, rfl⟩
  · cases h

theorem Kept.completes (h : x.Kept archive) {report : WriteReport}
    (hreport : x.worker.result? = some report) : x.Completes report := by
  obtain ⟨hphase, rfl⟩ := phase_of_result hreport
  have hdrained := h.books.drained hphase
  have htried := h.books.tried
  have hsettled := h.books.settled
  have hcount := h.owes.count
  rw [hphase, hdrained] at htried hsettled hcount
  simp only [Working.untried, Working.inHand, List.append_nil] at htried hsettled hcount
  have hzero : ∀ s, x.engine.backlog.count s = x.promised.count s := fun s => hcount s
  obtain ⟨counted, uncounted, hsplit, hcounted, houtcome⟩ := h.books.report
  rw [hphase] at houtcome
  rw [List.map_eq_nil_iff.mp houtcome, List.append_nil] at hsplit
  rw [← hsplit] at hcounted
  obtain ⟨hwritten, hevents⟩ := reportOn_eq x.tried
  have hdealt := dealt_reportOn x.tried
  rw [← hcounted] at hwritten hevents hdealt
  refine ⟨hdrained, htried, hsettled, ?_, hzero, fun s hs => ?_, ?_, hwritten, hevents⟩
  · rw [h.owes.news, hsettled]
  · rw [h.owes.positive.isIdle_iff, hzero, List.count_eq_zero_of_not_mem hs]
  · rw [← htried, List.length_map]
    exact hdealt

/-- The archive stays over the same base, and sound. -/
theorem Kept.sound (h : x.Kept archive) (hsound : archive.Sound) :
    x.engine.archive.base = archive.base ∧ x.engine.archive.Sound := by
  have hall := hsound.tryAll (x.tried.map Try.request)
  rw [h.follows] at hall
  exact hall

/-- For each stream it is as if its batches were the only ones. -/
theorem Kept.alone (h : x.Kept archive) (hsound : archive.Sound) (s : StreamId) :
    ∃ alone, archive.tryAll ((Try.ofStream s x.tried).map Try.request) =
        (Try.ofStream s x.tried, alone) ∧ Archive.Alike s x.engine.archive alone := by
  obtain ⟨htries, halike⟩ :=
    (Archive.Alike.refl hsound s).tryAll (x.tried.map Try.request)
  rw [h.follows, List.filter_map] at htries halike
  exact ⟨_, Prod.ext htries rfl, halike⟩

/-- Where no failed append of its own put down a header, a stream stores what it did before and
then the events of its batches that were written. -/
theorem Kept.stores (h : x.Kept archive) (hsound : archive.Sound) {s : StreamId}
    {stored : List Event} (hstores : Extent.Stores archive.disk archive.base s stored [])
    (hquiet : ∀ t ∈ Try.ofStream s x.tried, t.isQuiet = true) :
    Extent.Stores x.engine.archive.disk x.engine.archive.base s
      (stored ++ Try.written s x.tried) [] := by
  obtain ⟨alone, htries, halike⟩ := h.alone hsound s
  have hstored := hsound.stores_tryAll hstores ((Try.ofStream s x.tried).map Try.request)
    (by rw [htries]; exact hquiet)
  rw [htries, halike.base_eq] at hstored
  simp only [Try.written, Try.ofStream_ofStream] at hstored
  exact hstored.congr fun p hp => (halike.same p hp).symm

/-- Whatever is announced and sent, and whichever appends the disk fails, the worker isolates the
streams from each other's failures. -/
theorem isolates_of_play {start : Archive} {before : StreamId → List Event}
    (hvacant : start.disk.Vacant start.base) (hcache : start.cache.Sound)
    (hbefore : ∀ s, Archive.Appended s start (before s) archive)
    (hrun : (opening settings archive clock).play moves = some x) :
    x.Isolates archive before := by
  have hkept := kept_of_play hrun
  have hstart : start.Sound := ⟨hvacant.rooted, hcache⟩
  obtain ⟨-, hsound⟩ := (hbefore Archive.orders).sound hstart
  obtain ⟨hbase, hsound'⟩ := hkept.sound hsound
  have hstores : ∀ s, (∀ t ∈ Try.ofStream s x.tried, t.isQuiet = true) →
      Extent.Stores x.engine.archive.disk x.engine.archive.base s
        (before s ++ Try.written s x.tried) [] := fun s hquiet =>
    hkept.stores hsound
      ((hbefore s).stores hstart (Extent.stores_nil_of_vacant hvacant s)) hquiet
  constructor
  · exact ⟨_, hkept.books.tried⟩
  · exact ⟨_, hkept.books.settled⟩
  · exact fun s hquiet => Archive.tells_of_stores hsound' (hstores s hquiet)
  · exact fun s hquiet hfits =>
      Archive.readAll_of_fits hsound'.rooted (hstores s hquiet) hfits none none
  · intro s
    obtain ⟨alone, htries, halike⟩ := hkept.alone hsound s
    refine ⟨alone, htries, fun p hp => (halike.same p ?_).symm⟩
    rw [hbase]
    exact hp
  · intro hclosed weathers
    obtain ⟨n, y, hplay, hfinished⟩ :=
      exists_finished hkept.staffed hkept.inLine hclosed weathers
    refine ⟨n, y, y.worker.report, hplay, ?_⟩
    rw [Worker.result?, hfinished]
  · exact fun report hreport => hkept.completes hreport

/-- Another stream, of the same type. -/
def refunds : StreamId := ⟨Uuid.ofNat 2, Archive.orders.type⟩

/-- One completed append to an empty base directory. -/
theorem appended_once {e : Event}
    (hok : (Archive.blank.append Archive.orders [e] none).1 = .ok ()) (s : StreamId) :
    Archive.Appended s Archive.blank (if Archive.orders = s then [e] else [])
      (Archive.blank.append Archive.orders [e] none).2 := by
  have hrun : Archive.blank.append Archive.orders [e] none =
      (.ok (), (Archive.blank.append Archive.orders [e] none).2) := by
    rw [← hok]
  exact .step .refl hrun

/-- The disk fails the first batch among its records, while others are announced and sent. -/
def faltering : List ShiftMove :=
  [.announce refunds, .send ⟨refunds, [Archive.paid, Archive.placed]⟩, .work {}, .work {},
    .announce Archive.orders, .work { writeCut := some 70 },
    .send ⟨Archive.orders, [Archive.paid]⟩, .announce refunds, .work {},
    .send ⟨refunds, [Archive.placed]⟩, .close] ++ works (fun _ => {}) 15

theorem isolates_of_faltering :
    ∃ x, (opening {} Archive.placedOnce 0).play faltering = some x ∧
      x.worker.result? = some ⟨2, 2, 1⟩ ∧
      x.engine.archive.readAll Archive.orders none none false =
        .ok [Archive.placed, Archive.paid] ∧
      x.engine.archive.readAll refunds none none false = .ok [Archive.placed] ∧
      x.Isolates Archive.placedOnce
        fun s => if Archive.orders = s then [Archive.placed] else [] := by
  have hplay : ((opening {} Archive.placedOnce 0).play faltering).any (fun x =>
      x.worker.result? == some ⟨2, 2, 1⟩ &&
        decide (x.engine.archive.readAll Archive.orders none none false =
          .ok [Archive.placed, Archive.paid]) &&
        decide (x.engine.archive.readAll refunds none none false = .ok [Archive.placed])) =
      true := by
    decide +kernel
  obtain ⟨x, hrun, hx⟩ := (Option.any_eq_true _ _).mp hplay
  simp only [Bool.and_eq_true, beq_iff_eq, decide_eq_true_eq] at hx
  obtain ⟨⟨hreport, horders⟩, hreturns⟩ := hx
  exact ⟨x, hrun, hreport, horders, hreturns,
    isolates_of_play Archive.vacant_blank TypeCache.sound_empty
      (appended_once (by decide +kernel)) hrun⟩

/-- The archive after one completed append of an event with a type name that is too long. -/
def lengthyOnce : Archive := (Archive.blank.append Archive.orders [Archive.lengthy] none).2

/-- Two batches that are written, one of them with a type name that is too long. -/
def stretching : List ShiftMove :=
  [.announce Archive.orders, .send ⟨Archive.orders, [Archive.placed]⟩, .announce refunds,
    .send ⟨refunds, [Archive.lengthy]⟩, .close] ++ works (fun _ => {}) 13

/-- A type name that does not fit comes back whole neither from before nor from a batch. -/
theorem reads_ne_of_lengthy :
    Archive.blank.disk.Vacant Archive.blank.base ∧
      (∀ s, Archive.Appended s Archive.blank
        (if Archive.orders = s then [Archive.lengthy] else []) lengthyOnce) ∧
      ∃ x, (opening {} lengthyOnce 0).play stretching = some x ∧
        x.worker.result? = some ⟨2, 2, 0⟩ ∧
        Try.written Archive.orders x.tried = [Archive.placed] ∧
        x.engine.archive.readAll Archive.orders none none false ≠
          .ok ([Archive.lengthy] ++ [Archive.placed]) ∧
        Try.written refunds x.tried = [Archive.lengthy] ∧
        x.engine.archive.readAll refunds none none false ≠ .ok ([] ++ [Archive.lengthy]) := by
  refine ⟨Archive.vacant_blank, appended_once (by decide +kernel), ?_⟩
  have hplay : ((opening {} lengthyOnce 0).play stretching).any (fun x =>
      x.worker.result? == some ⟨2, 2, 0⟩ &&
        decide (Try.written Archive.orders x.tried = [Archive.placed]) &&
        decide (x.engine.archive.readAll Archive.orders none none false ≠
          .ok ([Archive.lengthy] ++ [Archive.placed])) &&
        decide (Try.written refunds x.tried = [Archive.lengthy]) &&
        decide (x.engine.archive.readAll refunds none none false ≠
          .ok ([] ++ [Archive.lengthy]))) = true := by
    decide +kernel
  obtain ⟨x, hrun, hx⟩ := (Option.any_eq_true _ _).mp hplay
  simp only [Bool.and_eq_true, beq_iff_eq, decide_eq_true_eq] at hx
  obtain ⟨⟨⟨⟨hreport, hplaced⟩, horders⟩, hlengthy⟩, hreturns⟩ := hx
  exact ⟨x, hrun, hreport, hplaced, horders, hlengthy, hreturns⟩

end Shift

end StreamStore
