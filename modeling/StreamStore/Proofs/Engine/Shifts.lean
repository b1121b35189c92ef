import StreamStore.Proofs.Engine.Pending
import StreamStore.Proofs.Engine.Tries
import StreamStore.Proofs.Runs

/-!
# The shift of a worker

A worker at the write queue, with those who announce batches and send them.  In whatever
order they move, what the worker tried, what it counted off and what it reports are the
batches that were sent, up to the one in its hands and those that wait; what is owed to a
stream are the batches that were announced and not counted off; and the files are what
the tries made of them, whether or not the disk failed some.
-/

namespace StreamStore

/-! ## What the worker is about -/

namespace Working

/-- What is known to have become of the batch that is not counted yet. -/
def outcome? : Working → Option (Batch × Except StorageFault Unit)
  | writing b (.unlocking result) => some (b, result)
  | writing b (.done result) => some (b, result)
  | _ => none

/-- The batch that was taken and not tried yet. -/
def untried : Working → List Batch
  | writing b .start => [b]
  | writing b .inLine => [b]
  | _ => []

/-- The line for a stream's files, where nobody else stands in it. -/
def lineFor (s : StreamId) : Working → List TaskId
  | writing b .inLine => if b.stream = s then [0] else []
  | writing b (.unlocking _) => if b.stream = s then [0] else []
  | _ => []

end Working

/-! ## Shifts -/

/-- A worker at the write queue of an engine, with notes of what was done. -/
structure Shift where
  engine : Engine
  worker : Worker := {}
  /-- The streams of the batches that were announced and are not sent yet. -/
  promised : List StreamId := []
  /-- The batches that the queue took, in order. -/
  sent : List Batch := []
  /-- What the worker tried, in order. -/
  tried : List Try := []
  /-- The batches that the worker counted off, in order. -/
  settled : List Batch := []

/-- What may happen during a shift. -/
inductive ShiftMove
  /-- A batch of a stream is announced. -/
  | announce (s : StreamId)
  /-- A batch that was announced is sent. -/
  | send (b : Batch)
  | close
  /-- The worker takes a step. -/
  | work (w : Weather)

namespace Shift

/-- A worker about to begin, over the files of an archive. -/
def opening (settings : Settings) (archive : Archive) (clock : Int64) : Shift where
  engine := { Engine.ofArchive settings archive clock with archive }

/-- What the worker's step to another state brings to light about the batch in its hands. -/
def newTries (x : Shift) (w : Weather) (e : Engine) (k : Worker) : List Try :=
  match x.worker.phase.outcome?, k.phase.outcome? with
  | none, some (b, result) => [⟨b, w.writeCut, result,
      e.archive.headersLength b.stream - x.engine.archive.headersLength b.stream⟩]
  | _, _ => []

def move (x : Shift) : ShiftMove → Option Shift
  | .announce s => some { x with engine := x.engine.announce s, promised := s :: x.promised }
  | .send b =>
    if b.stream ∈ x.promised then
      match x.engine.queue.send b with
      | .ok queue => some { x with
          engine := { x.engine with queue }
          promised := x.promised.erase b.stream
          sent := x.sent ++ [b] }
      | .error _ => none
    else none
  | .close => some { x with engine := { x.engine with queue := x.engine.queue.close } }
  | .work w => (x.worker.step x.engine 0 w).map fun (e, k) => { x with
      engine := e
      worker := k
      tried := x.tried ++ x.newTries w e k
      settled := x.settled ++ x.worker.phase.counted }

def play (x : Shift) (moves : List ShiftMove) : Option Shift := moves.foldlM move x

/-! ## One move -/

/-- What one move makes of a shift. -/
inductive Goes (x : Shift) : Shift → Prop
  | announce (s : StreamId) :
      Goes x { x with engine := x.engine.announce s, promised := s :: x.promised }
  | send {b : Batch} (hpromised : b.stream ∈ x.promised)
      (hreceived : x.engine.queue.received = true) :
      Goes x { x with
        engine := { x.engine with
          queue := { x.engine.queue with batches := x.engine.queue.batches ++ [b] } }
        promised := x.promised.erase b.stream
        sent := x.sent ++ [b] }
  | close : Goes x { x with engine := { x.engine with queue := x.engine.queue.close } }
  | take {b : Batch} {rest : List Batch} (hphase : x.worker.phase = .receiving)
      (hbatches : x.engine.queue.batches = b :: rest) :
      Goes x { x with
        engine := { x.engine with queue := { x.engine.queue with batches := rest } }
        worker := { x.worker with phase := .writing b .start } }
  | finish (hphase : x.worker.phase = .receiving) (hbatches : x.engine.queue.batches = []) :
      Goes x { x with
        engine := { x.engine with queue := x.engine.queue.abandon }
        worker := { x.worker with phase := .finished } }
  | skip {b : Batch} {cut : Option Nat} {t : Try} (hphase : x.worker.phase = .writing b .start)
      (htry : x.engine.archive.tryBatch b cut = (t, x.engine.archive)) :
      Goes x { x with
        worker := { x.worker with phase := .writing b (.done t.result) }
        tried := x.tried ++ [t] }
  | join {b : Batch} (hphase : x.worker.phase = .writing b .start) (hne : b.events ≠ []) :
      Goes x { x with
        engine := x.engine.joinExtent b.stream 0
        worker := { x.worker with phase := .writing b .inLine } }
  | write {b : Batch} {cut : Option Nat} {t : Try} {archive : Archive}
      (hphase : x.worker.phase = .writing b .inLine)
      (htry : x.engine.archive.tryBatch b cut = (t, archive)) :
      Goes x { x with
        engine := { x.engine with archive }
        worker := { x.worker with phase := .writing b (.unlocking t.result) }
        tried := x.tried ++ [t] }
  | unlock {b : Batch} {result : Except StorageFault Unit}
      (hphase : x.worker.phase = .writing b (.unlocking result)) :
      Goes x { x with
        engine := x.engine.leaveExtent b.stream 0
        worker := { x.worker with phase := .writing b (.done result) } }
  | count {b : Batch} {result : Except StorageFault Unit}
      (hphase : x.worker.phase = .writing b (.done result)) :
      Goes x { x with worker := { x.worker with
        phase := .written b
        report := x.worker.report.count b result } }
  | settle {b : Batch} (hphase : x.worker.phase = .written b) :
      Goes x { x with
        engine := x.engine.settleWrite b.stream
        worker := { x.worker with phase := .receiving }
        settled := x.settled ++ [b] }

/-- A worker that is at the queue, which is received from until the worker is finished. -/
structure Staffed (x : Shift) : Prop where
  source : x.worker.source = .queue
  received : x.engine.queue.received = false ↔ x.worker.phase = .finished
  writing : ∀ b, x.worker.phase = .writing b .inLine → b.events ≠ []

variable {x y : Shift} {mv : ShiftMove} {moves : List ShiftMove} {settings : Settings}
  {archive : Archive} {clock : Int64}

theorem Staffed.receiving (h : x.Staffed) (hphase : x.worker.phase ≠ .finished) :
    x.engine.queue.received = true := by
  rw [← Bool.not_eq_false, h.received]
  exact hphase

theorem goes_of_work (h : x.Staffed) {w : Weather} (hmove : x.move (.work w) = some y) :
    x.Goes y := by
  obtain ⟨⟨e, k⟩, hstep, rfl⟩ := Option.map_eq_some_iff.mp hmove
  have hkeep := List.append_nil x.tried
  have hkeep' := List.append_nil x.settled
  cases hphase : x.worker.phase with
  | receiving =>
      have hreceived := h.receiving (by simp [hphase])
      simp only [Worker.step, hphase, Worker.receive, h.source, WriteQueue.receive] at hstep
      rw [if_neg (by simp [hreceived])] at hstep
      cases hbatches : x.engine.queue.batches with
      | cons b rest =>
          rw [hbatches] at hstep
          cases hstep
          simp only [newTries, hphase, Working.outcome?, Working.counted, hkeep, hkeep']
          rw [← h.source]
          exact .take hphase hbatches
      | nil =>
          rw [hbatches] at hstep
          cases hclosed : x.engine.queue.closed with
          | true =>
              simp only [hclosed, if_true] at hstep
              cases hstep
              simp only [newTries, hphase, Working.outcome?, Working.counted, hkeep, hkeep']
              rw [← h.source]
              exact .finish hphase hbatches
          | false =>
              rw [hclosed] at hstep
              cases hstep
  | writing b phase =>
      simp only [Worker.step, hphase] at hstep
      cases phase with
      | start =>
          simp only [Persisting.result?, Persisting.step] at hstep
          by_cases hempty : b.events.isEmpty = true
          · rw [if_pos hempty] at hstep
            cases hstep
            simp only [newTries, hphase, Working.outcome?, Working.counted, hkeep']
            exact .skip hphase (Archive.tryBatch_of_writeBatch (if_pos hempty))
          · rw [if_neg hempty] at hstep
            cases hstep
            simp only [newTries, hphase, Working.outcome?, Working.counted, hkeep, hkeep']
            exact .join hphase fun hnil => hempty (List.isEmpty_iff.mpr hnil)
      | inLine =>
          simp only [Persisting.result?, Persisting.step] at hstep
          by_cases hholds : x.engine.extents.holds b.stream 0 = true
          · rw [if_pos hholds] at hstep
            cases hstep
            simp only [newTries, hphase, Working.outcome?, Working.counted, hkeep']
            have hne := h.writing b hphase
            exact .write hphase (Archive.tryBatch_of_writeBatch (if_neg (by simpa using hne)))
          · rw [if_neg hholds] at hstep
            cases hstep
      | unlocking result =>
          cases hstep
          simp only [newTries, hphase, Working.outcome?, Working.counted, hkeep, hkeep']
          exact .unlock hphase
      | done result =>
          cases hstep
          simp only [newTries, hphase, Working.outcome?, Working.counted, hkeep, hkeep']
          exact .count hphase
  | written b =>
      simp only [Worker.step, hphase] at hstep
      cases hstep
      simp only [newTries, hphase, Working.outcome?, Working.counted, hkeep]
      exact .settle hphase
  | finished =>
      simp only [Worker.step, hphase] at hstep
      cases hstep

theorem goes_of_move (h : x.Staffed) (hmove : x.move mv = some y) : x.Goes y := by
  cases mv with
  | announce s =>
      cases hmove
      exact .announce s
  | send b =>
      rw [move] at hmove
      split at hmove
      next hpromised =>
        cases hsend : x.engine.queue.send b with
        | error refusal =>
            rw [hsend] at hmove
            cases hmove
        | ok queue =>
            rw [hsend] at hmove
            cases hmove
            rw [WriteQueue.send_eq_ok hsend]
            exact .send hpromised (WriteQueue.received_of_send hsend)
      · cases hmove
  | close =>
      cases hmove
      exact .close
  | work w => exact goes_of_work h hmove

/-! ## The books -/

theorem staffed_opening : (opening settings archive clock).Staffed where
  source := rfl
  received := ⟨nofun, nofun⟩
  writing := nofun

theorem Staffed.goes (h : x.Staffed) (hgoes : x.Goes y) : y.Staffed := by
  cases hgoes with
  | announce s => exact ⟨h.source, h.received, h.writing⟩
  | send => exact ⟨h.source, h.received, h.writing⟩
  | close => exact ⟨h.source, h.received, h.writing⟩
  | join hphase hne =>
      have hreceived := h.receiving (by simp [hphase])
      refine ⟨h.source, ⟨fun hnot => ?_, nofun⟩, ?_⟩
      · cases hreceived.symm.trans hnot
      · rintro b ⟨⟩
        exact hne
  | finish => exact ⟨h.source, ⟨fun _ => rfl, fun _ => rfl⟩, nofun⟩
  | take hphase | skip hphase | write hphase | unlock hphase | count hphase | settle hphase =>
      have hreceived := h.receiving (by simp [hphase])
      refine ⟨h.source, ⟨fun hnot => ?_, nofun⟩, nofun⟩
      cases hreceived.symm.trans hnot

/-- The report on some tries. -/
def reportOn (tries : List Try) : WriteReport :=
  tries.foldl (fun r t => r.count t.batch t.result) {}

theorem reportOn_concat (tries : List Try) (t : Try) :
    reportOn (tries ++ [t]) = (reportOn tries).count t.batch t.result := by
  rw [reportOn, List.foldl_append]
  rfl

/-- What is tried, what is counted off and what is reported are the batches that were sent, up to
the one in the worker's hands and those in the queue. -/
structure Books (x : Shift) : Prop where
  drained : x.worker.phase = .finished → x.engine.queue.batches = []
  tried : x.tried.map (·.batch) ++ (x.worker.phase.untried ++ x.engine.queue.batches) = x.sent
  settled : x.settled ++ (x.worker.phase.inHand ++ x.engine.queue.batches) = x.sent
  report : ∃ counted uncounted, x.tried = counted ++ uncounted ∧
    x.worker.report = reportOn counted ∧
    uncounted.map (fun t => (t.batch, t.result)) = x.worker.phase.outcome?.toList

theorem books_opening : (opening settings archive clock).Books where
  drained := nofun
  tried := rfl
  settled := rfl
  report := ⟨[], [], rfl, rfl, rfl⟩

/-- A batch that is tried stands behind those tried before it. -/
theorem Books.tried_concat (h : x.Books) {b : Batch} {t : Try}
    (huntried : x.worker.phase.untried = [b]) (hbatch : t.batch = b) :
    (x.tried ++ [t]).map (·.batch) ++ x.engine.queue.batches = x.sent := by
  rw [← h.tried, huntried, List.map_append, List.map_singleton, hbatch, List.append_assoc]

/-- What became of a batch is known once it is tried. -/
theorem Books.report_concat (h : x.Books) (hnone : x.worker.phase.outcome? = none) {b : Batch}
    {t : Try} (hbatch : t.batch = b) :
    ∃ counted uncounted, x.tried ++ [t] = counted ++ uncounted ∧
      x.worker.report = reportOn counted ∧
      uncounted.map (fun t => (t.batch, t.result)) = [(b, t.result)] := by
  obtain ⟨counted, uncounted, htried, hreport, houtcome⟩ := h.report
  rw [hnone, Option.toList_none, List.map_eq_nil_iff] at houtcome
  rw [houtcome, List.append_nil] at htried
  exact ⟨counted, [t], by rw [htried], hreport, by rw [← hbatch]; rfl⟩

theorem Books.goes (h : x.Books) (hstaffed : x.Staffed) (hgoes : x.Goes y) : y.Books := by
  have htried := h.tried
  have hsettled := h.settled
  have hreport := h.report
  cases hgoes with
  | announce s => exact ⟨h.drained, htried, hsettled, hreport⟩
  | close => exact ⟨h.drained, htried, hsettled, hreport⟩
  | send hpromised hreceived =>
      refine ⟨fun hfinished => ?_, ?_, ?_, hreport⟩
      · cases hreceived.symm.trans (hstaffed.received.mpr hfinished)
      · simp only
        rw [← htried, List.append_assoc, List.append_assoc]
      · simp only
        rw [← hsettled, List.append_assoc, List.append_assoc]
  | take hphase hbatches =>
      rw [hphase, hbatches] at htried hsettled
      rw [hphase] at hreport
      exact ⟨nofun, htried, hsettled, hreport⟩
  | finish hphase hbatches =>
      rw [hphase, hbatches] at htried hsettled
      rw [hphase] at hreport
      exact ⟨fun _ => rfl, htried, hsettled, hreport⟩
  | skip hphase htry | write hphase htry =>
      have hbatch := Archive.batch_of_tryBatch htry
      have hconcat := h.tried_concat (by rw [hphase]; rfl) hbatch
      have hknown := h.report_concat (by rw [hphase]; rfl) hbatch
      rw [hphase] at hsettled
      exact ⟨nofun, hconcat, hsettled, hknown⟩
  | join hphase | unlock hphase =>
      rw [hphase] at htried hsettled hreport
      exact ⟨nofun, htried, hsettled, hreport⟩
  | @count b result hphase =>
      rw [hphase] at htried hsettled
      obtain ⟨counted, uncounted, hsplit, hreport, houtcome⟩ := hreport
      rw [hphase] at houtcome
      refine ⟨nofun, htried, hsettled, counted ++ uncounted, [], ?_, ?_, rfl⟩
      · rw [List.append_nil]
        exact hsplit
      · obtain ⟨t, rfl, ht⟩ := List.map_eq_singleton_iff.mp houtcome
        cases ht
        simp only
        rw [reportOn_concat, hreport]
  | settle hphase =>
      rw [hphase] at htried hsettled hreport
      refine ⟨nofun, htried, ?_, hreport⟩
      rw [← hsettled]
      exact List.append_assoc _ _ _

/-! ## What is owed -/

/-- A stream is owed what was announced and not counted off. -/
structure Owes (x : Shift) : Prop where
  positive : x.engine.backlog.Positive
  count : ∀ s, x.engine.backlog.count s =
    x.promised.count s + Batch.countOf s (x.worker.phase.inHand ++ x.engine.queue.batches)
  news : x.engine.backlog.news = x.settled.length

theorem owes_opening : (opening settings archive clock).Owes where
  positive := nofun
  count _ := rfl
  news := rfl

theorem Owes.goes (h : x.Owes) (hgoes : x.Goes y) : y.Owes := by
  have hcount := h.count
  cases hgoes with
  | announce s =>
      refine ⟨h.positive.announce s, fun s' => ?_, h.news⟩
      simp only [Engine.announce]
      rw [Backlog.count_announce, List.count_cons]
      by_cases hs : s' = s
      · subst hs
        rw [if_pos rfl, hcount, if_pos (beq_self_eq_true s')]
        omega
      · rw [if_neg hs, hcount, if_neg (by simpa using Ne.symm hs)]
        omega
  | @send b hpromised =>
      refine ⟨h.positive, fun s => ?_, h.news⟩
      simp only
      rw [hcount, ← List.append_assoc]
      simp only [Batch.countOf, List.countP_append, List.countP_singleton]
      by_cases hs : b.stream = s
      · subst hs
        have hpos := List.count_pos_iff.mpr hpromised
        rw [List.count_erase_self, if_pos (decide_eq_true rfl)]
        omega
      · rw [List.count_erase_of_ne (Ne.symm hs), if_neg (by simpa using hs)]
        omega
  | close => exact ⟨h.positive, hcount, h.news⟩
  | take hphase hbatches =>
      rw [hphase, hbatches] at hcount
      exact ⟨h.positive, hcount, h.news⟩
  | finish hphase hbatches =>
      rw [hphase, hbatches] at hcount
      exact ⟨h.positive, hcount, h.news⟩
  | skip hphase | join hphase | write hphase | unlock hphase | count hphase =>
      rw [hphase] at hcount
      exact ⟨h.positive, hcount, h.news⟩
  | @settle b hphase =>
      rw [hphase] at hcount
      refine ⟨h.positive.settle b.stream, fun s => ?_, ?_⟩
      · have hs := hcount s
        simp only [Working.inHand, Batch.countOf, List.singleton_append, List.countP_cons,
          List.nil_append] at hs ⊢
        simp only [Engine.settleWrite]
        rw [Backlog.count_settle]
        by_cases hb : s = b.stream
        · subst hb
          rw [if_pos rfl]
          rw [if_pos (decide_eq_true rfl)] at hs
          omega
        · rw [if_neg hb]
          rw [if_neg (by simpa using Ne.symm hb)] at hs
          exact hs
      · simp only [Engine.settleWrite, List.length_append, List.length_singleton]
        rw [← h.news]
        rfl

/-! ## The lines for files -/

/-- The worker stands in the line that it has to, and nobody else stands in any. -/
def InLine (x : Shift) : Prop := ∀ s, x.engine.extents.line s = x.worker.phase.lineFor s

theorem inLine_opening : (opening settings archive clock).InLine := fun _ => rfl

theorem InLine.goes (h : x.InLine) (hgoes : x.Goes y) : y.InLine := by
  intro s
  have hs := h s
  cases hgoes with
  | announce | send | close => exact hs
  | take hphase | finish hphase | skip hphase | write hphase | count hphase | settle hphase =>
      rw [hphase] at hs
      exact hs
  | @join b hphase =>
      have hb := h b.stream
      rw [hphase] at hs hb
      simp only [Working.lineFor] at hs hb
      simp only [Engine.joinExtent, Working.lineFor]
      rw [LockTable.line_join, hs, hb]
      by_cases hsb : s = b.stream
      · rw [if_pos hsb, if_pos hsb.symm]
        rfl
      · rw [if_neg hsb, if_neg (Ne.symm hsb)]
  | @unlock b result hphase =>
      have hb := h b.stream
      rw [hphase] at hs hb
      simp only [Working.lineFor] at hs hb
      simp only [Engine.leaveExtent, Working.lineFor]
      rw [LockTable.line_leave, hs, hb]
      by_cases hsb : s = b.stream
      · rw [if_pos hsb, if_pos trivial]
        rfl
      · rw [if_neg hsb, if_neg (Ne.symm hsb)]

/-! ## The files -/

/-- The archive is what the tries so far made of it. -/
def Follows (archive : Archive) (x : Shift) : Prop :=
  archive.tryAll (x.tried.map Try.request) = (x.tried, x.engine.archive)

theorem follows_opening : (opening settings archive clock).Follows archive := rfl

theorem Follows.concat (h : x.Follows archive) {b : Batch} {cut : Option Nat} {t : Try}
    {archive' : Archive} (htry : x.engine.archive.tryBatch b cut = (t, archive')) :
    archive.tryAll ((x.tried ++ [t]).map Try.request) = (x.tried ++ [t], archive') := by
  rw [List.map_append, List.map_singleton, Archive.request_of_tryBatch htry,
    Archive.tryAll_concat, h, htry]

theorem Follows.goes (h : x.Follows archive) (hgoes : x.Goes y) : y.Follows archive := by
  cases hgoes with
  | skip hphase htry => exact h.concat htry
  | write hphase htry => exact h.concat htry
  | _ => exact h

/-! ## All that is kept -/

/-- All that the moves of a shift keep. -/
structure Kept (archive : Archive) (x : Shift) : Prop where
  staffed : x.Staffed
  books : x.Books
  owes : x.Owes
  inLine : x.InLine
  follows : x.Follows archive

theorem kept_of_play (hrun : (opening settings archive clock).play moves = some x) :
    x.Kept archive := by
  refine foldlM_induction hrun
    ⟨staffed_opening, books_opening, owes_opening, inLine_opening, follows_opening⟩ ?_
  intro _ a mv b _ h hmove
  have hgoes := goes_of_move h.staffed hmove
  exact ⟨h.staffed.goes hgoes, h.books.goes h.staffed hgoes, h.owes.goes hgoes,
    h.inLine.goes hgoes, h.follows.goes hgoes⟩

end Shift

end StreamStore
