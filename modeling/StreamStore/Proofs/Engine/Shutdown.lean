import StreamStore.Proofs.Engine.Reopening

/-!
# Shutting down loses nothing

Of a run of a store that is opened over an empty directory, in which every batch that is
dealt with is written: once the worker has given its report, which is when a shutdown
comes to its end, all events that were handed off are on disk and counted in the report.
From then on nothing is handed off, so no append that has events succeeds unless it was
handed off before, and what a stream reads as stays the same until it is removed.  A
store that is opened over the same directory serves just these histories.

Appends may race the shutdown: what the write queue took before it was closed is written,
and what it did not take is in no history.  A removal that fails may have removed one of
the two files of its stream; the stream is not intact then, and nothing is said of what is
on disk for it until it is removed.
-/

namespace StreamStore

/-! ## The numbers of tasks -/

/-- The task of which something is noted. -/
def Happening.task? : Happening → Option TaskId
  | started t _ => some t
  | admitted t _ _ => some t
  | lost _ => none
  | removed t _ => some t
  | unremoved t _ => some t
  | ended t _ => some t

/-- What a task notes of a step is about itself, and not that it starts. -/
theorem Work.task?_of_mem_notes {t : TaskId} {work work' : Work} {happening : Happening}
    (hmem : happening ∈ notes t work work') :
    (∀ u, happening.task? = some u → u = t) ∧ ∀ u other, happening ≠ .started u other := by
  rcases List.mem_append.mp hmem with hdeed | hend
  · unfold deeds at hdeed
    split at hdeed <;> simp only [List.mem_singleton, List.not_mem_nil] at hdeed
    all_goals
      subst hdeed
      simp [Happening.task?]
  · split at hend <;> simp only [List.mem_singleton, List.not_mem_nil] at hend
    subst hend
    simp [Happening.task?]

namespace Log

variable {s : StreamId} {log later : List Happening}

/-- Nothing is handed off later, and the stream is not removed: its history stays. -/
theorem foldl_remember_of_isAside (haside : ∀ happening ∈ later, happening.isAside = true)
    (hkept : ∀ t, Happening.removed t s ∉ later) (events : List Event) :
    later.foldl (remember s) events = events := by
  induction later with
  | nil => rfl
  | cons happening later ih =>
      have hstep : remember s events happening = events := by
        cases happening with
        | admitted => cases haside _ List.mem_cons_self
        | removed t s' =>
            refine if_neg ?_
            rintro rfl
            exact hkept t List.mem_cons_self
        | _ => rfl
      rw [List.foldl_cons, hstep]
      exact ih (fun other hother => haside other (List.mem_cons_of_mem _ hother))
        fun t hmem => hkept t (List.mem_cons_of_mem _ hmem)

end Log

namespace Moment

variable {settings : Settings} {archive : Archive} {clock : Int64} {moves more : List Move}
  {m m' : Moment}

/-- What is noted between two moments of a run, and the numbers of the tasks that start in
between. -/
structure Between (m m' : Moment) (later : List Happening) : Prop where
  log_eq : m'.log = m.log ++ later
  le : m.system.nextTask ≤ m'.system.nextTask
  fresh : ∀ t work, .started t work ∈ later → m.system.nextTask ≤ t
  numbered : ∀ happening ∈ later, ∀ t, happening.task? = some t → t < m'.system.nextTask

theorem Between.of_eq (hlog : m'.log = m.log)
    (hnext : m'.system.nextTask = m.system.nextTask) : m.Between m' [] :=
  ⟨hlog.trans (List.append_nil _).symm, hnext.ge,
    fun _ _ hmem => absurd hmem List.not_mem_nil, List.forall_mem_nil _⟩

theorem Between.trans {a : Moment} {first then_ : List Happening} (h : m.Between a first)
    (h' : a.Between m' then_) : m.Between m' (first ++ then_) where
  log_eq := by rw [h'.log_eq, h.log_eq, List.append_assoc]
  le := h.le.trans h'.le
  fresh := fun t work hmem => (List.mem_append.mp hmem).elim (h.fresh t work)
    fun hthen => h.le.trans (h'.fresh t work hthen)
  numbered := fun happening hmem t ht => (List.mem_append.mp hmem).elim
    (fun hfirst => (h.numbered happening hfirst t ht).trans_le h'.le)
    fun hthen => h'.numbered happening hthen t ht

theorem Orderly.between (h : m.Orderly) {mv : Move} (hmove : m.move mv = some m') :
    ∃ noted, m.Between m' noted := by
  cases mv with
  | start work cancelled =>
      rw [Moment.move] at hmove
      split at hmove <;> cases hmove
      refine ⟨[.started m.system.nextTask work], rfl, Nat.le_succ _, fun t work' hmem => ?_,
        fun happening hmem t ht => ?_⟩
      · cases List.mem_singleton.mp hmem
        exact le_rfl
      · cases List.mem_singleton.mp hmem
        cases ht
        exact Nat.lt_succ_self _
  | step t weather =>
      obtain ⟨task, e', work', htask, hstep, rfl⟩ := move_step_eq_some hmove
      have hlt : t < m.system.nextTask := by
        by_contra hle
        rw [h.fresh t (Nat.le_of_not_lt hle)] at htask
        cases htask
      refine ⟨_, rfl, le_rfl, fun u work hmem => ?_, fun happening hmem u hu => ?_⟩
      · exact absurd rfl ((Work.task?_of_mem_notes hmem).2 u work)
      · rw [(Work.task?_of_mem_notes hmem).1 u hu]
        exact hlt
  | cancel t =>
      cases hmove
      exact ⟨[], .of_eq rfl rfl⟩
  | evict count =>
      cases hmove
      exact ⟨[], .of_eq rfl rfl⟩
  | tick now =>
      cases hmove
      exact ⟨[], .of_eq rfl rfl⟩
  | close =>
      cases hmove
      exact ⟨[], .of_eq rfl rfl⟩

theorem exists_between_of_play (hrun : (opening settings archive clock).play moves = some m)
    (hmore : m.play more = some m') : ∃ later, m.Between m' later := by
  refine play_induction (P := fun m' => ∃ later, m.Between m' later) hmore ⟨[], .of_eq rfl rfl⟩ ?_
  rintro before a mv b hbefore ⟨later, hbetween⟩ hmove
  obtain ⟨noted, hnoted⟩ := (orderly_of_play (play_trans hrun hbefore)).between hmove
  exact ⟨later ++ noted, hbetween.trans hnoted⟩

/-- Whatever is noted is about tasks that started. -/
theorem lt_nextTask_of_mem (hrun : (opening settings archive clock).play moves = some m)
    {happening : Happening} (hmem : happening ∈ m.log) {t : TaskId}
    (ht : happening.task? = some t) : t < m.system.nextTask := by
  have hstart : (opening settings archive clock).play [] =
      some (opening settings archive clock) := rfl
  obtain ⟨later, hbetween⟩ := exists_between_of_play hstart hrun
  refine hbetween.numbered happening ?_ t ht
  rw [hbetween.log_eq] at hmem
  exact (List.mem_append.mp hmem).resolve_left List.not_mem_nil

/-- Once nothing is let in any more, this stays so. -/
theorem IsDrained.of_play (h : m.IsDrained)
    (hrun : (opening settings archive clock).play moves = some m)
    (hmore : m.play more = some m') :
    m'.IsDrained ∧ ∀ later, m'.log = m.log ++ later →
      ∀ happening ∈ later, happening.isAside = true := by
  have hstays : m'.IsDrained ∧ ∃ later, m'.log = m.log ++ later ∧
      ∀ happening ∈ later, happening.isAside = true := by
    refine play_induction (P := fun m' => m'.IsDrained ∧ ∃ later, m'.log = m.log ++ later ∧
      ∀ happening ∈ later, happening.isAside = true) hmore
      ⟨h, [], (List.append_nil _).symm, List.forall_mem_nil _⟩ ?_
    rintro before a mv b hbefore ⟨hdrained, later, hlog, haside⟩ hmove
    have hplay := play_trans hrun hbefore
    obtain ⟨hdrained', noted, hlog', hnoted⟩ :=
      hdrained.move (orderly_of_play hplay) (settled_of_play hplay) hmove
    refine ⟨hdrained', later ++ noted, ?_, List.forall_mem_append.mpr ⟨haside, hnoted⟩⟩
    rw [hlog', hlog, List.append_assoc]
  obtain ⟨hdrained, found, hfound, haside⟩ := hstays
  refine ⟨hdrained, fun later hlater => ?_⟩
  obtain rfl := List.append_cancel_left (hfound.symm.trans hlater)
  exact haside

/-! ## What comes after -/

/-- A stream reads as some events: on disk, in a resident entry and to all that start to
read it later. -/
structure ReadsAs (m : Moment) (s : StreamId) (events : List Event)
    (later : List Happening) : Prop where
  stored : m.system.engine.archive.readAll s none none false = .ok events
  resident : ∀ n, m.system.engine.resident? s = some n →
    (∀ t task r events, m.system.task? t = some task →
      task.work ≠ .append r (.queued n events)) →
    (m.system.engine.entry n).events = events
  page : ∀ t r page, r.stream = s → .started t (.page r .start) ∈ later →
    .ended t (.page r (.done (.ok page))) ∈ later →
    page = Page.slice events r.start r.direction r.limit

/-- After a moment no append gets anything in: one that succeeds and has events started
before and was handed off before, and streams that are not removed, and of which no
removal failed, read the same. -/
structure StaysClosed (m : Moment) (later : List Happening) (m' : Moment) : Prop where
  log_eq : m'.log = m.log ++ later
  unadmitted : ∀ t r events, .admitted t r events ∉ later
  appended : ∀ t r, .ended t (.append r (.done (.ok ()))) ∈ later → r.drafts ≠ [] →
    (∃ events, .admitted t r events ∈ m.log) ∧ ∀ work, .started t work ∉ later
  reads : ∀ s, Log.Intact s m'.log → (∀ t, .removed t s ∉ later) →
    m'.ReadsAs s (Log.history s m.log) later

/-- What a store did is on disk and in the report, and nothing is added to it. -/
structure LosesNothing (m : Moment) (base : Path) (report : WriteReport) : Prop where
  batchesWritten : report.batchesWritten = (Log.batches m.log).length
  eventsWritten : report.eventsWritten = ((Log.batches m.log).flatMap (·.events)).length
  batchesFailed : report.batchesFailed = 0
  survives : m.Survives base
  later : ∀ more m', m.play more = some m' →
    m'.Survives base ∧ ∃ later, m.StaysClosed later m'

/-- A happening that is noted later is so behind what was noted before. -/
theorem exists_split_of_mem {m m' : Moment} {later : List Happening}
    (hlog : m'.log = m.log ++ later) {happening : Happening} (hmem : happening ∈ later) :
    ∃ since after, later = since ++ happening :: after ∧
      m'.log = (m.log ++ since) ++ happening :: after := by
  obtain ⟨since, after, rfl⟩ := List.append_of_mem hmem
  exact ⟨since, after, rfl, by rw [hlog, List.append_assoc]⟩

/-- A task of which something was noted before does not start later. -/
theorem Between.started_notMem {later : List Happening} (h : m.Between m' later)
    (hrun : (opening settings archive clock).play moves = some m) {happening : Happening}
    (hmem : happening ∈ m.log) {t : TaskId} (ht : happening.task? = some t) (work : Work) :
    .started t work ∉ later := fun hstarted =>
  Nat.lt_irrefl _ ((lt_nextTask_of_mem hrun hmem ht).trans_le (h.fresh t work hstarted))

/-- An append that succeeds while nothing is let in was let in before. -/
theorem Between.admitted_of_ended {later : List Happening} (h : m.Between m' later)
    (hrun : (opening settings archive clock).play moves = some m)
    (hnoted : Log.All Happening.Agrees m'.log)
    (haside : ∀ happening ∈ later, happening.isAside = true) {t : TaskId}
    {r : AppendRequest} (hended : .ended t (.append r (.done (.ok ()))) ∈ later)
    (hdrafts : r.drafts ≠ []) :
    (∃ events, .admitted t r events ∈ m.log) ∧ ∀ work, .started t work ∉ later := by
  obtain ⟨since, after, rfl, hsplit⟩ := exists_split_of_mem h.log_eq hended
  obtain ⟨events, hmem⟩ := (hnoted _ _ after hsplit rfl).resolve_left hdrafts
  rcases List.mem_append.mp hmem with hbefore | hsince
  · exact ⟨⟨events, hbefore⟩, h.started_notMem hrun hbefore rfl⟩
  · cases haside _ (List.mem_append_left _ hsince)

/-- A stream that is not removed reads the same as before. -/
theorem Between.readsAs {later : List Happening} (h : m.Between m' later)
    (hrun : (opening settings archive clock).play moves = some m)
    (hnoted : Log.All Happening.Agrees m'.log)
    (haside : ∀ happening ∈ later, happening.isAside = true) {s : StreamId}
    (hkeeps : m'.system.engine.Keeps m'.stances m'.log s)
    (hstored : m'.system.engine.archive.readAll s none none false =
      .ok (Log.history s m'.log))
    (hintact : Log.Intact s m'.log) (hkept : ∀ t, .removed t s ∉ later) :
    m'.ReadsAs s (Log.history s m.log) later := by
  have hsame : ∀ since, since <+: later →
      Log.history s (m.log ++ since) = Log.history s m.log := by
    intro since hfirst
    rw [Log.history_append]
    exact Log.foldl_remember_of_isAside
      (fun happening hmem => haside happening (hfirst.subset hmem))
      (fun t hmem => hkept t (hfirst.subset hmem)) _
  have hnow : Log.history s m'.log = Log.history s m.log := by
    rw [h.log_eq]
    exact hsame later List.prefix_rfl
  refine ⟨hnow ▸ hstored, fun n hresident hnobody => ?_, fun t r page hr hstarted hended => ?_⟩
  · rw [← hnow]
    exact (resident_of_keeps hkeeps hresident).2 hnobody
  · subst hr
    obtain ⟨since, after, hlater, hsplit⟩ := exists_split_of_mem h.log_eq hended
    obtain ⟨-, hseen⟩ := hnoted _ _ after hsplit
    obtain ⟨pre, hpre, -, hpage⟩ := (hseen page rfl).after fun hmem =>
      h.started_notMem hrun hmem rfl (.page r .start) hstarted
    have hfirst : pre <+: later := hpre.trans ⟨_, hlater.symm⟩
    rw [← hsame pre hfirst]
    obtain ⟨rest, rfl⟩ := hfirst
    rw [h.log_eq, ← List.append_assoc] at hintact
    exact hpage (hintact.of_append fun u hmem => hkept u (List.mem_append_right pre hmem))

theorem IsDrained.staysClosed (h : m.IsDrained) (hvacant : archive.disk.Vacant archive.base)
    (hrun : (opening settings archive clock).play moves = some m)
    (hwritten : Log.Written m.log) (hmore : m.play more = some m') :
    m'.Survives archive.base ∧ ∃ later, m.StaysClosed later m' := by
  obtain ⟨later, hbetween⟩ := exists_between_of_play hrun hmore
  obtain ⟨hdrained, haside⟩ := h.of_play hrun hmore
  have haside := haside later hbetween.log_eq
  have hrun' := play_trans hrun hmore
  have hwritten' : Log.Written m'.log := by
    rw [hbetween.log_eq]
    exact Log.written_append.mpr ⟨hwritten, Log.written_of_isAside haside⟩
  have hsurvives := survives_of_drained hvacant hrun' hwritten' hdrained
  have hrecalls := Archive.recalls_of_vacant hvacant
  obtain ⟨-, hkeeps⟩ := keeps_of_play hrecalls hrun' hwritten'
  obtain ⟨-, hnoted⟩ := agrees_of_play hrecalls hrun' hwritten'
  refine ⟨hsurvives, later, hbetween.log_eq, fun t r events hmem => ?_,
    fun t r hended hdrafts => ?_, fun s hintact hkept => ?_⟩
  · cases haside _ hmem
  · exact hbetween.admitted_of_ended hrun hnoted haside hended hdrafts
  · exact hbetween.readsAs hrun hnoted haside ((hkeeps s).1 hintact)
      (hsurvives.stored s hintact) hintact hkept

/-- Once the worker has given its report, nothing is lost. -/
theorem losesNothing_of_report
    (hrun : (opening settings archive clock).play moves = some m)
    (hvacant : archive.disk.Vacant archive.base)
    (hwritten : Log.Written m.log) {report : WriteReport} (hreport : m.report? = some report) :
    m.LosesNothing archive.base report := by
  obtain ⟨hdrained, rfl⟩ := (isAccounted_of_play hrun hwritten).drained hreport
  exact ⟨rfl, rfl, rfl, survives_of_drained hvacant hrun hwritten hdrained,
    fun more m' hmore => hdrained.staysClosed hvacant hrun hwritten hmore⟩

end Moment

/-! ## Stores -/

namespace Store

variable {settings : Settings} {disk : Disk} {base : Path} {clock : Int64} {store : Store}
  {moves : List Move} {m : Moment} {report : WriteReport}

/-- A run of a store that is opened over an empty directory loses nothing: not the run up
to the report of the worker, and nothing that comes after it. -/
theorem losesNothing_of_play (hvacant : disk.Vacant base)
    (hopen : open? settings disk base clock = .ok store)
    (hrun : (Moment.mk store.system []).play moves = some m) (hwritten : Log.Written m.log)
    (hreport : m.report? = some report) : m.LosesNothing base report := by
  obtain rfl := eq_of_open? hvacant.base_lookup hopen
  have hrun' : (Moment.opening settings { base, disk } clock).play moves = some m := hrun
  exact Moment.losesNothing_of_report hrun' hvacant hwritten hreport

/-- An append gets its event in, another one comes too late: the queue is closed while it
holds the entry.  Then the worker goes on to its end. -/
def closing : List Move :=
  [.start (.append ⟨Archive.orders, [⟨"placed", [1]⟩], none⟩ .start) false] ++
    List.replicate 17 (.step 1 {}) ++
    [.start (.append ⟨Archive.orders, [⟨"late", [2]⟩], none⟩ .start) false] ++
    List.replicate 6 (.step 2 {}) ++ [.close] ++ List.replicate 4 (.step 2 {}) ++
    List.replicate 7 (.step 0 {})

theorem losesNothing_of_closing : ∃ store m report,
    open? {} Archive.blank.disk Archive.blank.base 0 = .ok store ∧
      (Moment.mk store.system []).play closing = some m ∧ Log.Written m.log ∧
      (Log.history Archive.orders m.log).map (·.type) = ["placed"] ∧
      m.report? = some report ∧ m.LosesNothing Archive.blank.base report := by
  have hvalid : Settings.validate {} = .ok () := rfl
  have hopen := open?_eq Archive.vacant_blank.base_lookup hvalid 0
  have hplayed : ((Moment.opening {} Archive.blank 0).play closing).any (fun m =>
      m.log.all Log.isFair && (Log.history Archive.orders m.log).map (·.type) == ["placed"] &&
        m.report?.isSome) = true := by
    decide +kernel
  obtain ⟨m, hrun, hm⟩ := (Option.any_eq_true _ _).mp hplayed
  simp only [Bool.and_eq_true] at hm
  obtain ⟨⟨hfair, htypes⟩, hsome⟩ := hm
  obtain ⟨report, hreport⟩ := Option.isSome_iff_exists.mp hsome
  have hwritten := Log.Fair.written (List.all_eq_true.mp hfair)
  exact ⟨_, m, report, hopen, hrun, hwritten, eq_of_beq htypes, hreport,
    losesNothing_of_play Archive.vacant_blank hopen hrun hwritten hreport⟩

/-- The disk refuses to remove the data file of a stream whose headers file it removes; then the
queue is closed. -/
def closingInVain : List Move :=
  Moment.removingInVain { data := some Archive.barred } ++ [.close, .step 0 {}]

/-- Every batch is written, but a stream is read as empty whose removal failed halfway. -/
theorem not_losesNothing_of_closingInVain : ∃ store m report,
    open? {} Archive.blank.disk Archive.blank.base 0 = .ok store ∧
      (Moment.mk store.system []).play closingInVain = some m ∧ Log.Written m.log ∧
      m.report? = some report ∧
      (Log.history Archive.orders m.log).map (·.type) = ["placed"] ∧
      m.system.engine.archive.readAll Archive.orders none none false = .ok [] := by
  have hvalid : Settings.validate {} = .ok () := rfl
  have hopen := open?_eq Archive.vacant_blank.base_lookup hvalid 0
  have hplayed : ((Moment.opening {} Archive.blank 0).play closingInVain).any (fun m =>
      decide (Log.Written m.log) && m.report?.isSome &&
        (Log.history Archive.orders m.log).map (·.type) == ["placed"] &&
        match m.system.engine.archive.readAll Archive.orders none none false with
        | .ok stored => stored.isEmpty
        | .error _ => false) = true := by
    decide +kernel
  obtain ⟨m, hrun, hm⟩ := (Option.any_eq_true _ _).mp hplayed
  simp only [Bool.and_eq_true, decide_eq_true_iff, beq_iff_eq] at hm
  obtain ⟨⟨⟨hwritten, hsome⟩, hhistory⟩, hread⟩ := hm
  obtain ⟨report, hreport⟩ := Option.isSome_iff_exists.mp hsome
  split at hread
  next stored hstored =>
    rw [List.isEmpty_iff.mp hread] at hstored
    exact ⟨_, m, report, hopen, hrun, hwritten, hreport, hhistory, hstored⟩
  · cases hread

/-- When a shutdown that comes after a run gives its report, nothing is lost. -/
theorem losesNothing_of_shutdown (hvacant : disk.Vacant base)
    (hopen : open? settings disk base clock = .ok store)
    (hrun : (Moment.mk store.system []).play moves = some m)
    (hreport : (shutdown { store with system := m.system }).1 = some report) :
    ∃ more m', m.play (.close :: more) = some m' ∧
      m'.system = (shutdown { store with system := m.system }).2.system ∧
      (Log.Written m'.log → m'.LosesNothing base report) := by
  obtain rfl := eq_of_open? hvacant.base_lookup hopen
  let opened : Store := { system := m.system, worker := 0 }
  obtain ⟨more, log, hmore, hsame⟩ :=
    exists_play_of_shutdown (rfl : opened.isOpen = true) rfl m.log
  refine ⟨more, _, hmore, rfl, fun hwritten => ?_⟩
  have hrun' : (Moment.opening settings { base, disk } clock).play moves = some m := hrun
  exact Moment.losesNothing_of_report (Moment.play_trans hrun' hmore) hvacant hwritten
    (hsame.trans hreport)

end Store

end StreamStore
