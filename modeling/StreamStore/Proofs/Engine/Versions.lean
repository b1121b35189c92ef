import StreamStore.Proofs.Engine.Histories

/-!
# Expected versions

A writer may say how many events it expects its stream to have.  Its batch is handed off
only at a history of just that length, and takes the places that follow; it stays there
until the stream is removed.  So of all writers that expect the same length, between two
removals at most one hands its batch off.  A writer that is told of another length is told
the length that the history had at some moment since it started.

The disk may hold what was appended in the past; lengths are those of the history that goes
on from there, at moments at which the stream is intact.
-/

namespace StreamStore

/-- What a client handed in for an event. -/
def Event.draft (e : Event) : EventDraft := ⟨e.type, e.data⟩

theorem map_draft_stamp (last : Option EventId) (now : Int64) (drafts : List EventDraft) :
    (stamp last now drafts).map Event.draft = drafts := by
  induction drafts generalizing last with
  | nil => rfl
  | cons draft drafts ih =>
      simp only [stamp, List.map_cons, ih]
      rfl

/-! ## What an append is told -/

/-- The refusal that a task met with on its way to an entry. -/
def Residence.refusal? : Residence → Option Refusal
  | asking (.leaving (.error refusal)) => some refusal
  | asking (.done (.error refusal)) => some refusal
  | _ => none

/-- The refusal that an append met with. -/
def Appending.refusal? : Appending → Option Refusal
  | finding residence => residence.refusal?
  | refused _ refusal => some refusal
  | unlocking _ (.error refusal) => some refusal
  | done (.error refusal) => some refusal
  | _ => none

/-- An append that expects some length found another one, which the history of its stream
had at a moment since the append started, if the stream was intact then. -/
def AppendRequest.MissedIn (r : AppendRequest) (t : TaskId) (past log : List Happening)
    (expected actual : Nat) : Prop :=
  r.expected = some expected ∧ actual ≠ expected ∧
    ∃ since, since <+: log ∧ .started t (.append r .start) ∈ since ∧
      (Log.Intact r.stream (past ++ since) →
        actual = (Log.history r.stream (past ++ since)).length)

/-- An append is in the log from its start on, with what it handed off, and what it is told
of the length of its stream was so. -/
def Work.Told (t : TaskId) (past log : List Happening) : Work → Prop
  | append r phase => .started t (.append r .start) ∈ log ∧
      (append r phase).Agrees t log ∧ ∀ expected actual,
        phase.refusal? = some (.versionMismatch expected actual) →
          r.MissedIn t past log expected actual
  | _ => True

/-- What is handed off is what a client that started before handed in, and what an append
is told at its end was so. -/
def Happening.Told (past before : List Happening) : Happening → Prop
  | admitted t r events => .started t (.append r .start) ∈ before ∧ events ≠ [] ∧
      events.map Event.draft = r.drafts
  | ended t work => work.Told t past before
  | _ => True

/-- A task on its way to an entry does not meet with another version. -/
theorem Residence.refusal?_of_step {e e' : Engine} {s : StreamId} {t : TaskId}
    {cancelled : Bool} {w : Weather} {residence residence' : Residence}
    (h : residence.step e s t cancelled w = some (e', residence')) {expected actual : Nat}
    (hrefusal : residence'.refusal? = some (.versionMismatch expected actual)) :
    residence.refusal? = some (.versionMismatch expected actual) := by
  cases residence with
  | asking phase =>
      cases phase with
      | looking =>
          simp only [step, Pool.advance] at h
          split at h <;> cases h <;> cases hrefusal
      | missed =>
          cases h
          cases hrefusal
      | inLine =>
          simp only [step, Pool.advance] at h
          split at h
          · split at h <;> cases h <;> cases hrefusal
          · cases h
      | finding =>
          simp only [step] at h
          split at h
          · cases h
            cases hrefusal
          · split at h <;> cases h
            cases hrefusal
      | leaving result =>
          cases h
          cases result with
          | ok n => cases hrefusal
          | error refusal => exact hrefusal
      | done result => cases h
  | loading events =>
      simp only [step, loadPage, Option.some.injEq, Prod.mk.injEq] at h
      obtain ⟨-, rfl⟩ := h
      split at hrefusal
      next fault hread =>
        cases fault <;> cases hrefusal
      · split at hrefusal <;> cases hrefusal
  | loaded events =>
      cases h
      cases hrefusal

theorem Appending.eq_of_mismatch? {r : AppendRequest} {found expected actual : Nat}
    (h : mismatch? r found = some (.versionMismatch expected actual)) :
    r.expected = some expected ∧ actual = found ∧ actual ≠ expected := by
  rw [mismatch?] at h
  split at h
  next version hversion =>
    split at h
    · cases h
    next hne =>
      cases h
      exact ⟨hversion, rfl, Ne.symm hne⟩
  · cases h

namespace Work

variable {e e' : Engine} {st : TaskId → Stance} {t : TaskId} {cancelled : Bool}
  {w : Weather} {past log : List Happening}

theorem told_of_isRequest {work : Work} (h : work.isRequest = true) :
    work.Told t past (log ++ [.started t work]) := by
  have hagrees : work.Agrees t (log ++ [.started t work]) := agrees_of_isRequest h
  unfold isRequest at h
  split at h <;> first
    | cases h; done
    | exact ⟨List.mem_append_right log List.mem_cons_self, hagrees, nofun⟩
    | trivial

/-- Later happenings change nothing in what an append was told. -/
theorem Told.append {work : Work} (h : work.Told t past log) (hdone : work.isDone = false)
    {more : List Happening} (hmore : ∀ s, work.stance.hushes? = some s →
      ∀ u r events, .admitted u r events ∈ more → r.stream ≠ s) :
    work.Told t past (log ++ more) := by
  cases work with
  | append r phase =>
      obtain ⟨hstarted, hagrees, hmissed⟩ := h
      refine ⟨List.mem_append_left more hstarted, hagrees.append hdone hmore, ?_⟩
      intro expected actual hrefusal
      obtain ⟨hexpected, hne, since, hsince, hrest⟩ := hmissed expected actual hrefusal
      exact ⟨hexpected, hne, since, hsince.trans (List.prefix_append log more), hrest⟩
  | _ => trivial

/-- A writer that holds its entry compares versions with the history up to now. -/
theorem missedIn_of_step {r : AppendRequest} {phase phase' : Appending}
    (h : (append r phase).Told t past log) (hsettled : e.Settled st)
    (hkeeps : Log.Intact r.stream (past ++ log) → e.Keeps st (past ++ log) r.stream)
    (hstance : st t = phase.stance r.stream)
    (hstep : phase.step e r t cancelled w = some (e', phase')) {expected actual : Nat}
    (hrefusal : phase'.refusal? = some (.versionMismatch expected actual)) :
    r.MissedIn t past log expected actual := by
  obtain ⟨hstarted, -, hmissed⟩ := h
  cases phase with
  | start =>
      cases hstep
      rw [Appending.begin] at hrefusal
      split at hrefusal
      · cases hrefusal
      · split at hrefusal <;> cases hrefusal
  | finding residence =>
      rw [Appending.step] at hstep
      split at hstep
      · cases hstep
        cases hrefusal
      next refusal hresult =>
        cases hstep
        unfold Residence.result? at hresult
        split at hresult <;> cases hresult
        exact hmissed expected actual hrefusal
      · obtain ⟨⟨e₁, residence₁⟩, hresidence, heq⟩ := Option.map_eq_some_iff.mp hstep
        cases heq
        exact hmissed expected actual (Residence.refusal?_of_step hresidence hrefusal)
  | inLine n =>
      simp only [Appending.step] at hstep
      split at hstep
      · cases hstep
        cases hrefusal
      · split at hstep <;> cases hstep
        cases hrefusal
  | announced n =>
      simp only [Appending.step, Option.some.injEq, Prod.mk.injEq] at hstep
      obtain ⟨-, rfl⟩ := hstep
      split at hrefusal <;> cases hrefusal
  | current n =>
      simp only [Appending.step, Option.some.injEq, Appending.handOff] at hstep
      cases hmismatch : Appending.mismatch? r (e.entry n).events.length with
      | some refusal =>
          rw [hmismatch] at hstep
          cases hstep
          cases hrefusal
          obtain ⟨hexpected, hactual, hne⟩ := Appending.eq_of_mismatch? hmismatch
          refine ⟨hexpected, hne, log, List.prefix_rfl, hstarted, fun hintact => ?_⟩
          have hwhole := ((hkeeps hintact).shows n (.inr ⟨t, hstance⟩)).eq_of_lock?
            hsettled.inOrder (t := t) (by rw [hstance]; rfl) (by rw [hstance]; rfl)
          rw [hactual, hwhole]
      | none =>
          rw [hmismatch] at hstep
          simp only at hstep
          split at hstep <;> cases hstep <;> cases hrefusal
  | refused n refusal =>
      cases hstep
      exact hmissed expected actual hrefusal
  | unlocking n result =>
      cases hstep
      cases result with
      | ok _ => cases hrefusal
      | error refusal => exact hmissed expected actual hrefusal
  | done result => cases hstep
  | _ =>
      cases hstep
      cases hrefusal

theorem told_of_step {work work' : Work} (h : work.Told t past log) (hsettled : e.Settled st)
    (hkeeps : ∀ s, Log.Intact s (past ++ log) → e.Keeps st (past ++ log) s)
    (hstance : st t = work.stance)
    (hstep : work.step e t cancelled w = some (e', work')) :
    work'.Told t past (log ++ deeds t work work') := by
  cases work with
  | append r phase =>
      obtain ⟨⟨e₁, phase₁⟩, hphase, heq⟩ := Option.map_eq_some_iff.mp hstep
      cases heq
      refine ⟨List.mem_append_left _ h.1, agrees_step_append h.2.1 hphase, ?_⟩
      intro expected actual hrefusal
      obtain ⟨hexpected, hne, since, hsince, hrest⟩ :=
        missedIn_of_step h hsettled (hkeeps r.stream) hstance hphase hrefusal
      exact ⟨hexpected, hne, since, hsince.trans (List.prefix_append log _), hrest⟩
  | flush isDone =>
      rw [Work.step] at hstep
      split at hstep <;> cases hstep
      trivial
  | hold n access joined =>
      rw [Work.step] at hstep
      split at hstep <;> cases hstep
      trivial
  | _ =>
      obtain ⟨found, -, heq⟩ := Option.map_eq_some_iff.mp hstep
      cases heq
      trivial

/-- Only an append that has the lock hands its own events off. -/
theorem eq_append_of_admitted_mem {work work' : Work} {u : TaskId} {r : AppendRequest}
    {events : List Event} (hmem : .admitted u r events ∈ deeds t work work') :
    u = t ∧ ∃ n, work = append r (.current n) := by
  unfold deeds at hmem
  split at hmem <;> simp only [List.mem_singleton, List.not_mem_nil, reduceCtorEq] at hmem
  cases hmem
  exact ⟨rfl, _, rfl⟩

end Work

/-- What a writer hands off is what its client handed in. -/
theorem Change.map_draft_of_mem {e e' : Engine} {t u : TaskId} {σ σ' : Stance}
    {deeds : List Happening} (h : Change e t σ deeds e' σ') {r : AppendRequest}
    {events : List Event} (hmem : .admitted u r events ∈ deeds) :
    events ≠ [] ∧ events.map Event.draft = r.drafts := by
  cases h with
  | handOff hne hfits hversion hstamp =>
      cases List.mem_singleton.mp hmem
      refine ⟨hne, ?_⟩
      rw [hstamp, map_draft_stamp]
  | delete | deleteFail | lose => cases List.mem_singleton.mp hmem
  | _ => cases hmem

/-! ## Runs -/

/-- From some place on, a history has some events in a row. -/
def Log.HasAt (place : Nat) (events history : List Event) : Prop :=
  (history.drop place).take events.length = events

/-- What is handed off for a stream that is not removed since stays in its place. -/
theorem Log.hasAt_history {t : TaskId} {r : AppendRequest} {events : List Event}
    (log : List Happening) {later : List Happening}
    (hkept : ∀ u, Happening.removed u r.stream ∉ later) :
    HasAt (history r.stream log).length events
      (history r.stream (log ++ .admitted t r events :: later)) := by
  have hkept' : ∀ u, Happening.removed u r.stream ∉ .admitted t r events :: later :=
    fun u hmem => hkept u ((List.mem_cons.mp hmem).resolve_left nofun)
  rw [HasAt, history_append_eq_append log hkept', List.drop_left, List.flatMap_cons,
    handedOff, if_pos rfl, List.take_left]

namespace Moment

/-- Batches are handed off at the lengths that were expected, and keep their places; and who
is told of another length is told one that there was.  Lengths are spoken of at moments at which
no removal of the stream failed since it was last removed. -/
structure ChecksVersions (m : Moment) (past : List Happening) : Prop where
  /-- An append that succeeds handed its whole batch off since it started. -/
  succeeded : ∀ before t r after,
    m.log = before ++ Happening.ended t (.append r (.done (.ok ()))) :: after → r.drafts ≠ [] →
    ∃ since events later, before = since ++ Happening.admitted t r events :: later ∧
      .started t (.append r .start) ∈ since ∧ events.map Event.draft = r.drafts
  /-- The history then has the length that was expected, and the batch follows. -/
  placed : ∀ since t r events after version,
    m.log = since ++ Happening.admitted t r events :: after →
    r.expected = some version → Log.Intact r.stream (past ++ since) →
    (Log.history r.stream (past ++ since)).length = version ∧
      ∀ later, later <+: after → (∀ u, .removed u r.stream ∉ later) →
        Log.HasAt version events
          (Log.history r.stream (past ++ since ++ Happening.admitted t r events :: later))
  /-- Two batches that expect the same length have a removal between them. -/
  once : ∀ before t r events between u q events' after version,
    m.log = before ++ Happening.admitted t r events :: between ++
      Happening.admitted u q events' :: after →
    q.stream = r.stream → r.expected = some version → q.expected = some version →
    Log.Intact r.stream (past ++ (before ++ Happening.admitted t r events :: between)) →
    ∃ v, .removed v r.stream ∈ between
  /-- An append that is told of another length found it since it started. -/
  missed : ∀ before t r expected actual after,
    m.log = before ++ Happening.ended t (.append r
      (.done (.error (.versionMismatch expected actual)))) :: after →
    r.MissedIn t past before expected actual

variable {m : Moment} {settings : Settings} {archive : Archive} {clock : Int64}
  {moves : List Move} {past : List Happening}

/-- In a run in which no write fails, what appends are told is as it was. -/
theorem told_of_play (hpast : archive.Recalls past)
    (hrun : (opening settings archive clock).play moves = some m)
    (hwritten : Log.Written m.log) :
    Log.All (fun before happening => happening.Told past before) m.log := by
  have hall : Log.All (fun before happening => Log.Written before →
      happening.Told past before) m.log := by
    refine (work_induction (P := fun t log work => Log.Written log → work.Told t past log)
      hrun (fun _ => trivial) ?_ ?_ ?_ (fun _ _ _ _ => trivial)
      fun _ _ _ htold => htold).2
    · intro t log work hrequest _
      exact Work.told_of_isRequest hrequest
    · intro t log work more htold hdone hmore hwritten'
      exact (htold (Log.written_append.mp hwritten').1).append hdone hmore
    · intro before a t task weather e' work' hbefore htask hstep htold
      constructor
      · intro hwritten'
        have hwritten := (Log.written_append.mp hwritten').1
        obtain ⟨-, hkept⟩ := keeps_of_play hpast hbefore hwritten
        exact Work.told_of_step (htold hwritten) (settled_of_play hbefore)
          (fun s => (hkept s).1) (stances_eq htask) hstep
      · intro happening hmem hwritten
        have hchange := Work.change ((orderly_of_play hbefore).admissible t task htask) hstep
        cases happening with
        | admitted u r events =>
            obtain ⟨rfl, n, hwork⟩ := Work.eq_append_of_admitted_mem hmem
            have hstarted := htold hwritten
            rw [hwork] at hstarted
            exact ⟨hstarted.1, hchange.map_draft_of_mem hmem⟩
        | ended u work => exact absurd hmem (hchange.ended_notMem u work)
        | _ => trivial
  intro before happening after hlog
  refine hall before happening after hlog ?_
  rw [hlog] at hwritten
  exact (Log.written_append.mp hwritten).1

theorem checksVersions_of_play (hpast : archive.Recalls past)
    (hrun : (opening settings archive clock).play moves = some m)
    (hwritten : Log.Written m.log) : m.ChecksVersions past := by
  have htold := told_of_play hpast hrun hwritten
  obtain ⟨-, hnoted⟩ := agrees_of_play hpast hrun hwritten
  have hversion : ∀ since t r events after version,
      m.log = since ++ .admitted t r events :: after → r.expected = some version →
      Log.Intact r.stream (past ++ since) →
      (Log.history r.stream (past ++ since)).length = version := by
    intro since t r events after version hlog hexpected hintact
    exact (hnoted since _ after hlog hintact version hexpected).symm
  constructor
  · intro before t r after hlog hdrafts
    obtain ⟨-, hagrees, -⟩ := htold before _ after hlog
    obtain ⟨events, hmem⟩ := (hagrees rfl).resolve_left hdrafts
    obtain ⟨since, later, hsplit⟩ := List.append_of_mem hmem
    obtain ⟨hstarted, -, hdraft⟩ := htold since (.admitted t r events)
      (later ++ .ended t (.append r (.done (.ok ()))) :: after) (by
        rw [hlog, hsplit, List.append_assoc, List.cons_append])
    exact ⟨since, events, later, hsplit, hstarted, hdraft⟩
  · intro since t r events after version hlog hexpected hintact
    have hlength := hversion since t r events after version hlog hexpected hintact
    refine ⟨hlength, fun later hlater hkept => ?_⟩
    rw [← hlength]
    exact Log.hasAt_history (past ++ since) hkept
  · intro before t r events between u q events' after version hlog hstream hr hq hintact
    by_contra hkept
    push Not at hkept
    obtain ⟨-, hne, -⟩ := htold before (.admitted t r events)
      (between ++ .admitted u q events' :: after) (by rw [hlog, List.append_assoc]; rfl)
    rw [← hstream] at hintact hkept
    have hsecond := hversion _ u q events' after version hlog hq hintact
    have hkept' : ∀ v, Happening.removed v q.stream ∉ .admitted t r events :: between :=
      fun v hmem => hkept v ((List.mem_cons.mp hmem).resolve_left nofun)
    rw [← List.append_assoc] at hintact hsecond
    have hfirst := hversion before t r events _ version
      (by rw [hlog, List.append_assoc]; rfl) hr (hstream ▸ hintact.of_append hkept')
    rw [Log.history_append_eq_append _ hkept', List.length_append, List.flatMap_cons,
      Log.handedOff, if_pos hstream.symm, List.length_append, hstream, hfirst] at hsecond
    have hpos := List.length_pos_of_ne_nil hne
    omega
  · intro before t r expected actual after hlog
    exact (htold before _ after hlog).2.2 expected actual rfl

/-- Two writers expect an empty stream, and the second is in line for the entry when the first
hands its batch off.  A third one expects that batch, once its entry was evicted. -/
def contending : List Move := List.flatten [
  [.start (.append ⟨Archive.orders, [⟨"placed", [1]⟩, ⟨"paid", []⟩], some 0⟩ .start) false],
  List.replicate 11 (.step 1 {}),
  [.start (.append ⟨Archive.orders, [⟨"placed", [2]⟩], some 0⟩ .start) false],
  List.replicate 4 (.step 2 {}), List.replicate 6 (.step 1 {}),
  List.replicate 6 (.step 2 {}), List.replicate 6 (.step 0 {}),
  [.evict 1, .start (.append ⟨Archive.orders, [⟨"sent", []⟩], some 2⟩ .start) false],
  List.replicate 17 (.step 3 {})]

/-- The second writer is told of the two events of the first. -/
def isContended : Happening → Bool
  | .ended 2 (.append _ (.done (.error (.versionMismatch 0 2)))) => true
  | _ => false

theorem checksVersions_of_contending :
    ∃ m, (opening {} Archive.blank 0).play contending = some m ∧ Log.Written m.log ∧
      m.log.any isContended = true ∧
      (Log.history Archive.orders m.log).map (·.type) = ["placed", "paid", "sent"] ∧
      m.ChecksVersions [] := by
  have hplayed : ((opening {} Archive.blank 0).play contending).any (fun m =>
      m.log.all Log.isFair && m.log.any isContended &&
        (Log.history Archive.orders m.log).map (·.type) == ["placed", "paid", "sent"]) = true := by
    decide +kernel
  obtain ⟨m, hrun, hm⟩ := (Option.any_eq_true _ _).mp hplayed
  simp only [Bool.and_eq_true, beq_iff_eq] at hm
  obtain ⟨⟨hfair, hcontended⟩, hhistory⟩ := hm
  have hwritten : Log.Written m.log := Log.Fair.written (List.all_eq_true.mp hfair)
  exact ⟨m, hrun, hwritten, hcontended, hhistory,
    checksVersions_of_play (Archive.recalls_of_vacant Archive.vacant_blank) hrun hwritten⟩

/-- An append that expects nothing to be there. -/
def anew : AppendRequest := ⟨Archive.orders, [⟨"anew", []⟩], some 0⟩

/-- The disk refuses to remove the data file of a stream whose headers file it removes; then an
append expects nothing to be there. -/
def appendingAnew : List Move :=
  removingInVain { data := some Archive.barred } ++ [.start (.append anew .start) false] ++
    List.replicate 17 (.step 3 {})

/-- The append gets its batch in, and is told so. -/
def isAnew : List Happening → Bool
  | [.admitted 3 r _, .ended 3 (.append r' (.done (.ok ())))] => r == anew && r' == anew
  | _ => false

/-- An append gets its batch in at another length than it expects where a removal failed
halfway. -/
theorem not_placed_of_appendingAnew :
    ∃ m before events after, (opening {} Archive.blank 0).play appendingAnew = some m ∧
      Log.Written m.log ∧ m.log = before ++ .admitted 3 anew events :: after ∧
      .ended 3 (.append anew (.done (.ok ()))) ∈ after ∧
      (Log.history anew.stream before).length = 1 := by
  have hplayed : ((opening {} Archive.blank 0).play appendingAnew).any (fun m =>
      decide (Log.Written m.log) && (Log.history anew.stream (m.log.take 7)).length == 1 &&
        isAnew (m.log.drop 7)) = true := by
    decide +kernel
  obtain ⟨m, hrun, hm⟩ := (Option.any_eq_true _ _).mp hplayed
  simp only [Bool.and_eq_true, decide_eq_true_iff, beq_iff_eq] at hm
  obtain ⟨⟨hwritten, hlength⟩, hlater⟩ := hm
  unfold isAnew at hlater
  split at hlater
  next r events r' hdrop =>
    simp only [Bool.and_eq_true, beq_iff_eq] at hlater
    obtain ⟨rfl, rfl⟩ := hlater
    have hlog := (List.take_append_drop 7 m.log).symm
    rw [hdrop] at hlog
    exact ⟨m, _, events, _, hrun, hwritten, hlog, List.mem_cons_self, hlength⟩
  · cases hlater

end Moment

end StreamStore
