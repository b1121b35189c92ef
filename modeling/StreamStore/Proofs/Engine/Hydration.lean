import StreamStore.Proofs.Engine.Alone
import StreamStore.Proofs.Engine.Pages

/-!
# Reading a stream alone

An engine serves a stream with the events of its entry or, where there is none and no write
to the stream is on its way, with what is on disk.  On a still engine a reader that goes on
alone ends with the slice of these events that it was asked for.  The stream is resident
then, with the same events.
-/

namespace StreamStore

/-- The events that a stream is read with. -/
inductive Engine.Serves (e : Engine) (s : StreamId) (xs : List Event) : Prop
  | resident (n : EntryId) (hresident : e.resident? s = some n)
      (hevents : (e.entry n).events = xs)
  | stored (habsent : e.resident? s = none) (hidle : e.backlog.isIdle s = true)
      (hread : e.archive.readAll s none none false = .ok xs)

/-! ## Making the stream resident -/

namespace Residence

variable {e : Engine} {s : StreamId} {n : EntryId} {xs : List Event}

def procedure (s : StreamId) (t : TaskId) : Procedure Residence :=
  fun w e residence => residence.step e s t false w

theorem result?_of_step {r r' : Residence} {e' : Engine} {t : TaskId} {cancelled : Bool}
    {w : Weather} (h : r.step e s t cancelled w = some (e', r')) : r.result? = none := by
  cases r with
  | asking phase => cases phase <;> first | rfl | cases h
  | loading events => rfl
  | loaded events => rfl

theorem reaches_done_of_resident (hstill : e.Still) (hresident : e.resident? s = some n)
    (t : TaskId) :
    ∃ e', (procedure s t).Reaches (e, start) (e', asking (.done (.ok n))) ∧ e'.Still ∧
      e'.resident? s = some n ∧ e'.entry n = e.entry n := by
  obtain ⟨cached, hcached⟩ := hstill.cache
  obtain ⟨hfound, hpromoted⟩ := hcached.lookup s
  have hfind : cached.find? s = some n := by
    rw [← hcached.peek_eq]
    exact hresident
  let cache := (e.pool.cache.lookup s).2
  have hlookup : e.pool.cache.lookup s = (some n, cache) :=
    Prod.ext (hfound.trans hfind) rfl
  have hstart (w : Weather) : start.step e s t false w =
      some (e.withCache cache, asking (.done (.ok n))) := by
    simp only [start, step, Pool.advance, hlookup]
    rfl
  refine ⟨e.withCache cache, .of_step hstart, ?_, ?_, rfl⟩
  · exact ⟨⟨_, hpromoted⟩, hstill.lines, hstill.locks⟩
  · exact (hpromoted.peek_eq s).trans ((cached.find?_promote s s).trans hfind)

/-- A task that misses a stream, and whose turn it is at once, is about to find its
events. -/
theorem reaches_finding (hstill : e.Still) (habsent : e.resident? s = none) (t : TaskId) :
    ∃ cache : Cache StreamId EntryId, (∃ cached, cache.Holds cached) ∧
      (procedure s t).Reaches (e, start)
        ((e.withCache cache).joinPool s t, asking .finding) := by
  obtain ⟨cached, hcached⟩ := hstill.cache
  have hfind : cached.find? s = none := by
    rw [← hcached.peek_eq]
    exact habsent
  obtain ⟨hmissed, hholds⟩ := hcached.lookup s
  let cache := (e.pool.cache.lookup s).2
  have hlookup : e.pool.cache.lookup s = (none, cache) :=
    Prod.ext (hmissed.trans hfind) rfl
  obtain ⟨hagain, hholds'⟩ := hholds.recheck s
  let cache' := (cache.recheck s).2
  have hrecheck : cache.recheck s = (none, cache') :=
    Prod.ext (hagain.trans ((cached.find?_promote s s).trans hfind)) rfl
  have hlook (w : Weather) : start.step e s t false w =
      some (e.withCache cache, asking .missed) := by
    simp only [start, step, Pool.advance, hlookup]
    rfl
  have hturn : (e.pool.lines.join s t).holds s t = true := by
    rw [LockTable.holds, LockTable.line_join, if_pos rfl, hstill.lines]
    exact decide_eq_true rfl
  have hmiss (w : Weather) : (asking .inLine).step ((e.withCache cache).joinPool s t) s t
      false w = some ((e.withCache cache').joinPool s t, asking .finding) := by
    simp only [step, Pool.advance, Engine.joinPool, Engine.withCache, hturn, if_true, hrecheck]
    rfl
  refine ⟨cache', ⟨_, hholds'⟩, .step hlook ?_⟩
  exact .step (y := ((e.withCache cache).joinPool s t, asking .inLine)) (fun _ => rfl)
    (.of_step hmiss)

theorem reaches_loaded (hidle : e.backlog.isIdle s = true)
    (hread : e.archive.readAll s none none false = .ok xs) (t : TaskId) :
    (procedure s t).Reaches (e, asking .finding) (e, loaded xs) := by
  have hends := @endsWith_readAll e s t hidle
  rw [hread] at hends
  obtain ⟨k, hk⟩ := hends
  refine ⟨k, fun weathers hlength => ?_⟩
  obtain ⟨r, hplay, hcame⟩ := (hk weathers).2 hlength
  have hloaded : r = loaded xs := by
    unfold hydrated? at hcame
    split at hcame
    · cases hcame
      rfl
    · cases hcame
    · cases hcame
  rw [hloaded] at hplay
  exact hplay

/-- Alone a task makes a stream resident with the events that the engine serves. -/
theorem reaches_done (hstill : e.Still) (hserves : e.Serves s xs) (t : TaskId) :
    ∃ e' n, (procedure s t).Reaches (e, start) (e', asking (.done (.ok n))) ∧ e'.Still ∧
      e'.resident? s = some n ∧ (e'.entry n).events = xs := by
  rcases hserves with ⟨n, hresident, hevents⟩ | ⟨habsent, hidle, hread⟩
  · obtain ⟨e', hreach, hstill', hresident', hentry⟩ :=
      reaches_done_of_resident hstill hresident t
    exact ⟨e', n, hreach, hstill', hresident', by rw [hentry, hevents]⟩
  · obtain ⟨cache, ⟨cached, hcached⟩, hfinding⟩ := reaches_finding hstill habsent t
    let e₁ := (e.withCache cache).joinPool s t
    let e' := (e₁.populate s xs).leavePool s t
    have hloaded : (procedure s t).Reaches (e₁, asking .finding) (e₁, loaded xs) :=
      reaches_loaded (e := e₁) hidle hread t
    have hleave : (procedure s t).Reaches (e₁, loaded xs)
        (e', asking (.done (.ok e.nextEntry))) :=
      .step (y := (e₁.populate s xs, asking (.leaving (.ok e.nextEntry)))) (fun _ => rfl)
        (.of_step fun _ => rfl)
    have hentry (n : EntryId) : e'.entry n =
        if n = e.nextEntry then { events := xs } else e.entry n :=
      e₁.entry_populate s xs n
    have hholds := hcached.put s e.nextEntry
    refine ⟨e', e.nextEntry, hfinding.trans (hloaded.trans hleave), ⟨⟨_, hholds⟩, ?_, ?_⟩,
      ?_, ?_⟩
    · intro u
      exact (LockTable.line_leave_join (hstill.lines s) u t).trans (hstill.lines u)
    · intro n
      rw [hentry]
      split
      · rfl
      · exact hstill.locks n
    · exact (hholds.peek_eq s).trans (Table.find?_upsert_self ..)
    · rw [hentry, if_pos rfl]

end Residence

/-! ## Reading a page -/

namespace Paging

variable {e : Engine} {r : PageRequest} {xs : List Event}

def procedure (r : PageRequest) (t : TaskId) : Procedure Paging :=
  fun w e phase => phase.step e r t false w

theorem reaches_reading (hstill : e.Still) (hserves : e.Serves r.stream xs)
    (hstart : 0 ≤ r.start) (t : TaskId) :
    ∃ e' n, (procedure r t).Reaches (e, start) (e', reading n .arriving) ∧ e'.Still ∧
      e'.resident? r.stream = some n ∧ (e'.entry n).events = xs := by
  obtain ⟨e', n, hreach, hstill', hresident, hevents⟩ :=
    Residence.reaches_done hstill hserves t
  have hbegin (w : Weather) : start.step e r t false w = some (e, finding .start) := by
    rw [step, if_neg (not_lt_of_ge hstart)]
  have hfind : (procedure r t).Reaches (e, finding .start)
      (e', finding (.asking (.done (.ok n)))) := by
    refine hreach.map (f := finding) fun w e a e' a' hstep => ?_
    have hstep' : a.step e r.stream t false w = some (e', a') := hstep
    rw [procedure, step, Residence.result?_of_step hstep', hstep']
    rfl
  refine ⟨e', n, ?_, hstill', hresident, hevents⟩
  exact .step hbegin (hfind.trans (.of_step fun _ => rfl))

theorem reaches_done (hstill : e.Still) (hserves : e.Serves r.stream xs)
    (hstart : 0 ≤ r.start) (t : TaskId) :
    ∃ e', (procedure r t).Reaches (e, start)
        (e', done (.ok (Page.slice xs r.start r.direction r.limit))) ∧
      e'.Still ∧ e'.Serves r.stream xs := by
  obtain ⟨e₁, n, hreach, hstill₁, hresident, hevents⟩ :=
    reaches_reading hstill hserves hstart t
  let page := Page.slice xs r.start r.direction r.limit
  let e' := (e₁.joinEntry n t .read).leaveEntry n t
  have hread : (procedure r t).Reaches (e₁, reading n .arriving)
      (e', reading n (.done page)) := by
    have hlook := Reading.reaches_done (hstill₁.isReadable n t)
      fun events => Page.slice events r.start r.direction r.limit
    rw [hevents] at hlook
    refine hlook.map (f := reading n) fun w e a e' a' hstep => ?_
    have hstep' : a.step e n t (fun events => Page.slice events r.start r.direction r.limit) =
        some (e', a') := hstep
    rw [procedure, step, Reading.result?_of_step hstep']
    simp only [hstep', Option.map_some]
  have hsame : e₁.SameContent e' := Engine.sameContent_read (hstill₁.isReadable n t)
  refine ⟨e', hreach.trans (hread.trans (.of_step fun _ => rfl)), hsame.still hstill₁, ?_⟩
  refine .resident n ?_ ?_
  · rw [Engine.resident?, hsame.pool]
    exact hresident
  · rw [hsame.entry, hevents]

end Paging

/-- A reader gets the slice that it asks for, and the next one finds the same events. -/
theorem Engine.answers_page {e : Engine} {r : PageRequest} {xs : List Event}
    (hstill : e.Still) (hserves : e.Serves r.stream xs) (hstart : 0 ≤ r.start) (t : TaskId) :
    ∃ e', e.Answers t (.page r .start)
        (.events (.ok (Page.slice xs r.start r.direction r.limit))) e' ∧
      e'.Still ∧ e'.Serves r.stream xs := by
  obtain ⟨e', hreach, hstill', hserves'⟩ := Paging.reaches_done hstill hserves hstart t
  refine ⟨e', ⟨_, hreach.map (q := Work.procedure t) (f := Work.page r) ?_, rfl⟩, hstill',
    hserves'⟩
  intro w e a e' a' hstep
  have hstep' : a.step e r t false w = some (e', a') := hstep
  rw [Work.procedure, Work.step, hstep']
  rfl

/-- Right after the start of a run, a reader gets the slice of what is on disk. -/
theorem Engine.answers_page_ofArchive {archive : Archive} {r : PageRequest} {events : List Event}
    (hstart : 0 ≤ r.start) (hread : archive.readAll r.stream none none false = .ok events)
    (settings : Settings) (clock : Int64) (t : TaskId) :
    ∃ e', (ofArchive settings archive clock).Answers t (.page r .start)
      (.events (.ok (Page.slice events r.start r.direction r.limit))) e' := by
  have hserves : (ofArchive settings archive clock).Serves r.stream events :=
    .stored rfl rfl hread
  obtain ⟨e', hanswers, -⟩ :=
    answers_page (ofArchive_still settings archive clock) hserves hstart t
  exact ⟨e', hanswers⟩

end StreamStore
