import StreamStore.Proofs.Engine.Voices
import StreamStore.Proofs.Storage.Cancelling

/-!
# What an engine holds of a stream

What is on disk for a stream, followed by the batches of it on their way to disk, is due
to be on disk.  An entry that speaks for the stream shows what it has, with what its
writer handed off and will put in; and what a task reads from disk to make an entry is
what is due, from its beginning.  What is due and what is shown go apart only where a
write fails, and come together again where an entry is made anew.

So as long as no write fails, and no removal of a stream failed since it was last
removed, both are the history of the stream.
-/

namespace StreamStore

/-- The events of a stream in some batches, in order. -/
def Batch.eventsOf (s : StreamId) (batches : List Batch) : List Event :=
  (batches.filter fun b => b.stream = s).flatMap (·.events)

namespace Batch

theorem eventsOf_append (s : StreamId) (batches more : List Batch) :
    eventsOf s (batches ++ more) = eventsOf s batches ++ eventsOf s more := by
  rw [eventsOf, List.filter_append, List.flatMap_append]
  rfl

theorem eventsOf_cons (s : StreamId) (b : Batch) (batches : List Batch) :
    eventsOf s (b :: batches) =
      (if b.stream = s then b.events else []) ++ eventsOf s batches := by
  rw [eventsOf, List.filter_cons]
  by_cases hs : b.stream = s
  · rw [if_pos hs, if_pos (decide_eq_true hs)]
    rfl
  · rw [if_neg hs, if_neg (by simp [hs])]
    rfl

theorem eventsOf_eq_nil {s : StreamId} {batches : List Batch}
    (h : ∀ b ∈ batches, b.stream ≠ s) : eventsOf s batches = [] := by
  rw [eventsOf, List.filter_eq_nil_iff.mpr (by simpa using h)]
  rfl

end Batch

namespace Stance

/-- The batch that a task is to write to disk. -/
def load : Stance → List Batch
  | carrying b => [b]
  | _ => []

/-- What a task handed off and will put in an entry. -/
def handed? : Stance → Option (EntryId × List Event)
  | queued _ n events => some (n, events)
  | _ => none

theorem lock?_of_handed? {σ : Stance} {n : EntryId} {events : List Event}
    (h : σ.handed? = some (n, events)) : σ.lock? = some n := by
  cases σ with
  | queued s n events =>
      cases h
      rfl
  | _ => cases h

/-- What a task read from disk to make an entry is what is due to be there. -/
def Reads (due : List Event) : Stance → Prop
  | loading _ events => events <+: due
  | loaded _ events => events = due
  | _ => True

end Stance

namespace Engine

/-- The batches on their way to disk, in order. -/
def transit (e : Engine) (st : TaskId → Stance) : List Batch := (st 0).load ++ e.queue.batches

/-- What an entry has, with what its writer handed off and will put in. -/
inductive Shows (e : Engine) (st : TaskId → Stance) (n : EntryId) : List Event → Prop
  | halfway {t : TaskId} {events : List Event}
      (hhanded : (st t).handed? = some (n, events)) :
      Shows e st n ((e.entry n).events ++ events)
  | whole (hhanded : ∀ t events, (st t).handed? ≠ some (n, events)) :
      Shows e st n (e.entry n).events

/-- What an engine holds of a stream: what is on disk and on its way there is due, the
entry that speaks for the stream shows some events, and tasks that read from disk have
read what is due. -/
structure Carries (e : Engine) (st : TaskId → Stance) (s : StreamId)
    (due shown : List Event) : Prop where
  stored : ∃ events, Extent.Stores e.archive.disk e.archive.base s events [] ∧
    events ++ Batch.eventsOf s (e.transit st) = due
  fits : ∀ ev ∈ due, ev.type.utf8ByteSize ≤ maxEventTypeLength
  shows : ∀ n, e.Voices st s n → e.Shows st n shown
  reads : ∀ t, (st t).hushes? = some s → (st t).Reads due

/-- The content of an engine agrees with the history of a stream. -/
def Keeps (e : Engine) (st : TaskId → Stance) (log : List Happening) (s : StreamId) : Prop :=
  e.Carries st s (Log.history s log) (Log.history s log)

/-- The content of an engine agrees with the histories of all streams. -/
structure Faithful (e : Engine) (st : TaskId → Stance) (log : List Happening) : Prop where
  sound : e.archive.Sound
  keeps : ∀ s, e.Keeps st log s

variable {e e' : Engine} {st : TaskId → Stance} {t : TaskId} {s : StreamId} {n : EntryId}
  {σ : Stance} {log deeds : List Happening} {due shown : List Event}

/-! ## Parts of a step -/

theorem load_update (hload : σ.load = (st t).load) :
    (Function.update st t σ 0).load = (st 0).load := by
  by_cases ht : 0 = t
  · subst ht
    rw [Function.update_self, hload]
  · rw [Function.update_of_ne ht]

theorem shows_of_eq {events : List Event} (hevents : (e.entry n).events = events)
    (hhanded : ∀ t more, (st t).handed? ≠ some (n, more)) : e.Shows st n events :=
  hevents ▸ .whole hhanded

/-- An entry shows the same as long as its events and its writer stay. -/
theorem Shows.congr {events : List Event} (h : e.Shows st n events)
    (hevents : (e'.entry n).events = (e.entry n).events)
    (hhanded : ∀ events, σ.handed? = some (n, events) ↔ (st t).handed? = some (n, events)) :
    e'.Shows (Function.update st t σ) n events := by
  have hsame : ∀ u events, (Function.update st t σ u).handed? = some (n, events) ↔
      (st u).handed? = some (n, events) := by
    intro u events
    by_cases hut : u = t
    · subst hut
      rw [Function.update_self]
      exact hhanded events
    · rw [Function.update_of_ne hut]
  cases h with
  | halfway hwriter =>
      rw [← hevents]
      exact .halfway ((hsame _ _).mpr hwriter)
  | whole hnone =>
      rw [← hevents]
      exact .whole fun u events hwriter => hnone u events ((hsame _ _).mp hwriter)

/-- Whoever holds an entry for writing and has handed nothing off sees all of it. -/
theorem Shows.eq_of_lock? {events : List Event} (h : e.Shows st n events)
    (horder : e.InOrder st) (hlock : (st t).lock? = some n)
    (hhanded : (st t).handed? = none) : (e.entry n).events = events := by
  cases h with
  | halfway hwriter =>
      have heq := horder.eq_of_lock? hlock (Stance.lock?_of_handed? hwriter)
      subst heq
      cases hhanded.symm.trans hwriter
  | whole hnone => rfl

/-- The writer that handed something off knows what the entry will have. -/
theorem Shows.eq_of_handed? {events more : List Event} (h : e.Shows st n events)
    (horder : e.InOrder st) (hhanded : (st t).handed? = some (n, more)) :
    (e.entry n).events ++ more = events := by
  cases h with
  | halfway hwriter =>
      have heq := horder.eq_of_lock? (Stance.lock?_of_handed? hhanded)
        (Stance.lock?_of_handed? hwriter)
      subst heq
      cases hhanded.symm.trans hwriter
      rfl
  | whole hnone => exact absurd hhanded (hnone t more)

theorem Shows.isPrefix {events : List Event} (h : e.Shows st n events) :
    (e.entry n).events <+: events := by
  cases h with
  | halfway hwriter => exact List.prefix_append _ _
  | whole hnone => exact List.prefix_rfl

/-- No event of a hushed stream is on its way. -/
theorem Hushed.transit_eq_nil (h : e.Hushed st s) :
    Batch.eventsOf s (e.transit st) = [] := by
  apply Batch.eventsOf_eq_nil
  intro b hb
  apply h.batchless
  rcases List.mem_append.mp hb with hload | hmem
  · cases hcarrying : st 0 <;> rw [hcarrying] at hload <;>
      first
        | cases hload; done
        | cases List.mem_singleton.mp hload; exact .inl ⟨0, hcarrying⟩
  · exact .inr hmem

/-- Without a fresh entry, what speaks for a stream after a step did so before. -/
theorem voices_of_nextEntry (hentries : e.EntryMove (st t) e' σ)
    (hvoices : e.VoiceMove (st t) e' σ) (hnext : e'.nextEntry = e.nextEntry)
    (hvoice : e'.Voices (Function.update st t σ) s n) : e.Voices st s n := by
  rcases Settled.voices_of_change hentries hvoices hvoice with hold | ⟨-, hfresh, -⟩
  · exact hold
  · exact (Nat.succ_ne_self _ (hfresh.symm.trans hnext)).elim

/-! ## Steps that leave the content alone -/

theorem events_joinEntry (e : Engine) (n n' : EntryId) (t : TaskId) (access : Access) :
    ((e.joinEntry n t access).entry n').events = (e.entry n').events := by
  rw [joinEntry, entry_changeEntry]
  split
  next hn => rw [hn]
  · rfl

theorem events_leaveEntry (e : Engine) (n n' : EntryId) (t : TaskId) :
    ((e.leaveEntry n t).entry n').events = (e.entry n').events := by
  rw [leaveEntry, entry_changeEntry]
  split
  next hn => rw [hn]
  · rfl

/-- A step that changes neither the disk, nor the events on their way there, nor those
of an entry. -/
structure ContentFrame (e : Engine) (st : TaskId → Stance) (t : TaskId) (e' : Engine)
    (σ : Stance) : Prop where
  archive_eq : e'.archive = e.archive
  transit_eq : ∀ s, Batch.eventsOf s (e'.transit (Function.update st t σ)) =
    Batch.eventsOf s (e.transit st)
  nextEntry_eq : e'.nextEntry = e.nextEntry
  events_eq : ∀ n, (e'.entry n).events = (e.entry n).events
  handed_eq : σ.handed? = (st t).handed?

/-- Most steps do not touch what is on its way to disk. -/
theorem ContentFrame.of_load (harchive : e'.archive = e.archive)
    (hbatches : e'.queue.batches = e.queue.batches) (hnext : e'.nextEntry = e.nextEntry)
    (hevents : ∀ n, (e'.entry n).events = (e.entry n).events)
    (hload : σ.load = (st t).load)
    (hhanded : σ.handed? = (st t).handed?) : e.ContentFrame st t e' σ :=
  ⟨harchive, fun s => by rw [transit, load_update hload, hbatches, transit], hnext, hevents,
    hhanded⟩

theorem Frame.content (hframe : e.Frame e') (hload : σ.load = (st t).load)
    (hhanded : σ.handed? = (st t).handed?) : e.ContentFrame st t e' σ :=
  .of_load hframe.archive_eq hframe.batches_eq hframe.nextEntry_eq
    (fun n => congrArg Entry.events (hframe.entry_eq n)) hload hhanded

/-- What tasks read from disk is due if it is so for the task that took a step, and was
for the others. -/
theorem reads_update (hself : σ.hushes? = some s → σ.Reads due)
    (hothers : ∀ u ≠ t, (st u).hushes? = some s → (st u).Reads due) :
    ∀ u, (Function.update st t σ u).hushes? = some s →
      (Function.update st t σ u).Reads due :=
  (Function.forall_update_iff st fun _ σ => σ.hushes? = some s → σ.Reads due).mpr
    ⟨hself, hothers⟩

theorem Carries.frame (h : e.Carries st s due shown) (hframe : e.ContentFrame st t e' σ)
    (hentries : e.EntryMove (st t) e' σ) (hvoices : e.VoiceMove (st t) e' σ)
    (hreads : σ.hushes? = some s → σ.Reads due) :
    e'.Carries (Function.update st t σ) s due shown where
  stored := by
    rw [hframe.archive_eq, hframe.transit_eq]
    exact h.stored
  fits := h.fits
  shows := fun n hvoice =>
    (h.shows n (voices_of_nextEntry hentries hvoices hframe.nextEntry_eq hvoice)).congr
      (hframe.events_eq n) fun events => by rw [hframe.handed_eq]
  reads := reads_update hreads fun u _ => h.reads u

/-- What is on disk can be read, and what is on its way completes what is due. -/
theorem Carries.exists_readAll (h : e.Carries st s due shown) (hsound : e.archive.Sound) :
    ∃ stored, e.archive.readAll s none none false = .ok stored ∧
      stored ++ Batch.eventsOf s (e.transit st) = due := by
  obtain ⟨stored, hstores, rfl⟩ := h.stored
  exact ⟨stored, Archive.readAll_of_fits hsound.rooted hstores
    (fun ev hev => h.fits ev (List.mem_append_left _ hev)) none none, rfl⟩

/-! ## Making an entry -/

/-- A read of a hushed stream goes on where the events read so far end. -/
theorem Carries.eq_of_readAll (h : e.Carries st s due shown)
    (hroot : e.archive.disk.Rooted e.archive.base) (hhushed : e.Hushed st s)
    {events page : List Event} {size : Nat} {cancelled : Bool}
    (hread : e.archive.readAll s (some events.length) (some size) cancelled = .ok page) :
    page = (due.drop events.length).take size := by
  obtain ⟨stored, hstores, heq⟩ := h.stored
  rw [hhushed.transit_eq_nil, List.append_nil] at heq
  subst heq
  rw [Archive.readAll_of_stores hroot hstores] at hread
  split at hread
  · cases hread
  · cases hread
    refine (List.map_congr_left fun ev hev => Event.stored_of_fits ?_).trans (List.map_id _)
    exact h.fits ev (List.mem_of_mem_drop (List.mem_of_mem_take hev))

/-- With the next page, what was read is still what is due from its beginning, and all of
it if the page is not full. -/
theorem Carries.append_page (h : e.Carries st s due shown)
    (hroot : e.archive.disk.Rooted e.archive.base) (hhushed : e.Hushed st s)
    {events page : List Event} (hfirst : events <+: due) {size : Nat} {cancelled : Bool}
    (hread : e.archive.readAll s (some events.length) (some size) cancelled = .ok page) :
    events ++ page <+: due ∧ (page.length < size → events ++ page = due) := by
  obtain ⟨rest, rfl⟩ := hfirst
  have hpage := h.eq_of_readAll hroot hhushed hread
  rw [List.drop_left] at hpage
  subst hpage
  refine ⟨(List.prefix_append_right_inj events).mpr (List.take_prefix _ _), fun hlt => ?_⟩
  rw [List.length_take] at hlt
  rw [List.take_of_length_le (by omega)]

/-- An entry that is made anew shows what is due. -/
theorem Carries.populate (h : e.Carries st s due shown) (hsettled : e.Settled st)
    {s' : StreamId} {events : List Event} (hload : st t = .loaded s' events)
    (hentries : e.EntryMove (st t) e' (.arrived s' e.nextEntry))
    (hvoices : e.VoiceMove (st t) e' (.arrived s' e.nextEntry))
    (harchive : e'.archive = e.archive) (hbatches : e'.queue.batches = e.queue.batches)
    (hentry : ∀ n, (e'.entry n).events =
      if n = e.nextEntry then events else (e.entry n).events) :
    e'.Carries (Function.update st t (.arrived s' e.nextEntry)) s due
      (if s' = s then due else shown) := by
  refine ⟨?_, h.fits, fun n hvoice => ?_, reads_update nofun fun u _ => h.reads u⟩
  · rw [harchive, transit, hbatches, load_update (by rw [hload]; rfl)]
    exact h.stored
  · have hevents := hentry n
    rcases Settled.voices_of_change hentries hvoices hvoice with hold | ⟨rfl, -, hhush⟩
    · rw [if_neg (hsettled.lt_of_voices hold).ne] at hevents
      rw [if_neg]
      · refine (h.shows n hold).congr hevents fun events => ?_
        rw [hload]
        rfl
      · rintro rfl
        exact (hsettled.hushed t s' (by rw [hload]; rfl)).voiceless n hold
    · have hread := h.reads t hhush
      rw [hload] at hhush hread
      cases hhush
      rw [if_pos rfl] at hevents ⊢
      rw [Stance.Reads] at hread
      rw [← hread]
      refine shows_of_eq hevents fun u events' hwriter => ?_
      by_cases hut : u = t
      · subst hut
        rw [Function.update_self] at hwriter
        cases hwriter
      · rw [Function.update_of_ne hut] at hwriter
        obtain ⟨s', hentry⟩ := Stance.inHand?_of_place?
          (Stance.place?_of_lock? (Stance.lock?_of_handed? hwriter))
        exact Nat.lt_irrefl _ (hsettled.inOrder.lt_of_inHand? hentry)

/-! ## Writing to an entry -/

/-- An entry that speaks for one stream is in hand for no other. -/
theorem Settled.eq_of_voices (h : e.Settled st) {s' : StreamId}
    (hentry : (st t).inHand? = some (s, n)) (hvoice : e.Voices st s' n) : s' = s := by
  rcases hvoice with hfind | ⟨u, hcurrent⟩
  · exact h.inOrder.eq_of_resident? hentry hfind
  · have hentry' : (st u).inHand? = some (s', n) := by rw [hcurrent]; rfl
    exact h.inOrder.eq_of_inHand? hentry' hentry

/-- Who may hand events off sees all that the entry shows. -/
theorem Carries.events_eq (h : e.Carries st s due shown) (hsettled : e.Settled st)
    (hcurrent : st t = .current s n) : (e.entry n).events = shown :=
  (h.shows n (.inr ⟨t, hcurrent⟩)).eq_of_lock? hsettled.inOrder (t := t)
    (by rw [hcurrent]; rfl) (by rw [hcurrent]; rfl)

/-- Once its writer has handed events off, an entry shows them, too. -/
theorem Carries.shows_handOff (h : e.Carries st s due shown) (hsettled : e.Settled st)
    {events : List Event} (hcurrent : st t = .current s n)
    (hevents : (e'.entry n).events = (e.entry n).events) :
    e'.Shows (Function.update st t (.queued s n events)) n (shown ++ events) := by
  rw [← h.events_eq hsettled hcurrent, ← hevents]
  exact .halfway (t := t) (by rw [Function.update_self]; rfl)

/-- What an entry shows does not change when its writer puts in what it handed off. -/
theorem Shows.extend {shown : List Event} {n' : EntryId} (h : e.Shows st n' shown)
    (horder : e.InOrder st) {events : List Event} (hqueued : st t = .queued s n events)
    (hevents : (e'.entry n').events =
      if n' = n then (e.entry n).events ++ events else (e.entry n').events)
    (hhanded : σ.handed? = none) : e'.Shows (Function.update st t σ) n' shown := by
  by_cases hn : n' = n
  · subst hn
    rw [if_pos rfl] at hevents
    rw [← h.eq_of_handed? horder (t := t) (by rw [hqueued]; rfl)]
    refine shows_of_eq hevents fun u events' hwriter => ?_
    by_cases hut : u = t
    · subst hut
      rw [Function.update_self] at hwriter
      cases hhanded.symm.trans hwriter
    · rw [Function.update_of_ne hut] at hwriter
      exact hut (horder.eq_of_lock? (Stance.lock?_of_handed? hwriter)
        (by rw [hqueued]; rfl))
  · rw [if_neg hn] at hevents
    refine h.congr hevents fun events' => ?_
    rw [hqueued, hhanded]
    refine ⟨nofun, fun heq => ?_⟩
    cases heq
    exact absurd rfl hn

theorem Carries.handOff (h : e.Carries st s due shown) (hsettled : e.Settled st)
    {r : AppendRequest} {events : List Event} (hcurrent : st t = .current r.stream n)
    (hfits : ∀ ev ∈ events, ev.type.utf8ByteSize ≤ maxEventTypeLength)
    (hentries : e.EntryMove (st t) (e.withBatches (e.queue.batches ++ [⟨r.stream, events⟩]))
      (.queued r.stream n events))
    (hvoices : e.VoiceMove (st t) (e.withBatches (e.queue.batches ++ [⟨r.stream, events⟩]))
      (.queued r.stream n events)) :
    (e.withBatches (e.queue.batches ++ [⟨r.stream, events⟩])).Carries
      (Function.update st t (.queued r.stream n events)) s
      (if r.stream = s then due ++ events else due)
      (if r.stream = s then shown ++ events else shown) := by
  have hvoice : e.Voices st r.stream n := .inr ⟨t, hcurrent⟩
  refine ⟨?_, fun ev hev => ?_, fun n' hvoice' => ?_, reads_update nofun fun u hu hhush => ?_⟩
  · obtain ⟨stored, hstores, rfl⟩ := h.stored
    refine ⟨stored, hstores, ?_⟩
    have htransit : (e.withBatches (e.queue.batches ++ [⟨r.stream, events⟩])).transit
        (Function.update st t (.queued r.stream n events)) =
        e.transit st ++ [⟨r.stream, events⟩] := by
      rw [transit, load_update (by rw [hcurrent]; rfl), transit, List.append_assoc]
      rfl
    rw [htransit, Batch.eventsOf_append, ← List.append_assoc, Batch.eventsOf_cons]
    split
    · exact congrArg _ (List.append_nil _)
    · exact List.append_nil _
  · split at hev
    · exact (List.mem_append.mp hev).elim (h.fits ev) (hfits ev)
    · exact h.fits ev hev
  · have hold := voices_of_nextEntry hentries hvoices rfl hvoice'
    split
    next hs =>
      subst hs
      cases hsettled.voice_eq r.stream n n' hvoice hold
      exact h.shows_handOff hsettled hcurrent rfl
    next hs =>
      refine (h.shows n' hold).congr rfl fun events' => ?_
      rw [hcurrent]
      refine ⟨fun hhanded => ?_, nofun⟩
      cases hhanded
      exact absurd (hsettled.eq_of_voices (t := t) (by rw [hcurrent]; rfl) hold).symm hs
  · rw [if_neg]
    · exact h.reads u hhush
    · rintro rfl
      exact (hsettled.hushed u _ hhush).voiceless n hvoice

theorem Carries.extend (h : e.Carries st s due shown) (hsettled : e.Settled st)
    {s' : StreamId} {events : List Event} (hqueued : st t = .queued s' n events)
    (harchive : e'.archive = e.archive) (hbatches : e'.queue.batches = e.queue.batches)
    (hnext : e'.nextEntry = e.nextEntry)
    (hevents : ∀ n', (e'.entry n').events =
      if n' = n then (e.entry n).events ++ events else (e.entry n').events)
    (hentries : e.EntryMove (st t) e' (.writing s' n))
    (hvoices : e.VoiceMove (st t) e' (.writing s' n)) :
    e'.Carries (Function.update st t (.writing s' n)) s due shown where
  stored := by
    rw [harchive, transit, hbatches, load_update (by rw [hqueued]; rfl)]
    exact h.stored
  fits := h.fits
  shows := fun n' hvoice =>
    (h.shows n' (voices_of_nextEntry hentries hvoices hnext hvoice)).extend
      hsettled.inOrder hqueued (hevents n') rfl
  reads := reads_update nofun fun u _ => h.reads u

/-! ## Writing back and removing -/

/-- What the worker has in its hands comes before what is in the queue. -/
theorem Settled.transit_update (h : e.Settled st) (hworks : (st t).works = true)
    (e' : Engine) (σ : Stance) :
    e'.transit (Function.update st t σ) = σ.load ++ e'.queue.batches := by
  rw [transit, h.worker t hworks, Function.update_self]

theorem Settled.transit_eq (h : e.Settled st) (hworks : (st t).works = true) :
    e.transit st = (st t).load ++ e.queue.batches := by
  rw [transit, h.worker t hworks]

theorem Settled.content_receive (h : e.Settled st) (hreceiving : st t = .receiving)
    {b : Batch} {rest : List Batch} (hbatches : e.queue.batches = b :: rest) :
    e.ContentFrame st t (e.withBatches rest) (.carrying b) := by
  have hworks : (st t).works = true := by rw [hreceiving]; rfl
  refine ⟨rfl, fun s => ?_, rfl, fun _ => rfl, (congrArg Stance.handed? hreceiving).symm⟩
  rw [h.transit_update hworks, h.transit_eq hworks, hbatches, hreceiving]
  rfl

theorem Settled.content_skip (h : e.Settled st) {b : Batch} (hcarrying : st t = .carrying b)
    (hempty : b.events = []) : e.ContentFrame st t e (.carried b) := by
  have hworks : (st t).works = true := by rw [hcarrying]; rfl
  refine ⟨rfl, fun s => ?_, rfl, fun _ => rfl, (congrArg Stance.handed? hcarrying).symm⟩
  rw [h.transit_update hworks, h.transit_eq hworks, hcarrying]
  simp only [Stance.load, List.nil_append, List.singleton_append, Batch.eventsOf_cons,
    hempty, ite_self]

/-- A step that changes nothing but the archive leaves entries and tasks as they are. -/
theorem Carries.of_archive_change (h : e.Carries st s due shown) {archive : Archive}
    {due' : List Event}
    (hstored : ∃ events, Extent.Stores archive.disk archive.base s events [] ∧
      events ++ Batch.eventsOf s
        ({ e with archive }.transit (Function.update st t σ)) = due')
    (hpart : due'.Sublist due)
    (hentries : e.EntryMove (st t) { e with archive } σ)
    (hvoices : e.VoiceMove (st t) { e with archive } σ)
    (hhanded : σ.handed? = (st t).handed?)
    (hreads : ∀ u, (Function.update st t σ u).hushes? = some s →
      (Function.update st t σ u).Reads due') :
    Carries { e with archive } (Function.update st t σ) s due' shown where
  stored := hstored
  fits := fun ev hev => h.fits ev (hpart.subset hev)
  shows := fun n hvoice =>
    (h.shows n (voices_of_nextEntry hentries hvoices rfl hvoice)).congr rfl
      fun events => by rw [hhanded]
  reads := hreads

/-- What becomes of the batch that the worker carries is what becomes of what is due. -/
theorem Carries.exists_stored (h : e.Carries st s due shown) (hsettled : e.Settled st)
    {b : Batch} (hcarrying : st t = .carrying b) (e' : Engine)
    (hqueue : e'.queue.batches = e.queue.batches) :
    ∃ stored rest, Extent.Stores e.archive.disk e.archive.base s stored [] ∧
      due = stored ++ ((if b.stream = s then b.events else []) ++ rest) ∧
      Batch.eventsOf s (e'.transit (Function.update st t (.carried b))) = rest := by
  have hworks : (st t).works = true := by rw [hcarrying]; rfl
  obtain ⟨stored, hstores, heq⟩ := h.stored
  rw [hsettled.transit_eq hworks, hcarrying, Stance.load, List.singleton_append,
    Batch.eventsOf_cons] at heq
  refine ⟨stored, _, hstores, heq.symm, ?_⟩
  rw [hsettled.transit_update hworks, hqueue]
  rfl

theorem Carries.persist (h : e.Carries st s due shown) (hsound : e.archive.Sound)
    (hsettled : e.Settled st) {b : Batch} (hcarrying : st t = .carrying b)
    {archive : Archive} {patience : Patience}
    (hrun : e.archive.append b.stream b.events patience = (.ok (), archive))
    (hentries : e.EntryMove (st t) { e with archive } (.carried b))
    (hvoices : e.VoiceMove (st t) { e with archive } (.carried b)) :
    Carries { e with archive } (Function.update st t (.carried b)) s due shown := by
  obtain ⟨hbase, -, hagree⟩ := hsound.append hrun
  refine h.of_archive_change ?_ (.refl _) hentries hvoices
    (congrArg Stance.handed? hcarrying).symm (reads_update nofun fun u _ => h.reads u)
  obtain ⟨stored, rest, hstores, heq, hrest⟩ :=
    h.exists_stored hsettled hcarrying { e with archive } rfl
  refine ⟨stored ++ if b.stream = s then b.events else [], ?_, ?_⟩
  · split
    next hs =>
      subst hs
      exact hsound.stores_append hstores hrun
    next hs =>
      rw [List.append_nil, hbase]
      exact hstores.of_agreeOff hagree (Ne.symm hs)
  · rw [hrest, heq, List.append_assoc]

/-- What a write that fails leaves whole of its batch stays due. -/
theorem Carries.lose (h : e.Carries st s due shown) (hsettled : e.Settled st) {b : Batch}
    (hcarrying : st t = .carrying b) {archive : Archive}
    (htried : e.archive.Tried b.stream b.events archive) (hwhole : ¬archive.IsTorn s)
    (hentries : e.EntryMove (st t) { e with archive } (.carried b))
    (hvoices : e.VoiceMove (st t) { e with archive } (.carried b)) :
    ∃ due', due'.Sublist due ∧
      Carries { e with archive } (Function.update st t (.carried b)) s due' shown := by
  obtain ⟨stored, rest, hstores, rfl, hrest⟩ :=
    h.exists_stored hsettled hcarrying { e with archive } rfl
  have hbatch : e.Underway st b := .inl ⟨t, hcarrying⟩
  by_cases hs : b.stream = s
  · subst hs
    obtain ⟨n, torn, hstores'⟩ := htried.stores hstores
    obtain rfl := not_not.mp ((Archive.isTorn_iff hstores').not.mp hwhole)
    rw [if_pos rfl] at h ⊢
    have hpart : (stored ++ b.events.take n ++ rest).Sublist (stored ++ (b.events ++ rest)) := by
      rw [List.append_assoc]
      exact (((List.take_sublist n b.events).append_right rest).append_left stored)
    refine ⟨_, hpart, h.of_archive_change ⟨_, hstores', by rw [hrest]⟩ hpart hentries hvoices
      (congrArg Stance.handed? hcarrying).symm (reads_update nofun fun u _ hhush => ?_)⟩
    exact absurd rfl ((hsettled.hushed u _ hhush).batchless b hbatch)
  · rw [if_neg hs, List.nil_append] at h ⊢
    refine ⟨_, .refl _, h.of_archive_change ⟨stored, ?_, by rw [hrest]⟩ (.refl _) hentries
      hvoices (congrArg Stance.handed? hcarrying).symm (reads_update nofun fun u _ => h.reads u)⟩
    rw [htried.base_eq]
    exact hstores.of_agreeOff htried.agree (Ne.symm hs)

/-- A removal of another stream leaves the content alone, whether or not it succeeds. -/
theorem Carries.delete_of_ne (h : e.Carries st s due shown) (hsound : e.archive.Sound)
    {s' : StreamId} (hs : s' ≠ s) (hquiet : st t = .quiet s') {archive : Archive}
    {weather : Nat → Interference} {result : Except StorageFault Unit}
    (hrun : e.archive.delete s' weather = (result, archive))
    (hentries : e.EntryMove (st t) { e with archive } (.quiet s'))
    (hvoices : e.VoiceMove (st t) { e with archive } (.quiet s')) :
    Carries { e with archive } (Function.update st t (.quiet s')) s due shown := by
  obtain ⟨hbase, -, hagree⟩ := hsound.agreeOff_delete hrun
  refine h.of_archive_change ?_ (.refl _) hentries hvoices
    (congrArg Stance.handed? hquiet).symm (reads_update (fun _ => trivial) fun u _ => h.reads u)
  obtain ⟨stored, hstores, heq⟩ := h.stored
  refine ⟨stored, ?_, ?_⟩
  · rw [hbase]
    exact hstores.of_agreeOff hagree (Ne.symm hs)
  · rw [transit, load_update (by rw [hquiet])]
    exact heq

/-- Once a stream is removed nothing is held of it, whatever was on disk before. -/
theorem carries_delete (hsound : e.archive.Sound) (hsettled : e.Settled st)
    (hquiet : st t = .quiet s) {archive : Archive} {weather : Nat → Interference}
    (hrun : e.archive.delete s weather = (.ok (), archive))
    (hentries : e.EntryMove (st t) { e with archive } (.quiet s))
    (hvoices : e.VoiceMove (st t) { e with archive } (.quiet s)) :
    Carries { e with archive } (Function.update st t (.quiet s)) s [] [] := by
  have hhushed : e.Hushed st s := hsettled.hushed t s (by rw [hquiet]; rfl)
  obtain ⟨-, -, hgone, -⟩ := hsound.delete hrun
  refine ⟨⟨[], hgone, ?_⟩, List.forall_mem_nil _, fun n hvoice => ?_,
    reads_update (fun _ => trivial) fun u hu hhush => ?_⟩
  · rw [transit, load_update (by rw [hquiet])]
    exact hhushed.transit_eq_nil
  · exact absurd (voices_of_nextEntry hentries hvoices rfl hvoice) (hhushed.voiceless n)
  · refine absurd (hsettled.inOrder.eq_of_guard? (s := s)
      (Stance.guard?_of_closes? (Stance.closes?_of_hushes? hhush)) ?_) hu
    rw [hquiet]
    rfl

/-! ## All steps -/

theorem events_changeEntry (e : Engine) (n n' : EntryId) (events : List Event) :
    ((e.changeEntry n fun entry => { entry with events := entry.events ++ events }).entry
      n').events = if n' = n then (e.entry n).events ++ events else (e.entry n').events := by
  rw [entry_changeEntry]
  split <;> rfl

theorem events_newEntry (e : Engine) (events : List Event) (n : EntryId) :
    ((e.newEntry events).2.entry n).events =
      if n = e.nextEntry then events else (e.entry n).events := by
  rw [entry_newEntry]
  split <;> rfl

/-- However a write ends, it was tried. -/
theorem tried_of_write (hsound : e.archive.Sound) {s : StreamId} {events : List Event}
    (hne : events ≠ []) {patience : Patience} {w : Weather} {archive : Archive}
    {result : Except StorageFault Unit}
    (hrun : Persisting.write e.archive s events patience w = (result, archive)) :
    e.archive.Tried s events archive := by
  rw [Persisting.write] at hrun
  split at hrun
  · exact hsound.tried_appendCut hrun
  · exact hsound.tried_append hne hrun

/-- Every step keeps the archive sound. -/
theorem sound_of_change (hsound : e.archive.Sound) (hsettled : e.Settled st)
    (hchange : Change e t (st t) deeds e' σ) :
    e'.archive.base = e.archive.base ∧ e'.archive.Sound := by
  have hkept : ∀ {archive : Archive}, archive = e.archive →
      archive.base = e.archive.base ∧ archive.Sound := by
    rintro archive rfl
    exact ⟨rfl, hsound⟩
  generalize hσ : st t = σ₀ at hchange
  cases hchange with
  | persist hrun =>
      obtain ⟨hbase, hsound', -⟩ := hsound.append hrun
      exact ⟨hbase, hsound'⟩
  | @lose b archive w fault hrun =>
      have htried := tried_of_write hsound (hsettled.batch_ne_nil b (.inl ⟨t, hσ⟩)) hrun
      exact ⟨htried.base_eq, htried.sound⟩
  | delete hrun | deleteFail hrun =>
      obtain ⟨hbase, hsound', -⟩ := hsound.agreeOff_delete hrun
      exact ⟨hbase, hsound'⟩
  | frame hframe | find hframe | turn hframe => exact hkept hframe.archive_eq
  | turnHit hframe | turnMiss hframe | finish hframe => exact hkept hframe.archive_eq
  | _ => exact hkept rfl

/-- What one step does to what is due and what is shown of a stream that it does not
remove: nothing, or events are handed off behind what is shown, or what a failed write
did not put on disk is not due any more, or an entry is made anew from what is due. -/
inductive Flow (s : StreamId) (deeds : List Happening) (due shown : List Event) :
    List Event → List Event → Prop
  | still (hstill : ∀ log, Log.history s (log ++ deeds) = Log.history s log) :
      Flow s deeds due shown due shown
  | handOff {t : TaskId} {r : AppendRequest} {events : List Event} {now : Int64}
      (hstream : r.stream = s) (hdeeds : deeds = [.admitted t r events])
      (hstamp : events = stamp (shown.getLast?.map (·.id)) now r.drafts) :
      Flow s deeds due shown (due ++ events) (shown ++ events)
  | lose {b : Batch} {due' : List Event} (hdeeds : deeds = [.lost b])
      (hpart : due'.Sublist due) : Flow s deeds due shown due' shown
  | reload (hdeeds : deeds = []) : Flow s deeds due shown due due

theorem Flow.of_nil : Flow s [] due shown due shown :=
  .still fun log => by rw [List.append_nil]

/-- A step that does not remove the stream, or part of it, and leaves no torn header lets
what is due and what is shown flow on. -/
theorem Carries.change (h : e.Carries st s due shown) (hsound : e.archive.Sound)
    (hsettled : e.Settled st) (hchange : Change e t (st t) deeds e' σ)
    (hkept : ∀ u, .removed u s ∉ deeds) (hkept' : ∀ u, .unremoved u s ∉ deeds)
    (hwhole : ∀ b, .lost b ∈ deeds → ¬e'.archive.IsTorn s) :
    ∃ due' shown', Flow s deeds due shown due' shown' ∧
      e'.Carries (Function.update st t σ) s due' shown' := by
  obtain ⟨table, hcache⟩ := hsettled.inOrder.cache
  obtain ⟨-, hentries⟩ := hchange.entryMove hcache
  have hvoices := hchange.voiceMove hcache
  have hreads := h.reads t
  generalize hσ : st t = σ₀ at hchange hreads
  have hpaged : ∀ {s' : StreamId} {events page : List Event} {size : Nat} {cancelled : Bool},
      σ₀ = .loading s' events →
      e.archive.readAll s' (some events.length) (some size) cancelled = .ok page →
      s' = s → events ++ page <+: due ∧ (page.length < size → events ++ page = due) := by
    rintro s' events page size cancelled rfl hread rfl
    exact h.append_page hsound.rooted (hsettled.hushed t _ (by rw [hσ]; rfl)) (hreads rfl)
      hread
  cases hchange with
  | persist hrun => exact ⟨_, _, .of_nil, h.persist hsound hsettled hσ hrun hentries hvoices⟩
  | @delete s' archive weather hrun =>
      have hs : s' ≠ s := by
        rintro rfl
        exact hkept t List.mem_cons_self
      refine ⟨_, _, .still fun log => ?_, h.delete_of_ne hsound hs hσ hrun hentries hvoices⟩
      exact (Log.history_append s log _).trans (if_neg hs)
  | @deleteFail s' archive weather fault hrun =>
      have hs : s' ≠ s := by
        rintro rfl
        exact hkept' t List.mem_cons_self
      exact ⟨_, _, .still fun log => Log.history_append s log _,
        h.delete_of_ne hsound hs hσ hrun hentries hvoices⟩
  | @handOff r n events hne hfits hversion hstamp =>
      have hcarries := h.handOff hsettled hσ hfits hentries hvoices
      by_cases hs : r.stream = s
      · subst hs
        rw [h.events_eq hsettled hσ] at hstamp
        rw [if_pos rfl, if_pos rfl] at hcarries
        exact ⟨_, _, .handOff rfl rfl hstamp, hcarries⟩
      · rw [if_neg hs, if_neg hs] at hcarries
        refine ⟨_, _, .still fun log => ?_, hcarries⟩
        exact (Log.history_append s log _).trans (if_neg hs)
  | @lose b archive w fault hrun =>
      have htried := tried_of_write hsound (hsettled.batch_ne_nil b (.inl ⟨t, hσ⟩)) hrun
      obtain ⟨due', hpart, hcarries⟩ := h.lose hsettled hσ htried
        (hwhole b List.mem_cons_self) hentries hvoices
      exact ⟨_, _, .lose rfl hpart, hcarries⟩
  | @populate s' events =>
      have hcarries := h.populate hsettled hσ hentries hvoices rfl rfl (e.events_newEntry _)
      split at hcarries
      · exact ⟨_, _, .reload rfl, hcarries⟩
      · exact ⟨_, _, .of_nil, hcarries⟩
  | extend =>
      exact ⟨_, _, .of_nil,
        h.extend hsettled hσ rfl rfl rfl (e.events_changeEntry _ · _) hentries hvoices⟩
  | receive hbatches =>
      exact ⟨_, _, .of_nil,
        h.frame (hsettled.content_receive hσ hbatches) hentries hvoices nofun⟩
  | skip hempty =>
      exact ⟨_, _, .of_nil, h.frame (hsettled.content_skip hσ hempty) hentries hvoices nofun⟩
  | loadMore hread =>
      refine ⟨_, _, .of_nil, h.frame (.of_load rfl rfl rfl (fun _ => rfl)
        (congrArg Stance.load hσ).symm (congrArg Stance.handed? hσ).symm) hentries hvoices
        fun hs => ?_⟩
      cases hs
      exact (hpaged rfl hread rfl).1
  | loadLast hread hlast =>
      refine ⟨_, _, .of_nil, h.frame (.of_load rfl rfl rfl (fun _ => rfl)
        (congrArg Stance.load hσ).symm (congrArg Stance.handed? hσ).symm) hentries hvoices
        fun hs => ?_⟩
      cases hs
      exact (hpaged rfl hread rfl).2 hlast
  | openFiles hidle =>
      exact ⟨_, _, .of_nil, h.frame (.of_load rfl rfl rfl (fun _ => rfl)
        (congrArg Stance.load hσ).symm (congrArg Stance.handed? hσ).symm) hentries hvoices
        fun _ => List.nil_prefix⟩
  | frame hframe =>
      exact ⟨_, _, .of_nil, h.frame (hframe.content (congrArg Stance.load hσ).symm
        (congrArg Stance.handed? hσ).symm) hentries hvoices hreads⟩
  | find hframe | turn hframe | turnHit hframe | turnMiss hframe | finish hframe =>
      exact ⟨_, _, .of_nil, h.frame (hframe.content (congrArg Stance.load hσ).symm
        (congrArg Stance.handed? hσ).symm) hentries hvoices nofun⟩
  | joinRead | joinWrite | joinEmpty =>
      exact ⟨_, _, .of_nil, h.frame (.of_load rfl rfl rfl
        (fun n => e.events_joinEntry _ n t _) (congrArg Stance.load hσ).symm
        (congrArg Stance.handed? hσ).symm) hentries hvoices nofun⟩
  | leaveRead | leaveAwait | leaveWrite | leaveEmptied =>
      exact ⟨_, _, .of_nil, h.frame (.of_load rfl rfl rfl
        (fun n => e.events_leaveEntry _ n t) (congrArg Stance.load hσ).symm
        (congrArg Stance.handed? hσ).symm) hentries hvoices nofun⟩
  | hush =>
      exact ⟨_, _, .of_nil, h.frame (.of_load rfl rfl rfl (fun _ => rfl)
        (congrArg Stance.load hσ).symm (congrArg Stance.handed? hσ).symm) hentries hvoices
        fun _ => trivial⟩
  | _ =>
      exact ⟨_, _, .of_nil, h.frame (.of_load rfl rfl rfl (fun _ => rfl)
        (congrArg Stance.load hσ).symm (congrArg Stance.handed? hσ).symm) hentries hvoices
        nofun⟩

/-- After a step that leaves a stream intact either the stream was removed by it and
nothing is held, or what was held flows on. -/
theorem carries_of_change (hsound : e.archive.Sound) (hsettled : e.Settled st)
    (hchange : Change e t (st t) deeds e' σ)
    (hwhole : ∀ b, .lost b ∈ deeds → ¬e'.archive.IsTorn s)
    (hintact : Log.Intact s (log ++ deeds)) :
    (deeds = [.removed t s] ∧ e'.Carries (Function.update st t σ) s [] []) ∨
      Log.Intact s log ∧ ∀ due shown, e.Carries st s due shown →
        ∃ due' shown', Flow s deeds due shown due' shown' ∧
          e'.Carries (Function.update st t σ) s due' shown' := by
  by_cases hremoved : ∃ u, .removed u s ∈ deeds
  · obtain ⟨u, hmem⟩ := hremoved
    obtain ⟨table, hcache⟩ := hsettled.inOrder.cache
    obtain ⟨-, hentries⟩ := hchange.entryMove hcache
    have hvoices := hchange.voiceMove hcache
    generalize hσ : st t = σ₀ at hchange
    cases hchange with
    | delete hrun =>
        cases List.mem_singleton.mp hmem
        exact .inl ⟨rfl, carries_delete hsound hsettled hσ hrun hentries hvoices⟩
    | handOff | deleteFail | lose => cases List.mem_singleton.mp hmem
    | _ => cases hmem
  · have hkept := not_exists.mp hremoved
    exact .inr ⟨hintact.of_append hkept, fun due shown h =>
      h.change hsound hsettled hchange hkept (hintact.unremoved_notMem hkept) hwhole⟩

/-- What flows where no write fails is the history. -/
theorem Flow.eq_history {due' shown' : List Event}
    (hflow : Flow s deeds (Log.history s log) (Log.history s log) due' shown')
    (hwritten : Log.Written deeds) :
    due' = Log.history s (log ++ deeds) ∧ shown' = Log.history s (log ++ deeds) := by
  cases hflow with
  | still hstill => exact ⟨(hstill log).symm, (hstill log).symm⟩
  | @handOff t r events now hstream hdeeds hstamp =>
      subst hdeeds
      have hhistory : Log.history s (log ++ [.admitted t r events]) =
          Log.history s log ++ events := (Log.history_append s log _).trans (if_pos hstream)
      exact ⟨hhistory.symm, hhistory.symm⟩
  | lose hdeeds hpart =>
      subst hdeeds
      exact absurd List.mem_cons_self (hwritten _)
  | reload hdeeds =>
      subst hdeeds
      rw [List.append_nil]
      exact ⟨rfl, rfl⟩

/-- As long as no write fails, the content is right after each step for the streams that
are intact, if it was before. -/
theorem keeps_of_change (h : Log.Intact s log → e.Keeps st log s) (hsound : e.archive.Sound)
    (hsettled : e.Settled st) (hchange : Change e t (st t) deeds e' σ)
    (hwritten : Log.Written deeds) (hintact : Log.Intact s (log ++ deeds)) :
    e'.Keeps (Function.update st t σ) (log ++ deeds) s := by
  have hwhole : ∀ b, .lost b ∈ deeds → ¬e'.archive.IsTorn s :=
    fun b hlost => absurd hlost (hwritten b)
  rcases carries_of_change hsound hsettled hchange hwhole hintact with
    ⟨rfl, hcarries⟩ | ⟨hbefore, hflows⟩
  · have hnothing : Log.history s (log ++ [Happening.removed t s]) = [] :=
      (Log.history_append s log _).trans (if_pos rfl)
    rw [Keeps, hnothing]
    exact hcarries
  · obtain ⟨due', shown', hflow, hcarries⟩ := hflows _ _ (h hbefore)
    obtain ⟨rfl, rfl⟩ := hflow.eq_history hwritten
    exact hcarries

/-- What a step does to the events of the entries there are: nothing, or its task hands
events off, or puts in what it handed off. -/
inductive EventsMove (e : Engine) (t : TaskId) (σ : Stance) (deeds : List Happening)
    (e' : Engine) (σ' : Stance) : Prop
  | frame (hevents : ∀ n < e.nextEntry, (e'.entry n).events = (e.entry n).events)
      (hhanded : σ'.handed? = σ.handed?)
      (hdeeds : ∀ u r events, .admitted u r events ∉ deeds)
  | handOff (r : AppendRequest) (n : EntryId) (events : List Event)
      (hevents : ∀ n, (e'.entry n).events = (e.entry n).events)
      (hbefore : σ = .current r.stream n) (hafter : σ' = .queued r.stream n events)
      (hdeeds : deeds = [.admitted t r events])
      (hversion : ∀ version, r.expected = some version →
        version = (e.entry n).events.length)
  | extend (s : StreamId) (n : EntryId) (events : List Event)
      (hevents : ∀ n', (e'.entry n').events =
        if n' = n then (e.entry n).events ++ events else (e.entry n').events)
      (hbefore : σ = .queued s n events) (hafter : σ'.handed? = none) (hdeeds : deeds = [])

/-- The content depends on the history alone, not on what else a log says. -/
theorem Keeps.congr (h : e.Keeps st log s) {log' : List Happening}
    (hsame : Log.history s log' = Log.history s log) : e.Keeps st log' s := by
  rw [Keeps, hsame]
  exact h

/-- An engine that starts over what is stored of a stream holds just that. -/
theorem carries_of_stores {archive : Archive} {stored : List Event}
    (hstores : Extent.Stores archive.disk archive.base s stored [])
    (hfits : ∀ ev ∈ stored, ev.type.utf8ByteSize ≤ maxEventTypeLength)
    (settings : Settings) (clock : Int64) :
    (Engine.ofArchive settings archive clock).Carries
      (Function.update (fun _ => Stance.free) 0 .receiving) s stored stored where
  stored := ⟨_, hstores, List.append_nil _⟩
  fits := hfits
  shows := fun n hvoice => by
    rcases hvoice with hfind | ⟨t, hcurrent⟩
    · cases hfind
    · by_cases ht : t = 0
      · subst ht
        rw [Function.update_self] at hcurrent
        cases hcurrent
      · rw [Function.update_of_ne ht] at hcurrent
        cases hcurrent
  reads := reads_update nofun fun _ _ => nofun

end Engine

theorem Change.eventsMove {e e' : Engine} {t : TaskId} {σ σ' : Stance}
    {deeds : List Happening} (hchange : Change e t σ deeds e' σ') :
    e.EventsMove t σ deeds e' σ' := by
  cases hchange with
  | handOff hne hfits hversion =>
      exact .handOff _ _ _ (fun _ => rfl) rfl rfl rfl hversion
  | extend => exact .extend _ _ _ (e.events_changeEntry _ · _) rfl rfl rfl
  | populate =>
      refine .frame (fun n hlt => ?_) rfl nofun
      exact (e.events_newEntry _ n).trans (if_neg hlt.ne)
  | frame hframe | find hframe | finish hframe =>
      exact .frame (fun n _ => congrArg Entry.events (hframe.entry_eq n)) rfl nofun
  | turn hframe | turnHit hframe | turnMiss hframe =>
      exact .frame (fun n _ => congrArg Entry.events (hframe.entry_eq n)) rfl nofun
  | joinRead | joinWrite | joinEmpty =>
      exact .frame (fun n _ => e.events_joinEntry _ n t _) rfl nofun
  | leaveRead | leaveAwait | leaveWrite | leaveEmptied =>
      exact .frame (fun n _ => e.events_leaveEntry _ n t) rfl nofun
  | delete | deleteFail | lose => exact .frame (fun _ _ => rfl) rfl (by simp)
  | _ => exact .frame (fun _ _ => rfl) rfl nofun

end StreamStore
