import StreamStore.Proofs.Engine.Stance

/-!
# Steps as changes

Every step of a task that clients or the engine itself run is one of the changes of
stance, and what is noted of the step is what the change says.
-/

namespace StreamStore

/-! ## Requests that were checked -/

/-- What is known of a request that got past its first step. -/
structure AppendRequest.Checked (r : AppendRequest) : Prop where
  drafts_ne_nil : r.drafts ≠ []
  type_le : ∀ draft ∈ r.drafts, draft.type.utf8ByteSize ≤ maxEventTypeLength

/-- A writer finds nothing wrong with drafts that have types, none too long for a type buffer, and
payloads within its limit. -/
theorem AppendRequest.fault?_eq_none_iff {limit index : Nat} {drafts : List EventDraft} :
    fault? limit index drafts = none ↔ ∀ draft ∈ drafts, draft.type.utf8ByteSize ≠ 0 ∧
      draft.type.utf8ByteSize ≤ maxEventTypeLength ∧ draft.data.length ≤ limit := by
  induction drafts generalizing index with
  | nil => simp [fault?]
  | cons draft drafts ih =>
      rw [fault?, List.forall_mem_cons, ← @ih (index + 1), draftFault?]
      by_cases hempty : draft.type.utf8ByteSize = 0
      · simp [hempty]
      · by_cases hlong : maxEventTypeLength < draft.type.utf8ByteSize
        · simp [hempty, hlong, Nat.not_le_of_lt hlong]
        · by_cases hlarge : limit < draft.data.length
          · simp [hempty, hlong, hlarge, Nat.not_le_of_lt hlarge]
          · simp [hempty, hlong, hlarge, Nat.le_of_not_lt]

theorem AppendRequest.type_le_of_fault? {limit index : Nat} {drafts : List EventDraft}
    (h : fault? limit index drafts = none) :
    ∀ draft ∈ drafts, draft.type.utf8ByteSize ≤ maxEventTypeLength :=
  fun draft hmem => (fault?_eq_none_iff.mp h draft hmem).2.1

/-- A stamped event is one of the drafts with an identity. -/
theorem exists_draft_of_mem_stamp {last : Option EventId} {now : Int64}
    {drafts : List EventDraft} {ev : Event} (hev : ev ∈ stamp last now drafts) :
    ∃ draft ∈ drafts, ev = draft.withId ev.id := by
  induction drafts generalizing last with
  | nil => cases hev
  | cons draft drafts ih =>
      simp only [stamp, List.mem_cons] at hev
      rcases hev with rfl | hev
      · exact ⟨draft, List.mem_cons_self, rfl⟩
      · obtain ⟨other, hother, heq⟩ := ih hev
        exact ⟨other, List.mem_cons_of_mem draft hother, heq⟩

/-- The stamped events have the types of the drafts. -/
theorem type_le_of_mem_stamp {last : Option EventId} {now : Int64}
    {drafts : List EventDraft}
    (h : ∀ draft ∈ drafts, draft.type.utf8ByteSize ≤ maxEventTypeLength) :
    ∀ ev ∈ stamp last now drafts, ev.type.utf8ByteSize ≤ maxEventTypeLength := by
  intro ev hev
  obtain ⟨draft, hmem, heq⟩ := exists_draft_of_mem_stamp hev
  rw [heq]
  exact h draft hmem

/-- Work that runs in an engine: a request of a client, checked once it got past its
first step, or writing back what comes out of the queue. -/
def Work.Admissible : Work → Prop
  | append _ .start => True
  | append _ (.done _) => True
  | append r _ => r.Checked
  | writeBack worker => worker.source = .queue
  | persist .. => False
  | hold .. => False
  | retire .. => False
  | _ => True

theorem Work.admissible_of_isRequest {work : Work} (h : work.isRequest = true) :
    work.Admissible := by
  unfold isRequest at h
  split at h <;> trivial

variable {e e' : Engine} {t : TaskId} {cancelled : Bool} {w : Weather}

/-! ## Changes of the cache alone -/

/-- A cache whose entries are among those of the one before can take its place. -/
theorem Engine.frame_withCache {cache : Cache StreamId EntryId}
    (h : ∀ table, e.pool.cache.Holds table →
      ∃ table', cache.Holds table' ∧ table'.Within table) : e.Frame (e.withCache cache) :=
  ⟨rfl, rfl, rfl, rfl, rfl, rfl, h⟩

theorem Engine.frame_lookup (e : Engine) (s : StreamId) :
    e.Frame (e.withCache (e.pool.cache.lookup s).2) := by
  apply frame_withCache
  intro table htable
  refine ⟨_, (htable.lookup s).2, fun k v hfind => ?_⟩
  rw [Table.find?_promote] at hfind
  exact hfind

theorem Engine.frame_recheck (e : Engine) (s : StreamId) :
    e.Frame (e.withCache (e.pool.cache.recheck s).2) := by
  apply frame_withCache
  intro table htable
  refine ⟨_, (htable.recheck s).2, fun k v hfind => ?_⟩
  rw [Table.find?_promote] at hfind
  exact hfind

theorem Engine.frame_touch (e : Engine) (s : StreamId) (n : EntryId) :
    e.Frame (e.touch s n).2 := by
  apply frame_withCache
  intro table htable
  obtain ⟨table', htable', hfind⟩ := htable.touchIf s (· = n)
  exact ⟨table', htable', fun k v hv => (hfind k).symm.trans hv⟩

theorem Engine.frame_dropOldest (e : Engine) (count : Nat) :
    e.Frame (e.dropOldest count).2 := by
  apply frame_withCache
  intro table htable
  refine ⟨_, htable.dropOldest count, Table.within_of_subset htable.table_proper ?_⟩
  exact List.take_subset _ _

theorem Cache.fst_lookup (c : Cache StreamId EntryId) (s : StreamId) :
    (c.lookup s).1 = c.peek s := by
  rw [lookup]
  cases c.peek s with
  | none => rfl
  | some n => rfl

/-! ## Steps of parts of work -/

theorem Residence.change {s : StreamId} {residence residence' : Residence}
    (h : residence.step e s t cancelled w = some (e', residence')) :
    Change e t (residence.stance s) [] e' (residence'.stance s) := by
  cases residence with
  | asking phase =>
      cases phase with
      | looking =>
          have hlookup := Cache.fst_lookup e.pool.cache s
          have hframe := e.frame_lookup s
          simp only [step, Pool.advance] at h
          generalize e.pool.cache.lookup s = found at h hlookup hframe
          obtain ⟨n?, cache⟩ := found
          cases n? with
          | none =>
              cases h
              exact .frame hframe
          | some n =>
              cases h
              exact .find hframe hlookup.symm
      | missed =>
          cases h
          exact .joinLine
      | inLine =>
          have hframe := e.frame_recheck s
          simp only [step, Pool.advance] at h
          by_cases hturn : e.pool.lines.holds s t = true
          · rw [if_pos hturn] at h
            cases hpeek : e.pool.cache.peek s with
            | none =>
                rw [Cache.recheck, hpeek] at h
                cases h
                exact .turnMiss hframe hturn hpeek
            | some n =>
                rw [Cache.recheck, hpeek] at h
                cases h
                exact .turnHit hframe hturn hpeek
          · rw [if_neg hturn] at h
            cases h
      | finding =>
          simp only [step] at h
          split at h
          · cases h
            exact .giveUp
          · split at h
            next hidle =>
              cases h
              exact .openFiles hidle
            · cases h
      | leaving result =>
          cases h
          cases result with
          | error refusal => exact .leaveGuard
          | ok n => exact .leaveLine
      | done result => cases h
  | loading events =>
      simp only [step, loadPage, Option.some.injEq, Prod.mk.injEq] at h
      obtain ⟨rfl, rfl⟩ := h
      cases hread : e.archive.readAll s (some events.length)
          (some (max e.settings.hydrationPageSize 1)) cancelled with
      | error fault => exact .loadFail
      | ok page =>
          simp only
          split
          next hlast => exact .loadLast hread hlast
          · exact .loadMore hread
  | loaded events =>
      cases h
      exact .populate

theorem Reading.change {α : Type} {s : StreamId} {n : EntryId} {look : List Event → α}
    {phase phase' : Reading α} (h : phase.step e n t look = some (e', phase')) :
    Change e t (phase.stance s n) [] e' (phase'.stance s n) := by
  cases phase with
  | arriving =>
      cases h
      exact .joinRead
  | inLine =>
      rw [step] at h
      split at h
      · cases h
        exact .frame (.refl e)
      · cases h
  | leaving seen =>
      cases h
      exact .leaveRead
  | done seen => cases h

theorem Counting.change {s : StreamId} {phase phase' : Counting}
    (h : phase.step e s t = some (e', phase')) :
    Change e t (phase.stance s) [] e' (phase'.stance s) := by
  cases phase with
  | start =>
      rw [step] at h
      cases hresident : e.resident? s with
      | none =>
          rw [hresident] at h
          cases h
          exact .frame (.refl e)
      | some n =>
          rw [hresident] at h
          cases h
          exact .find (.refl e) hresident
  | reading n phase =>
      rw [step] at h
      split at h
      next hresult =>
        cases h
        cases phase <;> cases hresult
        exact .frame (.refl e)
      next hresult =>
        cases h
        cases phase <;> cases hresult
        exact .frame (.refl e)
      · obtain ⟨⟨e₁, phase₁⟩, hstep, heq⟩ := Option.map_eq_some_iff.mp h
        cases heq
        exact Reading.change hstep
  | onDisk =>
      cases h
      exact .frame (.refl e)
  | done result => cases h

theorem Retiring.change {s : StreamId} {phase phase' : Retiring}
    (h : phase.step e s t = some (e', phase')) :
    Change e t (phase.stance s) [] e' (phase'.stance s) := by
  cases phase with
  | start =>
      cases h
      exact .joinLine
  | inLine =>
      rw [step] at h
      split at h
      next hturn =>
        cases h
        exact .turn (.refl e) hturn
      · cases h
  | held =>
      rw [step] at h
      cases hresident : e.resident? s with
      | none =>
          rw [hresident] at h
          cases h
          exact .inspectMiss hresident
      | some n =>
          rw [hresident] at h
          cases h
          exact .inspectHit hresident
  | arriving n =>
      cases h
      exact .joinEmpty
  | inEntryLine n =>
      rw [step] at h
      split at h
      next hlock =>
        cases h
        exact .empty hlock
      · cases h
  | unlocking n =>
      cases h
      exact .leaveEmptied
  | retired => cases h

/-! ## Steps of work -/

/-- A batch that the queue takes goes behind those that are in it. -/
theorem WriteQueue.send_eq_ok {q q' : WriteQueue} {b : Batch} (h : q.send b = .ok q') :
    q' = { q with batches := q.batches ++ [b] } := by
  rw [send] at h
  split at h
  · cases h
  · cases h
    rfl

theorem Appending.change {r : AppendRequest} {phase phase' : Appending}
    (hadmissible : (Work.append r phase).Admissible)
    (h : phase.step e r t cancelled w = some (e', phase')) :
    Change e t (phase.stance r.stream) (Work.deeds t (.append r phase) (.append r phase')) e'
      (phase'.stance r.stream) := by
  cases phase with
  | start =>
      have hbegin : (begin e r).stance r.stream = .free := by
        rw [begin]
        split
        · rfl
        · split <;> rfl
      cases h
      rw [hbegin]
      exact .frame (.refl e)
  | finding residence =>
      rw [step] at h
      split at h
      next n hresult =>
        cases h
        unfold Residence.result? at hresult
        split at hresult <;> cases hresult
        exact .frame (.refl e)
      next refusal hresult =>
        cases h
        unfold Residence.result? at hresult
        split at hresult <;> cases hresult
        exact .frame (.refl e)
      · obtain ⟨⟨e₁, residence₁⟩, hstep, heq⟩ := Option.map_eq_some_iff.mp h
        cases heq
        exact Residence.change hstep
  | arriving n =>
      cases h
      exact .joinWrite
  | inLine n =>
      simp only [step] at h
      split at h
      · cases h
        exact .leaveAwait
      · split at h
        next hlock =>
          cases h
          exact .lock hlock
        · cases h
  | locked n =>
      cases h
      exact .announce
  | announced n =>
      simp only [step, Option.some.injEq, Prod.mk.injEq] at h
      obtain ⟨rfl, rfl⟩ := h
      by_cases hcurrent : e.isCurrent r.stream n = true
      · rw [if_pos hcurrent]
        exact .check (of_decide_eq_true hcurrent)
      · rw [if_neg hcurrent]
        exact .frame (.refl e)
  | stale n =>
      cases h
      exact .takeBack
  | unlockingStale n =>
      cases h
      exact .leaveWrite
  | current n =>
      simp only [step, Option.some.injEq, handOff] at h
      cases hmismatch : mismatch? r (e.entry n).events.length with
      | some refusal =>
          rw [hmismatch] at h
          cases h
          exact .refuse
      | none =>
          rw [hmismatch] at h
          simp only at h
          split at h
          next queue hsend =>
            cases h
            rw [WriteQueue.send_eq_ok hsend]
            refine .handOff ?_ (type_le_of_mem_stamp hadmissible.type_le)
              (fun version hexpected => ?_) rfl
            · intro hnil
              have hlength := congrArg List.length hnil
              rw [length_stamp, List.length_nil, List.length_eq_zero_iff] at hlength
              exact hadmissible.drafts_ne_nil hlength
            · rw [mismatch?, hexpected] at hmismatch
              by_contra hne
              simp only [if_neg hne] at hmismatch
              cases hmismatch
          · cases h
            exact .refuse
  | refused n refusal =>
      cases h
      exact .takeBack
  | queued n events =>
      cases h
      exact .extend
  | extended n =>
      cases h
      exact .frame (e.frame_touch r.stream n)
  | unlocking n result =>
      cases h
      exact .leaveWrite
  | done result => cases h

theorem Paging.change {r : PageRequest} {phase phase' : Paging}
    (h : phase.step e r t cancelled w = some (e', phase')) :
    Change e t (phase.stance r.stream) [] e' (phase'.stance r.stream) := by
  cases phase with
  | start =>
      cases h
      have hfree : (if r.start < 0 then
            done (.error (.badRequest (.negativeStart r.start)))
          else finding .start).stance r.stream = .free := by
        split <;> rfl
      rw [hfree]
      exact .frame (.refl e)
  | finding residence =>
      rw [step] at h
      split at h
      next n hresult =>
        cases h
        unfold Residence.result? at hresult
        split at hresult <;> cases hresult
        exact .frame (.refl e)
      next refusal hresult =>
        cases h
        unfold Residence.result? at hresult
        split at hresult <;> cases hresult
        exact .frame (.refl e)
      · obtain ⟨⟨e₁, residence₁⟩, hstep, heq⟩ := Option.map_eq_some_iff.mp h
        cases heq
        exact Residence.change hstep
  | reading n phase =>
      rw [step] at h
      split at h
      next hresult =>
        cases h
        cases phase <;> cases hresult
        exact .frame (.refl e)
      · obtain ⟨⟨e₁, phase₁⟩, hstep, heq⟩ := Option.map_eq_some_iff.mp h
        cases heq
        exact Reading.change hstep
  | done result => cases h

theorem Measuring.change {s : StreamId} {phase phase' : Measuring}
    (h : phase.step e s t cancelled w = some (e', phase')) :
    Change e t (phase.stance s) [] e' (phase'.stance s) := by
  cases phase with
  | finding residence =>
      rw [step] at h
      split at h
      next n hresult =>
        cases h
        unfold Residence.result? at hresult
        split at hresult <;> cases hresult
        exact .frame (.refl e)
      next refusal hresult =>
        cases h
        unfold Residence.result? at hresult
        split at hresult <;> cases hresult
        exact .frame (.refl e)
      · obtain ⟨⟨e₁, residence₁⟩, hstep, heq⟩ := Option.map_eq_some_iff.mp h
        cases heq
        exact Residence.change hstep
  | reading n phase =>
      rw [step] at h
      split at h
      next hresult =>
        cases h
        cases phase <;> cases hresult
        exact .frame (.refl e)
      · obtain ⟨⟨e₁, phase₁⟩, hstep, heq⟩ := Option.map_eq_some_iff.mp h
        cases heq
        exact Reading.change hstep
  | done result => cases h

theorem Peeking.change {s : StreamId} {phase phase' : Peeking}
    (h : phase.step e s t = some (e', phase')) :
    Change e t (phase.stance s) [] e' (phase'.stance s) := by
  cases phase with
  | start =>
      rw [step] at h
      cases hresident : e.resident? s with
      | none =>
          rw [hresident] at h
          cases h
          exact .frame (.refl e)
      | some n =>
          rw [hresident] at h
          cases h
          exact .find (.refl e) hresident
  | reading n phase =>
      rw [step] at h
      split at h
      next hresult =>
        cases h
        cases phase <;> cases hresult
        exact .frame (.refl e)
      · obtain ⟨⟨e₁, phase₁⟩, hstep, heq⟩ := Option.map_eq_some_iff.mp h
        cases heq
        exact Reading.change hstep
  | done events => cases h

theorem Listing.stance_next (found : List StreamSummary) (rest : List StreamId) :
    (next found rest).stance = .free := by
  cases rest <;> rfl

theorem Listing.change {filter : Option StreamType} {phase phase' : Listing}
    (h : phase.step e filter t = some (e', phase')) :
    Change e t phase.stance [] e' phase'.stance := by
  cases phase with
  | start =>
      rw [step] at h
      split at h
      · cases h
        exact .frame (.refl e)
      · cases h
        exact .frame (.refl e)
  | listed onDisk =>
      cases h
      rw [stance_next]
      exact .frame (.refl e)
  | counting s phase rest found =>
      have hfree : ∀ result, phase.result? = some result → phase.stance s = .free := by
        intro result hresult
        cases phase <;> first | rfl | cases hresult
      rw [step] at h
      split at h
      next hresult =>
        cases h
        rw [stance, hfree _ hresult]
        exact .frame (.refl e)
      next hresult =>
        cases h
        rw [stance, hfree _ hresult, stance_next]
        exact .frame (.refl e)
      next hresult =>
        cases h
        rw [stance, hfree _ hresult, stance_next]
        exact .frame (.refl e)
      · obtain ⟨⟨e₁, phase₁⟩, hstep, heq⟩ := Option.map_eq_some_iff.mp h
        cases heq
        exact Counting.change hstep
  | done result => cases h

theorem Removing.change {s : StreamId} {phase phase' : Removing}
    (h : phase.step e s t w = some (e', phase')) :
    Change e t (phase.stance s) (Work.deeds t (.remove s phase) (.remove s phase')) e'
      (phase'.stance s) := by
  cases phase with
  | retiring phase =>
      cases phase with
      | retired =>
          rw [step] at h
          split at h
          next hidle =>
            cases h
            exact .hush hidle
          · cases h
      | _ =>
          simp only [step] at h
          obtain ⟨⟨e₁, phase₁⟩, hstep, heq⟩ := Option.map_eq_some_iff.mp h
          cases heq
          exact Retiring.change hstep
  | quiet =>
      cases h
      exact .frame ⟨rfl, rfl, rfl, rfl, rfl, rfl, (Engine.Frame.refl e).cache⟩
  | inExtentLine =>
      rw [step] at h
      split at h
      · cases hrun : e.archive.delete s w.removal with
        | mk result archive =>
        rw [hrun] at h
        cases h
        cases result with
        | ok _ => exact .delete hrun
        | error fault => exact .deleteFail hrun
      · cases h
  | unlocking result =>
      cases h
      exact .frame ⟨rfl, rfl, rfl, rfl, rfl, rfl, (Engine.Frame.refl e).cache⟩
  | leaving result =>
      cases h
      exact .leaveQuiet
  | done result => cases h

/-- A write that is cut short fails. -/
theorem Archive.fst_appendCut_ne_ok (a : Archive) (s : StreamId) (events : List Event)
    (bytes : Nat) : (a.appendCut s events bytes).1 ≠ .ok () := by
  intro hok
  rw [appendCut] at hok
  split at hok
  · cases hok
  · split at hok
    · cases hok
    · simp only at hok
      split at hok
      · cases hok
      · cases hok
      · split at hok
        · cases hok
        · split at hok <;> cases hok

theorem Worker.change {k k' : Worker} (hsource : k.source = .queue)
    (h : k.step e t w = some (e', k')) :
    Change e t k.phase.stance (Work.deeds t (.writeBack k) (.writeBack k')) e'
      k'.phase.stance := by
  obtain ⟨source, phase, report⟩ := k
  cases hsource
  cases phase with
  | receiving =>
      simp only [step, receive, WriteQueue.receive] at h
      by_cases hreceived : e.queue.received = true
      · rw [if_neg (by simp [hreceived])] at h
        cases hbatches : e.queue.batches with
        | nil =>
            rw [hbatches] at h
            cases hclosed : e.queue.closed with
            | true =>
                simp only [hclosed, if_true] at h
                cases h
                exact .finish ⟨rfl, rfl, rfl, rfl, hbatches.symm, rfl,
                  (Engine.Frame.refl e).cache⟩
            | false =>
                rw [hclosed] at h
                cases h
        | cons b rest =>
            rw [hbatches] at h
            cases h
            exact .receive hbatches
      · rw [if_pos (by simp [hreceived])] at h
        cases h
        exact .finish (.refl e)
  | writing b phase =>
      cases phase with
      | start =>
          simp only [step, Persisting.result?, Persisting.step] at h
          split at h
          next hempty =>
            cases h
            exact .skip (List.isEmpty_iff.mp hempty)
          · cases h
            exact .frame ⟨rfl, rfl, rfl, rfl, rfl, rfl, (Engine.Frame.refl e).cache⟩
      | inLine =>
          simp only [step, Persisting.result?, Persisting.step] at h
          split at h
          · cases hrun : Persisting.write e.archive b.stream b.events none w with
            | mk result archive =>
            rw [hrun] at h
            cases h
            cases result with
            | error fault => exact .lose hrun
            | ok _ =>
                rw [Persisting.write] at hrun
                split at hrun
                next bytes hcut =>
                  exact (Archive.fst_appendCut_ne_ok _ _ _ _ (congrArg Prod.fst hrun)).elim
                · exact .persist hrun
          · cases h
      | unlocking result =>
          cases h
          exact .frame ⟨rfl, rfl, rfl, rfl, rfl, rfl, (Engine.Frame.refl e).cache⟩
      | done result =>
          cases h
          exact .frame (.refl e)
  | written b =>
      cases h
      exact .countOff
  | finished => cases h

/-- Every step of admissible work is a change of stance, with what it did noted. -/
theorem Work.change {work work' : Work} (hadmissible : work.Admissible)
    (h : work.step e t cancelled w = some (e', work')) :
    Change e t work.stance (deeds t work work') e' work'.stance := by
  cases work with
  | append r phase =>
      obtain ⟨⟨e₁, phase₁⟩, hstep, heq⟩ := Option.map_eq_some_iff.mp h
      cases heq
      exact Appending.change hadmissible hstep
  | page r phase =>
      obtain ⟨⟨e₁, phase₁⟩, hstep, heq⟩ := Option.map_eq_some_iff.mp h
      cases heq
      exact Paging.change hstep
  | measure s phase =>
      obtain ⟨⟨e₁, phase₁⟩, hstep, heq⟩ := Option.map_eq_some_iff.mp h
      cases heq
      exact Measuring.change hstep
  | peek s phase =>
      obtain ⟨⟨e₁, phase₁⟩, hstep, heq⟩ := Option.map_eq_some_iff.mp h
      cases heq
      exact Peeking.change hstep
  | count s phase =>
      obtain ⟨⟨e₁, phase₁⟩, hstep, heq⟩ := Option.map_eq_some_iff.mp h
      cases heq
      exact Counting.change hstep
  | list filter phase =>
      obtain ⟨⟨e₁, phase₁⟩, hstep, heq⟩ := Option.map_eq_some_iff.mp h
      cases heq
      exact Listing.change hstep
  | remove s phase =>
      obtain ⟨⟨e₁, phase₁⟩, hstep, heq⟩ := Option.map_eq_some_iff.mp h
      cases heq
      exact Removing.change hstep
  | flush isDone =>
      rw [step] at h
      split at h
      · cases h
        exact .frame (.refl e)
      · cases h
  | persist s events phase => exact hadmissible.elim
  | writeBack worker =>
      obtain ⟨⟨e₁, worker₁⟩, hstep, heq⟩ := Option.map_eq_some_iff.mp h
      cases heq
      exact Worker.change hadmissible hstep
  | hold n access joined => exact hadmissible.elim
  | retire s phase => exact hadmissible.elim

end StreamStore
