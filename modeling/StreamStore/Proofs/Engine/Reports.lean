import StreamStore.Proofs.Engine.Content
import StreamStore.Proofs.Engine.Scenes

/-!
# What tasks report

An entry that a task has in hand shows what the history of its stream was at some
moment since the task started, even if the entry went out of the cache and others
came after it.  So the page that a reader reports is a slice of such a history.  A
writer whose append succeeds handed its events off, and its version was that of the
history then; and who reports a removal leaves no history behind.

The part of this that depends on the disk is said of the moments at which a stream is
intact, so that it holds again once a stream is removed after a removal that failed.
-/

namespace StreamStore

/-! ## Logs -/

namespace Log

/-- Each happening of a log is as it should be after those before it. -/
def All (right : List Happening → Happening → Prop) (log : List Happening) : Prop :=
  ∀ before happening after, log = before ++ happening :: after → right before happening

theorem all_nil (right : List Happening → Happening → Prop) : All right [] :=
  fun _ _ _ h => absurd h.symm (by simp)

theorem All.append_singleton {right : List Happening → Happening → Prop}
    {log : List Happening} {happening : Happening} (h : All right log)
    (hlast : right log happening) : All right (log ++ [happening]) := by
  intro before other after heq
  rcases List.eq_nil_or_concat after with rfl | ⟨after', last, rfl⟩
  · obtain ⟨rfl, hsame⟩ := List.append_inj' heq rfl
    cases hsame
    exact hlast
  · rw [List.concat_eq_append, ← List.cons_append, ← List.append_assoc] at heq
    obtain ⟨hlog, -⟩ := List.append_inj' heq rfl
    exact h before other after' hlog

/-- A step does at most one thing that is noted. -/
theorem All.append_deeds {right : List Happening → Happening → Prop}
    {log : List Happening} {t : TaskId} {work work' : Work} (h : All right log)
    (hdeeds : ∀ happening ∈ Work.deeds t work work', right log happening) :
    All right (log ++ Work.deeds t work work') := by
  have hlength : (Work.deeds t work work').length ≤ 1 := by
    unfold Work.deeds
    split <;> simp
  cases heq : Work.deeds t work work' with
  | nil =>
      rw [List.append_nil]
      exact h
  | cons happening deeds =>
      rw [heq] at hdeeds hlength
      obtain rfl := List.eq_nil_of_length_eq_zero (Nat.le_zero.mp (Nat.le_of_succ_le_succ hlength))
      exact h.append_singleton (hdeeds happening List.mem_cons_self)

/-- An earlier log that says all that is said of the start of a task. -/
structure Since (t : TaskId) (log pre : List Happening) : Prop where
  isPrefix : pre <+: log
  started_mem : ∀ work, .started t work ∈ log → .started t work ∈ pre

variable {t : TaskId} {s : StreamId} {log more pre : List Happening}

theorem Since.refl (t : TaskId) (log : List Happening) : Since t log log :=
  ⟨List.prefix_rfl, fun _ h => h⟩

theorem Since.append (h : Since t log pre) (hmore : ∀ work, .started t work ∉ more) :
    Since t (log ++ more) pre where
  isPrefix := h.isPrefix.trans (List.prefix_append log more)
  started_mem := fun work hmem =>
    (List.mem_append.mp hmem).elim (h.started_mem work) fun hlater =>
      absurd hlater (hmore work)

/-- An empty history stays so until events of the stream are handed off. -/
theorem history_append_eq_nil (h : history s log = [])
    (hmore : ∀ t r events, .admitted t r events ∈ more → r.stream ≠ s) :
    history s (log ++ more) = [] := by
  rw [history_append, h]
  clear h
  induction more with
  | nil => rfl
  | cons happening more ih =>
      have hstep : remember s [] happening = [] := by
        cases happening with
        | admitted t r events => exact if_neg (hmore t r events List.mem_cons_self)
        | removed t s' => exact ite_self _
        | _ => rfl
      rw [List.foldl_cons, hstep]
      exact ih fun t r events hmem => hmore t r events (List.mem_cons_of_mem happening hmem)

/-- Remarks do not belong to a history. -/
theorem history_append_remark {st : TaskId → Stance} {remark : Happening}
    (h : remark.IsRemark st) (s : StreamId) (log : List Happening) :
    history s (log ++ [remark]) = history s log := by
  rw [history_append]
  cases remark <;> first | rfl | exact h.elim

end Log

/-! ## Entries in hand -/

/-- No task starts by a step of another. -/
theorem Change.started_notMem {e e' : Engine} {t : TaskId} {σ σ' : Stance}
    {deeds : List Happening} (hchange : Change e t σ deeds e' σ') (u : TaskId)
    (work : Work) : .started u work ∉ deeds := by
  cases hchange <;> simp

/-- A change is not the end of a task. -/
theorem Change.ended_notMem {e e' : Engine} {t : TaskId} {σ σ' : Stance}
    {deeds : List Happening} (hchange : Change e t σ deeds e' σ') (u : TaskId)
    (work : Work) : .ended u work ∉ deeds := by
  cases hchange <;> simp

namespace Engine

variable {e e' : Engine} {st : TaskId → Stance} {t : TaskId} {s : StreamId} {n : EntryId}
  {σ : Stance} {log deeds : List Happening}

/-- What an entry shows stays what it was, or becomes the history of its stream when
its writer hands events off. -/
theorem Shows.change {shown : List Event} (h : e.Shows st n shown) (hlt : n < e.nextEntry)
    (hsettled : e.Settled st) (hkeeps : Log.Intact s log → e.Keeps st log s)
    (hstream : ∀ s', st t = .current s' n → s' = s)
    (hmove : e.EventsMove t (st t) deeds e' σ) :
    e'.Shows (Function.update st t σ) n shown ∨ (Log.Intact s (log ++ deeds) →
      e'.Shows (Function.update st t σ) n (Log.history s (log ++ deeds))) := by
  cases hmove with
  | frame hevents hhanded hdeeds =>
      exact .inl (h.congr (hevents n hlt) fun events => by rw [hhanded])
  | extend s n' events hevents hbefore hafter hdeeds =>
      exact .inl (h.extend hsettled.inOrder hbefore (hevents n) hafter)
  | handOff r n' events hevents hbefore hafter hdeeds hversion =>
      subst hafter hdeeds
      by_cases hn : n = n'
      · subst hn
        refine .inr fun hintact => ?_
        obtain rfl := hstream r.stream hbefore
        rw [Log.history_append]
        simp only [List.foldl_cons, List.foldl_nil, Log.remember, if_true]
        exact (hkeeps (hintact.of_append (by simp))).shows_handOff hsettled hbefore (hevents n)
      · refine .inl (h.congr (hevents n) fun events' => ?_)
        rw [hbefore]
        refine ⟨fun hhanded => ?_, nofun⟩
        cases hhanded
        exact absurd rfl hn

/-- What tasks have in hand of a stream shows histories since they started, at moments at
which the stream was intact. -/
def InHand (e : Engine) (st : TaskId → Stance) (log : List Happening) (s : StreamId) :
    Prop :=
  ∀ t n, (st t).inHand? = some (s, n) →
    ∃ pre, Log.Since t log pre ∧ (Log.Intact s pre → e.Shows st n (Log.history s pre))

theorem InHand.change (h : e.InHand st log s) (hsettled : e.Settled st)
    (hkeeps : Log.Intact s log → e.Keeps st log s) (hchange : Change e t (st t) deeds e' σ)
    (hkeeps' : Log.Intact s (log ++ deeds) →
      e'.Keeps (Function.update st t σ) (log ++ deeds) s) :
    e'.InHand (Function.update st t σ) (log ++ deeds) s := by
  obtain ⟨table, hcache⟩ := hsettled.inOrder.cache
  obtain ⟨-, hentries⟩ := hchange.entryMove hcache
  have hmove := hchange.eventsMove
  have hstarted := hchange.started_notMem
  have hold : ∀ u n, e.Voices st s n ∨ (∃ v, (st v).inHand? = some (s, n)) →
      (∃ pre, Log.Since u log pre ∧ (Log.Intact s pre → e.Shows st n (Log.history s pre))) →
      ∃ pre, Log.Since u (log ++ deeds) pre ∧ (Log.Intact s pre →
        e'.Shows (Function.update st t σ) n (Log.history s pre)) := by
    rintro u n hhand ⟨pre, hsince, hshows⟩
    have hlt : n < e.nextEntry := hhand.elim hsettled.lt_of_voices
      fun ⟨v, hv⟩ => hsettled.inOrder.lt_of_inHand? hv
    have hstream : ∀ s', st t = .current s' n → s' = s := by
      intro s' hcurrent
      have hentry : (st t).inHand? = some (s', n) := by rw [hcurrent]; rfl
      exact (hhand.elim (hsettled.eq_of_voices hentry)
        fun ⟨v, hv⟩ => hsettled.inOrder.eq_of_inHand? hv hentry).symm
    by_cases hintact : Log.Intact s pre
    · rcases (hshows hintact).change hlt hsettled hkeeps hstream hmove with hsame | hnow
      · exact ⟨pre, hsince.append (hstarted u), fun _ => hsame⟩
      · exact ⟨log ++ deeds, .refl u _, hnow⟩
    · exact ⟨pre, hsince.append (hstarted u), fun hnow => absurd hnow hintact⟩
  intro u n hu
  by_cases hut : u = t
  · subst hut
    rw [Function.update_self] at hu
    cases hentries with
    | stay hnext hkept hentry =>
        rcases hentry s n hu with hbefore | hfind
        · exact hold u n (.inr ⟨u, hbefore⟩) (h u n hbefore)
        · exact hold u n (.inl (.inl hfind))
            ⟨log, .refl u log, fun hintact => (hkeeps hintact).shows n (.inl hfind)⟩
    | fresh s' events hloaded harrived hnext hself hkept =>
        rw [harrived] at hu
        cases hu
        exact ⟨log ++ deeds, .refl u _, fun hintact =>
          (hkeeps' hintact).shows e.nextEntry (.inl hself)⟩
  · rw [Function.update_of_ne hut] at hu
    exact hold u n (.inr ⟨u, hu⟩) (h u n hu)

/-- A writer hands events off only at the version that it was asked for. -/
theorem Keeps.version_eq {r : AppendRequest} (h : e.Keeps st log r.stream)
    (hsettled : e.Settled st) (hmove : e.EventsMove t (st t) deeds e' σ) {u : TaskId}
    {events : List Event} (hmem : .admitted u r events ∈ deeds) {version : Nat}
    (hexpected : r.expected = some version) :
    version = (Log.history r.stream log).length := by
  cases hmove with
  | frame hevents hhanded hdeeds => exact absurd hmem (hdeeds u r events)
  | extend s n events hevents hbefore hafter hdeeds =>
      subst hdeeds
      cases hmem
  | handOff r' n events hevents hbefore hafter hdeeds hversion =>
      subst hdeeds
      cases List.mem_singleton.mp hmem
      rw [← h.events_eq hsettled hbefore]
      exact hversion version hexpected

/-- Nothing is handed off for a stream that a task keeps hushed. -/
theorem Settled.stream_ne_of_hushes (h : e.Settled st)
    (hmove : e.EventsMove t (st t) deeds e' σ) {u : TaskId}
    (hhush : (st u).hushes? = some s) {v : TaskId} {r : AppendRequest} {events : List Event}
    (hmem : .admitted v r events ∈ deeds) : r.stream ≠ s := by
  rintro rfl
  cases hmove with
  | frame hevents hhanded hdeeds => exact hdeeds v r events hmem
  | extend s n events hevents hbefore hafter hdeeds =>
      subst hdeeds
      cases hmem
  | handOff r' n events hevents hbefore hafter hdeeds hversion =>
      subst hdeeds
      cases List.mem_singleton.mp hmem
      exact (h.hushed u _ hhush).voiceless n (.inr ⟨t, hbefore⟩)

end Engine

/-! ## Work that agrees with a log -/

/-- The page that a reader saw. -/
def Paging.seen? : Paging → Option (List Event)
  | reading _ (.leaving events) => some events
  | reading _ (.done events) => some events
  | done (.ok events) => some events
  | _ => none

/-- Whether the events of an append were handed off, or there were none. -/
def Appending.isAdmitted : Appending → Bool
  | queued .. => true
  | extended _ => true
  | unlocking _ (.ok _) => true
  | done (.ok _) => true
  | _ => false

/-- Whether the files of a stream are removed. -/
def Removing.isRemoved : Removing → Bool
  | unlocking (.ok _) => true
  | leaving (.ok _) => true
  | done (.ok _) => true
  | _ => false

/-- The page is a slice of the history of its stream at some moment since the reader
started, if the stream was intact then. -/
def PageRequest.SeenIn (r : PageRequest) (t : TaskId) (log : List Happening)
    (events : List Event) : Prop :=
  ∃ pre, pre <+: log ∧ .started t (.page r .start) ∈ pre ∧ (Log.Intact r.stream pre →
    events = Page.slice (Log.history r.stream pre) r.start r.direction r.limit)

/-- What a task found out or did agrees with the log. -/
def Work.Agrees (t : TaskId) (log : List Happening) : Work → Prop
  | page r phase => .started t (.page r .start) ∈ log ∧
      ∀ events, phase.seen? = some events → r.SeenIn t log events
  | append r phase => phase.isAdmitted = true →
      r.drafts = [] ∨ ∃ events, .admitted t r events ∈ log
  | remove s phase => phase.isRemoved = true →
      .removed t s ∈ log ∧ Log.history s log = []
  | _ => True

/-- What is noted agrees with what happened before. -/
def Happening.Agrees (before : List Happening) : Happening → Prop
  | admitted _ r _ => Log.Intact r.stream before → ∀ version, r.expected = some version →
      version = (Log.history r.stream before).length
  | ended t work => work.Agrees t before
  | _ => True

/-- What is noted agrees with what happened before, if no removal fails. -/
def Happening.Right (before : List Happening) : Happening → Prop
  | admitted _ r _ => ∀ version, r.expected = some version →
      version = (Log.history r.stream before).length
  | ended t (.page r phase) => .started t (.page r .start) ∈ before ∧
      ∀ events, phase.seen? = some events →
        ∃ pre, pre <+: before ∧ .started t (.page r .start) ∈ pre ∧
          events = Page.slice (Log.history r.stream pre) r.start r.direction r.limit
  | ended t work => work.Agrees t before
  | _ => True

theorem Happening.Agrees.right {before : List Happening} {happening : Happening}
    (h : happening.Agrees before) (hfair : Log.Fair before) : happening.Right before := by
  cases happening with
  | admitted t r events => exact h (hfair.intact _)
  | ended t work =>
      cases work with
      | page r phase =>
          refine ⟨h.1, fun events hevents => ?_⟩
          obtain ⟨pre, hfirst, hstarted, hseen⟩ := h.2 events hevents
          refine ⟨pre, hfirst, hstarted, hseen (Log.Fair.intact ?_ _)⟩
          exact fun other hmem => hfair other (hfirst.subset hmem)
      | _ => exact h
  | _ => trivial

/-- What a step notes beside the end of its task agrees with what happened before. -/
theorem Change.agrees_of_mem {e e' : Engine} {st : TaskId → Stance} {t : TaskId} {σ : Stance}
    {log deeds : List Happening} (hchange : Change e t (st t) deeds e' σ)
    (hkeeps : ∀ s, Log.Intact s log → e.Keeps st log s) (hsettled : e.Settled st)
    {happening : Happening} (hmem : happening ∈ deeds) : happening.Agrees log := by
  cases happening with
  | admitted u r events =>
      intro hintact version hexpected
      exact (hkeeps r.stream hintact).version_eq hsettled hchange.eventsMove hmem hexpected
  | ended u work => exact absurd hmem (hchange.ended_notMem u work)
  | _ => trivial

theorem PageRequest.SeenIn.append {r : PageRequest} {t : TaskId} {log : List Happening}
    {events : List Event} (h : r.SeenIn t log events) (more : List Happening) :
    r.SeenIn t (log ++ more) events := by
  obtain ⟨pre, hfirst, hstarted, heq⟩ := h
  exact ⟨pre, hfirst.trans (List.prefix_append log more), hstarted, heq⟩

namespace Work

variable {e e' : Engine} {st : TaskId → Stance} {t : TaskId} {cancelled : Bool}
  {w : Weather} {log : List Happening}

theorem agrees_of_isRequest {work : Work} (h : work.isRequest = true) :
    work.Agrees t (log ++ [.started t work]) := by
  unfold isRequest at h
  split at h <;> first
    | cases h; done
    | trivial
    | exact ⟨List.mem_append_right log List.mem_cons_self, nofun⟩
    | exact nofun

/-- A reader that holds its entry sees all that it shows. -/
theorem agrees_step_page {r : PageRequest} {phase phase' : Paging}
    (h : (page r phase).Agrees t log) (hsettled : e.Settled st)
    (hhand : e.InHand st log r.stream)
    (hstance : st t = phase.stance r.stream)
    (hstep : phase.step e r t cancelled w = some (e', phase')) :
    (page r phase').Agrees t log := by
  obtain ⟨hstarted, hseen⟩ := h
  refine ⟨hstarted, fun events hevents => ?_⟩
  cases phase with
  | start =>
      rw [Paging.step] at hstep
      split at hstep <;> cases hstep <;> cases hevents
  | finding residence =>
      rw [Paging.step] at hstep
      split at hstep
      · cases hstep
        cases hevents
      · cases hstep
        cases hevents
      · obtain ⟨found, -, heq⟩ := Option.map_eq_some_iff.mp hstep
        cases heq
        cases hevents
  | reading n phase =>
      cases phase with
      | arriving =>
          cases hstep
          cases hevents
      | inLine =>
          simp only [Paging.step, Reading.result?, Reading.step] at hstep
          split at hstep
          next hholds =>
            cases hstep
            cases hevents
            have hentry : (st t).inHand? = some (r.stream, n) := by rw [hstance]; rfl
            obtain ⟨pre, hsince, hshows⟩ := hhand t n hentry
            refine ⟨pre, hsince.isPrefix, hsince.started_mem _ hstarted, fun hintact => ?_⟩
            have hshows := hshows hintact
            have hwhole : (e.entry n).events = Log.history r.stream pre := by
              generalize Log.history r.stream pre = shown at hshows
              cases hshows with
              | halfway hwriter =>
                  have heq := hsettled.inOrder.eq_of_holdsEntry
                    (Stance.lock?_of_handed? hwriter) hholds
                  rw [← heq, hstance] at hwriter
                  cases hwriter
              | whole hnone => rfl
            rw [hwhole]
          · cases hstep
      | leaving page =>
          cases hstep
          cases hevents
          exact hseen events rfl
      | done page =>
          cases hstep
          cases hevents
          exact hseen events rfl
  | done result => cases hstep

theorem agrees_step_append {r : AppendRequest} {phase phase' : Appending}
    (h : (append r phase).Agrees t log)
    (hstep : phase.step e r t cancelled w = some (e', phase')) :
    (append r phase').Agrees t (log ++ deeds t (append r phase) (append r phase')) := by
  intro hadmitted
  have hkept : phase.isAdmitted = true → r.drafts = [] ∨
      ∃ events, .admitted t r events ∈ log ++ deeds t (append r phase) (append r phase') :=
    fun hbefore => (h hbefore).imp id fun ⟨events, hmem⟩ =>
      ⟨events, List.mem_append_left _ hmem⟩
  cases phase with
  | start =>
      cases hstep
      rw [Appending.begin] at hadmitted
      split at hadmitted
      next hdrafts => exact .inl (List.isEmpty_iff.mp hdrafts)
      · split at hadmitted <;> cases hadmitted
  | finding residence =>
      rw [Appending.step] at hstep
      split at hstep
      · cases hstep
        cases hadmitted
      · cases hstep
        cases hadmitted
      · obtain ⟨found, -, heq⟩ := Option.map_eq_some_iff.mp hstep
        cases heq
        cases hadmitted
  | inLine n =>
      simp only [Appending.step] at hstep
      split at hstep
      · cases hstep
        cases hadmitted
      · split at hstep <;> cases hstep
        cases hadmitted
  | announced n =>
      simp only [Appending.step, Option.some.injEq, Prod.mk.injEq] at hstep
      obtain ⟨rfl, rfl⟩ := hstep
      split at hadmitted <;> cases hadmitted
  | current n =>
      simp only [Appending.step, Option.some.injEq, Appending.handOff] at hstep
      split at hstep
      · cases hstep
        cases hadmitted
      · split at hstep
        · cases hstep
          exact .inr ⟨_, List.mem_append_right log List.mem_cons_self⟩
        · cases hstep
          cases hadmitted
  | queued n events =>
      cases hstep
      exact hkept rfl
  | extended n =>
      cases hstep
      exact hkept rfl
  | unlocking n result =>
      cases hstep
      cases result with
      | ok _ => exact hkept rfl
      | error refusal => cases hadmitted
  | done result => cases hstep
  | _ =>
      cases hstep
      cases hadmitted

theorem agrees_step_remove {s : StreamId} {phase phase' : Removing}
    (h : (remove s phase).Agrees t log) (hstep : phase.step e s t w = some (e', phase')) :
    (remove s phase').Agrees t (log ++ deeds t (remove s phase) (remove s phase')) := by
  intro hremoved
  have hkept : .removed t s ∈ log ∧ Log.history s log = [] →
      .removed t s ∈ log ++ [] ∧ Log.history s (log ++ []) = [] := by
    rw [List.append_nil]
    exact id
  cases phase with
  | retiring phase =>
      cases phase with
      | retired =>
          rw [Removing.step] at hstep
          split at hstep <;> cases hstep
          cases hremoved
      | _ =>
          simp only [Removing.step] at hstep
          obtain ⟨found, -, heq⟩ := Option.map_eq_some_iff.mp hstep
          cases heq
          cases hremoved
  | quiet =>
      cases hstep
      cases hremoved
  | inExtentLine =>
      rw [Removing.step] at hstep
      split at hstep
      · cases hrun : e.archive.delete s w.removal with
        | mk result archive =>
        rw [hrun] at hstep
        cases hstep
        cases result with
        | ok _ =>
            have hhistory : Log.history s (log ++ [.removed t s]) = [] :=
              (Log.history_append s log _).trans (if_pos rfl)
            exact ⟨List.mem_append_right log List.mem_cons_self, hhistory⟩
        | error fault => cases hremoved
      · cases hstep
  | unlocking result =>
      cases hstep
      cases result with
      | ok _ => exact hkept (h rfl)
      | error refusal => cases hremoved
  | leaving result =>
      cases hstep
      cases result with
      | ok _ => exact hkept (h rfl)
      | error refusal => cases hremoved
  | done result => cases hstep

theorem isDone_of_step {work work' : Work}
    (hstep : work.step e t cancelled w = some (e', work')) : work.isDone = false := by
  cases work with
  | append r phase => cases phase <;> first | rfl | cases hstep
  | page r phase => cases phase <;> first | rfl | cases hstep
  | measure s phase => cases phase <;> first | rfl | cases hstep
  | peek s phase => cases phase <;> first | rfl | cases hstep
  | count s phase => cases phase <;> first | rfl | cases hstep
  | list filter phase => cases phase <;> first | rfl | cases hstep
  | remove s phase => cases phase <;> first | rfl | cases hstep
  | flush isDone => cases isDone <;> first | rfl | cases hstep
  | persist s events phase => cases phase <;> first | rfl | cases hstep
  | writeBack worker =>
      obtain ⟨source, phase, report⟩ := worker
      cases phase <;> first | rfl | cases hstep
  | hold n access joined => rfl
  | retire s phase => rfl

/-- What a task that is not done found out goes on to agree with the log. -/
theorem Agrees.append {work : Work} (h : work.Agrees t log) (hdone : work.isDone = false)
    {more : List Happening} (hmore : ∀ s, work.stance.hushes? = some s →
      ∀ u r events, .admitted u r events ∈ more → r.stream ≠ s) :
    work.Agrees t (log ++ more) := by
  cases work with
  | page r phase =>
      exact ⟨List.mem_append_left more h.1, fun events hseen =>
        (h.2 events hseen).append more⟩
  | append r phase =>
      exact fun hadmitted => (h hadmitted).imp id fun ⟨events, hmem⟩ =>
        ⟨events, List.mem_append_left more hmem⟩
  | remove s phase =>
      intro hremoved
      obtain ⟨hmem, hhistory⟩ := h hremoved
      refine ⟨List.mem_append_left more hmem,
        Log.history_append_eq_nil hhistory (hmore s ?_)⟩
      cases phase with
      | unlocking result => rfl
      | leaving result => rfl
      | done result => cases hdone
      | _ => cases hremoved
  | _ => trivial

/-- What a task finds out in a step, and what it does, agrees with the log. -/
theorem agrees_step {work work' : Work} (h : work.Agrees t log) (hsettled : e.Settled st)
    (hhand : ∀ s, e.InHand st log s) (hstance : st t = work.stance)
    (hstep : work.step e t cancelled w = some (e', work')) :
    work'.Agrees t (log ++ deeds t work work') := by
  cases work with
  | page r phase =>
      obtain ⟨⟨e₁, phase₁⟩, hphase, heq⟩ := Option.map_eq_some_iff.mp hstep
      cases heq
      exact (congrArg (Agrees t · _) (List.append_nil log)).mpr
        (agrees_step_page h hsettled (hhand r.stream) hstance hphase)
  | append r phase =>
      obtain ⟨⟨e₁, phase₁⟩, hphase, heq⟩ := Option.map_eq_some_iff.mp hstep
      cases heq
      exact agrees_step_append h hphase
  | remove s phase =>
      obtain ⟨⟨e₁, phase₁⟩, hphase, heq⟩ := Option.map_eq_some_iff.mp hstep
      cases heq
      exact agrees_step_remove h hphase
  | flush isDone =>
      rw [Work.step] at hstep
      split at hstep <;> cases hstep
      trivial
  | hold n access joined =>
      rw [Work.step] at hstep
      split at hstep <;> cases hstep
      trivial
  | _ =>
      obtain ⟨⟨e₁, phase₁⟩, hphase, heq⟩ := Option.map_eq_some_iff.mp hstep
      cases heq
      trivial

end Work

/-! ## What a run starts from -/

namespace Archive

/-- What is on disk for the streams that are intact is what a log says of them. -/
structure Recalls (a : Archive) (past : List Happening) : Prop where
  rooted : a.disk.Rooted a.base
  stores : ∀ s, Log.Intact s past → Extent.Stores a.disk a.base s (Log.history s past) []
  fits : ∀ s, Log.Intact s past →
    ∀ ev ∈ Log.history s past, ev.type.utf8ByteSize ≤ maxEventTypeLength

theorem recalls_of_vacant {a : Archive} (hvacant : a.disk.Vacant a.base) : a.Recalls [] where
  rooted := hvacant.rooted
  stores := fun s _ => Extent.stores_nil_of_vacant hvacant s
  fits := fun _ _ => List.forall_mem_nil _

end Archive

/-! ## Runs -/

namespace Moment

variable {m : Moment} {settings : Settings} {archive : Archive} {clock : Int64}
  {moves : List Move}

theorem settled_of_play (hrun : (opening settings archive clock).play moves = some m) :
    m.system.engine.Settled m.stances :=
  scene_induction (P := fun e st _ => e.Settled st) hrun (.of_archive settings archive clock)
    (fun _ _ _ _ _ _ _ hsettled hchange => hsettled.change hchange)
    fun _ _ _ _ hsettled _ => hsettled

variable {past : List Happening}

/-- In a run in which no write fails, the content is right for the streams that are
intact, and what tasks have in hand shows histories since they started. -/
theorem keeps_of_play (hpast : archive.Recalls past)
    (hrun : (opening settings archive clock).play moves = some m)
    (hwritten : Log.Written m.log) :
    (m.system.engine.archive.base = archive.base ∧ m.system.engine.archive.Sound) ∧
      ∀ s, (Log.Intact s (past ++ m.log) →
          m.system.engine.Keeps m.stances (past ++ m.log) s) ∧
        m.system.engine.InHand m.stances (past ++ m.log) s := by
  refine (scene_induction (P := fun e st log => e.Settled st ∧ (Log.Written log →
    (e.archive.base = archive.base ∧ e.archive.Sound) ∧ ∀ s,
      (Log.Intact s (past ++ log) → e.Keeps st (past ++ log) s) ∧
        e.InHand st (past ++ log) s)) hrun ?_ ?_ ?_).2 hwritten
  · refine ⟨.of_archive settings archive clock, fun _ =>
      ⟨⟨rfl, hpast.rooted, TypeCache.sound_empty⟩, fun s => ?_⟩⟩
    rw [List.append_nil]
    refine ⟨fun hintact => Engine.carries_of_stores (hpast.stores s hintact)
      (hpast.fits s hintact) settings clock, fun t n hentry => ?_⟩
    by_cases ht : t = 0
    · subst ht
      rw [Function.update_self] at hentry
      cases hentry
    · rw [Function.update_of_ne ht] at hentry
      cases hentry
  · rintro e st log t deeds e' σ ⟨hsettled, hright⟩ hchange
    refine ⟨hsettled.change hchange, fun hwritten => ?_⟩
    obtain ⟨hbefore, hdeeds⟩ := Log.written_append.mp hwritten
    obtain ⟨⟨hbase, hsound⟩, hkept⟩ := hright hbefore
    obtain ⟨hbase', hsound'⟩ := Engine.sound_of_change hsound hsettled hchange
    refine ⟨⟨hbase'.trans hbase, hsound'⟩, fun s => ?_⟩
    obtain ⟨hkeeps, hhand⟩ := hkept s
    rw [← List.append_assoc]
    have hkeeps' := Engine.keeps_of_change hkeeps hsound hsettled hchange hdeeds
    exact ⟨hkeeps', hhand.change hsettled hkeeps hchange hkeeps'⟩
  · rintro e st log remark ⟨hsettled, hright⟩ hremark
    refine ⟨hsettled, fun hwritten => ?_⟩
    obtain ⟨hsound, hkept⟩ := hright (Log.written_append.mp hwritten).1
    refine ⟨hsound, fun s => ?_⟩
    obtain ⟨hkeeps, hhand⟩ := hkept s
    rw [← List.append_assoc]
    refine ⟨fun hintact => ?_, fun t n hentry => ?_⟩
    · refine (hkeeps (hintact.of_append fun t hmem => ?_)).congr
        (Log.history_append_remark hremark s _)
      cases List.mem_singleton.mp hmem
      exact hremark
    · obtain ⟨pre, hsince, hshows⟩ := hhand t n hentry
      refine ⟨pre, hsince.append fun work hmem => ?_, hshows⟩
      cases List.mem_singleton.mp hmem
      have hfree : st t = .free := hremark
      rw [hfree] at hentry
      cases hentry

/-- What holds of all work that starts, of work that took a step and of work while others
take steps, holds of the work in all moments of a run, and what is noted in the run is
as it should be if it is so for each step. -/
theorem work_induction {P : TaskId → List Happening → Work → Prop}
    {Q : List Happening → Happening → Prop}
    (hrun : (opening settings archive clock).play moves = some m)
    (hworker : P 0 [] (.writeBack {}))
    (hrequest : ∀ t log work, work.isRequest = true → P t (log ++ [.started t work]) work)
    (hkept : ∀ t log work more, P t log work → work.isDone = false →
      (∀ s, work.stance.hushes? = some s →
        ∀ u r events, .admitted u r events ∈ more → r.stream ≠ s) →
      P t (log ++ more) work)
    (hstep : ∀ before a t task weather e' work',
      (opening settings archive clock).play before = some a →
      a.system.task? t = some task →
      task.work.step a.system.engine t task.cancelled weather = some (e', work') →
      P t a.log task.work → P t (a.log ++ Work.deeds t task.work work') work' ∧
        ∀ happening ∈ Work.deeds t task.work work', Q a.log happening)
    (hstarted : ∀ t log work, Q log (.started t work))
    (hended : ∀ t log work, P t log work → Q log (.ended t work)) :
    (∀ t task, m.system.task? t = some task → task.work.isDone = false →
      P t m.log task.work) ∧ Log.All Q m.log := by
  refine play_induction (P := fun m => (∀ t task, m.system.task? t = some task →
    task.work.isDone = false → P t m.log task.work) ∧ Log.All Q m.log) hrun ?_ ?_
  · refine ⟨fun t task htask _ => ?_, Log.all_nil _⟩
    rw [opening, System.task?_start rfl] at htask
    split at htask
    next ht =>
      cases htask
      rw [ht]
      exact hworker
    · cases htask
  · rintro before a mv b hbefore ⟨hworks, hnoted⟩ hmove
    have horderly := orderly_of_play hbefore
    have hsettled := settled_of_play hbefore
    obtain ⟨-, u, deeds, σ, hfollows⟩ := horderly.move hmove
    obtain ⟨remarks, hlog, hremarks⟩ := hfollows.log_eq
    constructor
    · intro t task' htask' hdone
      cases horderly.taskMove hmove htask' with
      | kept task htask hwork =>
          rw [hwork] at hdone ⊢
          rw [hlog, List.append_assoc]
          refine hkept t a.log task.work _ (hworks t task htask hdone) hdone
            fun s hhush v r events hmem => ?_
          rcases List.mem_append.mp hmem with hdeed | hremark
          · rw [← stances_eq htask] at hhush
            exact hsettled.stream_ne_of_hushes hfollows.change.eventsMove hhush hdeed
          · exact (hremarks _ hremark).elim
      | started hfresh hrequests hlog' =>
          rw [hlog']
          exact hrequest t a.log task'.work hrequests
      | stepped task weather htask hworked hlog' =>
          have hnotes : Work.notes t task.work task'.work =
              Work.deeds t task.work task'.work := by
            rw [Work.notes, hdone]
            exact List.append_nil _
          rw [hlog', hnotes]
          exact (hstep before a t task weather _ task'.work hbefore htask hworked
            (hworks t task htask (Work.isDone_of_step hworked))).1
    · rcases log_of_move hmove with hsame | ⟨t, work, hlog'⟩ |
        ⟨t, task, weather, work', htask, hworked, hlog'⟩
      · rw [hsame]
        exact hnoted
      · rw [hlog']
        exact hnoted.append_singleton (hstarted t a.log work)
      · obtain ⟨hwork', hdeeds⟩ := hstep before a t task weather _ work' hbefore htask
          hworked (hworks t task htask (Work.isDone_of_step hworked))
        rw [hlog', Work.notes, ← List.append_assoc]
        have hnoted' := hnoted.append_deeds hdeeds
        split
        · exact hnoted'.append_singleton (hended t _ work' hwork')
        · rw [List.append_nil]
          exact hnoted'

/-- In a run in which no write fails, what tasks find out and what is noted agrees with
what happened before. -/
theorem agrees_of_play (hpast : archive.Recalls past)
    (hrun : (opening settings archive clock).play moves = some m)
    (hwritten : Log.Written m.log) :
    (∀ t task, m.system.task? t = some task → task.work.isDone = false →
      task.work.Agrees t (past ++ m.log)) ∧
      Log.All (fun before happening => happening.Agrees (past ++ before)) m.log := by
  have hall : (∀ t task, m.system.task? t = some task → task.work.isDone = false →
      Log.Written m.log → task.work.Agrees t (past ++ m.log)) ∧
      Log.All (fun before happening => Log.Written before →
        happening.Agrees (past ++ before)) m.log := by
    refine work_induction (P := fun t log work => Log.Written log → work.Agrees t (past ++ log))
      hrun (fun _ => trivial) ?_ ?_ ?_ (fun _ _ _ _ => trivial) fun _ _ _ hagrees => hagrees
    · intro t log work hrequest _
      rw [← List.append_assoc]
      exact Work.agrees_of_isRequest hrequest
    · intro t log work more hagrees hdone hmore hwritten'
      rw [← List.append_assoc]
      exact (hagrees (Log.written_append.mp hwritten').1).append hdone hmore
    · intro before a t task weather e' work' hbefore htask hstep hagrees
      have hsettled := settled_of_play hbefore
      constructor
      · intro hwritten'
        have hwritten := (Log.written_append.mp hwritten').1
        obtain ⟨-, hkept⟩ := keeps_of_play hpast hbefore hwritten
        rw [← List.append_assoc]
        exact Work.agrees_step (hagrees hwritten) hsettled (fun s => (hkept s).2)
          (stances_eq htask) hstep
      · intro happening hmem hwritten
        obtain ⟨-, hkept⟩ := keeps_of_play hpast hbefore hwritten
        have hchange := Work.change ((orderly_of_play hbefore).admissible t task htask) hstep
        rw [← stances_eq htask] at hchange
        exact hchange.agrees_of_mem (fun s => (hkept s).1) hsettled hmem
  obtain ⟨hworks, hnoted⟩ := hall
  refine ⟨fun t task htask hdone => hworks t task htask hdone hwritten,
    fun before happening after hlog => hnoted before happening after hlog ?_⟩
  rw [hlog] at hwritten
  exact (Log.written_append.mp hwritten).1

/-- In a run over an empty directory in which nothing fails, the content is right and
what tasks have in hand shows histories since they started. -/
theorem faithful_of_play (hvacant : archive.disk.Vacant archive.base)
    (hrun : (opening settings archive clock).play moves = some m)
    (hfair : Log.Fair m.log) : m.system.engine.Faithful m.stances m.log ∧
      ∀ s, m.system.engine.InHand m.stances m.log s := by
  obtain ⟨⟨-, hsound⟩, hkept⟩ :=
    keeps_of_play (Archive.recalls_of_vacant hvacant) hrun hfair.written
  exact ⟨⟨hsound, fun s => (hkept s).1 (hfair.intact s)⟩, fun s => (hkept s).2⟩

/-- In a run over an empty directory in which nothing fails, what tasks find out and
what is noted agrees with what happened before. -/
theorem right_of_play (hvacant : archive.disk.Vacant archive.base)
    (hrun : (opening settings archive clock).play moves = some m)
    (hfair : Log.Fair m.log) :
    (∀ t task, m.system.task? t = some task → task.work.isDone = false →
      task.work.Agrees t m.log) ∧ Log.All Happening.Right m.log := by
  obtain ⟨hworks, hnoted⟩ :=
    agrees_of_play (Archive.recalls_of_vacant hvacant) hrun hfair.written
  refine ⟨hworks, fun before happening after hlog => ?_⟩
  refine (hnoted before happening after hlog).right ?_
  rw [hlog] at hfair
  exact (Log.fair_append.mp hfair).1

end Moment

end StreamStore
