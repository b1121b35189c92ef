import StreamStore.Proofs.Runs
import StreamStore.Proofs.Sync.Counts

/-!
# Waiting for writes to be dealt with

Any number of calls announce batches, report them as dealt with, or wait until a stream or all
streams are idle.  Whoever waits takes note of the news and then looks at the counts; whoever
reports a batch counts it off and then tells the news.  All others may move between two of these
steps.  Since the news is noted before the look, nobody sleeps on while there is nothing left to
wait for, unless the call that counted the last batch off has yet to tell of it.
-/

namespace StreamStore

/-- How far a call that reports a batch as dealt with has come. -/
inductive Settling
  /-- About to count the batch off. -/
  | countingOff
  /-- About to tell those who wait. -/
  | notifying
  | done
deriving DecidableEq, Repr

/-- What was done to the counts. -/
inductive Tally
  | announced (s : StreamId)
  | countedOff (s : StreamId)
deriving DecidableEq, Repr

/-- Calls that wait for streams to be idle, and those that report batches, each known by its
number. -/
structure IdleCalls where
  backlog : Backlog := {}
  waits : List (Quiet × IdleWait) := []
  settles : List (StreamId × Settling) := []
  /-- What was done to the counts so far, in this order. -/
  tallies : List Tally := []

/-- What happens to the calls, one move at a time. -/
inductive IdleMove
  /-- A batch is announced, in one step. -/
  | announce (s : StreamId)
  /-- A call comes in that reports a batch. -/
  | settle (s : StreamId)
  /-- A call comes in that waits. -/
  | wait (want : Quiet)
  | goSettle (u : Nat)
  | goWait (t : Nat)

/-- The batches of a stream that were announced and not counted off.  There is nothing to count
off of a stream that has none. -/
def outstanding (s : StreamId) (tallies : List Tally) : Nat :=
  tallies.foldl (fun n tally =>
    match tally with
    | .announced r => if s = r then n + 1 else n
    | .countedOff r => if s = r then n - 1 else n) 0

theorem outstanding_append_announced (r s : StreamId) (tallies : List Tally) :
    outstanding r (tallies ++ [.announced s]) =
      if r = s then outstanding s tallies + 1 else outstanding r tallies := by
  rw [outstanding, List.foldl_append, ← outstanding]
  by_cases h : r = s
  · subst h
    rfl
  · exact (if_neg h).trans (if_neg h).symm

theorem outstanding_append_countedOff (r s : StreamId) (tallies : List Tally) :
    outstanding r (tallies ++ [.countedOff s]) =
      if r = s then outstanding s tallies - 1 else outstanding r tallies := by
  rw [outstanding, List.foldl_append, ← outstanding]
  by_cases h : r = s
  · subst h
    rfl
  · exact (if_neg h).trans (if_neg h).symm

namespace IdleWait

variable {b : Backlog} {want : Quiet} {w w' : IdleWait} {n : Nat}

/-- The news that a waiter took note of. -/
def noted? : IdleWait → Option Nat
  | looking noted => some noted
  | asleep noted => some noted
  | _ => none

theorem noted?_step (h : w.step b want = some w') (hn : w'.noted? = some n) :
    n = b.news ∨ w.noted? = some n := by
  cases w with
  | arriving =>
      cases h
      cases hn
      exact .inl rfl
  | looking noted =>
      cases h
      split at hn
      · cases hn
      · exact .inr hn
  | asleep noted =>
      rw [step] at h
      split at h <;> cases h
      cases hn
  | done => cases h

/-- A waiter falls asleep only on a look that finds something to wait for. -/
theorem isQuiet_of_step_asleep (h : w.step b want = some (.asleep n)) :
    b.isQuiet want = false := by
  cases w with
  | looking noted =>
      simp only [step, Option.some.injEq] at h
      split at h
      · cases h
      next hbusy => exact Bool.not_eq_true _ ▸ hbusy
  | asleep noted =>
      rw [step] at h
      split at h <;> cases h
  | arriving | done => cases h

/-- A waiter returns only from a look that finds all quiet. -/
theorem isQuiet_of_step_done (h : w.step b want = some .done) :
    (∃ noted, w = .looking noted) ∧ b.isQuiet want = true := by
  cases w with
  | looking noted =>
      simp only [step, Option.some.injEq] at h
      split at h
      next hquiet => exact ⟨⟨noted, rfl⟩, hquiet⟩
      · cases h
  | asleep noted =>
      rw [step] at h
      split at h <;> cases h
  | arriving | done => cases h

/-- A waiter that has nothing to do has returned, or is asleep and there is no other news. -/
theorem step_eq_none_iff : w.step b want = none ↔ w = .done ∨ w = .asleep b.news := by
  cases w with
  | asleep noted => simp [step]
  | arriving | looking noted | done => simp [step]

/-- Left to itself, a waiter returns once all is quiet, unless it is asleep without other news. -/
theorem run_of_isQuiet (hquiet : b.isQuiet want = true) (hawake : w ≠ .asleep b.news) :
    w.run b want = .done := by
  cases w with
  | asleep noted =>
      have hnews : noted ≠ b.news := fun heq => hawake (heq ▸ rfl)
      simp [run, step, hnews, hquiet]
  | arriving | looking noted | done => simp [run, step, hquiet]

end IdleWait

namespace IdleCalls

/-- A call that waits has come this far. -/
def IsWaiting (y : IdleCalls) (t : Nat) (want : Quiet) (w : IdleWait) : Prop :=
  y.waits[t]? = some (want, w)

/-- One step of a call that reports a batch. -/
def goSettle (y : IdleCalls) (s : StreamId) (u : Nat) : Settling → Option IdleCalls
  | .countingOff =>
    some { y with
      backlog := y.backlog.countOff s
      settles := y.settles.set u (s, .notifying)
      tallies := y.tallies ++ [.countedOff s] }
  | .notifying =>
    some { y with backlog := y.backlog.notify, settles := y.settles.set u (s, .done) }
  | .done => none

def move (y : IdleCalls) : IdleMove → Option IdleCalls
  | .announce s =>
    some { y with backlog := y.backlog.announce s, tallies := y.tallies ++ [.announced s] }
  | .settle s => some { y with settles := y.settles ++ [(s, .countingOff)] }
  | .wait want => some { y with waits := y.waits ++ [(want, .arriving)] }
  | .goSettle u => y.settles[u]?.bind fun (s, phase) => y.goSettle s u phase
  | .goWait t => y.waits[t]?.bind fun (want, w) =>
    (w.step y.backlog want).map fun w => { y with waits := y.waits.set t (want, w) }

/-- The calls after some moves. -/
def play (y : IdleCalls) (moves : List IdleMove) : Option IdleCalls := moves.foldlM move y

/-- What a move does. -/
inductive Moved (y z : IdleCalls) : Prop
  | announce (s : StreamId) (hbacklog : z.backlog = y.backlog.announce s)
      (hwaits : z.waits = y.waits) (hsettles : z.settles = y.settles)
      (htallies : z.tallies = y.tallies ++ [.announced s])
  | settle (s : StreamId) (hbacklog : z.backlog = y.backlog)
      (hwaits : z.waits = y.waits) (hsettles : z.settles = y.settles ++ [(s, .countingOff)])
      (htallies : z.tallies = y.tallies)
  | countOff (s : StreamId) (u : Nat) (hcall : y.settles[u]? = some (s, .countingOff))
      (hbacklog : z.backlog = y.backlog.countOff s) (hwaits : z.waits = y.waits)
      (hsettles : z.settles = y.settles.set u (s, .notifying))
      (htallies : z.tallies = y.tallies ++ [.countedOff s])
  | notify (s : StreamId) (u : Nat) (hcall : y.settles[u]? = some (s, .notifying))
      (hbacklog : z.backlog = y.backlog.notify) (hwaits : z.waits = y.waits)
      (hsettles : z.settles = y.settles.set u (s, .done)) (htallies : z.tallies = y.tallies)
  | wait (want : Quiet) (hbacklog : z.backlog = y.backlog)
      (hwaits : z.waits = y.waits ++ [(want, .arriving)]) (hsettles : z.settles = y.settles)
      (htallies : z.tallies = y.tallies)
  | step (want : Quiet) (t : Nat) (before after : IdleWait)
      (hcall : y.waits[t]? = some (want, before))
      (hstep : before.step y.backlog want = some after) (hbacklog : z.backlog = y.backlog)
      (hwaits : z.waits = y.waits.set t (want, after)) (hsettles : z.settles = y.settles)
      (htallies : z.tallies = y.tallies)

variable {y z : IdleCalls} {mv : IdleMove} {moves : List IdleMove} {s : StreamId} {want : Quiet}
  {w : IdleWait} {t u n : Nat}

theorem moved_of_move (h : y.move mv = some z) : y.Moved z := by
  cases mv with
  | announce s =>
      cases h
      exact .announce s rfl rfl rfl rfl
  | settle s =>
      cases h
      exact .settle s rfl rfl rfl rfl
  | wait want =>
      cases h
      exact .wait want rfl rfl rfl rfl
  | goSettle u =>
      obtain ⟨⟨s, phase⟩, hcall, hgo⟩ := Option.bind_eq_some_iff.mp h
      cases phase with
      | countingOff =>
          cases hgo
          exact .countOff s u hcall rfl rfl rfl rfl
      | notifying =>
          cases hgo
          exact .notify s u hcall rfl rfl rfl rfl
      | done => cases hgo
  | goWait t =>
      obtain ⟨⟨want, before⟩, hcall, hgo⟩ := Option.bind_eq_some_iff.mp h
      obtain ⟨after, hstep, rfl⟩ := Option.map_eq_some_iff.mp hgo
      exact .step want t before after hcall hstep rfl rfl rfl rfl

theorem Moved.news_le (h : y.Moved z) : y.backlog.news ≤ z.backlog.news := by
  cases h with
  | announce _ hbacklog | settle _ hbacklog | wait _ hbacklog => exact hbacklog ▸ Nat.le_refl _
  | countOff _ _ _ hbacklog => exact hbacklog ▸ Nat.le_refl _
  | notify _ _ _ hbacklog => exact hbacklog ▸ Nat.le_succ _
  | step _ _ _ _ _ _ hbacklog => exact hbacklog ▸ Nat.le_refl _

/-- A call that waits was there before a move, or came in with it, or took a step. -/
theorem Moved.isWaiting_cases (h : y.Moved z) (hz : z.IsWaiting t want w) :
    y.IsWaiting t want w ∨ w = .arriving ∨
      ∃ before, y.IsWaiting t want before ∧ before.step y.backlog want = some w ∧
        z.backlog = y.backlog := by
  rw [IsWaiting] at hz
  cases h with
  | announce _ _ hwaits | settle _ _ hwaits =>
      rw [hwaits] at hz
      exact .inl hz
  | countOff _ _ _ _ hwaits | notify _ _ _ _ hwaits =>
      rw [hwaits] at hz
      exact .inl hz
  | wait want' _ hwaits =>
      rw [hwaits, List.getElem?_append] at hz
      split at hz
      · exact .inl hz
      · obtain ⟨_, hnew⟩ := List.getElem?_eq_some_iff.mp hz
        rw [List.getElem_singleton] at hnew
        cases hnew
        exact .inr (.inl rfl)
  | step want' t' before after hcall hstep hbacklog hwaits =>
      rw [hwaits, List.getElem?_set] at hz
      split at hz
      next ht =>
        subst ht
        split at hz
        · cases hz
          exact .inr (.inr ⟨before, hcall, hstep, hbacklog⟩)
        · cases hz
      · exact .inl hz

/-! ## What holds at all times -/

/-- Whether some call has counted a batch off and not told of it yet. -/
def IsAboutToNotify (y : IdleCalls) : Prop :=
  ∃ (s : StreamId) (u : Nat), y.settles[u]? = some (s, .notifying)

/-- What the backlog and the calls are like at all times. -/
structure Kept (y : IdleCalls) : Prop where
  positive : y.backlog.Positive
  count_eq : ∀ s, y.backlog.count s = outstanding s y.tallies
  /-- Nobody has noted news that is not there yet. -/
  noted_le : ∀ t want w n, y.IsWaiting t want w → w.noted? = some n → n ≤ y.backlog.news
  /-- Who is asleep without other news has something to wait for. -/
  not_lost : ∀ t want, y.IsWaiting t want (.asleep y.backlog.news) →
    y.backlog.isQuiet want = false ∨ y.IsAboutToNotify

namespace Kept

theorem start : Kept {} where
  positive := nofun
  count_eq _ := rfl
  noted_le := nofun
  not_lost := nofun

theorem positive_moved (h : y.Kept) (hmoved : y.Moved z) : z.backlog.Positive := by
  cases hmoved with
  | announce s hbacklog => exact hbacklog ▸ h.positive.announce s
  | countOff s _ _ hbacklog => exact hbacklog ▸ h.positive.countOff s
  | notify _ _ _ hbacklog => exact hbacklog ▸ h.positive
  | settle _ hbacklog | wait _ hbacklog => exact hbacklog ▸ h.positive
  | step _ _ _ _ _ _ hbacklog => exact hbacklog ▸ h.positive

theorem count_eq_moved (h : y.Kept) (hmoved : y.Moved z) (r : StreamId) :
    z.backlog.count r = outstanding r z.tallies := by
  cases hmoved with
  | announce s hbacklog _ _ htallies =>
      rw [hbacklog, htallies, Backlog.count_announce, outstanding_append_announced,
        h.count_eq, h.count_eq]
  | countOff s _ _ hbacklog _ _ htallies =>
      rw [hbacklog, htallies, Backlog.count_countOff, outstanding_append_countedOff,
        h.count_eq, h.count_eq]
  | notify _ _ _ hbacklog _ _ htallies =>
      rw [hbacklog, htallies]
      exact h.count_eq r
  | settle _ hbacklog _ _ htallies | wait _ hbacklog _ _ htallies =>
      rw [hbacklog, htallies, h.count_eq]
  | step _ _ _ _ _ _ hbacklog _ _ htallies => rw [hbacklog, htallies, h.count_eq]

theorem noted_le_moved (h : y.Kept) (hmoved : y.Moved z) (hz : z.IsWaiting t want w)
    (hn : w.noted? = some n) : n ≤ z.backlog.news := by
  rcases hmoved.isWaiting_cases hz with hy | rfl | ⟨before, hy, hstep, hbacklog⟩
  · exact Nat.le_trans (h.noted_le t want w n hy hn) hmoved.news_le
  · cases hn
  · rw [hbacklog]
    rcases IdleWait.noted?_step hstep hn with rfl | hnoted
    · exact Nat.le_refl _
    · exact h.noted_le t want before n hy hnoted

theorem not_lost_moved (h : y.Kept) (hmoved : y.Moved z)
    (hz : z.IsWaiting t want (.asleep z.backlog.news)) :
    z.backlog.isQuiet want = false ∨ z.IsAboutToNotify := by
  rcases hmoved.isWaiting_cases hz with hy | heq | ⟨before, -, hstep, hbacklog⟩
  · have hnews : z.backlog.news = y.backlog.news :=
      Nat.le_antisymm (h.noted_le t want _ _ hy rfl) hmoved.news_le
    rw [hnews] at hy
    have hbefore := h.not_lost t want hy
    cases hmoved with
    | announce s hbacklog _ hsettles =>
        refine hbefore.imp (fun hbusy => ?_) fun habout => ?_
        · exact hbacklog ▸ h.positive.isQuiet_announce s hbusy
        · rw [IsAboutToNotify, hsettles]
          exact habout
    | settle s hbacklog _ hsettles =>
        refine hbefore.imp (fun hbusy => hbacklog ▸ hbusy) fun ⟨s', u, hcall⟩ => ?_
        refine ⟨s', u, ?_⟩
        rw [hsettles, List.getElem?_append_left (List.getElem?_eq_some_iff.mp hcall).1, hcall]
    | countOff s u hcall _ _ hsettles =>
        refine .inr ⟨s, u, ?_⟩
        rw [hsettles, List.getElem?_set_self (List.getElem?_eq_some_iff.mp hcall).1]
    | notify s u _ hbacklog =>
        rw [hbacklog] at hnews
        exact absurd hnews (Nat.succ_ne_self _)
    | wait _ hbacklog _ hsettles =>
        rw [hbacklog, IsAboutToNotify, hsettles]
        exact hbefore
    | step _ _ _ _ _ _ hbacklog _ hsettles =>
        rw [hbacklog, IsAboutToNotify, hsettles]
        exact hbefore
  · cases heq
  · rw [hbacklog] at hstep ⊢
    exact .inl (IdleWait.isQuiet_of_step_asleep hstep)

theorem moved (h : y.Kept) (hmoved : y.Moved z) : z.Kept where
  positive := h.positive_moved hmoved
  count_eq := h.count_eq_moved hmoved
  noted_le _ _ _ _ := h.noted_le_moved hmoved
  not_lost _ _ := h.not_lost_moved hmoved

theorem play (h : ({} : IdleCalls).play moves = some y) : y.Kept :=
  foldlM_induction h start fun _ _ _ _ _ ha hmove => ha.moved (moved_of_move hmove)

theorem isQuiet_iff (h : y.Kept) : y.backlog.isQuiet want = true ↔
    ∀ s, want.covers s = true → outstanding s y.tallies = 0 := by
  simp only [h.positive.isQuiet_iff, h.count_eq]

theorem isQuiet_eq_false_iff (h : y.Kept) : y.backlog.isQuiet want = false ↔
    ∃ s, want.covers s = true ∧ outstanding s y.tallies ≠ 0 := by
  rw [← Bool.not_eq_true, h.isQuiet_iff]
  simp only [Classical.not_forall, exists_prop, ne_eq]

end Kept

/-- What holds of calls that report batches and calls that wait for them. -/
structure Wakes (y : IdleCalls) : Prop where
  count_eq : ∀ s, y.backlog.count s = outstanding s y.tallies
  isQuiet_iff : ∀ want, y.backlog.isQuiet want = true ↔
    ∀ s, want.covers s = true → outstanding s y.tallies = 0
  /-- A waiter returns only from a look that finds nothing to wait for. -/
  returns_quiet : ∀ mv z t want w, y.move mv = some z → y.IsWaiting t want w → w ≠ .done →
    z.IsWaiting t want .done →
      (∃ n, w = .looking n) ∧ ∀ s, want.covers s = true → outstanding s y.tallies = 0
  /-- A waiter that cannot go on has returned, or sleeps and was told nothing since it took
  note. -/
  stuck : ∀ t want w, y.IsWaiting t want w → y.move (.goWait t) = none →
    w = .done ∨ w = .asleep y.backlog.news
  /-- Who sleeps like that has something to wait for, or a call is about to tell of it. -/
  not_lost : ∀ t want, y.IsWaiting t want (.asleep y.backlog.news) →
    (∃ s, want.covers s = true ∧ outstanding s y.tallies ≠ 0) ∨ y.IsAboutToNotify
  /-- Left to itself with nothing to wait for and nothing to be told, every waiter returns. -/
  released : ∀ t want w, y.IsWaiting t want w →
    (∀ s, want.covers s = true → outstanding s y.tallies = 0) → ¬ y.IsAboutToNotify →
    w.run y.backlog want = .done

namespace Kept

theorem returns_quiet (h : y.Kept) (hmoved : y.Moved z) (hy : y.IsWaiting t want w)
    (hgoing : w ≠ .done) (hz : z.IsWaiting t want .done) :
    (∃ n, w = .looking n) ∧ ∀ s, want.covers s = true → outstanding s y.tallies = 0 := by
  rw [← h.isQuiet_iff]
  rcases hmoved.isWaiting_cases hz with hdone | heq | ⟨before, hbefore, hstep, -⟩
  · rw [IsWaiting, hy] at hdone
    cases hdone
    exact absurd rfl hgoing
  · cases heq
  · rw [IsWaiting, hy] at hbefore
    cases hbefore
    exact IdleWait.isQuiet_of_step_done hstep

theorem released (h : y.Kept) (hw : y.IsWaiting t want w)
    (hzero : ∀ s, want.covers s = true → outstanding s y.tallies = 0)
    (htold : ¬ y.IsAboutToNotify) : w.run y.backlog want = .done := by
  have hquiet := h.isQuiet_iff.mpr hzero
  refine IdleWait.run_of_isQuiet hquiet fun hasleep => ?_
  subst hasleep
  rcases h.not_lost t want hw with hbusy | habout
  · rw [hquiet] at hbusy
    cases hbusy
  · exact htold habout

end Kept

theorem eq_of_move_goWait (hw : y.IsWaiting t want w) (h : y.move (.goWait t) = none) :
    w = .done ∨ w = .asleep y.backlog.news := by
  rw [move, hw, Option.bind_some, Option.map_eq_none_iff] at h
  exact IdleWait.step_eq_none_iff.mp h

/-- Whatever calls report batches and wait for them, and however their steps come in between each
other, no waiter sleeps on for want of being told. -/
theorem wakes_of_play (h : ({} : IdleCalls).play moves = some y) : y.Wakes := by
  have hkept := Kept.play h
  constructor
  · exact hkept.count_eq
  · intro want
    exact hkept.isQuiet_iff
  · intro mv z t want w hmove
    exact hkept.returns_quiet (moved_of_move hmove)
  · intro t want w
    exact eq_of_move_goWait
  · intro t want hw
    exact (hkept.not_lost t want hw).imp_left hkept.isQuiet_eq_false_iff.mp
  · intro t want w
    exact hkept.released

/-- One of the streams of carts. -/
def cart (n : Nat) : StreamId := ⟨Uuid.ofNat n, ⟨"carts", by decide⟩⟩

/-- One waits for a stream and one for all streams while two batches of different streams are
reported.  The first waiter takes note before its batch is reported and looks between the two steps
of the report.  The other one is told of that report and sleeps again, and the last batch is
counted off. -/
def reporting : List IdleMove :=
  [.announce (cart 1), .announce (cart 2), .wait (.stream (cart 1)), .wait .everything, .goWait 1,
    .goWait 1, .goWait 0, .settle (cart 1), .goSettle 0, .goWait 0, .goSettle 0, .goWait 1,
    .goWait 1, .goWait 1, .settle (cart 2), .goSettle 1]

theorem wakes_of_reporting :
    ∃ y, ({} : IdleCalls).play reporting = some y ∧
      y.waits.map Prod.snd = [.done, .asleep 1] ∧
      y.settles.map Prod.snd = [.done, .notifying] ∧ y.Wakes := by
  have hplayed : (({} : IdleCalls).play reporting).any (fun y =>
      y.waits.map Prod.snd == [.done, .asleep 1] &&
        y.settles.map Prod.snd == [.done, .notifying]) = true := by
    decide +kernel
  obtain ⟨y, hrun, hy⟩ := (Option.any_eq_true _ _).mp hplayed
  rw [Bool.and_eq_true, beq_iff_eq, beq_iff_eq] at hy
  exact ⟨y, hrun, hy.1, hy.2, wakes_of_play hrun⟩

end IdleCalls

end StreamStore
