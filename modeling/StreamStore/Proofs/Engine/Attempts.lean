import Mathlib.Algebra.BigOperators.Group.List.Basic
import Mathlib.Algebra.Ring.Int.Defs
import StreamStore.Proofs.Engine.Reports
import StreamStore.Proofs.Storage.Crash

/-!
# Appends that come to nothing

An append may be refused, be cancelled, fail to read its stream from disk, or be
given up while it waits, and it may start over any number of times before.  Its own
steps are looked at one by one, and between them others may make anything of the
engine, except that they do not count off the batch that this append announced.
Then no step of its own changes events, files or the write queue, or moves anybody
else in a line, and what its steps do to the count of each stream cancels out.  What
is left of it is which entries are resident.

The exception holds in every run, for the backlog counts at least what each task
answers for.
-/

namespace StreamStore

/-! ## What stays as it was -/

/-- One engine comes from another by changes of the cache, of the backlog and of the
places of one task, and by new entries. -/
structure Engine.Undisturbed (t : TaskId) (e e' : Engine) : Prop where
  settings_eq : e'.settings = e.settings
  archive_eq : e'.archive = e.archive
  clock_eq : e'.clock = e.clock
  queue_eq : e'.queue = e.queue
  nextEntry_le : e.nextEntry ≤ e'.nextEntry
  events_eq : ∀ n < e.nextEntry, (e'.entry n).events = (e.entry n).events
  locks_eq : ∀ n < e.nextEntry, (e'.entry n).lock.line.filter (·.1 ≠ t) =
    (e.entry n).lock.line.filter (·.1 ≠ t)
  lines_eq : ∀ s, (e'.pool.lines.line s).filter (· ≠ t) =
    (e.pool.lines.line s).filter (· ≠ t)
  extents_eq : ∀ s, (e'.extents.line s).filter (· ≠ t) = (e.extents.line s).filter (· ≠ t)

theorem filter_ne_eraseP_eq {α : Type} {p : α → Bool} (xs : List α) :
    (xs.eraseP p).filter (!p ·) = xs.filter (!p ·) := by
  induction xs with
  | nil => rfl
  | cons x xs ih =>
      by_cases hx : p x = true
      · rw [List.eraseP_cons_of_pos hx, List.filter_cons_of_neg (by simp [hx])]
      · rw [List.eraseP_cons_of_neg hx, List.filter_cons_of_pos (by simp [hx]),
          List.filter_cons_of_pos (by simp [hx]), ih]

/-- Whoever leaves a lock leaves the others where they are. -/
theorem SharedLock.filter_leave (l : SharedLock TaskId) (t : TaskId) :
    (l.leave t).line.filter (·.1 ≠ t) = l.line.filter (·.1 ≠ t) := by
  have h := filter_ne_eraseP_eq (p := fun place : TaskId × Access => place.1 = t) l.line
  simpa only [leave, decide_not] using h

theorem SharedLock.filter_join (l : SharedLock TaskId) (t : TaskId) (access : Access) :
    (l.join t access).line.filter (·.1 ≠ t) = l.line.filter (·.1 ≠ t) := by
  simp [join]

theorem filter_erase_eq (xs : List TaskId) (t : TaskId) :
    (xs.erase t).filter (· ≠ t) = xs.filter (· ≠ t) := by
  have h := filter_ne_eraseP_eq (p := (· == t)) xs
  rw [List.erase_eq_eraseP']
  simpa only [beq_eq_decide, decide_not] using h

theorem LockTable.filter_line_leave (l : LockTable StreamId TaskId) (k s : StreamId)
    (t : TaskId) :
    ((l.leave k t).line s).filter (· ≠ t) = (l.line s).filter (· ≠ t) := by
  rw [line_leave]
  split
  next hs => rw [hs, filter_erase_eq]
  · rfl

theorem LockTable.filter_line_leaveAll (l : LockTable StreamId TaskId) (s : StreamId)
    (t : TaskId) :
    ((l.leaveAll t).line s).filter (· ≠ t) = (l.line s).filter (· ≠ t) := by
  rw [leaveAll]
  induction l.current.keys generalizing l with
  | nil => rfl
  | cons k keys ih => rw [List.foldl_cons, ih, filter_line_leave]

/-- A task that is taken out of all lines leaves the events of an entry, and the
others in its line. -/
theorem Engine.entry_abandon (e : Engine) (t : TaskId) (n : EntryId) :
    ((e.abandon t).entry n).events = (e.entry n).events ∧
      ((e.abandon t).entry n).lock = (e.entry n).lock.leave t := by
  have hfind : (e.abandon t).entries.find? n =
      (e.entries.find? n).map fun entry => { entry with lock := entry.lock.leave t } := by
    simp only [abandon, Table.find?, List.find?_map, Option.map_map]
    rfl
  rw [entry, entry, hfind]
  cases e.entries.find? n with
  | none => exact ⟨rfl, rfl⟩
  | some entry => exact ⟨rfl, rfl⟩

namespace Engine

variable {e e' e'' : Engine} {t : TaskId}

theorem Undisturbed.refl (e : Engine) (t : TaskId) : Undisturbed t e e :=
  ⟨rfl, rfl, rfl, rfl, Nat.le_refl _, fun _ _ => rfl, fun _ _ => rfl, fun _ => rfl, fun _ => rfl⟩

theorem undisturbed_withCache (cache : Cache StreamId EntryId) :
    Undisturbed t e (e.withCache cache) :=
  ⟨rfl, rfl, rfl, rfl, Nat.le_refl _, fun _ _ => rfl, fun _ _ => rfl, fun _ => rfl, fun _ => rfl⟩

theorem undisturbed_joinPool (s : StreamId) : Undisturbed t e (e.joinPool s t) where
  settings_eq := rfl
  archive_eq := rfl
  clock_eq := rfl
  queue_eq := rfl
  nextEntry_le := Nat.le_refl _
  events_eq _ _ := rfl
  locks_eq _ _ := rfl
  lines_eq s' := by
    simp only [joinPool, LockTable.line_join]
    split
    next hs => simp [hs]
    · rfl
  extents_eq _ := rfl

theorem undisturbed_leavePool (s : StreamId) : Undisturbed t e (e.leavePool s t) where
  settings_eq := rfl
  archive_eq := rfl
  clock_eq := rfl
  queue_eq := rfl
  nextEntry_le := Nat.le_refl _
  events_eq _ _ := rfl
  locks_eq _ _ := rfl
  lines_eq s' := e.pool.lines.filter_line_leave s s' t
  extents_eq _ := rfl

/-- Changes of the lock of an entry that leave the others in its line. -/
theorem undisturbed_changeEntry {n : EntryId} {f : Entry → Entry}
    (hevents : (f (e.entry n)).events = (e.entry n).events)
    (hlock : (f (e.entry n)).lock.line.filter (·.1 ≠ t) =
      (e.entry n).lock.line.filter (·.1 ≠ t)) :
    Undisturbed t e (e.changeEntry n f) where
  settings_eq := rfl
  archive_eq := rfl
  clock_eq := rfl
  queue_eq := rfl
  nextEntry_le := Nat.le_refl _
  events_eq n' _ := by
    rw [entry_changeEntry]
    split
    next hn => rw [hn, hevents]
    · rfl
  locks_eq n' _ := by
    rw [entry_changeEntry]
    split
    next hn => rw [hn, hlock]
    · rfl
  lines_eq _ := rfl
  extents_eq _ := rfl

theorem undisturbed_joinEntry (n : EntryId) (access : Access) :
    Undisturbed t e (e.joinEntry n t access) :=
  undisturbed_changeEntry rfl ((e.entry n).lock.filter_join t access)

theorem undisturbed_leaveEntry (n : EntryId) : Undisturbed t e (e.leaveEntry n t) :=
  undisturbed_changeEntry rfl ((e.entry n).lock.filter_leave t)

/-- A new entry takes the place of none that there was. -/
theorem undisturbed_populate (events : List Event) (cache : Cache StreamId EntryId) :
    Undisturbed t e ((e.newEntry events).2.withCache cache) where
  settings_eq := rfl
  archive_eq := rfl
  clock_eq := rfl
  queue_eq := rfl
  nextEntry_le := Nat.le_succ _
  events_eq n hn := by
    refine (congrArg Entry.events (e.entry_newEntry events n)).trans ?_
    rw [if_neg (Nat.ne_of_lt hn)]
  locks_eq n hn := by
    refine (congrArg (List.filter _ ∘ SharedLock.line ∘ Entry.lock)
      (e.entry_newEntry events n)).trans ?_
    rw [if_neg (Nat.ne_of_lt hn)]
    rfl
  lines_eq _ := rfl
  extents_eq _ := rfl

theorem undisturbed_abandon (e : Engine) (t : TaskId) : Undisturbed t e (e.abandon t) where
  settings_eq := rfl
  archive_eq := rfl
  clock_eq := rfl
  queue_eq := rfl
  nextEntry_le := Nat.le_refl _
  events_eq n _ := (e.entry_abandon t n).1
  locks_eq n _ := by
    rw [(e.entry_abandon t n).2]
    exact (e.entry n).lock.filter_leave t
  lines_eq s := e.pool.lines.filter_line_leaveAll s t
  extents_eq s := e.extents.filter_line_leaveAll s t

end Engine

/-! ## The own steps of a call -/

/-- What the steps of an append find from one to the next. -/
structure Turn where
  /-- What the others make of the engine first. -/
  others : Engine → Engine := id
  cancelled : Bool := false
  weather : Weather := {}

/-- A step of an append: how far it had come, and the engine before and after. -/
structure Stride where
  phase : Appending
  before : Engine
  after : Engine

/-- How an append went over some turns. -/
structure Course where
  strides : List Stride
  engine : Engine
  phase : Appending

/-- By how much a stride changes the count of a stream. -/
def Stride.gain (s : StreamId) (stride : Stride) : Int :=
  stride.after.backlog.count s - stride.before.backlog.count s

/-- The stride finds at least the batch still counted that the append announced. -/
def Stride.Held (r : AppendRequest) (stride : Stride) : Prop :=
  (stride.phase.stance r.stream).owes r.stream ≤ stride.before.backlog.count r.stream

instance (r : AppendRequest) (stride : Stride) : Decidable (stride.Held r) :=
  inferInstanceAs (Decidable (_ ≤ _))

namespace Appending

/-- Let an append go over some turns.  In a turn that finds it waiting, it takes no
stride. -/
def course (r : AppendRequest) (t : TaskId) (e : Engine) (phase : Appending) :
    List Turn → Course
  | [] => ⟨[], e, phase⟩
  | turn :: turns =>
    let before := turn.others e
    match phase.step before r t turn.cancelled turn.weather with
    | none => course r t before phase turns
    | some (after, next) =>
      let rest := course r t after next turns
      { rest with strides := ⟨phase, before, after⟩ :: rest.strides }

/-- Where an append may be given up: it waits for nothing any more once it has the
lock. -/
def mayWait : Appending → Bool
  | start => true
  | finding _ => true
  | arriving _ => true
  | inLine _ => true
  | _ => false

/-- The write queue took the batch, or there was none. -/
def isAccepted : Appending → Bool
  | queued .. => true
  | extended _ => true
  | unlocking _ (.ok _) => true
  | done (.ok _) => true
  | _ => false

/-- The strides of an append that comes to nothing: it fails, or it is given up where
it may wait. -/
inductive ComesToNothing (r : AppendRequest) (t : TaskId) (e : Engine) : List Stride → Prop
  | failed {turns : List Turn} {refusal : Refusal}
      (hend : (course r t e .start turns).phase.result? = some (.error refusal)) :
      ComesToNothing r t e (course r t e .start turns).strides
  | givenUp {turns : List Turn} {others : Engine → Engine}
      (hwaits : (course r t e .start turns).phase.mayWait = true) :
      ComesToNothing r t e ((course r t e .start turns).strides ++
        [⟨(course r t e .start turns).phase, others (course r t e .start turns).engine,
          (others (course r t e .start turns).engine).abandon t⟩])

variable {e e' : Engine} {r : AppendRequest} {t : TaskId} {cancelled : Bool} {w : Weather}
  {phase phase' : Appending}

theorem isAccepted_of_step (haccepted : phase.isAccepted = true)
    (h : phase.step e r t cancelled w = some (e', phase')) : phase'.isAccepted = true := by
  cases phase with
  | queued n events =>
      cases h
      rfl
  | extended n =>
      cases h
      rfl
  | unlocking n result =>
      cases h
      cases result with
      | ok _ => rfl
      | error refusal => cases haccepted
  | done result => cases h
  | _ => cases haccepted

theorem isAccepted_course (haccepted : phase.isAccepted = true) (turns : List Turn) :
    (course r t e phase turns).phase.isAccepted = true := by
  induction turns generalizing e phase with
  | nil => exact haccepted
  | cons turn turns ih =>
      rw [course]
      split
      · exact ih haccepted
      next after next hstep => exact ih (isAccepted_of_step haccepted hstep)

end Appending

/-! ## What one step changes -/

/-- On the way to the entry of a stream, nothing is disturbed or counted. -/
theorem Residence.undisturbed_step {e e' : Engine} {s : StreamId} {t : TaskId}
    {cancelled : Bool} {w : Weather} {residence residence' : Residence}
    (h : residence.step e s t cancelled w = some (e', residence')) :
    e.Undisturbed t e' ∧ e'.backlog = e.backlog := by
  cases residence with
  | asking phase =>
      cases phase with
      | looking =>
          simp only [step, Pool.advance] at h
          generalize e.pool.cache.lookup s = found at h
          obtain ⟨n?, cache⟩ := found
          cases n? with
          | none =>
              cases h
              exact ⟨Engine.undisturbed_withCache cache, rfl⟩
          | some n =>
              cases h
              exact ⟨Engine.undisturbed_withCache cache, rfl⟩
      | missed =>
          cases h
          exact ⟨Engine.undisturbed_joinPool s, rfl⟩
      | inLine =>
          simp only [step, Pool.advance] at h
          split at h
          · generalize e.pool.cache.recheck s = found at h
            obtain ⟨n?, cache⟩ := found
            cases n? with
            | none =>
                cases h
                exact ⟨Engine.undisturbed_withCache cache, rfl⟩
            | some n =>
                cases h
                exact ⟨Engine.undisturbed_withCache cache, rfl⟩
          · cases h
      | finding =>
          simp only [step] at h
          split at h
          · cases h
            exact ⟨.refl e t, rfl⟩
          · split at h
            · cases h
              exact ⟨.refl e t, rfl⟩
            · cases h
      | leaving result =>
          cases h
          exact ⟨Engine.undisturbed_leavePool s, rfl⟩
      | done result => cases h
  | loading events =>
      cases h
      exact ⟨.refl e t, rfl⟩
  | loaded events =>
      cases h
      exact ⟨Engine.undisturbed_populate events _, rfl⟩

namespace Appending

variable {e e' : Engine} {r : AppendRequest} {t : TaskId} {cancelled : Bool} {w : Weather}
  {phase phase' : Appending}

theorem owes_of_mayWait (h : phase.mayWait = true) (s s' : StreamId) :
    (phase.stance s).owes s' = 0 := by
  cases phase with
  | finding residence =>
      cases residence with
      | asking phase =>
          cases phase with
          | leaving result => cases result <;> rfl
          | done result => cases result <;> rfl
          | _ => rfl
      | _ => rfl
  | start => rfl
  | arriving n => rfl
  | inLine n => rfl
  | _ => cases h

/-- What a step changes that does not get the batch into the write queue. -/
structure Spares (r : AppendRequest) (t : TaskId) (e : Engine) (phase : Appending)
    (e' : Engine) (phase' : Appending) : Prop where
  undisturbed : e.Undisturbed t e'
  gain_eq : ∀ s, Stride.gain s ⟨phase, e, e'⟩ =
    (phase'.stance r.stream).owes s - (phase.stance r.stream).owes s

/-- The backlog stays, and what the append answers for. -/
theorem Spares.of_backlog_eq (hundisturbed : e.Undisturbed t e')
    (hbacklog : e'.backlog = e.backlog)
    (howes : ∀ s, (phase'.stance r.stream).owes s = (phase.stance r.stream).owes s) :
    Spares r t e phase e' phase' := by
  refine ⟨hundisturbed, fun s => ?_⟩
  rw [Stride.gain, hbacklog, howes s, sub_self, sub_self]

theorem spares_announce (n : EntryId) :
    Spares r t e (locked n) (e.announce r.stream) (announced n) := by
  refine ⟨⟨rfl, rfl, rfl, rfl, Nat.le_refl _, fun _ _ => rfl, fun _ _ => rfl, fun _ => rfl,
    fun _ => rfl⟩, fun s => ?_⟩
  have hcount := e.backlog.count_announce r.stream s
  simp only [Stride.gain, Engine.announce, stance, Stance.owes, hcount]
  by_cases hs : r.stream = s
  · rw [if_pos hs.symm, if_pos hs, hs]
    simp
  · rw [if_neg (Ne.symm hs), if_neg hs]
    simp

/-- The announcement that is still counted is taken back. -/
theorem spares_settle (hheld : Stride.Held r ⟨phase, e, e.settleWrite r.stream⟩)
    (hbefore : ∀ s, (phase.stance r.stream).owes s = if r.stream = s then 1 else 0)
    (hafter : ∀ s, (phase'.stance r.stream).owes s = 0) :
    Spares r t e phase (e.settleWrite r.stream) phase' := by
  refine ⟨⟨rfl, rfl, rfl, rfl, Nat.le_refl _, fun _ _ => rfl, fun _ _ => rfl, fun _ => rfl,
    fun _ => rfl⟩, fun s => ?_⟩
  have hcount := e.backlog.count_settle r.stream s
  rw [Stride.Held, hbefore, if_pos rfl] at hheld
  simp only [Stride.gain, Engine.settleWrite, hbefore, hafter, hcount]
  by_cases hs : r.stream = s
  · subst hs
    rw [if_pos rfl, if_pos rfl]
    simp only at hheld
    omega
  · rw [if_neg (Ne.symm hs), if_neg hs]
    simp

/-- A step that does not get the batch into the write queue disturbs nothing, and the
count changes by what the append answers for. -/
theorem spares_of_step (h : phase.step e r t cancelled w = some (e', phase'))
    (hheld : Stride.Held r ⟨phase, e, e'⟩) (hopen : phase'.isAccepted = false) :
    Spares r t e phase e' phase' := by
  cases phase with
  | start =>
      cases h
      have hbegin : ∀ s, ((begin e r).stance r.stream).owes s = 0 := by
        intro s
        rw [begin]
        split
        · rfl
        · split <;> rfl
      exact .of_backlog_eq (.refl e t) rfl hbegin
  | finding residence =>
      have howes : ∀ s, ((finding residence).stance r.stream).owes s = 0 :=
        owes_of_mayWait rfl r.stream
      rw [step] at h
      split at h
      · cases h
        exact .of_backlog_eq (.refl e t) rfl fun s => (howes s).symm
      · cases h
        exact .of_backlog_eq (.refl e t) rfl fun s => (howes s).symm
      · obtain ⟨⟨e₁, residence₁⟩, hstep, heq⟩ := Option.map_eq_some_iff.mp h
        cases heq
        obtain ⟨hundisturbed, hbacklog⟩ := Residence.undisturbed_step hstep
        refine .of_backlog_eq hundisturbed hbacklog fun s => ?_
        rw [howes, owes_of_mayWait rfl]
  | arriving n =>
      cases h
      exact .of_backlog_eq (Engine.undisturbed_joinEntry n .write) rfl fun _ => rfl
  | inLine n =>
      simp only [step] at h
      split at h
      · cases h
        exact .of_backlog_eq (Engine.undisturbed_leaveEntry n) rfl fun _ => rfl
      · split at h
        · cases h
          exact .of_backlog_eq (.refl e t) rfl fun _ => rfl
        · cases h
  | locked n =>
      cases h
      exact spares_announce n
  | announced n =>
      simp only [step, Option.some.injEq, Prod.mk.injEq] at h
      obtain ⟨rfl, rfl⟩ := h
      refine .of_backlog_eq (.refl e t) rfl fun s => ?_
      split <;> rfl
  | stale n =>
      cases h
      exact spares_settle hheld (fun _ => rfl) fun _ => rfl
  | unlockingStale n =>
      cases h
      exact .of_backlog_eq (Engine.undisturbed_leaveEntry n) rfl fun _ => rfl
  | current n =>
      simp only [step, Option.some.injEq, handOff] at h
      split at h
      · cases h
        exact .of_backlog_eq (.refl e t) rfl fun _ => rfl
      · split at h
        · cases h
          cases hopen
        · cases h
          exact .of_backlog_eq (.refl e t) rfl fun _ => rfl
  | refused n refusal =>
      cases h
      exact spares_settle hheld (fun _ => rfl) fun _ => rfl
  | queued n events =>
      cases h
      cases hopen
  | extended n =>
      cases h
      cases hopen
  | unlocking n result =>
      cases h
      exact .of_backlog_eq (Engine.undisturbed_leaveEntry n) rfl fun _ => rfl
  | done result => cases h

/-- Over any turns that do not get the batch into the write queue, no stride disturbs
anything, and the counts change by what the append answers for. -/
theorem undisturbed_course {turns : List Turn}
    (hopen : (course r t e phase turns).phase.isAccepted = false)
    (hheld : ∀ stride ∈ (course r t e phase turns).strides, stride.Held r) :
    (∀ stride ∈ (course r t e phase turns).strides,
        stride.before.Undisturbed t stride.after) ∧
      ∀ s, ((course r t e phase turns).strides.map (Stride.gain s)).sum =
        ((course r t e phase turns).phase.stance r.stream).owes s -
          (phase.stance r.stream).owes s := by
  induction turns generalizing e phase with
  | nil => simp [course]
  | cons turn turns ih =>
      rw [course] at hopen hheld ⊢
      simp only at hopen hheld ⊢
      cases hstep : phase.step (turn.others e) r t turn.cancelled turn.weather with
      | none =>
          rw [hstep] at hopen hheld
          exact ih hopen hheld
      | some found =>
          obtain ⟨after, next⟩ := found
          rw [hstep] at hopen hheld
          simp only [List.forall_mem_cons] at hopen hheld ⊢
          have hnext : next.isAccepted = false := by
            by_contra haccepted
            rw [Bool.not_eq_false] at haccepted
            rw [isAccepted_course haccepted] at hopen
            cases hopen
          obtain ⟨hundisturbed, hgain⟩ := spares_of_step hstep hheld.1 hnext
          obtain ⟨hrest, hsum⟩ := ih hopen hheld.2
          refine ⟨⟨hundisturbed, hrest⟩, fun s => ?_⟩
          rw [List.map_cons, List.sum_cons, hgain, hsum]
          omega

/-- Whatever the others do between them, the strides of an append that comes to
nothing disturb nothing, and what they do to the count of any stream cancels out. -/
theorem undisturbed_of_comesToNothing {r : AppendRequest} {t : TaskId} {e : Engine}
    {strides : List Stride} (h : ComesToNothing r t e strides)
    (hheld : ∀ stride ∈ strides, stride.Held r) :
    (∀ stride ∈ strides, stride.before.Undisturbed t stride.after) ∧
      ∀ s, (strides.map (Stride.gain s)).sum = 0 := by
  cases h with
  | @failed turns refusal hend =>
      have hphase : (course r t e .start turns).phase = done (.error refusal) := by
        generalize (course r t e .start turns).phase = phase at hend
        cases phase <;> cases hend
        rfl
      obtain ⟨hundisturbed, hsum⟩ := undisturbed_course (by rw [hphase]; rfl) hheld
      refine ⟨hundisturbed, fun s => ?_⟩
      rw [hsum, hphase]
      rfl
  | @givenUp turns others hwaits =>
      have hopen : (course r t e .start turns).phase.isAccepted = false := by
        generalize (course r t e .start turns).phase = phase at hwaits
        cases phase <;> first | rfl | cases hwaits
      rw [List.forall_mem_append] at hheld
      obtain ⟨hundisturbed, hsum⟩ := undisturbed_course hopen hheld.1
      constructor
      · rw [List.forall_mem_append, List.forall_mem_singleton]
        exact ⟨hundisturbed, Engine.undisturbed_abandon _ t⟩
      · intro s
        rw [List.map_append, List.sum_append, hsum, owes_of_mayWait hwaits]
        simp [Stride.gain, Engine.abandon, stance, Stance.owes]

/-- An engine whose write queue holds all it may, a batch of another stream. -/
def crowded : Engine :=
  let other : StreamId := ⟨Uuid.ofNat 2, Archive.orders.type⟩
  { Engine.ofArchive { writeQueueCapacity := some 1 } Archive.blank 0 with
    backlog := Backlog.announce {} other
    queue := { capacity := some 1, batches := [⟨other, [Archive.placed]⟩] } }

/-- While the append is about to get in line for the entry, the entry is evicted, so the
append starts over; then the queue refuses the batch. -/
def startingOver : List Turn :=
  List.replicate 9 ({} : Turn) ++ [{ others := fun e => (e.dropOldest 1).2 }] ++
    List.replicate 20 ({} : Turn)

theorem undisturbed_of_startingOver :
    let strides := (course ⟨Archive.orders, [⟨"placed", [1]⟩], none⟩ 1 crowded .start
      startingOver).strides
    strides.length = 30 ∧
      ComesToNothing ⟨Archive.orders, [⟨"placed", [1]⟩], none⟩ 1 crowded strides ∧
      (∀ stride ∈ strides, stride.Held ⟨Archive.orders, [⟨"placed", [1]⟩], none⟩) ∧
      (∀ stride ∈ strides, stride.before.Undisturbed 1 stride.after) ∧
      ∀ s, (strides.map (Stride.gain s)).sum = 0 := by
  have hlength : (course ⟨Archive.orders, [⟨"placed", [1]⟩], none⟩ 1 crowded .start
      startingOver).strides.length = 30 := by
    decide +kernel
  have hheld : ∀ stride ∈ (course ⟨Archive.orders, [⟨"placed", [1]⟩], none⟩ 1 crowded .start
      startingOver).strides, stride.Held ⟨Archive.orders, [⟨"placed", [1]⟩], none⟩ := by
    decide +kernel
  have hend : (course ⟨Archive.orders, [⟨"placed", [1]⟩], none⟩ 1 crowded .start
      startingOver).phase.result? =
        some (.error (.cannotInitiateWrite (.inl QueueRefusal.full))) := by
    rfl
  have hnothing := ComesToNothing.failed hend
  exact ⟨hlength, hnothing, hheld, undisturbed_of_comesToNothing hnothing hheld⟩

end Appending

/-! ## In runs -/

/-- In a run, each step of an append finds the batch still counted that the append
announced. -/
theorem Moment.held_of_play {settings : Settings} {archive : Archive} {clock : Int64}
    {moves : List Move} {m : Moment} {t : TaskId} {task : Task} {r : AppendRequest}
    {phase : Appending} (hrun : (opening settings archive clock).play moves = some m)
    (htask : m.system.task? t = some task) (hwork : task.work = .append r phase)
    (after : Engine) : Stride.Held r ⟨phase, m.system.engine, after⟩ := by
  obtain ⟨k, howed, hcount⟩ := (settled_of_play hrun).counted r.stream
  have hle := howed.le t
  rw [stances_eq htask, hwork] at hle
  rw [Stride.Held, hcount]
  exact Nat.le_trans hle (Nat.le_add_right k _)

end StreamStore
