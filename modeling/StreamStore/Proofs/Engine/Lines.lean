import Mathlib.Logic.Function.Basic
import StreamStore.Proofs.Engine.Stance
import StreamStore.Proofs.Sync.Lines

/-!
# Lines and entries

Where a task stands in line, which locks it holds, and which entry it has in hand is
told by its stance.  An engine is in order when its lines agree with the stances of
all tasks, and every entry that is resident or in hand belongs to one stream; then at
most one task guards a stream, and at most one holds the lock of an entry for writing.
Every step keeps the order, since all it does to a line is that its task joins or
leaves, and the only entry it can make is a fresh one.
-/

namespace StreamStore

namespace Stance

/-- The stream in whose line a task stands. -/
def line? : Stance → Option StreamId
  | queueing s => some s
  | guarding s => some s
  | arrived s _ => some s
  | sealed s => some s
  | quiet s => some s
  | loading s _ => some s
  | loaded s _ => some s
  | emptying s _ => some s
  | emptied s _ => some s
  | _ => none

/-- The stream in whose line a task is the first and knows it. -/
def guard? : Stance → Option StreamId
  | queueing _ => none
  | σ => σ.line?

/-- The entry in whose line a task stands, and what for. -/
def place? : Stance → Option (EntryId × Access)
  | emptying _ n => some (n, .write)
  | emptied _ n => some (n, .write)
  | reading _ n => some (n, .read)
  | awaiting _ n => some (n, .write)
  | writing _ n => some (n, .write)
  | announced _ n => some (n, .write)
  | current _ n => some (n, .write)
  | queued _ n _ => some (n, .write)
  | _ => none

/-- The entry whose lock a task holds for writing and knows it. -/
def lock? : Stance → Option EntryId
  | emptied _ n => some n
  | writing _ n => some n
  | announced _ n => some n
  | current _ n => some n
  | queued _ n _ => some n
  | _ => none

/-- The entry that a task has in hand, with its stream. -/
def inHand? : Stance → Option (StreamId × EntryId)
  | arrived s n => some (s, n)
  | emptying s n => some (s, n)
  | emptied s n => some (s, n)
  | aiming s n => some (s, n)
  | reading s n => some (s, n)
  | awaiting s n => some (s, n)
  | writing s n => some (s, n)
  | announced s n => some (s, n)
  | current s n => some (s, n)
  | queued s n _ => some (s, n)
  | _ => none

/-- A task stands in line only for an entry that it has in hand. -/
theorem inHand?_of_place? {σ : Stance} {n : EntryId} {access : Access}
    (h : σ.place? = some (n, access)) : ∃ s, σ.inHand? = some (s, n) := by
  cases σ <;> cases h <;> exact ⟨_, rfl⟩

theorem place?_of_lock? {σ : Stance} {n : EntryId} (h : σ.lock? = some n) :
    σ.place? = some (n, .write) := by
  cases σ <;> cases h <;> rfl

theorem guard?_eq_none {σ : Stance} (h : σ.line? = none) : σ.guard? = none := by
  cases σ <;> first | rfl | cases h

theorem lock?_eq_none {σ : Stance} (h : σ.place? = none) : σ.lock? = none := by
  cases σ <;> first | rfl | cases h

/-! ## The stances after one of them changed -/

section

variable {β : Type} (f : Stance → Option β) {st : TaskId → Stance} {t u : TaskId}
  {σ : Stance} {x : β}

theorem update_eq_of_eq (hsame : f σ = f (st t)) (u : TaskId) :
    f (Function.update st t σ u) = f (st u) := by
  by_cases hut : u = t
  · subst hut
    rw [Function.update_self, hsame]
  · rw [Function.update_of_ne hut]

/-- What the changed stance has not is had by another, and was before. -/
theorem eq_some_of_update (hafter : f σ = none)
    (h : f (Function.update st t σ u) = some x) : f (st u) = some x ∧ u ≠ t := by
  by_cases hut : u = t
  · subst hut
    rw [Function.update_self, hafter] at h
    cases h
  · rw [Function.update_of_ne hut] at h
    exact ⟨h, hut⟩

/-- What the changed stance had not is kept. -/
theorem update_eq_some (hbefore : f (st t) = none) (h : f (st u) = some x) :
    f (Function.update st t σ u) = some x := by
  rw [Function.update_of_ne]
  · exact h
  · rintro rfl
    rw [hbefore] at h
    cases h

/-- What the changed stance had otherwise is kept. -/
theorem update_eq_some_of_ne {y : β} (hbefore : f (st t) = some y) (hne : y ≠ x)
    (h : f (st u) = some x) : f (Function.update st t σ u) = some x := by
  rw [Function.update_of_ne]
  · exact h
  · rintro rfl
    exact hne (Option.some.inj (hbefore.symm.trans h))

end

end Stance

/-! ## What a step does to the lines -/

namespace Engine

variable {e e' : Engine}

theorem entry_changeEntry (e : Engine) (n n' : EntryId) (f : Entry → Entry) :
    (e.changeEntry n f).entry n' = if n' = n then f (e.entry n) else e.entry n' := by
  rw [entry, changeEntry, Table.find?_insert]
  by_cases h : n' = n
  · rw [if_pos h, if_pos h]
    rfl
  · rw [if_neg h, if_neg h]
    rfl

theorem Frame.entry_eq (h : e.Frame e') (n : EntryId) : e'.entry n = e.entry n := by
  rw [entry, h.entries_eq, entry]

theorem entry_newEntry (e : Engine) (events : List Event) (n : EntryId) :
    (e.newEntry events).2.entry n = if n = e.nextEntry then { events } else e.entry n := by
  rw [entry, newEntry, Table.find?_insert]
  by_cases h : n = e.nextEntry
  · rw [if_pos h, if_pos h]
    rfl
  · rw [if_neg h, if_neg h]
    rfl

/-- What a step of one task does to the lines of the streams. -/
inductive LineMove (e : Engine) (t : TaskId) (σ : Stance) (e' : Engine) (σ' : Stance) : Prop
  | stay (hlines : e'.pool.lines = e.pool.lines) (hline : σ'.line? = σ.line?)
      (hguard : ∀ s, σ'.guard? = some s →
        σ.guard? = some s ∨ e.pool.lines.holds s t = true)
  | join (s : StreamId) (hlines : e'.pool.lines = e.pool.lines.join s t)
      (hbefore : σ.line? = none) (hafter : σ' = .queueing s)
  | leave (s : StreamId) (hlines : e'.pool.lines = e.pool.lines.leave s t)
      (hbefore : σ.line? = some s) (hafter : σ'.line? = none)

/-- What a step of one task does to the lines of the entries. -/
inductive LockMove (e : Engine) (t : TaskId) (σ : Stance) (e' : Engine) (σ' : Stance) : Prop
  | stay (hlocks : ∀ n, (e'.entry n).lock = (e.entry n).lock)
      (hplace : σ'.place? = σ.place?)
      (hlock : ∀ n, σ'.lock? = some n → σ.lock? = some n ∨ e.holdsEntry n t = true)
  | fresh (hlocks : ∀ n, (e'.entry n).lock = if n = e.nextEntry then {} else (e.entry n).lock)
      (hbefore : σ.place? = none) (hafter : σ'.place? = none)
  | join (n : EntryId) (access : Access)
      (hlocks : ∀ n', (e'.entry n').lock =
        if n' = n then (e.entry n).lock.join t access else (e.entry n').lock)
      (hbefore : σ.place? = none) (hafter : σ'.place? = some (n, access))
      (hlock : σ'.lock? = none)
  | leave (n : EntryId)
      (hlocks : ∀ n', (e'.entry n').lock =
        if n' = n then (e.entry n).lock.leave t else (e.entry n').lock)
      (hbefore : ∃ access, σ.place? = some (n, access)) (hafter : σ'.place? = none)

/-- What a step of one task does to the entries that are resident or in hand. -/
inductive EntryMove (e : Engine) (σ : Stance) (e' : Engine) (σ' : Stance) : Prop
  | stay (hnext : e'.nextEntry = e.nextEntry)
      (hresident : ∀ s n, e'.resident? s = some n → e.resident? s = some n)
      (hentry : ∀ s n, σ'.inHand? = some (s, n) →
        σ.inHand? = some (s, n) ∨ e.resident? s = some n)
  | fresh (s : StreamId) (events : List Event) (hbefore : σ = .loaded s events)
      (hafter : σ' = .arrived s e.nextEntry) (hnext : e'.nextEntry = e.nextEntry + 1)
      (hself : e'.resident? s = some e.nextEntry)
      (hresident : ∀ s' n, s' ≠ s → e'.resident? s' = some n → e.resident? s' = some n)

end Engine

namespace Change

variable {e e' : Engine} {t : TaskId} {σ σ' : Stance} {deeds : List Happening}

theorem lineMove (h : Change e t σ deeds e' σ') : e.LineMove t σ e' σ' := by
  cases h with
  | frame hframe => exact .stay hframe.lines_eq rfl fun _ hguard => .inl hguard
  | find hframe => exact .stay hframe.lines_eq rfl nofun
  | joinLine => exact .join _ rfl rfl rfl
  | turn hframe hturn =>
      exact .stay hframe.lines_eq rfl fun _ hguard => Option.some.inj hguard ▸ .inr hturn
  | turnHit hframe hturn =>
      exact .stay hframe.lines_eq rfl fun _ hguard => Option.some.inj hguard ▸ .inr hturn
  | turnMiss hframe hturn =>
      exact .stay hframe.lines_eq rfl fun _ hguard => Option.some.inj hguard ▸ .inr hturn
  | leaveLine => exact .leave _ rfl rfl rfl
  | leaveGuard => exact .leave _ rfl rfl rfl
  | leaveQuiet => exact .leave _ rfl rfl rfl
  | finish hframe => exact .stay hframe.lines_eq rfl fun _ hguard => .inl hguard
  | _ => exact .stay rfl rfl fun _ hguard => .inl hguard

theorem lockMove (h : Change e t σ deeds e' σ') : e.LockMove t σ e' σ' := by
  have hjoin (n : EntryId) (access : Access) (n' : EntryId) :
      ((e.joinEntry n t access).entry n').lock =
        if n' = n then (e.entry n).lock.join t access else (e.entry n').lock := by
    rw [Engine.joinEntry, Engine.entry_changeEntry]
    split <;> rfl
  have hleave (n n' : EntryId) : ((e.leaveEntry n t).entry n').lock =
      if n' = n then (e.entry n).lock.leave t else (e.entry n').lock := by
    rw [Engine.leaveEntry, Engine.entry_changeEntry]
    split <;> rfl
  cases h with
  | frame hframe =>
      exact .stay (fun n => congrArg Entry.lock (hframe.entry_eq n)) rfl fun _ hlock => .inl hlock
  | find hframe | turn hframe | turnHit hframe | turnMiss hframe | finish hframe =>
      exact .stay (fun n => congrArg Entry.lock (hframe.entry_eq n)) rfl nofun
  | populate =>
      refine .fresh (fun n => ?_) rfl rfl
      refine (congrArg Entry.lock (e.entry_newEntry _ n)).trans ?_
      split <;> rfl
  | joinRead => exact .join _ _ (hjoin _ _) rfl rfl rfl
  | joinWrite => exact .join _ _ (hjoin _ _) rfl rfl rfl
  | joinEmpty => exact .join _ _ (hjoin _ _) rfl rfl rfl
  | leaveRead => exact .leave _ (hleave _) ⟨_, rfl⟩ rfl
  | leaveAwait => exact .leave _ (hleave _) ⟨_, rfl⟩ rfl
  | leaveWrite => exact .leave _ (hleave _) ⟨_, rfl⟩ rfl
  | leaveEmptied => exact .leave _ (hleave _) ⟨_, rfl⟩ rfl
  | lock hholds =>
      exact .stay (fun _ => rfl) rfl fun _ hlock => Option.some.inj hlock ▸ .inr hholds
  | empty hholds =>
      exact .stay (fun _ => rfl) rfl fun _ hlock => Option.some.inj hlock ▸ .inr hholds
  | extend =>
      refine .stay (fun n' => ?_) rfl fun _ hlock => .inl hlock
      rw [Engine.entry_changeEntry]
      split
      next heq => rw [heq]
      · rfl
  | _ => exact .stay (fun _ => rfl) rfl fun _ hlock => .inl hlock

/-- A cache goes on holding a table, and only a fresh entry can come into it. -/
theorem entryMove (h : Change e t σ deeds e' σ') {table : Table StreamId EntryId}
    (hcache : e.pool.cache.Holds table) :
    (∃ table', e'.pool.cache.Holds table') ∧ e.EntryMove σ e' σ' := by
  have hframed : ∀ {e₁ : Engine}, e.Frame e₁ → (∃ table', e₁.pool.cache.Holds table') ∧
      e₁.nextEntry = e.nextEntry ∧
      ∀ s n, e₁.resident? s = some n → e.resident? s = some n := by
    intro e₁ hframe
    obtain ⟨table', hcache', hwithin⟩ := hframe.cache table hcache
    refine ⟨⟨table', hcache'⟩, hframe.nextEntry_eq, fun s n hfind => ?_⟩
    rw [Engine.resident?, hcache'.peek_eq] at hfind
    rw [Engine.resident?, hcache.peek_eq]
    exact hwithin s n hfind
  cases h with
  | frame hframe | turn hframe =>
      obtain ⟨hholds, hnext, hresident⟩ := hframed hframe
      exact ⟨hholds, .stay hnext hresident fun _ _ hentry => .inl hentry⟩
  | find hframe hfind | turnHit hframe _ hfind =>
      obtain ⟨hholds, hnext, hresident⟩ := hframed hframe
      refine ⟨hholds, .stay hnext hresident fun s n hentry => .inr ?_⟩
      cases hentry
      exact hfind
  | turnMiss hframe | finish hframe =>
      obtain ⟨hholds, hnext, hresident⟩ := hframed hframe
      exact ⟨hholds, .stay hnext hresident nofun⟩
  | inspectHit hfind =>
      refine ⟨⟨table, hcache⟩, .stay rfl (fun _ _ hfind => hfind) fun s n hentry => .inr ?_⟩
      cases hentry
      exact hfind
  | @populate s events =>
      have hput := hcache.put s e.nextEntry
      refine ⟨⟨_, hput⟩, .fresh s events rfl rfl rfl ?_ fun s' n hne hfind => ?_⟩
      · exact (hput.peek_eq s).trans (Table.find?_upsert_self ..)
      · rw [Engine.resident?, hcache.peek_eq]
        exact Table.find?_upsert_of_ne hcache.table_proper hne ((hput.peek_eq s').symm.trans hfind)
  | @empty s n hlock =>
      obtain ⟨-, hremove⟩ := hcache.remove s
      refine ⟨⟨_, hremove⟩, .stay rfl (fun s' n' hfind => ?_) fun _ _ hentry => .inl hentry⟩
      have hfind' := (hremove.peek_eq s').symm.trans hfind
      rw [Table.find?_erase] at hfind'
      rw [Engine.resident?, hcache.peek_eq]
      split at hfind'
      · cases hfind'
      · exact hfind'
  | _ =>
      exact ⟨⟨table, hcache⟩, .stay rfl (fun _ _ hfind => hfind) fun _ _ hentry => by
        first | exact .inl hentry | cases hentry⟩

end Change

/-! ## Order -/

/-- The lines of an engine agree with the stances of tasks, and its entries belong
to one stream each. -/
structure Engine.InOrder (e : Engine) (st : TaskId → Stance) : Prop where
  cache : ∃ table, e.pool.cache.Holds table
  owner : ∃ owner : EntryId → Option StreamId,
    (∀ s n, e.resident? s = some n → owner n = some s ∧ n < e.nextEntry) ∧
    ∀ t s n, (st t).inHand? = some (s, n) → owner n = some s ∧ n < e.nextEntry
  lines : ∀ s, Attends (e.pool.lines.line s) (fun t => (st t).line? = some s)
    (fun t => (st t).guard? = some s)
  locks : ∀ n, Attends (e.entry n).lock.line
    (fun place => (st place.1).place? = some (n, place.2))
    (fun place => place.2 = .write ∧ (st place.1).lock? = some n)

namespace Engine.InOrder

variable {e e' : Engine} {st : TaskId → Stance} {t u : TaskId} {s : StreamId} {n : EntryId}
  {σ : Stance} {deeds : List Happening}

theorem of_archive (settings : Settings) (archive : Archive) (clock : Int64) :
    (Engine.ofArchive settings archive clock).InOrder
      (Function.update (fun _ => Stance.free) 0 .receiving) := by
  have hstance : ∀ {α : Type} (f : Stance → Option α), f .free = none →
      f .receiving = none → ∀ t,
        f (Function.update (fun _ => Stance.free) 0 .receiving t) = none := by
    intro α f hfree hreceiving t
    by_cases ht : t = 0
    · subst ht
      rw [Function.update_self]
      exact hreceiving
    · rw [Function.update_of_ne ht]
      exact hfree
  refine ⟨⟨_, Cache.holds_ofCapacity _⟩, ⟨fun _ => none, ?_, ?_⟩, fun s => .nil ?_,
    fun n => .nil ?_⟩
  · intro s n hfind
    cases hfind
  · intro t s n hentry
    rw [hstance Stance.inHand? rfl rfl] at hentry
    cases hentry
  · intro t hguard
    rw [hstance Stance.guard? rfl rfl] at hguard
    cases hguard
  · rintro ⟨t, access⟩ ⟨-, hlock⟩
    rw [hstance Stance.lock? rfl rfl] at hlock
    cases hlock

/-- At most one task guards a stream. -/
theorem eq_of_guard? (h : e.InOrder st) (ht : (st t).guard? = some s)
    (hu : (st u).guard? = some s) : t = u :=
  (h.lines s).eq_of_leads ht hu

/-- At most one task holds the lock of an entry for writing. -/
theorem eq_of_lock? (h : e.InOrder st) (ht : (st t).lock? = some n)
    (hu : (st u).lock? = some n) : t = u :=
  congrArg Prod.fst ((h.locks n).eq_of_leads (x := (t, .write)) (y := (u, .write))
    ⟨rfl, ht⟩ ⟨rfl, hu⟩)

/-- Nobody else holds the lock of an entry while a task holds it for writing. -/
theorem eq_of_holdsEntry (h : e.InOrder st) (ht : (st t).lock? = some n)
    (hu : e.holdsEntry n u = true) : u = t :=
  SharedLock.eq_of_isHolder ((h.locks n).head_of_leads (t, .write) ⟨rfl, ht⟩) hu

/-- An entry in hand belongs to the stream for which it is resident. -/
theorem eq_of_resident? (h : e.InOrder st) {s' : StreamId}
    (hentry : (st t).inHand? = some (s, n)) (hfind : e.resident? s' = some n) : s' = s := by
  obtain ⟨owner, hresident, hhand⟩ := h.owner
  exact Option.some.inj ((hresident s' n hfind).1.symm.trans (hhand t s n hentry).1)

/-- An entry is in hand for one stream only. -/
theorem eq_of_inHand? (h : e.InOrder st) {s' : StreamId}
    (ht : (st t).inHand? = some (s, n)) (hu : (st u).inHand? = some (s', n)) : s = s' := by
  obtain ⟨owner, -, hhand⟩ := h.owner
  exact Option.some.inj ((hhand t s n ht).1.symm.trans (hhand u s' n hu).1)

theorem lt_of_inHand? (h : e.InOrder st) (hentry : (st t).inHand? = some (s, n)) :
    n < e.nextEntry := by
  obtain ⟨owner, -, hhand⟩ := h.owner
  exact (hhand t s n hentry).2

theorem lt_of_resident? (h : e.InOrder st) (hfind : e.resident? s = some n) :
    n < e.nextEntry := by
  obtain ⟨owner, hresident, -⟩ := h.owner
  exact (hresident s n hfind).2

theorem owner_change (h : e.InOrder st) (hchange : e.EntryMove (st t) e' σ) :
    ∃ owner : EntryId → Option StreamId,
      (∀ s n, e'.resident? s = some n → owner n = some s ∧ n < e'.nextEntry) ∧
      ∀ u s n, (Function.update st t σ u).inHand? = some (s, n) →
        owner n = some s ∧ n < e'.nextEntry := by
  obtain ⟨owner, hresident, hhand⟩ := h.owner
  cases hchange with
  | stay hnext hkept hentry =>
      rw [hnext]
      refine ⟨owner, fun s n hfind => hresident s n (hkept s n hfind), fun u s n hu => ?_⟩
      by_cases hut : u = t
      · subst hut
        rw [Function.update_self] at hu
        exact (hentry s n hu).elim (hhand u s n) (hresident s n)
      · rw [Function.update_of_ne hut] at hu
        exact hhand u s n hu
  | fresh s events hbefore hafter hnext hself hkept =>
      rw [hnext]
      have hold : ∀ {s' n}, owner n = some s' ∧ n < e.nextEntry →
          Function.update owner e.nextEntry (some s) n = some s' ∧
            n < e.nextEntry + 1 := by
        rintro s' n ⟨howner, hlt⟩
        rw [Function.update_of_ne hlt.ne]
        exact ⟨howner, Nat.lt_succ_of_lt hlt⟩
      have hnew : Function.update owner e.nextEntry (some s) e.nextEntry = some s ∧
          e.nextEntry < e.nextEntry + 1 :=
        ⟨Function.update_self .., Nat.lt_succ_self _⟩
      refine ⟨Function.update owner e.nextEntry (some s), fun s' n hfind => ?_, fun u s' n hu => ?_⟩
      · by_cases hs : s' = s
        · subst hs
          rw [hself] at hfind
          cases hfind
          exact hnew
        · exact hold (hresident s' n (hkept s' n hs hfind))
      · by_cases hut : u = t
        · subst hut
          rw [Function.update_self, hafter] at hu
          cases hu
          exact hnew
        · rw [Function.update_of_ne hut] at hu
          exact hold (hhand u s' n hu)

theorem lines_change (h : e.InOrder st) (hchange : e.LineMove t (st t) e' σ) (s : StreamId) :
    Attends (e'.pool.lines.line s) (fun u => (Function.update st t σ u).line? = some s)
      (fun u => (Function.update st t σ u).guard? = some s) := by
  have hline := h.lines s
  cases hchange with
  | stay hlines hsame hguard =>
      rw [hlines]
      apply hline.stay
      · intro u hstand
        exact (Stance.update_eq_of_eq Stance.line? hsame u).trans hstand
      · intro u hlead
        by_cases hut : u = t
        · subst hut
          rw [Function.update_self] at hlead
          exact (hguard s hlead).imp id of_decide_eq_true
        · rw [Function.update_of_ne hut] at hlead
          exact .inl hlead
  | join s' hlines hbefore hafter =>
      subst hafter
      have hstands : ∀ u, (st u).line? = some s →
          (Function.update st t (.queueing s') u).line? = some s :=
        fun u hstand => Stance.update_eq_some Stance.line? hbefore hstand
      have hleads : ∀ u, (Function.update st t (.queueing s') u).guard? = some s →
          (st u).guard? = some s :=
        fun u hlead => (Stance.eq_some_of_update Stance.guard? rfl hlead).1
      rw [hlines, LockTable.line_join]
      split
      next hs =>
        subst hs
        refine hline.join (fun hstand => ?_) ?_ hstands hleads
        · cases hbefore.symm.trans hstand
        · rw [Function.update_self]
          rfl
      · exact hline.stay hstands fun u hlead => .inl (hleads u hlead)
  | leave s' hlines hbefore hafter =>
      have hleads : ∀ u, (Function.update st t σ u).guard? = some s →
          (st u).guard? = some s ∧ u ≠ t :=
        fun u hlead => Stance.eq_some_of_update Stance.guard?
          (Stance.guard?_eq_none hafter) hlead
      rw [hlines, LockTable.line_leave]
      split
      next hs =>
        subst hs
        rw [List.erase_eq_eraseP']
        refine hline.leave (fun u _ v _ hu hv => ?_) (fun u hut hstand => ?_)
          fun u hlead => ?_
        · exact (eq_of_beq hu).trans (eq_of_beq hv).symm
        · rw [Function.update_of_ne (ne_of_beq_false hut)]
          exact hstand
        · exact ⟨(hleads u hlead).1, beq_eq_false_iff_ne.mpr (hleads u hlead).2⟩
      next hs =>
        exact hline.stay
          (fun u hstand => Stance.update_eq_some_of_ne Stance.line? hbefore (Ne.symm hs) hstand)
          fun u hlead => .inl (hleads u hlead).1

/-- A lock for which nobody comes or goes stays in order. -/
theorem locks_stay (h : e.InOrder st) (hlocks : (e'.entry n).lock = (e.entry n).lock)
    (hplace : σ.place? = (st t).place?)
    (hlock : σ.lock? = some n → (st t).lock? = some n ∨ e.holdsEntry n t = true) :
    Attends (e'.entry n).lock.line
      (fun place => (Function.update st t σ place.1).place? = some (n, place.2))
      (fun place => place.2 = .write ∧ (Function.update st t σ place.1).lock? = some n) := by
  have hline := h.locks n
  rw [hlocks]
  apply hline.stay
  · intro place hstand
    exact (Stance.update_eq_of_eq Stance.place? hplace place.1).trans hstand
  · rintro ⟨u, access⟩ ⟨rfl, hlead⟩
    by_cases hut : u = t
    · subst hut
      rw [Function.update_self] at hlead
      refine (hlock hlead).imp (fun hold => ⟨rfl, hold⟩) fun hholds => ?_
      refine SharedLock.head_of_isHolder (fun access hmem => ?_) hholds
      have hstand := (hline.stands_of_mem _ hmem).symm.trans
        (hplace.symm.trans (Stance.place?_of_lock? hlead))
      exact congrArg Prod.snd (Option.some.inj hstand)
    · rw [Function.update_of_ne hut] at hlead
      exact .inl ⟨rfl, hlead⟩

/-- Its place in the line of a lock is told by the stance of a task. -/
theorem eq_of_mem_line (h : e.InOrder st) {access : Access}
    (hplace : (st t).place? = some (n, access)) {place : TaskId × Access}
    (hmem : place ∈ (e.entry n).lock.line) (ht : decide (place.1 = t) = true) :
    place = (t, access) := by
  obtain ⟨u, access'⟩ := place
  cases of_decide_eq_true ht
  have hstand := ((h.locks n).stands_of_mem _ hmem).symm.trans hplace
  exact congrArg (Prod.mk u) (congrArg Prod.snd (Option.some.inj hstand))

theorem locks_change (h : e.InOrder st) (hchange : e.LockMove t (st t) e' σ) (n : EntryId) :
    Attends (e'.entry n).lock.line
      (fun place => (Function.update st t σ place.1).place? = some (n, place.2))
      (fun place => place.2 = .write ∧ (Function.update st t σ place.1).lock? = some n) := by
  have hline := h.locks n
  cases hchange with
  | stay hlocks hplace hlock => exact h.locks_stay (hlocks n) hplace (hlock n)
  | fresh hlocks hbefore hafter =>
      have hleads : ∀ place : TaskId × Access,
          (Function.update st t σ place.1).lock? = some n → (st place.1).lock? = some n :=
        fun place hlead => (Stance.eq_some_of_update Stance.lock?
          (Stance.lock?_eq_none hafter) hlead).1
      rw [hlocks n]
      split
      next hn =>
        refine .nil fun place hlead => ?_
        obtain ⟨s, hentry⟩ := Stance.inHand?_of_place?
          (Stance.place?_of_lock? (hleads place hlead.2))
        exact absurd hn (h.lt_of_inHand? hentry).ne
      · apply hline.stay
        · intro place hstand
          exact Stance.update_eq_some Stance.place? hbefore hstand
        · intro place hlead
          exact .inl ⟨hlead.1, hleads place hlead.2⟩
  | join n' access hlocks hbefore hafter hlock =>
      have hstands : ∀ place : TaskId × Access, (st place.1).place? = some (n, place.2) →
          (Function.update st t σ place.1).place? = some (n, place.2) :=
        fun place hstand => Stance.update_eq_some Stance.place? hbefore hstand
      have hleads : ∀ place : TaskId × Access,
          place.2 = .write ∧ (Function.update st t σ place.1).lock? = some n →
            place.2 = .write ∧ (st place.1).lock? = some n :=
        fun place hlead => ⟨hlead.1, (Stance.eq_some_of_update Stance.lock? hlock hlead.2).1⟩
      rw [hlocks n]
      split
      next hn =>
        subst hn
        refine hline.join (fun hstand => ?_) ?_ hstands hleads
        · cases hbefore.symm.trans hstand
        · rw [Function.update_self]
          exact hafter
      · exact hline.stay hstands fun place hlead => .inl (hleads place hlead)
  | leave n' hlocks hbefore hafter =>
      obtain ⟨access, hbefore⟩ := hbefore
      have hleads : ∀ place : TaskId × Access,
          (Function.update st t σ place.1).lock? = some n →
            (st place.1).lock? = some n ∧ place.1 ≠ t :=
        fun place hlead => Stance.eq_some_of_update Stance.lock?
          (Stance.lock?_eq_none hafter) hlead
      rw [hlocks n]
      split
      next hn =>
        subst hn
        refine hline.leave (fun x hx y hy hxt hyt => ?_) (fun place hut hstand => ?_)
          fun place hlead => ?_
        · rw [h.eq_of_mem_line hbefore hx hxt, h.eq_of_mem_line hbefore hy hyt]
        · rw [Function.update_of_ne (of_decide_eq_false hut)]
          exact hstand
        · obtain ⟨hold, hne⟩ := hleads place hlead.2
          exact ⟨⟨hlead.1, hold⟩, decide_eq_false hne⟩
      next hn =>
        have hne : ∀ access', (n', access) ≠ (n, access') :=
          fun access' heq => hn (congrArg Prod.fst heq).symm
        apply hline.stay
        · intro place hstand
          exact Stance.update_eq_some_of_ne Stance.place? hbefore (hne place.2) hstand
        · intro place hlead
          exact .inl ⟨hlead.1, (hleads place hlead.2).1⟩

/-- Every step keeps an engine in order. -/
theorem change (h : e.InOrder st) (hchange : Change e t (st t) deeds e' σ) :
    e'.InOrder (Function.update st t σ) := by
  obtain ⟨table, hcache⟩ := h.cache
  obtain ⟨hcache', hentries⟩ := hchange.entryMove hcache
  exact ⟨hcache', h.owner_change hentries, h.lines_change hchange.lineMove,
    h.locks_change hchange.lockMove⟩

end Engine.InOrder

end StreamStore
