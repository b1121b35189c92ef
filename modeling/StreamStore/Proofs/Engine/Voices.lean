import Mathlib.Algebra.BigOperators.Group.Finset.Piecewise
import StreamStore.Proofs.Engine.Lines
import StreamStore.Proofs.Sync.Counts

/-!
# Entries that speak for their streams

An entry speaks for a stream while it is resident, and while a task that found it so
may still hand events of the stream off.  No stream has two of these.  The backlog
counts every batch from its announcement on until it is dealt with; so a task that
guards a stream without an entry, and finds it idle, knows that nobody hands events
off and that none are on their way to disk, until it lets an entry in itself.
-/

namespace StreamStore

/-! ## Counting -/

/-- How many batches of a stream a task answers for. -/
def Stance.owes (s : StreamId) : Stance → Nat
  | announced s' _ => if s' = s then 1 else 0
  | current s' _ => if s' = s then 1 else 0
  | carrying b => if b.stream = s then 1 else 0
  | carried b => if b.stream = s then 1 else 0
  | _ => 0

/-- For how many batches of a stream all tasks together answer. -/
def Owed (st : TaskId → Stance) (s : StreamId) (k : Nat) : Prop :=
  ∃ tasks : Finset TaskId, (∀ t ∉ tasks, (st t).owes s = 0) ∧
    ∑ t ∈ tasks, (st t).owes s = k

namespace Owed

variable {st : TaskId → Stance} {s : StreamId} {k : Nat}

theorem le (h : Owed st s k) (t : TaskId) : (st t).owes s ≤ k := by
  obtain ⟨tasks, hothers, rfl⟩ := h
  by_cases ht : t ∈ tasks
  · rw [← Finset.add_sum_erase tasks (fun u => (st u).owes s) ht]
    exact Nat.le_add_right _ _
  · rw [hothers t ht]
    exact Nat.zero_le _

theorem update (h : Owed st s k) (t : TaskId) (σ : Stance) :
    Owed (Function.update st t σ) s (k - (st t).owes s + σ.owes s) := by
  obtain ⟨tasks, hothers, rfl⟩ := h
  refine ⟨insert t tasks, fun u hu => ?_, ?_⟩
  · rw [Finset.mem_insert, not_or] at hu
    rw [Function.update_of_ne hu.1]
    exact hothers u hu.2
  · have hmem : t ∈ insert t tasks := Finset.mem_insert_self t tasks
    have hsame : ∑ u ∈ insert t tasks, (st u).owes s = ∑ u ∈ tasks, (st u).owes s := by
      by_cases ht : t ∈ tasks
      · rw [Finset.insert_eq_of_mem ht]
      · rw [Finset.sum_insert ht, hothers t ht, Nat.zero_add]
    have hsplit : (st t).owes s + ∑ u ∈ (insert t tasks).erase t, (st u).owes s =
        ∑ u ∈ tasks, (st u).owes s := by
      rw [Finset.add_sum_erase _ (fun u => (st u).owes s) hmem, hsame]
    have hrest : ∑ u ∈ (insert t tasks).erase t, (Function.update st t σ u).owes s =
        ∑ u ∈ (insert t tasks).erase t, (st u).owes s := by
      refine Finset.sum_congr rfl fun u hu => ?_
      rw [Function.update_of_ne (Finset.ne_of_mem_erase hu)]
    rw [← Finset.add_sum_erase _ _ hmem, hrest, Function.update_self, ← hsplit]
    omega

end Owed

/-- The number of batches of a stream in a list. -/
def Batch.countOf (s : StreamId) (batches : List Batch) : Nat :=
  batches.countP fun b => b.stream = s

/-- The backlog of an engine counts the batches that tasks answer for and those in
the queue. -/
def Engine.Counted (e : Engine) (st : TaskId → Stance) : Prop :=
  ∀ s, ∃ k, Owed st s k ∧ e.backlog.count s = k + Batch.countOf s e.queue.batches

namespace Change

variable {e e' : Engine} {t : TaskId} {σ σ' : Stance} {deeds : List Happening}

/-- A step changes the count of a stream as it changes what it counts. -/
theorem count_eq (h : Change e t σ deeds e' σ') (s : StreamId)
    (hle : σ.owes s ≤ e.backlog.count s) :
    e'.backlog.count s + σ.owes s + Batch.countOf s e.queue.batches =
      e.backlog.count s + σ'.owes s + Batch.countOf s e'.queue.batches := by
  have hsettle : ∀ s', σ.owes s = (if s' = s then 1 else 0) →
      (e.backlog.settle s').count s + σ.owes s = e.backlog.count s := by
    intro s' howes
    rw [Backlog.count_settle]
    by_cases hs : s = s'
    · rw [if_pos hs.symm] at howes
      rw [if_pos hs, ← hs]
      omega
    · rw [if_neg (Ne.symm hs)] at howes
      rw [if_neg hs]
      omega
  cases h with
  | frame hframe => rw [hframe.backlog_eq, hframe.batches_eq]
  | find hframe | turn hframe | turnHit hframe | turnMiss hframe | finish hframe =>
      rw [hframe.backlog_eq, hframe.batches_eq]
      rfl
  | @announce s' n =>
      have hcount := Backlog.count_announce e.backlog s' s
      simp only [Engine.announce, Stance.owes, hcount]
      by_cases hs : s = s'
      · rw [if_pos hs, if_pos hs.symm, hs]
      · rw [if_neg hs, if_neg (Ne.symm hs)]
  | @takeBack s' n =>
      have hcount := hsettle s' rfl
      simp only [Engine.settleWrite]
      rw [hcount]
      rfl
  | @handOff r n events hne hfits hversion =>
      simp only [Engine.withBatches, Stance.owes, Batch.countOf, List.countP_append,
        List.countP_singleton, decide_eq_true_eq]
      omega
  | @receive b rest hbatches =>
      simp only [Engine.withBatches, Stance.owes, hbatches, Batch.countOf, List.countP_cons,
        decide_eq_true_eq]
      omega
  | @countOff b =>
      have hcount := hsettle b.stream rfl
      simp only [Engine.settleWrite]
      rw [hcount]
      rfl
  | _ => rfl

end Change

namespace Engine.Counted

variable {e e' : Engine} {st : TaskId → Stance} {t : TaskId} {s : StreamId} {σ : Stance}
  {deeds : List Happening}

theorem of_archive (settings : Settings) (archive : Archive) (clock : Int64) :
    (Engine.ofArchive settings archive clock).Counted
      (Function.update (fun _ => Stance.free) 0 .receiving) := by
  refine fun s => ⟨0, ⟨∅, fun t _ => ?_, rfl⟩, rfl⟩
  by_cases ht : t = 0
  · rw [ht, Function.update_self]
    rfl
  · rw [Function.update_of_ne ht]
    rfl

/-- Every step keeps the count right. -/
theorem change (h : e.Counted st) (hchange : Change e t (st t) deeds e' σ) :
    e'.Counted (Function.update st t σ) := by
  intro s
  obtain ⟨k, howed, hcount⟩ := h s
  have hle := howed.le t
  have heq := hchange.count_eq s (by omega)
  exact ⟨_, howed.update t σ, by omega⟩

/-- Nobody answers for a batch of an idle stream, and none is in the queue. -/
theorem idle (h : e.Counted st) (hidle : e.backlog.isIdle s = true) :
    (∀ t, (st t).owes s = 0) ∧ ∀ b ∈ e.queue.batches, b.stream ≠ s := by
  obtain ⟨k, howed, hcount⟩ := h s
  rw [Backlog.count_of_isIdle hidle] at hcount
  refine ⟨fun t => ?_, fun b hb hs => ?_⟩
  · have hle := howed.le t
    omega
  · have hpos : 0 < Batch.countOf s e.queue.batches :=
      List.countP_pos_iff.mpr ⟨b, hb, decide_eq_true hs⟩
    omega

end Engine.Counted

/-! ## Voices -/

namespace Stance

/-- The stream of which a task knows that no entry is resident. -/
def closes? : Stance → Option StreamId
  | sealed s => some s
  | quiet s => some s
  | loading s _ => some s
  | loaded s _ => some s
  | emptied s _ => some s
  | _ => none

/-- The stream of which a task knows that no write to it is on its way. -/
def hushes? : Stance → Option StreamId
  | quiet s => some s
  | loading s _ => some s
  | loaded s _ => some s
  | _ => none

/-- Whether a task writes back. -/
def works : Stance → Bool
  | receiving => true
  | carrying _ => true
  | carried _ => true
  | finished => true
  | _ => false

theorem guard?_of_closes? {σ : Stance} {s : StreamId} (h : σ.closes? = some s) :
    σ.guard? = some s := by
  cases σ <;> first | exact h | cases h

theorem closes?_of_hushes? {σ : Stance} {s : StreamId} (h : σ.hushes? = some s) :
    σ.closes? = some s := by
  cases σ <;> first | exact h | cases h

end Stance

namespace Engine

/-- An entry speaks for a stream: it is resident, or was when a task looked that
did not hand its events off yet. -/
def Voices (e : Engine) (st : TaskId → Stance) (s : StreamId) (n : EntryId) : Prop :=
  e.resident? s = some n ∨ ∃ t, st t = .current s n

/-- A batch is on its way to disk. -/
def Underway (e : Engine) (st : TaskId → Stance) (b : Batch) : Prop :=
  (∃ t, st t = .carrying b) ∨ b ∈ e.queue.batches

/-- Nothing speaks for a stream, and no batch of it is on its way. -/
structure Hushed (e : Engine) (st : TaskId → Stance) (s : StreamId) : Prop where
  voiceless : ∀ n, ¬e.Voices st s n
  batchless : ∀ b, e.Underway st b → b.stream ≠ s

/-- What a step does to whom entries speak for and to what is on its way. -/
structure VoiceMove (e : Engine) (σ : Stance) (e' : Engine) (σ' : Stance) : Prop where
  closes : ∀ s, σ'.closes? = some s → σ.closes? = some s ∨ e'.resident? s = none
  hushes : ∀ s, σ'.hushes? = some s →
    σ.hushes? = some s ∨ σ.closes? = some s ∧ e.backlog.isIdle s = true
  current : ∀ s n, σ' = .current s n → σ = .current s n ∨ e.resident? s = some n
  batches : ∀ b, σ' = .carrying b ∨ b ∈ e'.queue.batches →
    (σ = .carrying b ∨ b ∈ e.queue.batches) ∨
      (∃ n, σ = .current b.stream n) ∧ b.events ≠ []
  works : σ'.works = true → σ.works = true

end Engine

theorem Engine.Frame.resident?_eq_none {e e' : Engine} (h : e.Frame e')
    {table : Table StreamId EntryId} (hcache : e.pool.cache.Holds table) {s : StreamId}
    (hnone : e.resident? s = none) : e'.resident? s = none := by
  obtain ⟨table', hcache', hwithin⟩ := h.cache table hcache
  rw [Engine.resident?, hcache.peek_eq] at hnone
  rw [Engine.resident?, hcache'.peek_eq]
  cases hfind : table'.find? s with
  | none => rfl
  | some n => cases hnone.symm.trans (hwithin s n hfind)

theorem Change.voiceMove {e e' : Engine} {t : TaskId} {σ σ' : Stance}
    {deeds : List Happening} (h : Change e t σ deeds e' σ')
    {table : Table StreamId EntryId} (hcache : e.pool.cache.Holds table) :
    e.VoiceMove σ e' σ' := by
  have hsame : ∀ {e₁ : Engine} {σ : Stance} {b : Batch}, e₁.queue.batches = e.queue.batches →
      σ = .carrying b ∨ b ∈ e₁.queue.batches → σ = .carrying b ∨ b ∈ e.queue.batches := by
    intro e₁ σ b hbatches hb
    rwa [hbatches] at hb
  cases h with
  | frame hframe =>
      exact ⟨fun _ h => .inl h, fun _ h => .inl h, fun _ _ h => .inl h,
        fun _ h => .inl (hsame hframe.batches_eq h), id⟩
  | turnMiss hframe _ hnone =>
      refine ⟨fun s h => .inr ?_, nofun, nofun, fun _ h => .inl ?_, nofun⟩
      · cases h
        exact hframe.resident?_eq_none hcache hnone
      · exact .inr ((hsame hframe.batches_eq h).resolve_left nofun)
  | find hframe | turn hframe | turnHit hframe =>
      exact ⟨nofun, nofun, nofun,
        fun _ h => .inl (.inr ((hsame hframe.batches_eq h).resolve_left nofun)), nofun⟩
  | finish hframe =>
      exact ⟨nofun, nofun, nofun,
        fun _ h => .inl (.inr ((hsame hframe.batches_eq h).resolve_left nofun)), fun _ => rfl⟩
  | inspectMiss hnone =>
      refine ⟨fun s h => .inr ?_, nofun, nofun,
        fun _ h => .inl (.inr (h.resolve_left nofun)), nofun⟩
      cases h
      exact hnone
  | openFiles hidle | hush hidle =>
      refine ⟨fun _ h => .inl h, fun s h => .inr ⟨h, ?_⟩, nofun,
        fun _ h => .inl (.inr (h.resolve_left nofun)), nofun⟩
      cases h
      exact hidle
  | loadMore | loadLast =>
      exact ⟨fun _ h => .inl h, fun _ h => .inl h, nofun,
        fun _ h => .inl (.inr (h.resolve_left nofun)), nofun⟩
  | check hfind =>
      refine ⟨nofun, nofun, fun s n h => .inr ?_,
        fun _ h => .inl (.inr (h.resolve_left nofun)), nofun⟩
      cases h
      exact hfind
  | @handOff r n events hne =>
      refine ⟨nofun, nofun, nofun, fun b h => ?_, nofun⟩
      rcases List.mem_append.mp (h.resolve_left nofun) with hold | hnew
      · exact .inl (.inr hold)
      · cases List.mem_singleton.mp hnew
        exact .inr ⟨⟨n, rfl⟩, hne⟩
  | @empty s n hlock =>
      refine ⟨fun s' h => .inr ?_, nofun, nofun,
        fun _ h => .inl (.inr (h.resolve_left nofun)), nofun⟩
      cases h
      obtain ⟨-, hremove⟩ := hcache.remove s
      exact (hremove.peek_eq s).trans (Table.find?_erase_self ..)
  | leaveEmptied =>
      exact ⟨fun _ h => .inl h, nofun, nofun,
        fun _ h => .inl (.inr (h.resolve_left nofun)), nofun⟩
  | delete | deleteFail =>
      exact ⟨fun _ h => .inl h, fun _ h => .inl h, nofun,
        fun _ h => .inl (.inr (h.resolve_left nofun)), nofun⟩
  | @receive b rest hbatches =>
      refine ⟨nofun, nofun, nofun, fun b' h => .inl (.inr ?_), fun _ => rfl⟩
      rw [hbatches]
      rcases h with heq | hrest
      · cases heq
        exact List.mem_cons_self
      · exact List.mem_cons_of_mem b hrest
  | skip | persist | lose | countOff =>
      exact ⟨nofun, nofun, nofun, fun _ h => .inl (.inr (h.resolve_left nofun)),
        fun _ => rfl⟩
  | _ =>
      exact ⟨nofun, nofun, nofun, fun _ h => .inl (.inr (h.resolve_left nofun)), nofun⟩

/-- What an engine is like at all times of a run: it is in order, its backlog counts
right, one task writes back, no stream has two voices, and a task that guards a stream
knows what is so. -/
structure Engine.Settled (e : Engine) (st : TaskId → Stance) : Prop where
  inOrder : e.InOrder st
  counted : e.Counted st
  worker : ∀ t, (st t).works = true → t = 0
  batch_ne_nil : ∀ b, e.Underway st b → b.events ≠ []
  closed : ∀ t s, (st t).closes? = some s → e.resident? s = none
  hushed : ∀ t s, (st t).hushes? = some s → e.Hushed st s
  voice_eq : ∀ s n n', e.Voices st s n → e.Voices st s n' → n = n'

namespace Engine.Settled

variable {e e' : Engine} {st : TaskId → Stance} {t u : TaskId} {s : StreamId} {n : EntryId}
  {σ : Stance} {deeds : List Happening}

theorem of_archive (settings : Settings) (archive : Archive) (clock : Int64) :
    (Engine.ofArchive settings archive clock).Settled
      (Function.update (fun _ => Stance.free) 0 .receiving) := by
  have hstance : ∀ t, Function.update (fun _ => Stance.free) 0 .receiving t = .receiving ∨
      Function.update (fun _ => Stance.free) 0 .receiving t = .free := by
    intro t
    by_cases ht : t = 0
    · exact .inl (ht ▸ Function.update_self ..)
    · exact .inr (Function.update_of_ne ht ..)
  refine ⟨.of_archive settings archive clock, .of_archive settings archive clock,
    fun t hworks => ?_, fun b hb => ?_, fun _ _ _ => rfl, fun t s hhush => ?_,
    fun s n n' hvoice => ?_⟩
  · by_contra ht
    rw [Function.update_of_ne ht] at hworks
    cases hworks
  · rcases hb with ⟨t, hcarrying⟩ | hmem
    · rcases hstance t with heq | heq <;> cases heq.symm.trans hcarrying
    · cases hmem
  · rcases hstance t with heq | heq <;> cases heq ▸ hhush
  · rcases hvoice with hfind | ⟨t, hcurrent⟩
    · cases hfind
    · rcases hstance t with heq | heq <;> cases heq.symm.trans hcurrent

theorem lt_of_voices (h : e.Settled st) (hvoice : e.Voices st s n) : n < e.nextEntry := by
  rcases hvoice with hfind | ⟨t, hcurrent⟩
  · exact h.inOrder.lt_of_resident? hfind
  · exact h.inOrder.lt_of_inHand? (t := t) (by rw [hcurrent]; rfl)

/-- A stream that a task found idle, with no entry resident, is hushed. -/
theorem hushed_of_idle (h : e.Settled st) (hclosed : (st t).closes? = some s)
    (hidle : e.backlog.isIdle s = true) : e.Hushed st s := by
  obtain ⟨howes, hqueue⟩ := h.counted.idle hidle
  refine ⟨fun n hvoice => ?_, fun b hb hs => ?_⟩
  · rcases hvoice with hfind | ⟨u, hcurrent⟩
    · cases (h.closed t s hclosed).symm.trans hfind
    · have hzero := howes u
      rw [hcurrent, Stance.owes, if_pos rfl] at hzero
      cases hzero
  · rcases hb with ⟨u, hcarrying⟩ | hmem
    · have hzero := howes u
      rw [hcarrying, Stance.owes, if_pos hs] at hzero
      cases hzero
    · exact hqueue b hmem hs

/-- No entry comes in for a stream that some task keeps closed. -/
theorem resident?_eq_none_of_change (h : e.Settled st) (hentries : e.EntryMove (st t) e' σ)
    (hbefore : (st u).closes? = some s)
    (hafter : (Function.update st t σ u).closes? = some s) : e'.resident? s = none := by
  cases hfind : e'.resident? s with
  | none => rfl
  | some n =>
      have hnone := h.closed u s hbefore
      cases hentries with
      | stay hnext hkept hentry => cases hnone.symm.trans (hkept s n hfind)
      | fresh s' events hloaded harrived hnext hself hkept =>
          by_cases hs : s = s'
          · subst hs
            have hguard : (st t).guard? = some s := by rw [hloaded]; rfl
            cases h.inOrder.eq_of_guard? (Stance.guard?_of_closes? hbefore) hguard
            rw [Function.update_self, harrived] at hafter
            cases hafter
          · cases hnone.symm.trans (hkept s n hs hfind)

/-- A voice after a step was one before, or is the entry that was just made. -/
theorem voices_of_change (hentries : e.EntryMove (st t) e' σ)
    (hvoices : e.VoiceMove (st t) e' σ) (hvoice : e'.Voices (Function.update st t σ) s n) :
    e.Voices st s n ∨
      n = e.nextEntry ∧ e'.nextEntry = e.nextEntry + 1 ∧ (st t).hushes? = some s := by
  rcases hvoice with hfind | ⟨u, hcurrent⟩
  · cases hentries with
    | stay hnext hkept hentry => exact .inl (.inl (hkept s n hfind))
    | fresh s' events hloaded harrived hnext hself hkept =>
        by_cases hs : s = s'
        · subst hs
          cases hself.symm.trans hfind
          exact .inr ⟨rfl, hnext, by rw [hloaded]; rfl⟩
        · exact .inl (.inl (hkept s n hs hfind))
  · by_cases hut : u = t
    · subst hut
      rw [Function.update_self] at hcurrent
      exact .inl ((hvoices.current s n hcurrent).elim (fun hold => .inr ⟨u, hold⟩) .inl)
    · rw [Function.update_of_ne hut] at hcurrent
      exact .inl (.inr ⟨u, hcurrent⟩)

/-- A batch on its way after a step was so before, or was just handed off. -/
theorem underway_of_change {b : Batch} (hvoices : e.VoiceMove (st t) e' σ)
    (hb : e'.Underway (Function.update st t σ) b) :
    e.Underway st b ∨ (∃ n, st t = .current b.stream n) ∧ b.events ≠ [] := by
  have hmove := hvoices.batches b
  rcases hb with ⟨u, hcarrying⟩ | hmem
  · by_cases hut : u = t
    · subst hut
      rw [Function.update_self] at hcarrying
      exact (hmove (.inl hcarrying)).imp (Or.imp (fun hold => ⟨u, hold⟩) id) id
    · rw [Function.update_of_ne hut] at hcarrying
      exact .inl (.inl ⟨u, hcarrying⟩)
  · exact (hmove (.inr hmem)).imp (Or.imp (fun hold => ⟨t, hold⟩) id) id

/-- A hushed stream stays so as long as no entry comes in. -/
theorem hushed_of_change (hhushed : e.Hushed st s) (hvoices : e.VoiceMove (st t) e' σ)
    (hnone : e'.resident? s = none) : e'.Hushed (Function.update st t σ) s := by
  refine ⟨fun n hvoice => ?_, fun b hb hs => ?_⟩
  · rcases hvoice with hfind | ⟨u, hcurrent⟩
    · cases hnone.symm.trans hfind
    · by_cases hut : u = t
      · subst hut
        rw [Function.update_self] at hcurrent
        exact hhushed.voiceless n
          ((hvoices.current s n hcurrent).elim (fun hold => .inr ⟨u, hold⟩) .inl)
      · rw [Function.update_of_ne hut] at hcurrent
        exact hhushed.voiceless n (.inr ⟨u, hcurrent⟩)
  · rcases underway_of_change hvoices hb with hold | ⟨⟨n, hcurrent⟩, -⟩
    · exact hhushed.batchless b hold hs
    · rw [hs] at hcurrent
      exact hhushed.voiceless n (.inr ⟨t, hcurrent⟩)

/-- Every step keeps an engine settled. -/
theorem change (h : e.Settled st) (hchange : Change e t (st t) deeds e' σ) :
    e'.Settled (Function.update st t σ) := by
  obtain ⟨table, hcache⟩ := h.inOrder.cache
  obtain ⟨-, hentries⟩ := hchange.entryMove hcache
  have hvoices := hchange.voiceMove hcache
  have hclosed : ∀ u s, (Function.update st t σ u).closes? = some s →
      e'.resident? s = none := by
    intro u s hafter
    by_cases hut : u = t
    · subst hut
      have hclose := hafter
      rw [Function.update_self] at hclose
      exact (hvoices.closes s hclose).elim
        (fun hbefore => h.resident?_eq_none_of_change hentries hbefore hafter) id
    · have hbefore := hafter
      rw [Function.update_of_ne hut] at hbefore
      exact h.resident?_eq_none_of_change hentries hbefore hafter
  have hhushed : ∀ u s, (Function.update st t σ u).hushes? = some s → e.Hushed st s := by
    intro u s hafter
    by_cases hut : u = t
    · subst hut
      rw [Function.update_self] at hafter
      rcases hvoices.hushes s hafter with hold | ⟨hclose, hidle⟩
      · exact h.hushed u s hold
      · exact h.hushed_of_idle hclose hidle
    · rw [Function.update_of_ne hut] at hafter
      exact h.hushed u s hafter
  refine ⟨h.inOrder.change hchange, h.counted.change hchange, fun u hworks => ?_,
    fun b hb => ?_, hclosed, fun u s hafter => ?_, fun s n n' hn hn' => ?_⟩
  · by_cases hut : u = t
    · subst hut
      rw [Function.update_self] at hworks
      exact h.worker u (hvoices.works hworks)
    · rw [Function.update_of_ne hut] at hworks
      exact h.worker u hworks
  · exact (underway_of_change hvoices hb).elim (h.batch_ne_nil b) And.right
  · exact hushed_of_change (hhushed u s hafter) hvoices
      (hclosed u s (Stance.closes?_of_hushes? hafter))
  · rcases voices_of_change hentries hvoices hn with hold | ⟨hnew, -, hhush⟩
    · rcases voices_of_change hentries hvoices hn' with hold' | ⟨hnew', -, hhush⟩
      · exact h.voice_eq s n n' hold hold'
      · exact ((h.hushed t s hhush).voiceless n hold).elim
    · rcases voices_of_change hentries hvoices hn' with hold' | ⟨hnew', -, -⟩
      · exact ((h.hushed t s hhush).voiceless n' hold').elim
      · exact hnew.trans hnew'.symm

end Engine.Settled

end StreamStore
