import StreamStore.Proofs.Runs
import StreamStore.Proofs.Sync.Gates
import StreamStore.Proofs.Sync.Lines

/-!
# Calls for locks by key

Any number of calls ask for the locks of any keys.  Each goes on in atomic steps of its own: it
gets hold of its key's gate, gets in line, and comes to hold the lock when it is the first.  When
the lock is given back, or the call given up before it has it, it leaves the line and then drops the
gate if nobody refers to it.  All others may move between two steps of a call, and logs tell which
calls got in line and which came to hold a lock, in that order.
-/

namespace StreamStore

/-- How far a call for a key's lock has come. -/
inductive LockPhase
  /-- About to get hold of the key's gate. -/
  | asking
  /-- Refers to a gate, about to get in its line. -/
  | approaching (gate : Nat)
  | waiting (gate : Nat)
  | holding (gate : Nat)
  /-- Out of the line, about to drop the gate if nobody refers to it. -/
  | leaving
  | done
deriving DecidableEq, Repr

/-- Calls for locks, known by their numbers. -/
structure LockCalls (κ : Type) where
  table : LockTable κ Nat := {}
  calls : List (κ × LockPhase) := []
  /-- Which calls got in line so far, for which keys. -/
  arrived : List (κ × Nat) := []
  /-- Which calls came to hold a lock so far. -/
  served : List (κ × Nat) := []

/-- What happens to the calls for locks, one move at a time. -/
inductive LockMove (κ : Type)
  | ask (k : κ)
  /-- A call goes on. -/
  | go (t : Nat)
  /-- A call's lock is given back, or a call that has none yet is given up. -/
  | drop (t : Nat)

/-- The gate that a call refers to. -/
def LockPhase.gate? : LockPhase → Option Nat
  | approaching n => some n
  | waiting n => some n
  | holding n => some n
  | _ => none

/-- Where a call stands to the line of its key. -/
def LockPhase.place : LockPhase → LinePlace
  | waiting _ => .waiting
  | holding _ => .leading
  | _ => .outside

/-- Where a call stands to the crowd before the gate of its key. -/
def LockPhase.nearness : LockPhase → LinePlace
  | approaching _ => .waiting
  | _ => .outside

/-- A call that got in line, even if it left it since. -/
def LockPhase.HasArrived : LockPhase → Prop
  | asking => False
  | approaching _ => False
  | _ => True

/-- Whether a call can go on, where only one that waits must be the first in line. -/
def LockPhase.mayGo (first : Bool) : LockPhase → Bool
  | waiting _ => first
  | holding _ => false
  | done => false
  | _ => true

namespace LockCalls

variable {κ : Type}

/-- A call for a key has come this far. -/
def IsAt (y : LockCalls κ) (k : κ) (t : Nat) (phase : LockPhase) : Prop :=
  y.calls[t]? = some (k, phase)

def record (y : LockCalls κ) (k : κ) (t : Nat) (phase : LockPhase) : LockCalls κ :=
  { y with calls := y.calls.set t (k, phase) }

/-- A call is taken from one phase to another. -/
structure Takes (y z : LockCalls κ) (k : κ) (t : Nat) (before after : LockPhase) : Prop where
  call : y.IsAt k t before
  calls : z.calls = y.calls.set t (k, after)

section Phases

variable {y z : LockCalls κ} {k k' : κ} {t u : Nat} {phase before after : LockPhase}

theorem IsAt.unique (h : y.IsAt k t before) (h' : y.IsAt k' t after) : k = k' ∧ before = after :=
  Prod.mk.inj (Option.some.inj (Eq.trans (Eq.symm h) h'))

/-- A step of a call changes how far that call has come. -/
theorem Takes.isAt_iff (h : y.Takes z k t before after) (k' : κ) (u : Nat) (phase : LockPhase) :
    z.IsAt k' u phase ↔ if u = t then k = k' ∧ after = phase else y.IsAt k' u phase := by
  have hlt : t < y.calls.length := (List.getElem?_eq_some_iff.mp h.call).1
  rw [IsAt, h.calls, List.getElem?_set]
  by_cases hu : u = t
  · rw [if_pos hu, if_pos hu.symm, if_pos hlt, Option.some.injEq, Prod.mk.injEq]
  · rw [if_neg hu, if_neg (Ne.symm hu), IsAt]

theorem Takes.isAt_self (h : y.Takes z k t before after) : z.IsAt k t after := by
  rw [h.isAt_iff, if_pos rfl]
  exact ⟨rfl, rfl⟩

theorem Takes.isAt_of_ne (h : y.Takes z k t before after) (hne : u ≠ t) :
    z.IsAt k' u phase ↔ y.IsAt k' u phase := by
  rw [h.isAt_iff, if_neg hne]

/-- The other calls for a key are where they were. -/
theorem Takes.isAt_of_key_ne (h : y.Takes z k t before after) (hne : k' ≠ k) :
    z.IsAt k' u phase ↔ y.IsAt k' u phase := by
  rw [h.isAt_iff]
  split
  next hu =>
    subst hu
    exact ⟨fun hself => absurd hself.1.symm hne, fun hother => absurd (hother.unique h.call).1 hne⟩
  · rfl

theorem isAt_of_calls_append (hcalls : z.calls = y.calls ++ [(k, .asking)])
    (hnew : phase ≠ .asking) : z.IsAt k' t phase ↔ y.IsAt k' t phase := by
  rw [IsAt, IsAt, hcalls, List.getElem?_append]
  split
  · rfl
  next hlt =>
    rw [List.getElem?_eq_none (Nat.le_of_not_lt hlt)]
    constructor
    · intro hat
      obtain ⟨hlt', heq⟩ := List.getElem?_eq_some_iff.mp hat
      simp only [List.getElem_singleton, Prod.mk.injEq] at heq
      exact absurd heq.2.symm hnew
    · exact nofun

end Phases

variable [DecidableEq κ]

/-- The calls of a log that are for a key, in order. -/
def callsFor (k : κ) (log : List (κ × Nat)) : List Nat :=
  (log.filter fun entry => entry.1 = k).map (·.2)

/-- Where a call stands to those who ask for a key's lock, if `seat` tells it of the calls for
that key. -/
def stand (y : LockCalls κ) (seat : LockPhase → LinePlace) (k : κ) (t : Nat) : LinePlace :=
  match y.calls[t]? with
  | some (k', phase) => if k' = k then seat phase else .outside
  | none => .outside

/-- One step of a call, `none` while it waits, holds the lock or is done. -/
def go (y : LockCalls κ) (k : κ) (t : Nat) : LockPhase → Option (LockCalls κ)
  | .asking =>
    some ({ y with table := (y.table.attach k t).2 }.record k t
      (.approaching (y.table.attach k t).1))
  | .approaching n =>
    some ({ y with table := y.table.enter (k, n) t, arrived := y.arrived ++ [(k, t)] }.record k t
      (.waiting n))
  | .waiting n =>
    if y.table.hasTurn (k, n) t then
      some ({ y with served := y.served ++ [(k, t)] }.record k t (.holding n))
    else none
  | .leaving => some ({ y with table := y.table.reclaim k }.record k t .done)
  | .holding _ => none
  | .done => none

/-- Give back the lock of a call, or give the call up. -/
def release (y : LockCalls κ) (k : κ) (t : Nat) (phase : LockPhase) : Option (LockCalls κ) :=
  phase.gate?.map fun n => { y with table := y.table.withdraw (k, n) t }.record k t .leaving

def move (y : LockCalls κ) : LockMove κ → Option (LockCalls κ)
  | .ask k => some { y with calls := y.calls ++ [(k, .asking)] }
  | .go t => y.calls[t]?.bind fun (k, phase) => y.go k t phase
  | .drop t => y.calls[t]?.bind fun (k, phase) => y.release k t phase

/-- The calls after some moves. -/
def play (y : LockCalls κ) (moves : List (LockMove κ)) : Option (LockCalls κ) :=
  moves.foldlM move y

/-- The key that a move is about. -/
def keyOf (y : LockCalls κ) : LockMove κ → Option κ
  | .ask k => some k
  | .go t => y.calls[t]?.map (·.1)
  | .drop t => y.calls[t]?.map (·.1)

/-- A move brings in a call for a key, or takes one a step on. -/
inductive Moved (y z : LockCalls κ) (k : κ) : Prop
  | ask (hcalls : z.calls = y.calls ++ [(k, .asking)]) (htable : z.table = y.table)
      (harrived : z.arrived = y.arrived) (hserved : z.served = y.served)
  | attach {t : Nat} (htakes : y.Takes z k t .asking (.approaching (y.table.attach k t).1))
      (htable : z.table = (y.table.attach k t).2)
      (harrived : z.arrived = y.arrived) (hserved : z.served = y.served)
  | enter {t n : Nat} (htakes : y.Takes z k t (.approaching n) (.waiting n))
      (htable : z.table = y.table.enter (k, n) t)
      (harrived : z.arrived = y.arrived ++ [(k, t)]) (hserved : z.served = y.served)
  | turn {t n : Nat} (htakes : y.Takes z k t (.waiting n) (.holding n))
      (hhead : (y.table.gate (k, n)).line.head? = some t) (htable : z.table = y.table)
      (harrived : z.arrived = y.arrived) (hserved : z.served = y.served ++ [(k, t)])
  | withdraw {t n : Nat} {phase : LockPhase} (htakes : y.Takes z k t phase .leaving)
      (hgate : phase.gate? = some n) (htable : z.table = y.table.withdraw (k, n) t)
      (harrived : z.arrived = y.arrived) (hserved : z.served = y.served)
  | reclaim {t : Nat} (htakes : y.Takes z k t .leaving .done)
      (htable : z.table = y.table.reclaim k)
      (harrived : z.arrived = y.arrived) (hserved : z.served = y.served)

section Logs

variable {k k' : κ} {t : Nat} {log : List (κ × Nat)}

theorem mem_callsFor : t ∈ callsFor k log ↔ (k, t) ∈ log := by
  simp [callsFor]

theorem callsFor_append (k' : κ) (log : List (κ × Nat)) (k : κ) (t : Nat) :
    callsFor k' (log ++ [(k, t)]) =
      if k' = k then callsFor k log ++ [t] else callsFor k' log := by
  rw [callsFor, List.filter_append, List.map_append, ← callsFor]
  by_cases hk : k' = k
  · subst hk
    simp
  · simp [hk, Ne.symm hk]

theorem nodup_callsFor (h : log.Nodup) (k : κ) : (callsFor k log).Nodup := by
  refine (h.filter _).map_on ?_
  rintro ⟨k₁, t⟩ h₁ ⟨k₂, u⟩ h₂ rfl
  have hk₁ := (List.mem_filter.mp h₁).2
  have hk₂ := (List.mem_filter.mp h₂).2
  simp only [decide_eq_true_eq] at hk₁ hk₂
  rw [hk₁, hk₂]

end Logs

variable {y z : LockCalls κ} {k k' : κ} {t u n : Nat} {phase before after : LockPhase}
  {mv : LockMove κ}

theorem moved_of_move (h : y.move mv = some z) : ∃ k, y.keyOf mv = some k ∧ y.Moved z k := by
  cases mv with
  | ask k =>
      cases h
      exact ⟨k, rfl, .ask rfl rfl rfl rfl⟩
  | go t =>
      obtain ⟨⟨k, phase⟩, hcall, hgo⟩ := Option.bind_eq_some_iff.mp h
      refine ⟨k, congrArg (Option.map _) hcall, ?_⟩
      cases phase with
      | asking =>
          cases hgo
          exact .attach ⟨hcall, rfl⟩ rfl rfl rfl
      | approaching n =>
          cases hgo
          exact .enter ⟨hcall, rfl⟩ rfl rfl rfl
      | waiting n =>
          simp only [go] at hgo
          split at hgo
          next hturn =>
            cases hgo
            exact .turn ⟨hcall, rfl⟩ (of_decide_eq_true hturn) rfl rfl rfl
          · cases hgo
      | leaving =>
          cases hgo
          exact .reclaim ⟨hcall, rfl⟩ rfl rfl rfl
      | holding n => cases hgo
      | done => cases hgo
  | drop t =>
      obtain ⟨⟨k, phase⟩, hcall, hdrop⟩ := Option.bind_eq_some_iff.mp h
      obtain ⟨n, hgate, rfl⟩ := Option.map_eq_some_iff.mp hdrop
      exact ⟨k, congrArg (Option.map _) hcall, .withdraw ⟨hcall, rfl⟩ hgate rfl rfl rfl⟩

/-- A move about one key leaves the calls for another where they are. -/
theorem Moved.isAt_of_ne (h : y.Moved z k) (hne : k' ≠ k) (hcall : y.IsAt k' t phase) :
    z.IsAt k' t phase := by
  cases h with
  | ask hcalls =>
      rw [IsAt, hcalls, List.getElem?_append_left (List.getElem?_eq_some_iff.mp hcall).1]
      exact hcall
  | attach htakes | enter htakes | turn htakes | withdraw htakes | reclaim htakes =>
      exact (htakes.isAt_of_key_ne hne).mpr hcall

/-! ## Where calls stand -/

variable {seat : LockPhase → LinePlace}

theorem stand_of_isAt (h : y.IsAt k t phase) : y.stand seat k t = seat phase := by
  rw [stand, show y.calls[t]? = some (k, phase) from h]
  exact if_pos rfl

theorem exists_isAt_of_stand (h : y.stand seat k t ≠ .outside) :
    ∃ phase, y.IsAt k t phase ∧ y.stand seat k t = seat phase := by
  rw [stand] at h ⊢
  split at h
  next k' phase hcall =>
    split at h
    next hk =>
      subst hk
      exact ⟨phase, hcall, if_pos rfl⟩
    · exact absurd rfl h
  · exact absurd rfl h

/-- A step of a call changes where that call stands. -/
theorem Takes.stand_eq (h : y.Takes z k t before after) (k' : κ) :
    z.stand seat k' =
      if k' = k then Function.update (y.stand seat k) t (seat after) else y.stand seat k' := by
  have hcall := h.call
  funext u
  by_cases hu : u = t
  · subst hu
    by_cases hk : k' = k
    · subst hk
      rw [if_pos rfl, Function.update_self]
      exact stand_of_isAt h.isAt_self
    · rw [if_neg hk, stand, show z.calls[u]? = some (k, after) from h.isAt_self, stand,
        show y.calls[u]? = some (k, before) from h.call]
      exact (if_neg (Ne.symm hk)).trans (if_neg (Ne.symm hk)).symm
  · have hother : z.stand seat k' u = y.stand seat k' u := by
      rw [stand, h.calls, List.getElem?_set_ne (Ne.symm hu), ← stand]
    rw [hother]
    split
    next hk => rw [hk, Function.update_of_ne hu]
    · rfl

theorem Takes.stand_of_eq (h : y.Takes z k t before after) (hsame : seat after = seat before) :
    z.stand seat = y.stand seat := by
  have hstand : y.stand seat k t = seat before := stand_of_isAt h.call
  funext k'
  rw [h.stand_eq]
  split
  next hk => rw [hk, hsame, ← hstand, Function.update_eq_self]
  · rfl

theorem stand_of_calls_append (hcalls : z.calls = y.calls ++ [(k, .asking)])
    (hout : seat .asking = .outside) : z.stand seat = y.stand seat := by
  funext k' t
  rw [stand, stand, hcalls, List.getElem?_append]
  by_cases hlt : t < y.calls.length
  · rw [if_pos hlt]
  · rw [if_neg hlt, List.getElem?_eq_none (Nat.le_of_not_lt hlt)]
    cases hnew : [(k, LockPhase.asking)][t - y.calls.length]? with
    | none => rfl
    | some call =>
        obtain ⟨-, rfl⟩ := List.getElem?_eq_some_iff.mp hnew
        simp [hout]

end LockCalls

end StreamStore
