import StreamStore.Event.Basic

/-!
# Identities in order

An identity that follows another one comes behind it, whatever the clock shows, as long
as there is a greater one at all.  So a batch that is stamped behind the last event of a
stream goes on in the order of the stream, whatever the clock showed before.
-/

namespace StreamStore

namespace EventId

/-- The greatest identity there is. -/
def greatest : EventId := ⟨Int64.maxValue, 65535⟩

variable {a b c : EventId}

theorem lt_trans (h : a < b) (h' : b < c) : a < c := by
  rcases h with hlt | ⟨heq, hlt⟩
  · rcases h' with hlt' | ⟨heq', -⟩
    · exact .inl (Int64.lt_trans hlt hlt')
    · exact .inl (heq' ▸ hlt)
  · rcases h' with hlt' | ⟨heq', hlt'⟩
    · exact .inl (heq ▸ hlt')
    · exact .inr ⟨heq.trans heq', UInt16.lt_trans hlt hlt'⟩

/-- Unless an identity is the greatest, the one that follows it comes behind it, whatever
the clock shows. -/
theorem lt_nextAfter (h : a ≠ greatest) (now : Int64) : a < a.nextAfter now := by
  obtain ⟨timestamp, sequence⟩ := a
  rw [nextAfter]
  split
  next hlater => exact .inl hlater
  next hstalled =>
    split
    next hroom =>
      refine .inr ⟨rfl, ?_⟩
      rw [UInt16.lt_iff_toNat_lt, UInt16.toNat_add]
      simp only [UInt16.size, UInt16.reduceToNat] at hroom ⊢
      omega
    next hfull =>
      have hsequence : sequence = 65535 := by
        have hlt := sequence.toNat_lt
        rw [← UInt16.toNat_inj]
        simp only [UInt16.size, UInt16.reduceToNat] at hfull ⊢
        omega
      have htimestamp : timestamp ≠ Int64.maxValue := by
        rintro rfl
        exact h (by rw [hsequence]; rfl)
      left
      simp only
      grind

end EventId

namespace Event

/-- Events one after another in the order of their identities. -/
def Ascending (events : List Event) : Prop := events.Pairwise fun a b => a.id < b.id

instance (events : List Event) : Decidable (Ascending events) :=
  inferInstanceAs (Decidable (List.Pairwise _ events))

theorem Ascending.sublist {events part : List Event} (h : Ascending events)
    (hpart : part.Sublist events) : Ascending part :=
  List.Pairwise.sublist hpart h

/-- An event that follows the last one goes on in the order. -/
theorem Ascending.append_next {events : List Event} {e : Event} (h : Ascending events)
    (now : Int64) (hless : ∀ e ∈ events, e.id ≠ .greatest)
    (hnext : ∀ last, events.getLast? = some last → e.id = last.id.nextAfter now) :
    Ascending (events ++ [e]) := by
  cases hlast : events.getLast? with
  | none =>
      rw [List.getLast?_eq_none_iff.mp hlast]
      exact List.pairwise_singleton _ _
  | some last =>
      obtain ⟨front, rfl⟩ := List.getLast?_eq_some_iff.mp hlast
      have hbehind : last.id < e.id := by
        rw [hnext last hlast]
        exact EventId.lt_nextAfter (hless last (List.mem_append_right _ List.mem_cons_self)) now
      refine List.pairwise_append.mpr ⟨h, List.pairwise_singleton _ _, fun a ha b hb => ?_⟩
      cases List.mem_singleton.mp hb
      rcases List.mem_append.mp ha with hfront | hmem
      · exact EventId.lt_trans ((List.pairwise_append.mp h).2.2 a hfront last
          List.mem_cons_self) hbehind
      · cases List.mem_singleton.mp hmem
        exact hbehind

/-- The first event of a batch follows the last one in use, and the others follow it. -/
theorem exists_stamp_cons (last : Option EventId) (now : Int64) (draft : EventDraft)
    (drafts : List EventDraft) :
    ∃ first : Event,
      stamp last now (draft :: drafts) = first :: stamp (some first.id) now drafts ∧
        ∀ previous, last = some previous → first.id = previous.nextAfter now := by
  cases last with
  | none => exact ⟨_, rfl, nofun⟩
  | some previous =>
      refine ⟨_, rfl, ?_⟩
      rintro _ ⟨⟩
      rfl

/-- A batch that is stamped behind the last event goes on in the order, as long as no
identity is the greatest. -/
theorem Ascending.append_stamp {events : List Event} (h : Ascending events) {now : Int64}
    {drafts : List EventDraft}
    (hless : ∀ e ∈ events ++ stamp (events.getLast?.map (·.id)) now drafts,
      e.id ≠ .greatest) :
    Ascending (events ++ stamp (events.getLast?.map (·.id)) now drafts) := by
  induction drafts generalizing events with
  | nil =>
      rw [stamp, List.append_nil]
      exact h
  | cons draft drafts ih =>
      obtain ⟨first, hstamp, hnext⟩ :=
        exists_stamp_cons (events.getLast?.map (·.id)) now draft drafts
      have hlast : (events ++ [first]).getLast?.map (·.id) = some first.id := by
        rw [List.getLast?_concat]
        rfl
      rw [hstamp, ← hlast, List.append_cons] at hless ⊢
      refine ih (h.append_next now (fun e he => ?_) fun last hlast => ?_) hless
      · exact hless e (List.mem_append_left _ (List.mem_append_left _ he))
      · exact hnext _ (congrArg (Option.map (·.id)) hlast)

end Event

end StreamStore
