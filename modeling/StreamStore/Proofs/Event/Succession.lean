import Mathlib.Data.Nat.Notation
import Mathlib.Order.Bounds.Defs
import StreamStore.Proofs.Event.Identities

/-!
# Identities given by a clock

The identity that follows another one is the least that comes behind it without being behind
the clock; only behind the greatest identity there is none.  So identities that are given one
after another ascend, whichever way the clock goes, as long as none of them has to follow the
greatest, and none is behind a reading of the clock that was used by then.
-/

namespace StreamStore.EventId

variable {a b : EventId} {now : Int64} {readings : List Int64}

/-! ## The least identity behind another one -/

/-- Identities up to another one, in the order in which events are sorted. -/
instance : LE EventId := ⟨fun a b => (a.compare b).isLE⟩

theorem le_iff_lt_or_eq : a ≤ b ↔ a < b ∨ a = b := by
  obtain ⟨t, n⟩ := a
  obtain ⟨u, m⟩ := b
  change (compare ⟨t, n⟩ ⟨u, m⟩).isLE = true ↔ (t < u ∨ t = u ∧ n < m) ∨ _
  rw [compare, Ordering.isLE_then_iff_and]
  simp only [Int.isLE_compare, Nat.isLE_compare, Int.compare_eq_lt, mk.injEq]
  rw [Int64.lt_iff_toInt_lt, UInt16.lt_iff_toNat_lt, ← Int64.toInt_inj, ← UInt16.toNat_inj]
  omega

theorem timestamp_le_of_lt (h : a < b) : a.timestamp ≤ b.timestamp := by
  rcases h with hlt | ⟨heq, -⟩
  · exact Int64.le_of_lt hlt
  · exact heq ▸ Int64.le_refl _

theorem not_greatest_lt (a : EventId) : ¬greatest < a := by
  rintro (hlt | ⟨-, hlt⟩)
  · exact Int64.not_lt.mpr a.timestamp.le_maxValue hlt
  · rw [UInt16.lt_iff_toNat_lt] at hlt
    exact Nat.not_lt.mpr (Nat.le_of_lt_succ a.sequence.toNat_lt) hlt

theorem le_timestamp_nextAfter (h : a ≠ greatest) (now : Int64) :
    now ≤ (a.nextAfter now).timestamp := by
  by_cases hlater : a.timestamp < now
  · rw [nextAfter, if_pos hlater]
    exact Int64.le_refl now
  · exact Int64.le_trans (Int64.not_lt.mp hlater) (timestamp_le_of_lt (lt_nextAfter h now))

/-- The first identity of a timestamp is up to all that are not before that timestamp. -/
theorem first_le (h : now ≤ b.timestamp) : first now ≤ b := by
  rw [le_iff_lt_or_eq]
  obtain ⟨t, n⟩ := b
  change (now < t ∨ now = t ∧ 0 < n) ∨ (⟨now, 0⟩ : EventId) = ⟨t, n⟩
  grind

/-- An identity that comes behind another one within the same timestamp has a later sequence, so
the next sequence is up to it. -/
theorem nextAfter_le (h : a < b) (hnow : now ≤ b.timestamp) : a.nextAfter now ≤ b := by
  obtain ⟨t, n⟩ := a
  obtain ⟨u, m⟩ := b
  rw [nextAfter]
  split
  · exact first_le hnow
  next hstalled =>
    split
    next hroom =>
      rw [le_iff_lt_or_eq]
      change (t < u ∨ t = u ∧ n + 1 < m) ∨ (⟨t, n + 1⟩ : EventId) = ⟨u, m⟩
      change t < u ∨ t = u ∧ n < m at h
      rw [mk.injEq]
      simp only [UInt16.size] at hroom
      grind
    next hfull =>
      have hlater : t < u := by
        refine h.resolve_right fun hsame => hfull ?_
        exact Nat.lt_of_le_of_lt (UInt16.lt_iff_toNat_lt.mp hsame.2) m.toNat_lt
      refine first_le ?_
      change t + 1 ≤ u
      grind

/-- What follows an identity is the least of what may, which there is just when the identity is
not the greatest. -/
theorem isLeast_nextAfter_iff (a : EventId) (now : Int64) :
    IsLeast {e | a < e ∧ now ≤ e.timestamp} (a.nextAfter now) ↔ a ≠ greatest := by
  constructor
  · rintro ⟨⟨hlt, -⟩, -⟩ rfl
    exact not_greatest_lt _ hlt
  · intro h
    exact ⟨⟨lt_nextAfter h now, le_timestamp_nextAfter h now⟩,
      fun e he => nextAfter_le he.1 he.2⟩

/-! ## One identity after another -/

/-- The identities that follow another one at clock readings. -/
def followers (last : EventId) : List Int64 → List EventId
  | [] => []
  | now :: readings => last.nextAfter now :: followers (last.nextAfter now) readings

theorem chain_cons (now : Int64) (readings : List Int64) :
    chain (now :: readings) = first now :: followers (first now) readings := by
  have hfold : ∀ last given, (readings.foldl (fun given now =>
      (given.1.nextAfter now, given.2 ++ [given.1.nextAfter now])) (last, given)).2 =
        given ++ followers last readings := by
    intro last given
    induction readings generalizing last given with
    | nil => exact (List.append_nil given).symm
    | cons now readings ih =>
        rw [List.foldl_cons, followers, ih, List.append_assoc, List.singleton_append]
  exact congrArg (first now :: ·) (hfold (first now) [])

theorem length_followers (last : EventId) (readings : List Int64) :
    (followers last readings).length = readings.length := by
  induction readings generalizing last with
  | nil => rfl
  | cons now readings ih => rw [followers, List.length_cons, List.length_cons, ih]

theorem length_chain (readings : List Int64) : (chain readings).length = readings.length := by
  cases readings with
  | nil => rfl
  | cons now readings =>
      rw [chain_cons, List.length_cons, List.length_cons, length_followers]

/-- Identities that follow one another ascend just when none but the last is the greatest. -/
theorem pairwise_followers_iff (last : EventId) (readings : List Int64) :
    (last :: followers last readings).Pairwise (· < ·) ↔
      ∀ e ∈ (last :: followers last readings).dropLast, e ≠ greatest := by
  induction readings generalizing last with
  | nil => simp [followers]
  | cons now readings ih =>
      rw [followers, List.dropLast_cons_cons, List.forall_mem_cons, ← ih, List.pairwise_cons]
      refine and_congr_left fun hrest => ⟨fun hlast => ?_, fun hne => ?_⟩
      · rintro rfl
        exact not_greatest_lt _ (hlast _ List.mem_cons_self)
      · have hnext := lt_nextAfter hne now
        refine List.forall_mem_cons.mpr ⟨hnext, fun e he => ?_⟩
        exact lt_trans hnext ((List.pairwise_cons.mp hrest).1 e he)

/-- Where identities that follow one another ascend, none is behind a reading used for it or for
one before it. -/
theorem le_timestamp_of_followers {last e : EventId} {n : Nat}
    (h : (last :: followers last readings).Pairwise (· < ·))
    (he : (followers last readings)[n]? = some e) :
    ∀ now ∈ readings.take (n + 1), now ≤ e.timestamp := by
  induction readings generalizing last n with
  | nil => exact nofun
  | cons reading readings ih =>
      rw [followers] at h he
      obtain ⟨hlast, hrest⟩ := List.pairwise_cons.mp h
      have hreading : reading ≤ (last.nextAfter reading).timestamp := by
        refine le_timestamp_nextAfter ?_ reading
        rintro rfl
        exact not_greatest_lt _ (hlast _ List.mem_cons_self)
      rw [List.take_succ_cons, List.forall_mem_cons]
      cases n with
      | zero =>
          cases he
          exact ⟨hreading, nofun⟩
      | succ n =>
          rw [List.getElem?_cons_succ] at he
          have hbefore := (List.pairwise_cons.mp hrest).1 e (List.mem_of_getElem? he)
          exact ⟨Int64.le_trans hreading (timestamp_le_of_lt hbefore), ih hrest he⟩

/-- Identities that are given at clock readings ascend, and none is behind a reading that was
used by then. -/
def Advance (readings : List Int64) (ids : List EventId) : Prop :=
  ids.Pairwise (· < ·) ∧
    ∀ n e, ids[n]? = some e → ∀ now ∈ readings.take (n + 1), now ≤ e.timestamp

theorem advance_chain_iff (readings : List Int64) :
    Advance readings (chain readings) ↔ ∀ e ∈ (chain readings).dropLast, e ≠ greatest := by
  cases readings with
  | nil => exact ⟨fun _ => nofun, fun _ => ⟨.nil, nofun⟩⟩
  | cons now readings =>
      rw [chain_cons, ← pairwise_followers_iff]
      refine ⟨And.left, fun h => ⟨h, fun n e he => ?_⟩⟩
      rw [List.take_succ_cons, List.forall_mem_cons]
      cases n with
      | zero =>
          cases he
          exact ⟨Int64.le_refl now, nofun⟩
      | succ n =>
          rw [List.getElem?_cons_succ] at he
          have hfirst := (List.pairwise_cons.mp h).1 e (List.mem_of_getElem? he)
          exact ⟨timestamp_le_of_lt hfirst, le_timestamp_of_followers h he⟩

/-- The identity that follows another one is the least that comes behind it and is not behind
the clock, unless the other one is the greatest.  The identities given at clock readings, one
for each, ascend and keep up with the clock just when none of them has to follow the
greatest. -/
theorem isLeast_nextAfter_and_advance_chain :
    (∀ (a : EventId) (now : Int64),
      IsLeast {e | a < e ∧ now ≤ e.timestamp} (a.nextAfter now) ↔ a ≠ greatest) ∧
    ∀ readings : List Int64, (chain readings).length = readings.length ∧
      (Advance readings (chain readings) ↔
        ∀ e ∈ (chain readings).dropLast, e ≠ greatest) :=
  ⟨isLeast_nextAfter_iff, fun readings => ⟨length_chain readings, advance_chain_iff readings⟩⟩

/-- A sequence that is used up goes over into the next timestamp while the clock runs backwards,
and the greatest identity may still be given, as the last one. -/
theorem advance_chain_of_exhausted :
    IsLeast {e | (⟨100, 65535⟩ : EventId) < e ∧ 42 ≤ e.timestamp} ⟨101, 0⟩ ∧
    IsLeast {e | (⟨Int64.maxValue, 65534⟩ : EventId) < e ∧ 7 ≤ e.timestamp} greatest ∧
    chain [5, 3, 9, 8] = [⟨5, 0⟩, ⟨5, 1⟩, ⟨9, 0⟩, ⟨9, 1⟩] ∧
    Advance [5, 3, 9, 8] [⟨5, 0⟩, ⟨5, 1⟩, ⟨9, 0⟩, ⟨9, 1⟩] := by
  obtain ⟨hleast, hchain⟩ := isLeast_nextAfter_and_advance_chain
  have hgiven : chain [5, 3, 9, 8] = [⟨5, 0⟩, ⟨5, 1⟩, ⟨9, 0⟩, ⟨9, 1⟩] := by decide
  refine ⟨(hleast ⟨100, 65535⟩ 42).mpr (by decide),
    (hleast ⟨Int64.maxValue, 65534⟩ 7).mpr (by decide), hgiven, ?_⟩
  have hadvance := (hchain [5, 3, 9, 8]).2
  rw [hgiven] at hadvance
  exact hadvance.mpr (by decide)

end StreamStore.EventId
