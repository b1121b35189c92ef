import Mathlib.Data.Nat.Notation
import Mathlib.Tactic.ByContra
import StreamStore.Sync.Backlog

/-!
# What the counts of the backlog mean

No stream has a count of zero in a backlog that was made by announcing batches and counting them
off.  So a stream is idle just when it has no batch, and what one wants to be quiet is so just
when no stream that it is about has a batch.
-/

namespace StreamStore

/-- Whether a stream has to be idle for what is wanted to be quiet. -/
def Quiet.covers : Quiet → StreamId → Bool
  | stream s, s' => s = s'
  | everything, _ => true

namespace Backlog

variable {b : Backlog} {s : StreamId} {want : Quiet}

/-- Every stream that has a count has a batch. -/
def Positive (b : Backlog) : Prop := ∀ s n, b.counts.find? s = some n → 1 ≤ n

theorem count_of_isIdle (h : b.isIdle s = true) : b.count s = 0 := by
  rw [isIdle, Table.contains, Bool.not_eq_true', Option.isSome_eq_false_iff,
    Option.isNone_iff_eq_none] at h
  rw [count, h]
  rfl

theorem find?_of_count_pos (h : 0 < b.count s) : b.counts.find? s = some (b.count s) := by
  rw [count] at h ⊢
  cases hfind : b.counts.find? s with
  | none =>
      rw [hfind] at h
      cases h
  | some n => rfl

/-- A stream is idle just when it has no batch. -/
theorem Positive.isIdle_iff (h : b.Positive) : b.isIdle s = true ↔ b.count s = 0 := by
  constructor
  · exact count_of_isIdle
  · intro hzero
    rw [isIdle, Bool.not_eq_true', Table.contains, Option.isSome_eq_false_iff,
      Option.isNone_iff_eq_none]
    by_contra hsome
    obtain ⟨n, hfind⟩ := Option.ne_none_iff_exists'.mp hsome
    have hpos := h s n hfind
    rw [count, hfind] at hzero
    exact absurd hzero (Nat.ne_of_gt hpos)

theorem Positive.announce (h : b.Positive) (s : StreamId) : (b.announce s).Positive := by
  intro s' n hfind
  simp only [Backlog.announce, Table.find?_insert] at hfind
  split at hfind
  · cases hfind
    exact Nat.le_add_left 1 _
  · exact h s' n hfind

theorem Positive.countOff (h : b.Positive) (s : StreamId) : (b.countOff s).Positive := by
  intro s' n hfind
  simp only [Backlog.countOff] at hfind
  split at hfind
  next m hm =>
    split at hfind
    · rw [Table.find?_erase] at hfind
      split at hfind
      · cases hfind
      · exact h s' n hfind
    next hlarge =>
      rw [Table.find?_insert] at hfind
      split at hfind
      · cases hfind
        omega
      · exact h s' n hfind
  · exact h s' n hfind

theorem Positive.settle (h : b.Positive) (s : StreamId) : (b.settle s).Positive := h.countOff s

/-- Telling those who wait changes no count. -/
theorem count_countOff (b : Backlog) (s s' : StreamId) :
    (b.countOff s).count s' = if s' = s then b.count s - 1 else b.count s' :=
  count_settle b s s'

/-- What is not quiet is not so because of some stream. -/
theorem exists_of_not_isQuiet (hnot : b.isQuiet want = false) :
    ∃ s, want.covers s = true ∧ b.isIdle s = false := by
  cases want with
  | stream s => exact ⟨s, decide_eq_true rfl, hnot⟩
  | everything =>
      have hne : b.counts.rows ≠ [] := by
        intro hnil
        rw [isQuiet, isEmpty, Table.size, hnil] at hnot
        cases hnot
      obtain ⟨row, rows, hrows⟩ := List.exists_cons_of_ne_nil hne
      refine ⟨row.1, rfl, ?_⟩
      rw [isIdle, Table.contains, Table.find?, hrows, List.find?_cons_of_pos (by simp)]
      rfl

theorem isIdle_of_isQuiet (h : b.isQuiet want = true) (hcovers : want.covers s = true) :
    b.isIdle s = true := by
  cases want with
  | stream r =>
      cases of_decide_eq_true hcovers
      exact h
  | everything =>
      have hrows : b.counts.rows = [] := List.eq_nil_of_length_eq_zero (of_decide_eq_true h)
      rw [isIdle, Table.contains, Table.find?, hrows]
      rfl

/-- What is wanted to be quiet is so just when no stream that it is about has a batch. -/
theorem Positive.isQuiet_iff (h : b.Positive) :
    b.isQuiet want = true ↔ ∀ s, want.covers s = true → b.count s = 0 := by
  constructor
  · intro hquiet s hcovers
    exact count_of_isIdle (isIdle_of_isQuiet hquiet hcovers)
  · intro hzero
    by_contra hnot
    obtain ⟨s, hcovers, hbusy⟩ := exists_of_not_isQuiet (Bool.not_eq_true _ ▸ hnot)
    rw [h.isIdle_iff.mpr (hzero s hcovers)] at hbusy
    cases hbusy

/-- Announcing a batch makes nothing quiet. -/
theorem Positive.isQuiet_announce (h : b.Positive) (s : StreamId)
    (hbusy : b.isQuiet want = false) : (b.announce s).isQuiet want = false := by
  rw [← Bool.not_eq_true] at hbusy ⊢
  rw [h.isQuiet_iff] at hbusy
  rw [(h.announce s).isQuiet_iff]
  intro hzero
  refine hbusy fun r hcovers => ?_
  have hr := hzero r hcovers
  rw [count_announce] at hr
  split at hr
  · cases hr
  · exact hr

end Backlog

end StreamStore
