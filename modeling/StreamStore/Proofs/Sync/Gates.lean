import Mathlib.Data.Nat.Notation
import StreamStore.Proofs.Table
import StreamStore.Sync.LockTable

/-!
# A lock table, key by key

A key may have had many gates, but only the one in use counts: those who refer to it stand before it
in a crowd or in its line.  Each step of a task changes the crowd and the line of one key, and a key
loses its gate only when both are empty.
-/

namespace StreamStore

theorem Gate.references_eq_zero_iff {τ : Type} {g : Gate τ} :
    g.references = 0 ↔ g.approaching = [] ∧ g.line = [] := by
  rw [references, Nat.add_eq_zero_iff, List.length_eq_zero_iff, List.length_eq_zero_iff]

namespace LockTable

/-- The gates of different keys are different. -/
theorem place_ne {κ : Type} {k k' : κ} (hk : k' ≠ k) (n m : Nat) : (k', n) ≠ (k, m) :=
  fun heq => hk (congrArg Prod.fst heq)

variable {κ τ : Type} [DecidableEq κ] {l : LockTable κ τ} {k : κ} {n : Nat}

/-- The tasks that refer to a key's gate and are not in its line yet. -/
def crowd (l : LockTable κ τ) (k : κ) : List τ :=
  match l.current.find? k with
  | some number => (l.gate (k, number)).approaching
  | none => []

theorem line_eq (h : l.current.find? k = some n) : l.line k = (l.gate (k, n)).line := by
  rw [line, h]

theorem crowd_eq (h : l.current.find? k = some n) :
    l.crowd k = (l.gate (k, n)).approaching := by
  rw [crowd, h]

/-! ## Getting hold of a gate and dropping it -/

theorem current_attach (l : LockTable κ τ) (k k' : κ) (t : τ) :
    (l.attach k t).2.current.find? k' =
      if k' = k then some (l.attach k t).1 else l.current.find? k' := by
  by_cases hk : k' = k
  · rw [if_pos hk, hk]
    exact current_attach_self l k t
  · rw [if_neg hk]
    cases hnumber : l.current.find? k with
    | none => simp only [attach, hnumber, Table.find?_insert_of_ne _ _ hk]
    | some number => simp only [attach, hnumber]

theorem attach_eq_of_current (h : l.current.find? k = some n) (t : τ) : (l.attach k t).1 = n := by
  simp only [attach, h]

theorem fresh_le_attach (l : LockTable κ τ) (k : κ) (t : τ) :
    l.fresh ≤ (l.attach k t).2.fresh := by
  cases hnumber : l.current.find? k with
  | none => simp [attach, hnumber]
  | some number => simp [attach, hnumber]

/-- A gate has a number that was given out before, or is now. -/
theorem attach_lt_fresh (h : ∀ n, l.current.find? k = some n → n < l.fresh) (t : τ) :
    (l.attach k t).1 < (l.attach k t).2.fresh := by
  cases hnumber : l.current.find? k with
  | none => simp [attach, hnumber]
  | some number => simp [attach, hnumber, h number hnumber]

theorem crowd_attach (l : LockTable κ τ) (k k' : κ) (t : τ) :
    (l.attach k t).2.crowd k' = if k' = k then l.crowd k ++ [t] else l.crowd k' := by
  by_cases hk : k' = k
  · subst hk
    rw [if_pos rfl, crowd_eq (current_attach_self l k' t)]
    cases hnumber : l.current.find? k' with
    | none => simp [attach, crowd, gate, hnumber]
    | some number => simp [attach, crowd, gate, hnumber]
  · rw [if_neg hk, crowd, crowd, current_attach, if_neg hk]
    cases hnumber : l.current.find? k with
    | none => simp [attach, gate, hnumber, Table.find?_insert_of_ne _ _ (place_ne hk _ _)]
    | some number => simp [attach, gate, hnumber, Table.find?_insert_of_ne _ _ (place_ne hk _ _)]

/-- A gate is dropped only when it is empty. -/
theorem gate_reclaim (l : LockTable κ τ) (k : κ) (place : κ × Nat) :
    (l.reclaim k).gate place = l.gate place := by
  rw [reclaim]
  split
  next number hnumber =>
    split
    next hrefs =>
      simp only [gate, Table.find?_erase]
      split
      next heq =>
        subst heq
        obtain ⟨hcrowd, hline⟩ := Gate.references_eq_zero_iff.mp hrefs
        exact (congrArg₂ Gate.mk hcrowd hline).symm
      · rfl
    · rfl
  · rfl

/-- A key loses its gate when nobody refers to it. -/
theorem current_reclaim (l : LockTable κ τ) (k k' : κ) :
    (l.reclaim k).current.find? k' =
      if k' = k ∧ l.crowd k = [] ∧ l.line k = [] then none else l.current.find? k' := by
  cases hnumber : l.current.find? k with
  | none =>
      simp only [reclaim, hnumber]
      split
      next hk => rw [hk.1, hnumber]
      · rfl
  | some number =>
      have hrefs : (l.gate (k, number)).references = 0 ↔ l.crowd k = [] ∧ l.line k = [] := by
        rw [crowd_eq hnumber, line_eq hnumber, Gate.references_eq_zero_iff]
      simp only [← hrefs, reclaim, hnumber]
      by_cases hzero : (l.gate (k, number)).references = 0
      · simp only [hzero, if_true, and_true, Table.find?_erase]
      · simp only [hzero, if_false, and_false]

theorem fresh_reclaim (l : LockTable κ τ) (k : κ) : (l.reclaim k).fresh = l.fresh := by
  rw [reclaim]
  split
  · split <;> rfl
  · rfl

theorem crowd_reclaim (l : LockTable κ τ) (k k' : κ) : (l.reclaim k).crowd k' = l.crowd k' := by
  have hcurrent := l.current_reclaim k k'
  by_cases hdrop : k' = k ∧ l.crowd k = [] ∧ l.line k = []
  · obtain ⟨rfl, hcrowd, hline⟩ := hdrop
    rw [if_pos ⟨rfl, hcrowd, hline⟩] at hcurrent
    rw [crowd, hcurrent, hcrowd]
  · rw [if_neg hdrop] at hcurrent
    rw [crowd, hcurrent, crowd]
    simp only [gate_reclaim]

/-! ## Getting in line and leaving it -/

variable [DecidableEq τ]

theorem line_enter (h : l.current.find? k = some n) (k' : κ) (t : τ) :
    (l.enter (k, n) t).line k' = if k' = k then l.line k ++ [t] else l.line k' := by
  by_cases hk : k' = k
  · subst hk
    simp [enter, line, gate, h]
  · simp [enter, line, gate, hk, Table.find?_insert_of_ne _ _ (place_ne hk _ _)]

theorem crowd_enter (h : l.current.find? k = some n) (k' : κ) (t : τ) :
    (l.enter (k, n) t).crowd k' = if k' = k then (l.crowd k).erase t else l.crowd k' := by
  by_cases hk : k' = k
  · subst hk
    simp [enter, crowd, gate, h]
  · simp [enter, crowd, gate, hk, Table.find?_insert_of_ne _ _ (place_ne hk _ _)]

theorem line_withdraw (h : l.current.find? k = some n) (k' : κ) (t : τ) :
    (l.withdraw (k, n) t).line k' = if k' = k then (l.line k).erase t else l.line k' := by
  by_cases hk : k' = k
  · subst hk
    simp [withdraw, line, gate, Gate.without, h]
  · simp [withdraw, line, gate, hk, Table.find?_insert_of_ne _ _ (place_ne hk _ _)]

theorem crowd_withdraw (h : l.current.find? k = some n) (k' : κ) (t : τ) :
    (l.withdraw (k, n) t).crowd k' = if k' = k then (l.crowd k).erase t else l.crowd k' := by
  by_cases hk : k' = k
  · subst hk
    simp [withdraw, crowd, gate, Gate.without, h]
  · simp [withdraw, crowd, gate, hk, Table.find?_insert_of_ne _ _ (place_ne hk _ _)]

end LockTable

end StreamStore
