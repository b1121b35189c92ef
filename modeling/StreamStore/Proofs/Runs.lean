import Mathlib.Data.List.Induction

/-!
# Runs

A run takes a state through some moves one after another, as long as each of them is possible.
What holds at the start and is kept by every move that is possible holds of all states of a run.
-/

namespace StreamStore

variable {σ μ : Type} {move : σ → μ → Option σ} {P : σ → Prop} {s s' : σ} {moves : List μ}

theorem foldlM_append_singleton (move : σ → μ → Option σ) (s : σ) (moves : List μ) (mv : μ) :
    (moves ++ [mv]).foldlM move s = (moves.foldlM move s).bind fun a => move a mv := by
  rw [List.foldlM_append]
  exact congrArg _ (funext fun a => bind_pure (move a mv))

/-- One run after another is a run. -/
theorem foldlM_trans {a b : σ} {more : List μ} (hfirst : moves.foldlM move s = some a)
    (hthen : more.foldlM move a = some b) : (moves ++ more).foldlM move s = some b := by
  rw [List.foldlM_append, hfirst]
  exact hthen

/-- What holds of no moves at the start, and of one move more after each move, holds of all moves of
a run. -/
theorem foldlM_moves_induction {P : List μ → σ → Prop} (hrun : moves.foldlM move s = some s')
    (hstart : P [] s)
    (hmove : ∀ (before : List μ) a mv b, before.foldlM move s = some a → P before a →
      move a mv = some b → P (before ++ [mv]) b) :
    P moves s' := by
  induction moves using List.reverseRecOn generalizing s' with
  | nil =>
      cases hrun
      exact hstart
  | append_singleton moves mv ih =>
      rw [foldlM_append_singleton] at hrun
      obtain ⟨a, ha, hlast⟩ := Option.bind_eq_some_iff.mp hrun
      exact hmove moves a mv s' ha (ih ha) hlast

/-- What holds at the start and after each move holds at all times of a run. -/
theorem foldlM_induction (hrun : moves.foldlM move s = some s') (hstart : P s)
    (hmove : ∀ (before : List μ) a mv b, before.foldlM move s = some a → P a →
      move a mv = some b → P b) :
    P s' :=
  foldlM_moves_induction (P := fun _ => P) hrun hstart hmove

end StreamStore
