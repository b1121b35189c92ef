/-!
# Pages

A page is a bounded slice of a stream's events.  It runs forward from a position or backward from
one, or backward from the last event; a position outside the stream gives an empty page.
-/

namespace StreamStore

/-- The direction in which a page runs. -/
inductive Direction
  | forward
  | backward
deriving DecidableEq, Repr

namespace Page

/-- The position that stands for the last event when reading backward. -/
def last : Int := 0x7FFF_FFFF_FFFF_FFFF

/-- The index a backward page starts at, if the stream has it. -/
def backwardStart? (length : Nat) (start : Int) : Option Nat :=
  if start = last then (if length = 0 then none else some (length - 1))
  else if 0 ≤ start ∧ start < length then some start.toNat
  else none

/-- At most `limit` events from a position on in a direction. -/
def slice {α : Type} (events : List α) (start : Int) (direction : Direction) (limit : Nat) :
    List α :=
  match direction with
  | .forward => (events.drop start.toNat).take limit
  | .backward =>
    match backwardStart? events.length start with
    | some index => (events.take (index + 1)).reverse.take limit
    | none => []

theorem length_slice_le {α : Type} (events : List α) (start : Int) (direction : Direction)
    (limit : Nat) : (slice events start direction limit).length ≤ limit := by
  unfold slice
  split
  · simp only [List.length_take]
    omega
  · split
    · simp only [List.length_take]
      omega
    · simp

end Page

end StreamStore
