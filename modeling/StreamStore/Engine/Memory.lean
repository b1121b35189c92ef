import StreamStore.Engine.State

/-!
# Memory pressure

When the process is seen to use more memory than it may, a share of the resident streams is
evicted, rounded up to whole streams.
-/

namespace StreamStore

/-- How many of some streams a share of them is: rounded up, and no more than there are.  A share
that is not a number stands for all of them. -/
def victims (count : Nat) (share : Binary64) : Nat :=
  if share.isNaN then count
  else if share.isInfinite then (if share.negative then 0 else count)
  else min ((Binary64.ofInt count).mul share).ceil count

/-- Look at the memory in use, if it is known.  The answer is how many streams were evicted. -/
def Engine.checkMemory (e : Engine) (inUse : Option Nat) : Nat × Engine :=
  match inUse with
  | none => (0, e)
  | some bytes =>
    if bytes ≤ e.settings.maxProcessMemory then (0, e)
    else e.dropOldest (victims e.pool.cache.size e.settings.evictionShare)

theorem victims_le (count : Nat) (share : Binary64) : victims count share ≤ count := by
  unfold victims
  split
  · exact Nat.le_refl count
  · split
    · split
      · exact Nat.zero_le count
      · exact Nat.le_refl count
    · exact Nat.min_le_right ..

end StreamStore
