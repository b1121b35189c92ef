import StreamStore.Stream.Id
import StreamStore.Table

/-!
# Writes on their way to disk

The backlog counts, for each stream, the batches that were announced and are not dealt with yet.
A stream without such batches is idle and has no count.

Who waits for a stream, or for all streams, to be idle is told whenever a batch is done with.  A
waiter takes note of how often that happened before it looks at the counts, and looks again when
it happened since; so no news between its look and its sleep is lost.
-/

namespace StreamStore

/-- The batches that were announced and are not dealt with. -/
structure Backlog where
  /-- The count of each stream that has such batches. -/
  counts : Table StreamId Nat := {}
  /-- How often the waiters were told to look again. -/
  news : Nat := 0
deriving Repr

/-- What a task may wait for. -/
inductive Quiet
  | stream (s : StreamId)
  | everything
deriving DecidableEq, Repr

/-- How far a waiter has come. -/
inductive IdleWait
  /-- About to take note of the news. -/
  | arriving
  /-- About to look at the counts, with the news noted before. -/
  | looking (noted : Nat)
  /-- Asleep until there is other news than noted. -/
  | asleep (noted : Nat)
  | done
deriving DecidableEq, Repr

namespace Backlog

instance : Inhabited Backlog := ⟨{}⟩

def count (b : Backlog) (s : StreamId) : Nat := (b.counts.find? s).getD 0

def total (b : Backlog) : Nat := b.counts.values.foldr (· + ·) 0

def isIdle (b : Backlog) (s : StreamId) : Bool := !b.counts.contains s

def isEmpty (b : Backlog) : Bool := b.counts.size = 0

def isQuiet (b : Backlog) : Quiet → Bool
  | .stream s => b.isIdle s
  | .everything => b.isEmpty

def announce (b : Backlog) (s : StreamId) : Backlog :=
  { b with counts := b.counts.insert s (b.count s + 1) }

/-- Count a batch of a stream off, if it has one. -/
def countOff (b : Backlog) (s : StreamId) : Backlog :=
  { b with counts := match b.counts.find? s with
      | some n => if n ≤ 1 then b.counts.erase s else b.counts.insert s (n - 1)
      | none => b.counts }

def notify (b : Backlog) : Backlog := { b with news := b.news + 1 }

/-- A batch is dealt with, whether or not it reached the disk. -/
def settle (b : Backlog) (s : StreamId) : Backlog := (b.countOff s).notify

theorem count_announce (b : Backlog) (s s' : StreamId) :
    (b.announce s).count s' = if s' = s then b.count s + 1 else b.count s' := by
  by_cases h : s' = s <;> simp [announce, count, Table.find?_insert, h]

theorem count_settle (b : Backlog) (s s' : StreamId) :
    (b.settle s).count s' = if s' = s then b.count s - 1 else b.count s' := by
  cases hc : b.counts.find? s with
  | none => by_cases h : s' = s <;> simp [settle, notify, countOff, count, hc, h]
  | some n =>
    by_cases hn : n ≤ 1
    · by_cases h : s' = s
      · simp [settle, notify, countOff, count, hc, h, hn]
      · simp [settle, notify, countOff, count, hc, h, hn, Table.find?_erase]
    · by_cases h : s' = s <;>
        simp [settle, notify, countOff, count, hc, h, hn, Table.find?_insert]

end Backlog

/-- One move of a waiter, `none` while there is nothing to do. -/
def IdleWait.step (b : Backlog) (want : Quiet) : IdleWait → Option IdleWait
  | arriving => some (looking b.news)
  | looking noted => some (if b.isQuiet want then done else asleep noted)
  | asleep noted => if noted = b.news then none else some arriving
  | done => none

def IdleWait.run (b : Backlog) (want : Quiet) (w : IdleWait) : IdleWait :=
  let step (w : IdleWait) := (w.step b want).getD w
  step (step (step w))

end StreamStore
