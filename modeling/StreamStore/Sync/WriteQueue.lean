import StreamStore.Event.Basic
import StreamStore.Refusal
import StreamStore.Stream.Id

/-!
# The write queue

A first-in first-out queue of batches on their way to disk.  Closing it lets in nothing more, and
what is in it is still delivered; without a receiver nothing is let in either.
-/

namespace StreamStore

/-- Events of one stream that go to disk together. -/
structure Batch where
  stream : StreamId
  events : List Event
deriving DecidableEq, Repr

/-- A queue of batches. -/
structure WriteQueue where
  /-- How many batches it holds at most, if that is bounded. -/
  capacity : Option Nat := none
  batches : List Batch := []
  closed : Bool := false
  /-- Whether the receiving end is still there. -/
  received : Bool := true
deriving DecidableEq, Repr

/-- What the receiving end of a queue sees. -/
inductive Delivery
  | batch (b : Batch)
  /-- Nothing is in the queue now. -/
  | empty
  /-- The queue is closed and all was delivered. -/
  | finished
  /-- There is no receiving end. -/
  | unreceived
deriving DecidableEq, Repr

namespace WriteQueue

/-- An empty queue; a bound of zero counts as one. -/
def ofCapacity (capacity : Option Nat) : WriteQueue := { capacity := capacity.map (max 1) }

/-- Whether a queue holds as many batches as it may. -/
def isFull (q : WriteQueue) : Bool :=
  match q.capacity with
  | some n => n ≤ q.batches.length
  | none => false

/-- Why a queue would not take a batch. -/
def refusal? (q : WriteQueue) : Option QueueRefusal :=
  if q.closed ∨ !q.received then some .closed
  else if q.isFull then some .full
  else none

/-- Hand a batch in without waiting. -/
def send (q : WriteQueue) (b : Batch) : Except QueueRefusal WriteQueue :=
  match q.refusal? with
  | some refusal => .error refusal
  | none => .ok { q with batches := q.batches ++ [b] }

/-- Take the next batch out. -/
def receive (q : WriteQueue) : Delivery × WriteQueue :=
  if !q.received then (.unreceived, q)
  else
    match q.batches with
    | b :: rest => (.batch b, { q with batches := rest })
    | [] => (if q.closed then .finished else .empty, q)

/-- Take up to a number of batches out. -/
def receiveUpTo (q : WriteQueue) : Nat → List Batch × WriteQueue
  | 0 => ([], q)
  | n + 1 =>
    match q.receive with
    | (.batch b, q) =>
      let (rest, q) := q.receiveUpTo n
      (b :: rest, q)
    | (_, q) => ([], q)

def close (q : WriteQueue) : WriteQueue := { q with closed := true }

/-- Give the receiving end up, with all that is in the queue. -/
def abandon (q : WriteQueue) : WriteQueue := { q with received := false, batches := [] }

end WriteQueue

end StreamStore
