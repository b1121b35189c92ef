/-!
# Event identities

An event is identified within its stream by a clock reading and a number that separates events of
one reading.  `EventId.nextAfter` gives the identity that follows another one: it never goes
backwards, whatever the clock says.
-/

namespace StreamStore

/-- The identity of an event within its stream. -/
structure EventId where
  timestamp : Int64
  sequence : UInt16
deriving DecidableEq, Repr

namespace EventId

/-- The order of identities: by timestamp, then by sequence. -/
def compare (a b : EventId) : Ordering :=
  (Ord.compare a.timestamp.toInt b.timestamp.toInt).then
    (Ord.compare a.sequence.toNat b.sequence.toNat)

instance : Ord EventId := ⟨compare⟩

instance : LT EventId where
  lt a b := a.timestamp < b.timestamp ∨ a.timestamp = b.timestamp ∧ a.sequence < b.sequence

instance (a b : EventId) : Decidable (a < b) :=
  inferInstanceAs (Decidable (a.timestamp < b.timestamp ∨
    a.timestamp = b.timestamp ∧ a.sequence < b.sequence))

def first (now : Int64) : EventId := ⟨now, 0⟩

/-- The identity that follows another one at a clock reading.  A later reading starts at sequence
zero; otherwise the sequence counts up and rolls over into the next timestamp. -/
def nextAfter (previous : EventId) (now : Int64) : EventId :=
  if previous.timestamp < now then ⟨now, 0⟩
  else if previous.sequence.toNat + 1 < UInt16.size then
    ⟨previous.timestamp, previous.sequence + 1⟩
  else ⟨previous.timestamp + 1, 0⟩

/-- The identities given one after another at clock readings. -/
def chain : List Int64 → List EventId
  | [] => []
  | now :: readings => first now :: (readings.foldl
      (fun (last, given) now => (last.nextAfter now, given ++ [last.nextAfter now]))
      (first now, [])).2

def display (e : EventId) : String := s!"{e.timestamp.toInt}#{e.sequence.toNat}"

end EventId

end StreamStore
