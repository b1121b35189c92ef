import StreamStore.Stream.Type
import StreamStore.Uuid

/-!
# Stream identities

A stream is addressed by a key within a type; the same key under two types names two streams.
Identities are ordered by key first, catalogues by type first.
-/

namespace StreamStore

/-- The identity of a stream. -/
structure StreamId where
  key : Uuid
  type : StreamType
deriving DecidableEq, Repr

/-- A stream with the number of its events. -/
structure StreamSummary where
  stream : StreamId
  eventCount : Nat
deriving DecidableEq, Repr

namespace StreamId

def display (s : StreamId) : String := s.type.text ++ "/" ++ s.key.simple

/-- The order of identities: by key, then by type. -/
def compare (a b : StreamId) : Ordering :=
  (Ord.compare a.key.toNat b.key.toNat).then (Ord.compare a.type.text b.type.text)

/-- The order of a catalogue: by type, then by key. -/
def compareInCatalogue (a b : StreamId) : Ordering :=
  (Ord.compare a.type.text b.type.text).then (Ord.compare a.key.toNat b.key.toNat)

end StreamId

end StreamStore
