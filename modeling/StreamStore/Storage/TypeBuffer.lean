import StreamStore.Event.Basic
import StreamStore.Table

/-!
# Type buffers

The fixed-width form of an event's type name on disk: the UTF-8 bytes of the longest leading part
that fits, zeros up to the full width, and the count of the bytes in use.  Writers remember the
buffers of recent names.
-/

namespace StreamStore

/-- The fixed-width form of a type name. -/
structure TypeBuffer where
  bytes : Bytes
  /-- How many bytes are in use. -/
  used : Nat
deriving DecidableEq, Repr

namespace TypeBuffer

/-- The buffer of a type name.  One that is too long is cut at the last place before the limit that
is not inside a character. -/
def ofType (type : String) : TypeBuffer :=
  let name := Utf8.encode type.toList
  let used := Utf8.lastBoundary name (min name.length maxEventTypeLength)
  ⟨name.take used ++ List.replicate (maxEventTypeLength - used) 0, used⟩

@[simp] theorem length_bytes_ofType (type : String) :
    (ofType type).bytes.length = maxEventTypeLength := by
  have hle := Utf8.lastBoundary_le (Utf8.encode type.toList)
    (min (Utf8.encode type.toList).length maxEventTypeLength)
  simp only [ofType, List.length_append, List.length_take, List.length_replicate]
  omega

theorem used_ofType_le (type : String) : (ofType type).used ≤ maxEventTypeLength :=
  Nat.le_trans (Utf8.lastBoundary_le ..) (Nat.min_le_right ..)

end TypeBuffer

abbrev TypeCache := Table String TypeBuffer

namespace TypeCache

/-- How many buffers are remembered before all are forgotten. -/
def limit : Nat := 1024

/-- The buffer of a type name, remembered from now on. -/
def bufferOf (cache : TypeCache) (type : String) : TypeBuffer × TypeCache :=
  match cache.find? type with
  | some buffer => (buffer, cache)
  | none =>
    let buffer := TypeBuffer.ofType type
    let kept : TypeCache := if limit ≤ cache.size then {} else cache
    (buffer, kept.insert type buffer)

def Sound (cache : TypeCache) : Prop :=
  ∀ type buffer, cache.find? type = some buffer → buffer = TypeBuffer.ofType type

theorem sound_empty : Sound {} := by
  intro type buffer h
  cases h

theorem bufferOf_fst {cache : TypeCache} (hcache : cache.Sound) (type : String) :
    (cache.bufferOf type).1 = TypeBuffer.ofType type := by
  unfold bufferOf
  split
  · rename_i buffer h
    exact hcache type buffer h
  · rfl

theorem sound_bufferOf {cache : TypeCache} (hcache : cache.Sound) (type : String) :
    (cache.bufferOf type).2.Sound := by
  unfold bufferOf
  split
  · exact hcache
  · intro other buffer h
    simp only [Table.find?_insert] at h
    split at h
    · rename_i heq
      rw [heq]
      exact (Option.some.inj h).symm
    · split at h
      · cases h
      · exact hcache other buffer h

end TypeCache

end StreamStore
