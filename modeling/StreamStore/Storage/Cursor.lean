import StreamStore.Storage.Disk

/-!
# Reading a file from front to back

A cursor reads an opened file, whatever it holds by then.  Short reads are served from a buffer that
is filled with as many bytes as it holds whenever it runs out, so changes of the file go unnoticed
for the bytes that are in it; of a long read the file itself serves what the buffer does not hold.
A cursor moves forward as it reads and can be placed anywhere, also past the end, which empties the
buffer.  A read that cannot have all its bytes fails.
-/

namespace StreamStore

/-- An opened file with the bytes that were read ahead. -/
structure Cursor where
  source : Opened
  /-- Where the bytes behind the buffer start. -/
  position : Nat := 0
  /-- Bytes that were read ahead. -/
  buffer : Bytes := []
deriving DecidableEq, Repr

namespace Cursor

def maxPosition : Nat := 1 <<< 63 - 1

/-- How many bytes the buffer holds. -/
def bufferSize : Nat := 8192

def maxChunk : Nat := 1 <<< 21

/-- Of the bytes of a read that the buffer does not hold, how many come straight from the file: all
whole chunks, and the rest unless it is shorter than the buffer. -/
def straight (count : Nat) : Nat :=
  if count % maxChunk < bufferSize then count - count % maxChunk else count

def seek (c : Cursor) (position : Nat) : Except StorageFault Cursor :=
  if maxPosition < position then .error (.io (.disk .invalidPosition))
  else .ok { c with position, buffer := [] }

/-- The next `n` bytes, all of them or a failure. -/
def read (c : Cursor) (d : Disk) (n : Nat) : Except StorageFault (Bytes × Cursor) :=
  if n ≤ c.buffer.length then .ok (c.buffer.take n, { c with buffer := c.buffer.drop n })
  else
    match c.source with
    | .directory => .error (.io (.disk .isDirectory))
    | .file .. =>
      let missing := n - c.buffer.length
      let long := straight missing
      let ahead := (d.contentOf c.source).drop c.position
      let last := if long < missing then (ahead.drop long).take bufferSize else []
      let bytes := c.buffer ++ ahead.take long ++ last.take (missing - long)
      if bytes.length < n then .error (.io .earlyEnd)
      else
        .ok (bytes, { c with
          position := c.position + long + last.length
          buffer := last.drop (missing - long) })

end Cursor

end StreamStore
