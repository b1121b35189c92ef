import StreamStore.Storage.Cursor
import StreamStore.Storage.Extent

/-!
# Headers files

A headers file is a run of header records.  Records are appended in order; they are read from a
position on, at most as many as asked for, and never more than were whole when the file was
opened.  A token of cancellation is looked at before each record.
-/

namespace StreamStore

/-- How often a token of cancellation is still looked at before it reads as cancelled; `none` for
one that never is. -/
abbrev Patience := Option Nat

namespace Patience

/-- The patience of a token that is cancelled already, or never is. -/
def ofCancelled (cancelled : Bool) : Patience := if cancelled then some 0 else none

/-- The patience left after one more look, `none` when that look finds the token cancelled. -/
def look : Patience → Option Patience
  | none => some none
  | some 0 => none
  | some (n + 1) => some (some n)

end Patience

/-- The records ahead of a reader. -/
inductive PendingHeaders
  /-- A number of records of an opened file. -/
  | stored (cursor : Cursor) (left : Nat)
  /-- Records handed in by the caller. -/
  | given (headers : List HeaderRecord)
deriving DecidableEq, Repr

namespace PendingHeaders

def none : PendingHeaders := given []

def size : PendingHeaders → Nat
  | stored _ left => left
  | given headers => headers.length

/-- The next record.  One from a file must be readable and make sense; a failure leaves nothing
ahead. -/
def next (d : Disk) : PendingHeaders → Option (Except StorageFault HeaderRecord × PendingHeaders)
  | stored _ 0 => .none
  | stored cursor (left + 1) =>
    match cursor.read d HeaderRecord.size with
    | .error fault => some (.error fault, none)
    | .ok (record, cursor) =>
      let header := HeaderRecord.decode record
      match header.validate maxEventTypeLength with
      | .error fault => some (.error fault, none)
      | .ok () => some (.ok header, stored cursor left)
  | given [] => .none
  | given (header :: headers) => some (.ok header, given headers)

end PendingHeaders

namespace HeadersFile

/-- The bytes of headers up to the first look that finds the token cancelled. -/
def layOut (patience : Patience) : List HeaderRecord → Bytes × Except StorageFault Unit
  | [] => ([], .ok ())
  | header :: headers =>
    match patience.look with
    | none => ([], .error .cancelled)
    | some patience =>
      let (bytes, result) := layOut patience headers
      (header.encode ++ bytes, result)

/-- Append headers in order.  Those written before a cancellation stay. -/
def append (d : Disk) (extent : Extent) (headers : List HeaderRecord) (patience : Patience) :
    Except StorageFault Unit × Disk :=
  match d.openForWriting extent.headers with
  | .error fault => (.error (.io (.disk fault)), d)
  | .ok (content, d) =>
    let (bytes, result) := layOut patience headers
    let (written, d) := d.extend extent.headers content bytes
    (match written with
      | .ok () => result
      | .error fault => .error (.io (.disk fault)), d)

/-- Where a read of at most `take` records from `skip` on ends in a file of `total` records. -/
def stop (skip : Nat) (take : Option Nat) (total : Nat) : Nat :=
  match take with
  | some take => min (skip + take) total
  | none => total

/-- The records a read has ahead of it in an opened file. -/
def ahead (d : Disk) (source : Opened) (skip take : Option Nat) : PendingHeaders :=
  let total := d.lengthOf source / HeaderRecord.size
  let start := skip.getD 0
  .stored { source, position := start * HeaderRecord.size } (stop start take total - start)

/-- The records a read has ahead of it; a missing file has none. -/
def «open» (d : Disk) (extent : Extent) (skip take : Option Nat) :
    Except StorageFault PendingHeaders :=
  match d.open? extent.headers with
  | .ok (some source) => .ok (ahead d source skip take)
  | .ok none => .ok .none
  | .error fault => .error (.io (.disk fault))

end HeadersFile

end StreamStore
