import StreamStore.Storage.HeadersFile
import StreamStore.Storage.TypeBuffer

/-!
# Data files

A data file is a run of records, each a type buffer followed by a payload.  Appending events gives
the headers that describe where their records are; those are written elsewhere.  Reading goes from
header to header and moves within the file only where two records are not side by side.
-/

namespace StreamStore

/-- The result of laying events out. -/
structure Laid where
  bytes : Bytes
  headers : List HeaderRecord
  cache : TypeCache

/-- The events a reader has ahead of it. -/
structure PendingEvents where
  headers : PendingHeaders
  /-- The data file, `none` if it is missing. -/
  data : Option Cursor
  /-- Where the cursor is, once a record was read. -/
  position : Option Nat := none

namespace DataFile

def maxPayload : Nat := 1 <<< 31 - 1

/-- The header of an event whose record starts at an offset. -/
def header (offset : Nat) (buffer : TypeBuffer) (event : Event) : HeaderRecord where
  timestamp := event.id.timestamp
  sequence := Int32.ofNat event.id.sequence.toNat
  typeLength := Int16.ofNat buffer.used
  dataOffset := Int64.ofNat offset
  dataLength := Int32.ofNat event.data.length

/-- The records of events from an offset on, up to the first that is too long or the first look
that finds the token cancelled.  Cancelling keeps the records before; a payload that is too long
discards them.  Some of these may have gone through a buffer into the file by then, as a tail that
no header describes: such a tail is not modelled. -/
def layOut (patience : Patience) (offset : Nat) (cache : TypeCache) :
    List Event → Laid × Except StorageFault Patience
  | [] => (⟨[], [], cache⟩, .ok patience)
  | event :: events =>
    match patience.look with
    | none => (⟨[], [], cache⟩, .error .cancelled)
    | some patience =>
      if maxPayload < event.data.length then
        (⟨[], [], cache⟩, .error (.io (.payloadTooLarge event.data.length)))
      else
        let (buffer, cache) := cache.bufferOf event.type
        let record := buffer.bytes ++ event.data
        let (laid, result) := layOut patience (offset + record.length) cache events
        match result with
        | .error (.io fault) => (⟨[], [], laid.cache⟩, .error (.io fault))
        | result =>
          (⟨record ++ laid.bytes, header offset buffer event :: laid.headers, laid.cache⟩, result)

/-- Append events; the answer is the headers that describe them.  Records written before a
cancellation stay in the file, described by no header. -/
def append (d : Disk) (extent : Extent) (cache : TypeCache) (events : List Event)
    (patience : Patience) :
    Except StorageFault (List HeaderRecord × Patience) × Disk × TypeCache :=
  match d.openForWriting extent.data with
  | .error fault => (.error (.io (.disk fault)), d, cache)
  | .ok (content, d) =>
    let (laid, result) := layOut patience content.length cache events
    let (written, d) := d.extend extent.data content laid.bytes
    (match written with
      | .ok () => result.map fun patience => (laid.headers, patience)
      | .error fault => .error (.io (.disk fault)), d, laid.cache)

/-- Place a cursor at an offset, unless it is known to be there. -/
def place (cursor : Cursor) (position : Option Nat) (offset : Nat) : Except StorageFault Cursor :=
  if position = some offset then .ok cursor else cursor.seek offset

/-- The type name in a type buffer, of which a header says how many bytes are in use. -/
def typeName (header : HeaderRecord) (buffer : Bytes) : Except StorageFault String :=
  let used := header.typeLength.toInt
  if used < 0 ∨ (maxEventTypeLength : Int) < used then
    .error (.corrupt (.typeLength used))
  else
    match Utf8.decode (buffer.take used.toNat) with
    | .ok cs => .ok (String.ofList cs)
    | .error fault => .error (.corrupt (.typeNotUtf8 fault))

/-- The event that a header describes, read from the data file, and the file's cursor behind it. -/
def readEvent (d : Disk) (cursor : Cursor) (position : Option Nat) (header : HeaderRecord) :
    Except StorageFault (Event × Cursor × Nat) := do
  let offset := header.dataOffset.toUInt64.toNat
  let cursor ← place cursor position offset
  let (buffer, cursor) ← cursor.read d maxEventTypeLength
  let type ← typeName header buffer
  if header.dataLength.toInt < 0 then
    throw (.corrupt (.negativeLength header.dataLength.toInt))
  let length := header.dataLength.toInt.toNat
  let (data, cursor) ← cursor.read d length
  let id ← header.eventId
  return (⟨id, type, data⟩, cursor, offset + (maxEventTypeLength + length))

end DataFile

namespace PendingEvents

def none : PendingEvents := { headers := .none, data := .none }

/-- Read the next event.  A failure leaves nothing ahead. -/
def next (d : Disk) (p : PendingEvents) (cancelled : Bool) :
    Option (Except StorageFault Event × PendingEvents) :=
  if p.headers.size ≠ 0 ∧ cancelled then some (.error .cancelled, none)
  else
    match p.headers.next d with
    | .none => .none
    | some (.error fault, _) => some (.error fault, none)
    | some (.ok header, headers) =>
      match p.data with
      | .none => some (.error (.corrupt .dataFileMissing), none)
      | some cursor =>
        match DataFile.readEvent d cursor p.position header with
        | .error fault => some (.error fault, none)
        | .ok (event, cursor, position) => some (.ok event, ⟨headers, some cursor, some position⟩)

/-- Up to `count` events, or the first failure. -/
def collectUpTo (d : Disk) (cancelled : Bool) :
    Nat → PendingEvents → Except StorageFault (List Event)
  | 0, _ => .ok []
  | count + 1, p =>
    match p.next d cancelled with
    | .none => .ok []
    | some (.error fault, _) => .error fault
    | some (.ok event, p) => (collectUpTo d cancelled count p).map (event :: ·)

/-- All events ahead, or the first failure. -/
def collect (d : Disk) (p : PendingEvents) (cancelled : Bool) : Except StorageFault (List Event) :=
  collectUpTo d cancelled p.headers.size p

end PendingEvents

end StreamStore
