import StreamStore.Storage.Sequence

/-!
# The archive

All streams on one disk.  Appending writes data records first and headers second, so that a header
is there only once the bytes it points at are.  A stream with either file missing reads as empty.
-/

namespace StreamStore

/-- All streams below a base directory of a disk. -/
structure Archive where
  base : Path
  disk : Disk
  cache : TypeCache := {}
  /-- How many rounds a removal may take. -/
  deleteAttempts : Nat := 3

namespace Archive

/-- The extent of a stream, whether or not its files are there. -/
def extent (a : Archive) (s : StreamId) : Extent := Extent.ofStream a.base s

/-- Append events to a stream. -/
def append (a : Archive) (s : StreamId) (events : List Event) (patience : Patience) :
    Except StorageFault Unit × Archive :=
  if events.isEmpty then (.ok (), a)
  else
    match Extent.prepare a.disk a.base s with
    | .error fault => (.error fault, a)
    | .ok (extent, disk) =>
      let (written, disk, cache) := DataFile.append disk extent a.cache events patience
      match written with
      | .error fault => (.error fault, { a with disk, cache })
      | .ok (headers, patience) =>
        let (result, disk) := HeadersFile.append disk extent headers patience
        (result, { a with disk, cache })

/-- Append events to a stream until the disk fails after a number of bytes, or before: first come
the bytes of the data file, then those of the headers file, which is made only once all data is
written. -/
def appendCut (a : Archive) (s : StreamId) (events : List Event) (bytes : Nat) :
    Except StorageFault Unit × Archive :=
  match Extent.prepare a.disk a.base s with
  | .error fault => (.error fault, a)
  | .ok (extent, disk) =>
    match disk.openForWriting extent.data with
    | .error fault => (.error (.io (.disk fault)), { a with disk })
    | .ok (content, disk) =>
      let (laid, result) := DataFile.layOut none content.length a.cache events
      let (written, disk) := disk.extend extent.data content (laid.bytes.take bytes)
      let a := { a with disk, cache := laid.cache }
      match written, result with
      | .error fault, _ => (.error (.io (.disk fault)), a)
      | .ok _, .error fault => (.error fault, a)
      | .ok _, .ok _ =>
        if bytes < laid.bytes.length then (.error (.io (.disk .refused)), a)
        else
          match disk.openForWriting extent.headers with
          | .error fault => (.error (.io (.disk fault)), a)
          | .ok (content, disk) =>
            let records :=
              (laid.headers.flatMap HeaderRecord.encode).take (bytes - laid.bytes.length)
            (.error (.io (.disk .refused)),
              { a with disk := (disk.extend extent.headers content records).2 })

/-- The events of a stream from position `skip` on, at most `take` of them.  Only whether the files
are there is looked at now. -/
def read (a : Archive) (s : StreamId) (skip take : Option Nat) :
    Except StorageFault EventSequence :=
  match Extent.find? a.disk a.base s with
  | .error fault => .error fault
  | .ok none => .ok .empty
  | .ok (some extent) =>
    match a.disk.exists? extent.data with
    | .error fault => .error (.io (.disk fault))
    | .ok false => .ok .empty
    | .ok true => .ok (.unopened extent (.file skip take))

/-- The events that a read gives at once, or its first failure. -/
def readAll (a : Archive) (s : StreamId) (skip take : Option Nat) (cancelled : Bool) :
    Except StorageFault (List Event) :=
  (a.read s skip take).bind fun sequence => sequence.collect a.disk cancelled

/-- The number of events of a stream that has an extent. -/
def length (a : Archive) (s : StreamId) : Except StorageFault (Option Nat) :=
  match Extent.find? a.disk a.base s with
  | .error fault => .error fault
  | .ok none => .ok none
  | .ok (some extent) => (Extent.length a.disk extent).map some

/-- The streams that have an extent, of one type or of all. -/
def streams (a : Archive) (type : Option StreamType) : Except StorageFault (List StreamId) :=
  (Extent.all a.disk a.base type).map fun extents => extents.map (·.stream)

/-- Remove the files of a stream. -/
def delete (a : Archive) (s : StreamId) (weather : Nat → Interference) :
    Except StorageFault Unit × Archive :=
  let (result, disk) := Extent.remove a.disk (a.extent s) a.deleteAttempts weather
  (result, { a with disk })

end Archive

end StreamStore
