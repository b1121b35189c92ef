import StreamStore.Storage.Disk
import StreamStore.Storage.HeaderRecord
import StreamStore.Stream.Id

/-!
# Extents

The pair of files that hold a stream: a headers file and a data file side by side in the directory
of the stream's type.  There is no catalogue; the streams on a disk are found again by the names
of the headers files.
-/

namespace StreamStore

/-- The pair of files that hold a stream. -/
structure Extent where
  stream : StreamId
  headers : Path
  data : Path
deriving DecidableEq, Repr

/-- Why something outside the modelled disk refuses to remove a file that is there.  It never says
that the file is missing. -/
structure Hindrance where
  fault : DiskFault
  present : fault ≠ .notFound := by decide
deriving DecidableEq, Repr

/-- What stands in the way of two removals, of those files that are there. -/
structure Interference where
  headers : Option Hindrance := none
  data : Option Hindrance := none
deriving DecidableEq, Repr

namespace Extent

/-- The number of the only extent a stream has. -/
def number : Nat := 0

def headersSuffix : String := s!"_{number}_headers.dat"

def dataSuffix : String := s!"_{number}_data.dat"

def headersName (s : StreamId) : String := s.key.simple ++ headersSuffix

def dataName (s : StreamId) : String := s.key.simple ++ dataSuffix

def typeDirectory (base : Path) (type : StreamType) : Path := base ++ [type.text]

/-- The extent of a stream, whether or not its files are there. -/
def ofStream (base : Path) (s : StreamId) : Extent where
  stream := s
  headers := typeDirectory base s.type ++ [headersName s]
  data := typeDirectory base s.type ++ [dataName s]

/-- The key in the name of a headers file. -/
def keyOfHeadersName? (name : String) : Option Uuid :=
  let cs := name.toList
  let stem := cs.take 32
  if cs.drop 32 = headersSuffix.toList ∧ stem.all Hex.isDigit then Uuid.ofDigits? stem else none

/-- A name added to a path written as text: a slash comes between, unless the path is empty or
ends in one. -/
def joinText (path name : String) : String :=
  if path.isEmpty then name
  else if path.toList.getLast? = some '/' then path ++ name
  else path ++ "/" ++ name

/-- The path of one of a stream's files, written as text. -/
def pathText (base : String) (s : StreamId) (name : String) : String :=
  joinText (joinText base s.type.text) name

/-- The extent of a stream if its headers file is there. -/
def find? (d : Disk) (base : Path) (s : StreamId) : Except StorageFault (Option Extent) :=
  let extent := ofStream base s
  match d.exists? extent.headers with
  | .ok true => .ok (some extent)
  | .ok false => .ok none
  | .error fault => .error (.io (.disk fault))

/-- The extent of a stream in a directory that is there; only a stream without a headers file
makes the directory. -/
def prepare (d : Disk) (base : Path) (s : StreamId) : Except StorageFault (Extent × Disk) :=
  let extent := ofStream base s
  match d.exists? extent.headers with
  | .ok true => .ok (extent, d)
  | .ok false =>
    match d.makeDirectories (typeDirectory base s.type) with
    | .ok d => .ok (extent, d)
    | .error fault => .error (.io (.disk fault))
  | .error fault => .error (.io (.disk fault))

/-- The number of whole header records of an extent. -/
def length (d : Disk) (extent : Extent) : Except StorageFault Nat :=
  match d.length extent.headers with
  | .ok bytes => .ok (bytes / HeaderRecord.size)
  | .error .notFound => .ok 0
  | .error fault => .error (.io (.disk fault))

/-- The stream types that name a directory below the base directory. -/
def types (d : Disk) (base : Path) : Except StorageFault (List StreamType) :=
  match d.entries base with
  | .ok entries => .ok (entries.filterMap fun
      | (name, .directory) => (StreamType.ofString name).toOption
      | (_, .file _) => none)
  | .error .notFound => .ok []
  | .error fault => .error (.io (.disk fault))

/-- The streams of a type that have a headers file. -/
def ofType (d : Disk) (base : Path) (type : StreamType) : Except StorageFault (List Extent) :=
  match d.entries (typeDirectory base type) with
  | .ok entries => .ok (entries.filterMap fun (name, _) =>
      (keyOfHeadersName? name).map fun key => ofStream base ⟨key, type⟩)
  | .error .notFound => .ok []
  | .error fault => .error (.io (.disk fault))

/-- The extents on a disk, of one type or of all, in the order of their streams. -/
def all (d : Disk) (base : Path) (type : Option StreamType) : Except StorageFault (List Extent) :=
  do
    let types ← match type with
      | some type => .ok [type]
      | none => types d base
    let extents ← types.mapM (ofType d base)
    return extents.flatten.mergeSort fun a b => (a.stream.compare b.stream).isLE

/-- Remove a file.  One that is missing counts as removed, whatever may stand in the way of
removing one that is there. -/
def removeIfThere (d : Disk) (p : Path) (hindrance : Option Hindrance) :
    Except IoFault Unit × Disk :=
  match d.removeFile p with
  | .ok without =>
    match hindrance with
    | none => (.ok (), without)
    | some hindrance => (.error (.disk hindrance.fault), d)
  | .error .notFound => (.ok (), d)
  | .error fault => (.error (.disk fault), d)

/-- Try to remove both files; of two failures the headers file's counts. -/
def removeOnce (d : Disk) (extent : Extent) (weather : Interference) :
    Except IoFault Unit × Disk :=
  let (headers, d) := removeIfThere d extent.headers weather.headers
  let (data, d) := removeIfThere d extent.data weather.data
  match headers with
  | .ok () => (data, d)
  | .error fault => (.error fault, d)

/-- Up to `left + 1` rounds of removal, of `attempts` in all. -/
def removeRounds (extent : Extent) (attempts : Nat) (weather : Nat → Interference) :
    Nat → Disk → Except StorageFault Unit × Disk
  | left, d =>
    match removeOnce d extent (weather (attempts - 1 - left)), left with
    | (.ok (), d), _ => (.ok (), d)
    | (.error fault, d), 0 => (.error (.deleteFailed attempts fault), d)
    | (.error _, d), left + 1 => removeRounds extent attempts weather left d

/-- Remove both files in up to a number of rounds, at least one.  What a failed round removed
stays removed. -/
def remove (d : Disk) (extent : Extent) (attempts : Nat) (weather : Nat → Interference) :
    Except StorageFault Unit × Disk :=
  let attempts := max attempts 1
  removeRounds extent attempts weather (attempts - 1) d

end Extent

end StreamStore
