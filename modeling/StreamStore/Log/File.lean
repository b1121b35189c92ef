import StreamStore.Log.Settings
import StreamStore.Storage.Disk

/-!
# Log files

How a log file is named, and what beginning it leaves in the log directory.  A stem may hold
slashes, so a file may come to stand below the log directory or outside of it; directories on the
way are made.
-/

namespace StreamStore

/-- What a log file meets when it is begun. -/
structure LogSite where
  /-- Whether the log directory can hold files. -/
  writable : Bool := true
  /-- The day, by its year, month and day. -/
  day : String := "1970-01-01"
  /-- The hour of the day, by two digits. -/
  hour : String := "00"
deriving DecidableEq, Repr

/-- What beginning a log file leaves in the log directory. -/
structure LogEntries where
  /-- The names in the log directory, in order. -/
  names : List String
  /-- Whether the file itself is in the log directory, not in a directory below it or elsewhere. -/
  holdsFile : Bool
deriving DecidableEq, Repr

namespace LogFile

/-- The parts of the file's name: the stem if there is one, the date if files follow each other, and
`log`. -/
def nameParts (f : LogFile) (site : LogSite) : List String :=
  (if f.stem = "" then [] else [f.stem])
    ++ (match f.rotation with
      | .daily => [site.day]
      | .hourly => [site.day ++ "-" ++ site.hour]
      | .never => [])
    ++ ["log"]

def name (f : LogFile) (site : LogSite) : String := ".".intercalate (f.nameParts site)

/-- How many bytes a path may have. -/
def maxPath : Nat := 4095

/-- The places on a way from a place below the log directory, each as the path from there; a place
outside is unknown. -/
def places (place : Option Path) : List String → List (Option Path)
  | [] => []
  | name :: rest =>
    let next :=
      if name = ".." then place.bind fun names => if names = [] then none else some names.dropLast
      else place.map (· ++ [name])
    next :: places next rest

/-- What beginning the file leaves in the log directory, if it can be begun. -/
def begin? (f : LogFile) (site : LogSite) : Option LogEntries :=
  let name := f.name site
  let way := (name.splitOn "/").filter fun part => part ≠ "" ∧ part ≠ "."
  let start := if name.startsWith "/" then none else some []
  let places := places start way
  let place := places.getLast?.join
  let directories := places.dropLast.filterMap id
  if start.isSome ∧ !site.writable ∨ maxPath < name.utf8ByteSize ∨ !way.all Disk.isName
    ∨ place.any (directories.contains ·) then none
  else
    let tops := ((directories ++ place.toList).filterMap List.head?).eraseDups
    some ⟨tops.mergeSort fun a b => decide (a ≤ b), place.any (·.length = 1)⟩

end LogFile

end StreamStore
