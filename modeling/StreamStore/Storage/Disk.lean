import StreamStore.Storage.Fault
import StreamStore.Table

/-!
# Disks

A tree of directories and files, as far as the store can tell trees apart.  Every directory and
every file has a row under its path from the root; the root itself needs none.  Calls fail the way
an operating system's do: through a missing ancestor, an ancestor that is a file, or the wrong
kind of node at the end.

A file that was opened can still be read after it was removed, and another file that comes to stand
at its path is not it.  So a disk keeps the bytes of removed files, and an opened file is known by
its path and by how many files were removed from there before.
-/

namespace StreamStore

abbrev Path := List String

/-- What stands at a path. -/
inductive Node
  | directory
  | file (content : Bytes)
deriving DecidableEq, Repr

/-- A tree of directories and files. -/
structure Disk where
  nodes : Table Path Node := {}
  /-- The files that were removed, in this order, with the paths where they stood. -/
  removed : List (Path × Bytes) := []
deriving Repr

/-- What is opened for reading: a file, with the number of files that stood at its path before; a
directory opens, too. -/
inductive Opened
  | directory
  | file (path : Path) (earlier : Nat)
deriving DecidableEq, Repr

namespace Disk

instance : Inhabited Disk := ⟨{}⟩

/-- How many bytes the name of a directory or a file may have. -/
def maxName : Nat := 255

def isName (name : String) : Bool :=
  name.utf8ByteSize ≤ maxName && !name.toList.contains '\x00'

/-- How many bytes a file may have: as many as a signed offset can count. -/
def maxFile : Nat := 1 <<< 63 - 1

/-- The length that a directory reports. -/
def directoryLength : Nat := 4096

/-- The node at a path, if every ancestor were a directory. -/
def node? (d : Disk) (p : Path) : Option Node :=
  if p = [] then some .directory else d.nodes.find? p

/-- The proper ancestors of a path, from the root down. -/
def ancestors (p : Path) : List Path := (List.range p.length).map fun n => p.take n

/-- The first thing in the way to a path. -/
def obstacle? (d : Disk) (p : Path) : Option DiskFault :=
  (ancestors p).findSome? fun q =>
    match d.node? q with
    | none => some .notFound
    | some (.file _) => some .notDirectory
    | some .directory => none

/-- The node at a path. -/
def lookup (d : Disk) (p : Path) : Except DiskFault Node :=
  match d.obstacle? p with
  | some fault => .error fault
  | none =>
    match d.node? p with
    | none => .error .notFound
    | some node => .ok node

/-- Whether a path leads to a node; only a missing node or ancestor counts as absence. -/
def exists? (d : Disk) (p : Path) : Except DiskFault Bool :=
  match d.lookup p with
  | .ok _ => .ok true
  | .error .notFound => .ok false
  | .error fault => .error fault

/-- The length of a file, or what a directory reports. -/
def length (d : Disk) (p : Path) : Except DiskFault Nat :=
  (d.lookup p).map fun
    | .directory => directoryLength
    | .file content => content.length

def removedFrom (d : Disk) (p : Path) : List Bytes :=
  (d.removed.filter fun row => row.1 = p).map (·.2)

/-- Open a node for reading, if it is there. -/
def open? (d : Disk) (p : Path) : Except DiskFault (Option Opened) :=
  match d.lookup p with
  | .ok .directory => .ok (some .directory)
  | .ok (.file _) => .ok (some (.file p (d.removedFrom p).length))
  | .error .notFound => .ok none
  | .error fault => .error fault

/-- The bytes that an opened file holds now. -/
def contentOf (d : Disk) : Opened → Bytes
  | .directory => []
  | .file path earlier =>
    match (d.removedFrom path)[earlier]?, d.node? path with
    | some content, _ => content
    | none, some (.file content) => content
    | none, _ => []

def lengthOf (d : Disk) : Opened → Nat
  | .directory => directoryLength
  | opened => (d.contentOf opened).length

/-- The bytes of a file. -/
def read (d : Disk) (p : Path) : Except DiskFault Bytes :=
  match d.lookup p with
  | .ok .directory => .error .isDirectory
  | .ok (.file content) => .ok content
  | .error fault => .error fault

/-- Put a node at a path, whatever stood there. -/
def put (d : Disk) (p : Path) (node : Node) : Disk := { d with nodes := d.nodes.insert p node }

/-- The file at a path, made empty if it is missing, ready to be written to. -/
def openForWriting (d : Disk) (p : Path) : Except DiskFault (Bytes × Disk) :=
  match d.lookup p with
  | .ok .directory => .error .isDirectory
  | .ok (.file content) => .ok (content, d)
  | .error .notFound =>
    match d.obstacle? p with
    | some fault => .error fault
    | none => .ok ([], d.put p (.file []))
  | .error fault => .error fault

/-- Write bytes behind those that an opened file has, as many as there is room for. -/
def extend (d : Disk) (p : Path) (content bytes : Bytes) : Except DiskFault Unit × Disk :=
  let room := maxFile - content.length
  (if bytes.length ≤ room then .ok () else .error .fileTooLarge,
    d.put p (.file (content ++ bytes.take room)))

/-- Replace a file's bytes, making the file if it is missing. -/
def write (d : Disk) (p : Path) (content : Bytes) : Except DiskFault Disk :=
  (d.openForWriting p).map fun (_, d) => d.put p (.file content)

def update (d : Disk) (p : Path) (f : Bytes → Bytes) : Except DiskFault Disk :=
  (d.read p).map fun content => d.put p (.file (f content))

/-- Make a directory and every missing ancestor. -/
def makeDirectories (d : Disk) (p : Path) : Except DiskFault Disk :=
  ((ancestors p).drop 1 ++ [p]).foldlM (fun d q =>
    match d.node? q with
    | none => .ok (d.put q .directory)
    | some .directory => .ok d
    | some (.file _) => .error (if q = p then .alreadyExists else .notDirectory)) d

/-- Remove a file. -/
def removeFile (d : Disk) (p : Path) : Except DiskFault Disk :=
  match d.lookup p with
  | .ok .directory => .error .isDirectory
  | .ok (.file content) =>
    .ok { d with nodes := d.nodes.erase p, removed := d.removed ++ [(p, content)] }
  | .error fault => .error fault

/-- Remove a directory and everything below it. -/
def removeDirectory (d : Disk) (p : Path) : Except DiskFault Disk :=
  match d.lookup p with
  | .ok .directory =>
    let (below, others) := d.nodes.rows.partition fun row => p.isPrefixOf row.1
    let files := below.filterMap fun (path, node) =>
      match node with
      | .directory => none
      | .file content => some (path, content)
    .ok { nodes := ⟨others⟩, removed := d.removed ++ files }
  | .ok (.file _) => .error .notDirectory
  | .error fault => .error fault

/-- The names in a directory with what they lead to. -/
def entries (d : Disk) (p : Path) : Except DiskFault (List (String × Node)) :=
  match d.lookup p with
  | .ok .directory => .ok (d.nodes.rows.filterMap fun (q, node) =>
      match q.getLast? with
      | some name => if q.dropLast = p then some (name, node) else none
      | none => none)
  | .ok (.file _) => .error .notDirectory
  | .error fault => .error fault

/-- Everything below a directory by its path from there, a directory's path ending in `/`, in the
order of the paths. -/
def listing (d : Disk) (p : Path) : List (String × Node) :=
  let below := d.nodes.rows.filterMap fun (q, node) =>
    if p.isPrefixOf q ∧ p.length < q.length then
      let name := "/".intercalate (q.drop p.length)
      some (match node with
        | .directory => (name ++ "/", node)
        | .file _ => (name, node))
    else none
  below.mergeSort fun a b => a.1 ≤ b.1

end Disk

/-- Write bytes over those from a position on, after filling any gap with zeros. -/
def patchBytes (position : Nat) (bytes content : Bytes) : Bytes :=
  let padded := content ++ List.replicate (position - content.length) 0
  padded.take position ++ bytes ++ padded.drop (position + bytes.length)

end StreamStore
