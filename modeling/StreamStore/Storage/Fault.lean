import StreamStore.Text.Utf8

/-!
# Failures of the files that hold streams

A disk refuses a call, a file ends too early, a record makes no sense, a removal keeps failing, or
the caller cancelled.  What a disk says about its refusal is in the operating system's words, so a
message that would quote it is `none`.
-/

namespace StreamStore

/-- Why a disk refuses a call. -/
inductive DiskFault
  | notFound
  | notDirectory
  | isDirectory
  | alreadyExists
  | invalidPosition
  /-- A file would have more bytes than a file may have. -/
  | fileTooLarge
  /-- A refusal that comes from outside the modelled disk. -/
  | refused
deriving DecidableEq, Repr

/-- Why reading or writing a file failed. -/
inductive IoFault
  | disk (fault : DiskFault)
  /-- The file ended before all bytes of a record were read. -/
  | earlyEnd
  /-- A payload is longer than a header can say. -/
  | payloadTooLarge (bytes : Nat)
  | other (text : String)
deriving DecidableEq, Repr

/-- What is wrong with a record. -/
inductive Corruption
  | typeLength (value : Int)
  | negativeOffset (value : Int)
  | negativeLength (value : Int)
  | sequence (value : Int)
  | typeNotUtf8 (fault : Utf8.Fault)
  | dataFileMissing
  | other (text : String)
deriving DecidableEq, Repr

/-- A failure of the files that hold streams. -/
inductive StorageFault
  | io (fault : IoFault)
  | corrupt (corruption : Corruption)
  /-- Removal failed in every one of some rounds, last with the given failure. -/
  | deleteFailed (attempts : Nat) (last : IoFault)
  | cancelled
deriving DecidableEq, Repr

/-- The wording of a file failure, `none` where it is the operating system's. -/
def IoFault.message? : IoFault → Option String
  | .disk _ => none
  | .earlyEnd => some "early eof"
  | .payloadTooLarge bytes => some s!"payload of {bytes} bytes too large"
  | .other text => some text

/-- The wording of what is wrong with a record. -/
def Corruption.message : Corruption → String
  | .typeLength value => s!"type length {value} out of range"
  | .negativeOffset value => s!"negative data offset {value}"
  | .negativeLength value => s!"negative data length {value}"
  | .sequence value => s!"event sequence {value} out of range"
  | .typeNotUtf8 fault => "event type is not UTF-8: " ++ fault.message
  | .dataFileMissing => "data file missing for existing headers"
  | .other text => text

/-- The wording of a failure, `none` where it quotes the operating system. -/
def StorageFault.message? : StorageFault → Option String
  | .io fault => fault.message?.map ("I/O error: " ++ ·)
  | .corrupt corruption => some ("Corrupt record: " ++ corruption.message)
  | .deleteFailed attempts last =>
    last.message?.map fun text => s!"Delete failed after {attempts} attempts: " ++ text
  | .cancelled => some "Operation cancelled"

end StreamStore
