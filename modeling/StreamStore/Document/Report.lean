import StreamStore.Engine.Store
import StreamStore.Log.Logger
import StreamStore.Text.HexBytes

/-!
# Reports

Refusals and failures as documents: the kind, what else a program may want to know, and the wording
unless it quotes the operating system; and what a worker did.  Bytes are reported by their digits,
many bytes by their number and a fingerprint.
-/

namespace StreamStore

namespace Document

/-- A report of some kind. -/
def report (kind : String) (details : List (String × Document)) (message? : Option String) :
    Document :=
  .record ((("error", .text kind) :: details) ++ match message? with
    | some message => [("message", .text message)]
    | none => [])

end Document

namespace Refusal

/-- The kind of a refusal. -/
def kind : Refusal → String
  | badRequest _ => "BadRequest"
  | versionMismatch _ _ => "VersionMismatch"
  | cannotInitiateWrite _ => "CannotInitiateWrite"
  | duplicateEvent _ => "DuplicateEvent"
  | cancelled => "Cancelled"
  | storage _ => "Storage"

def report (r : Refusal) : Document :=
  .report r.kind [("code", .number (.integer r.code.value))] r.message?

def ofKind? (kind text : String) : Option Refusal :=
  [badRequest (.other text), cannotInitiateWrite (.inr text), duplicateEvent text, cancelled,
    storage (.inr text)].find? (·.kind = kind)

theorem kind_of_ofKind? {kind text : String} {r : Refusal} (h : ofKind? kind text = some r) :
    r.kind = kind := by
  simpa using List.find?_some h

end Refusal

namespace StorageFault

/-- The kind of a failure. -/
def kind : StorageFault → String
  | io _ => "Io"
  | corrupt _ => "Corrupt"
  | deleteFailed _ _ => "DeleteFailed"
  | cancelled => "Cancelled"

/-- A failure of the files as a report. -/
def report (f : StorageFault) : Document :=
  let details := match f with
    | .deleteFailed attempts _ => [("attempts", Document.number (.integer attempts))]
    | _ => []
  .report f.kind details f.message?

def ofKind? (kind text : String) : Option StorageFault :=
  [io (.other text), corrupt (.other text), cancelled].find? (·.kind = kind)

end StorageFault

def SettingsFault.report (f : SettingsFault) : Document := .report "Invalid" [] (some f.message)

/-- Why settings cannot be loaded, as a report. -/
def LoadFault.report : LoadFault → Document
  | .read => .report "Read" [] none
  | .parse => .report "Parse" [] none
  | .invalid fault => fault.report

/-- Why a store cannot be opened, as a report. -/
def OpenFault.report : OpenFault → Document
  | .invalid fault => fault.report
  | .disk _ => .report "Io" [] none

/-- Why there is no logger, as a report. -/
def LogFault.report : LogFault → Document
  | .filter => .report "Filter" [] none
  | .file => .report "File" [] none
  | .alreadyInstalled => .report "AlreadyInstalled" [] none

/-- Failures that can be reported. -/
class Reported (ε : Type) where
  /-- A failure as a report. -/
  report : ε → Document

instance : Reported Refusal := ⟨Refusal.report⟩
instance : Reported StorageFault := ⟨StorageFault.report⟩
instance : Reported SettingsFault := ⟨SettingsFault.report⟩
instance : Reported LoadFault := ⟨LoadFault.report⟩
instance : Reported OpenFault := ⟨OpenFault.report⟩
instance : Reported LogFault := ⟨LogFault.report⟩

/-- A result as a document, a failure by its report. -/
def Document.ofResult {α ε : Type} [Reported ε] (write : α → Document) : Except ε α → Document
  | .ok a => write a
  | .error fault => Reported.report fault

/-- What a worker did, as a document. -/
def WriteReport.toDocument (r : WriteReport) : Document :=
  .record [("batches_written", .number (.integer r.batchesWritten)),
    ("events_written", .number (.integer r.eventsWritten)),
    ("batches_failed", .number (.integer r.batchesFailed))]

/-- Bytes as a document: up to 64 by their digits, more by their number and their fingerprint. -/
def Bytes.toDocument (bytes : Bytes) : Document :=
  if bytes.length ≤ 64 then .text (String.ofList (toHex bytes))
  else .record [("len", .number (.integer bytes.length)),
    ("fnv1a64", .text (String.ofList (Hex.encode 16 (fingerprint bytes).toNat)))]

end StreamStore
