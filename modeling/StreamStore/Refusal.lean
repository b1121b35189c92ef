import StreamStore.Storage.Fault
import StreamStore.Stream.Type

/-!
# Refusals

Why a request to the store fails, with the stable code that reports it, and the outcome of a write
as its caller sees it.
-/

namespace StreamStore

/-- What is malformed about a request. -/
inductive BadRequest
  | streamType (fault : StreamTypeFault)
  | emptyEventType (index : Nat)
  | longEventType (index bytes limit : Nat)
  | largePayload (index bytes limit : Nat)
  | negativeStart (position : Int)
  | other (text : String)
deriving DecidableEq, Repr

/-- Why the write queue does not take a batch. -/
inductive QueueRefusal
  | closed
  | full
deriving DecidableEq, Repr

/-- Why a request fails. -/
inductive Refusal
  | badRequest (reason : BadRequest)
  /-- A writer counted on another number of events than the stream has. -/
  | versionMismatch (expected actual : Nat)
  | cannotInitiateWrite (reason : QueueRefusal ⊕ String)
  | duplicateEvent (text : String)
  | cancelled
  | storage (reason : StorageFault ⊕ String)
deriving DecidableEq, Repr

/-- The stable code of a refusal. -/
inductive RefusalCode
  | unknown
  | duplicateEvent
  | badRequest
  | cannotInitiateWrite
  | versionMismatch
deriving DecidableEq, Repr

/-- How a write or a removal ended. -/
inductive Outcome
  | success
  /-- The message is `none` where it quotes the operating system. -/
  | failure (code : RefusalCode) (message? : Option String)
deriving DecidableEq, Repr

/-- The wording of what is malformed. -/
def BadRequest.message : BadRequest → String
  | .streamType fault => fault.message
  | .emptyEventType index => s!"event {index} has an empty type"
  | .longEventType index bytes limit => s!"event {index} type is {bytes} bytes, limit is {limit}"
  | .largePayload index bytes limit => s!"event {index} payload is {bytes} bytes, limit is {limit}"
  | .negativeStart position => s!"start position must be non-negative, got {position}"
  | .other text => text

def QueueRefusal.message : QueueRefusal → String
  | .closed => "write queue is closed"
  | .full => "write queue is full"

namespace RefusalCode

def all : List RefusalCode :=
  [unknown, duplicateEvent, badRequest, cannotInitiateWrite, versionMismatch]

/-- The number of a code. -/
def value : RefusalCode → Int
  | unknown => -1
  | duplicateEvent => -2
  | badRequest => -3
  | cannotInitiateWrite => -4
  | versionMismatch => -5

def ofValue? (n : Int) : Option RefusalCode := all.find? fun code => code.value = n

/-- The name of a code. -/
def name : RefusalCode → String
  | unknown => "Unknown"
  | duplicateEvent => "DuplicateEvent"
  | badRequest => "BadRequest"
  | cannotInitiateWrite => "CannotInitiateWrite"
  | versionMismatch => "VersionMismatch"

def display (code : RefusalCode) : String := s!"{code.name}({code.value})"

theorem ofValue?_value (code : RefusalCode) : ofValue? code.value = some code := by
  cases code <;> decide

end RefusalCode

namespace Refusal

def ofStorage : StorageFault → Refusal
  | .cancelled => .cancelled
  | fault => .storage (.inl fault)

/-- The code of a refusal. -/
def code : Refusal → RefusalCode
  | badRequest _ => .badRequest
  | versionMismatch _ _ => .versionMismatch
  | cannotInitiateWrite _ => .cannotInitiateWrite
  | duplicateEvent _ => .duplicateEvent
  | cancelled => .unknown
  | storage _ => .unknown

/-- Whether the client can mend the request and try again. -/
def isClientError : Refusal → Bool
  | badRequest _ => true
  | versionMismatch _ _ => true
  | _ => false

/-- The wording of a refusal, `none` where it quotes the operating system. -/
def message? : Refusal → Option String
  | badRequest reason => some ("Bad request: " ++ reason.message)
  | versionMismatch expected actual =>
    some s!"Version mismatch: expected {expected}, actual {actual}"
  | cannotInitiateWrite (.inl reason) => some ("Cannot initiate write: " ++ reason.message)
  | cannotInitiateWrite (.inr text) => some ("Cannot initiate write: " ++ text)
  | duplicateEvent text => some ("Duplicate event: " ++ text)
  | cancelled => some "Operation cancelled"
  | storage (.inl fault) => fault.message?.map ("Storage error: " ++ ·)
  | storage (.inr text) => some ("Storage error: " ++ text)

end Refusal

namespace Outcome

def ofRefusal (refusal : Refusal) : Outcome := failure refusal.code refusal.message?

def ofResult : Except Refusal Unit → Outcome
  | .ok () => success
  | .error refusal => ofRefusal refusal

def isSuccess : Outcome → Bool
  | success => true
  | failure _ _ => false

def code? : Outcome → Option RefusalCode
  | success => none
  | failure code _ => some code

end Outcome

end StreamStore
