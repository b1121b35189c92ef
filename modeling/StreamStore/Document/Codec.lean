import StreamStore.Document.Json
import StreamStore.Engine.Page
import StreamStore.Event.Id
import StreamStore.Log.Settings
import StreamStore.Refusal
import StreamStore.Settings
import StreamStore.Storage.HeaderRecord
import StreamStore.Stream.Id

/-!
# The store's values as documents

How stream identities, event identities, codes and outcomes are written in messages, and how they
are read back.  `Coded` gathers the types of values that have such a form.
-/

namespace StreamStore

/-- JSON as a dialect: nothing may follow the fields of a record that is written as a list. -/
def Json.dialect : Dialect := ⟨false, false⟩

namespace StreamType

def ofDocument? (d : Document) : Option StreamType := d.text?.bind fun s => (ofString s).toOption

def toDocument (t : StreamType) : Document := .text t.text

end StreamType

namespace StreamId

/-- Read a stream identity. -/
def ofDocument? (dialect : Dialect) (d : Document) : Option StreamId := do
  let fields ← d.fields? dialect ["key", "stream_type"]
  let key ← Document.required? fields "key" fun d => d.text?.bind Uuid.parse?
  let type ← Document.required? fields "stream_type" StreamType.ofDocument?
  return ⟨key, type⟩

def toDocument (s : StreamId) : Document :=
  .record [("key", .text s.key.hyphenated), ("stream_type", s.type.toDocument)]

end StreamId

namespace StreamSummary

/-- Read a summary. -/
def ofDocument? (dialect : Dialect) (d : Document) : Option StreamSummary := do
  let fields ← d.fields? dialect ["stream_id", "event_count"]
  let stream ← Document.required? fields "stream_id" (StreamId.ofDocument? dialect)
  let count ← Document.required? fields "event_count" (Document.natural? 64)
  return ⟨stream, count⟩

def toDocument (s : StreamSummary) : Document :=
  .record [("stream_id", s.stream.toDocument), ("event_count", .number (.integer s.eventCount))]

end StreamSummary

namespace EventId

/-- Read an event identity. -/
def ofDocument? (dialect : Dialect) (d : Document) : Option EventId := do
  let fields ← d.fields? dialect ["timestamp", "sequence"]
  let timestamp ← Document.required? fields "timestamp" (Document.signed? 64)
  let sequence ← Document.required? fields "sequence" (Document.natural? 16)
  return ⟨Int64.ofInt timestamp, UInt16.ofNat sequence⟩

def toDocument (e : EventId) : Document :=
  .record [("timestamp", .number (.integer e.timestamp.toInt)),
    ("sequence", .number (.integer e.sequence.toNat))]

end EventId

namespace RefusalCode

def ofDocument? (dialect : Dialect) (d : Document) : Option RefusalCode :=
  d.choice? dialect (all.map fun code => (code.name, code))

def toDocument (code : RefusalCode) : Document := .text code.name

end RefusalCode

namespace Outcome

/-- Read an outcome. -/
def ofDocument? (dialect : Dialect) (d : Document) : Option Outcome :=
  match d with
  | .record [("Failure", content)] => do
    let fields ← content.fields? dialect ["code", "message"]
    let code ← Document.required? fields "code" (RefusalCode.ofDocument? dialect)
    let message ← Document.required? fields "message" Document.text?
    return failure code (some message)
  | d => d.choice? dialect [("Success", success)]

/-- An outcome as a document; a message that quotes the operating system is left out. -/
def toDocument : Outcome → Document
  | success => .text "Success"
  | failure code message? =>
    let message := match message? with
      | some message => [("message", Document.text message)]
      | none => []
    .record [("Failure", .record (("code", code.toDocument) :: message))]

end Outcome

namespace Direction

def ofDocument? (dialect : Dialect) (d : Document) : Option Direction :=
  d.choice? dialect [("Forward", forward), ("Backward", backward)]

def toDocument : Direction → Document
  | forward => .text "Forward"
  | backward => .text "Backward"

end Direction

namespace HeaderRecord

/-- Read a header from the list of its fields. -/
def ofDocument? : Document → Option HeaderRecord
  | .list [timestamp, sequence, typeLength, dataOffset, dataLength] => do
    return {
      timestamp := Int64.ofInt (← timestamp.signed? 64)
      sequence := Int32.ofInt (← sequence.signed? 32)
      typeLength := Int16.ofInt (← typeLength.signed? 16)
      dataOffset := Int64.ofInt (← dataOffset.signed? 64)
      dataLength := Int32.ofInt (← dataLength.signed? 32) }
  | _ => none

def toDocument (h : HeaderRecord) : Document :=
  .list ([h.timestamp.toInt, h.sequence.toInt, h.typeLength.toInt, h.dataOffset.toInt,
    h.dataLength.toInt].map fun n => .number (.integer n))

end HeaderRecord

/-- Values that are written as documents and read back. -/
class Coded (α : Type) where
  /-- Read a value in some dialect. -/
  read? : Dialect → Document → Option α
  /-- Write a value. -/
  write : α → Document

instance : Coded StreamType := ⟨fun _ => StreamType.ofDocument?, StreamType.toDocument⟩
instance : Coded StreamId := ⟨StreamId.ofDocument?, StreamId.toDocument⟩
instance : Coded StreamSummary := ⟨StreamSummary.ofDocument?, StreamSummary.toDocument⟩
instance : Coded EventId := ⟨EventId.ofDocument?, EventId.toDocument⟩
instance : Coded RefusalCode := ⟨RefusalCode.ofDocument?, RefusalCode.toDocument⟩
instance : Coded Outcome := ⟨Outcome.ofDocument?, Outcome.toDocument⟩
instance : Coded Direction := ⟨Direction.ofDocument?, Direction.toDocument⟩
instance : Coded Settings := ⟨Settings.ofDocument?, Settings.toDocument⟩
instance : Coded LogSettings := ⟨LogSettings.ofDocument?, LogSettings.toDocument⟩

/-- Read a JSON text as a value of some type and write the value again. -/
def Json.normalForm? (α : Type) [Coded α] (text : String) : Option Document :=
  (Json.parse? text).bind fun d => (Coded.read? Json.dialect d : Option α).map Coded.write

end StreamStore
