import StreamStore.Event.Basic
import StreamStore.Storage.Fault
import StreamStore.Storage.LittleEndian

/-!
# Header records

The fixed-width description of one event: its identity, the length of its type name, and where its
record stands in the data file and how long its payload is.  A record takes 26 bytes, every field
little-endian in two's complement, so record `n` of a headers file starts at byte `26 n`.
-/

namespace StreamStore

/-- The description of one event on disk. -/
structure HeaderRecord where
  timestamp : Int64
  sequence : Int32
  /-- How many bytes of the event's type buffer are the type name. -/
  typeLength : Int16
  /-- Where the type buffer starts in the data file. -/
  dataOffset : Int64
  /-- The length of the payload that follows the type buffer. -/
  dataLength : Int32
deriving DecidableEq, Repr

namespace HeaderRecord

/-- The number of bytes of a record. -/
def size : Nat := 26

/-- The bytes of a record. -/
def encode (h : HeaderRecord) : Bytes :=
  LittleEndian.encode 8 h.timestamp.toUInt64.toNat ++
  LittleEndian.encode 4 h.sequence.toUInt32.toNat ++
  LittleEndian.encode 2 h.typeLength.toUInt16.toNat ++
  LittleEndian.encode 8 h.dataOffset.toUInt64.toNat ++
  LittleEndian.encode 4 h.dataLength.toUInt32.toNat

/-- The record that bytes spell. -/
def decode (bytes : Bytes) : HeaderRecord where
  timestamp := (UInt64.ofNat (LittleEndian.decode (bytes.take 8))).toInt64
  sequence := (UInt32.ofNat (LittleEndian.decode ((bytes.drop 8).take 4))).toInt32
  typeLength := (UInt16.ofNat (LittleEndian.decode ((bytes.drop 12).take 2))).toInt16
  dataOffset := (UInt64.ofNat (LittleEndian.decode ((bytes.drop 14).take 8))).toInt64
  dataLength := (UInt32.ofNat (LittleEndian.decode ((bytes.drop 22).take 4))).toInt32

/-- The identity of the event, unless its sequence is out of range. -/
def eventId (h : HeaderRecord) : Except StorageFault EventId :=
  if 0 ≤ h.sequence.toInt ∧ h.sequence.toInt < 65536 then
    .ok ⟨h.timestamp, UInt16.ofNat h.sequence.toInt.toNat⟩
  else .error (.corrupt (.sequence h.sequence.toInt))

/-- Refuse values that no writer of type names of a limited length leaves behind. -/
def validate (h : HeaderRecord) (maxTypeLength : Nat) : Except StorageFault Unit :=
  if h.typeLength.toInt < 0 ∨ (maxTypeLength : Int) < h.typeLength.toInt then
    .error (.corrupt (.typeLength h.typeLength.toInt))
  else if h.dataOffset.toInt < 0 then
    .error (.corrupt (.negativeOffset h.dataOffset.toInt))
  else if h.dataLength.toInt < 0 then
    .error (.corrupt (.negativeLength h.dataLength.toInt))
  else .ok ()

@[simp] theorem length_encode (h : HeaderRecord) : h.encode.length = size := by
  simp [encode, size]

end HeaderRecord

end StreamStore
