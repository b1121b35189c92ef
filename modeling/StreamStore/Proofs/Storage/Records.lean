import Mathlib.Data.Int.Notation
import Mathlib.Data.Nat.Notation
import StreamStore.Proofs.Storage.TypeNames
import StreamStore.Storage.Sequence

/-!
# Records and the events they hold

A record of the data file and its header together hold one event, up to a type
name that is cut to the width of its buffer.  Reading with a cursor is reading
from the bytes that are left, whether or not they were read ahead, so an event
is read back from any data file that has its record at the place its header
names.
-/

namespace StreamStore

/-! ## Header records -/

namespace HeaderRecord

/-- A field is found again between what stands before and behind it. -/
theorem take_drop_append {before field behind : Bytes} {n m : Nat}
    (hn : n = before.length) (hm : m = field.length) :
    ((before ++ (field ++ behind)).drop n).take m = field := by
  subst hn hm
  rw [List.drop_left, List.take_left]

/-- Reading a record gives back what was written as it. -/
theorem decode_encode (h : HeaderRecord) : decode h.encode = h := by
  have htimestamp : h.timestamp.toUInt64.toNat < 1 <<< (8 * 8) :=
    Nat.lt_of_lt_of_eq h.timestamp.toUInt64.toNat_lt (by decide)
  have hsequence : h.sequence.toUInt32.toNat < 1 <<< (8 * 4) :=
    Nat.lt_of_lt_of_eq h.sequence.toUInt32.toNat_lt (by decide)
  have htypeLength : h.typeLength.toUInt16.toNat < 1 <<< (8 * 2) :=
    Nat.lt_of_lt_of_eq h.typeLength.toUInt16.toNat_lt (by decide)
  have hdataOffset : h.dataOffset.toUInt64.toNat < 1 <<< (8 * 8) :=
    Nat.lt_of_lt_of_eq h.dataOffset.toUInt64.toNat_lt (by decide)
  have hdataLength : h.dataLength.toUInt32.toNat < 1 <<< (8 * 4) :=
    Nat.lt_of_lt_of_eq h.dataLength.toUInt32.toNat_lt (by decide)
  have htake : h.encode.take 8 = LittleEndian.encode 8 h.timestamp.toUInt64.toNat := by
    simp only [encode, List.append_assoc]
    exact take_drop_append List.length_nil.symm (LittleEndian.length_encode ..).symm
  have hsequenceBytes : (h.encode.drop 8).take 4 =
      LittleEndian.encode 4 h.sequence.toUInt32.toNat := by
    simp only [encode, List.append_assoc]
    exact take_drop_append (LittleEndian.length_encode ..).symm
      (LittleEndian.length_encode ..).symm
  have htypeBytes : (h.encode.drop 12).take 2 =
      LittleEndian.encode 2 h.typeLength.toUInt16.toNat := by
    rw [encode, List.append_assoc _ _ (LittleEndian.encode 4 _), List.append_assoc _
      (LittleEndian.encode 2 _)]
    exact take_drop_append (by simp) (LittleEndian.length_encode ..).symm
  have hoffsetBytes : (h.encode.drop 14).take 8 =
      LittleEndian.encode 8 h.dataOffset.toUInt64.toNat := by
    rw [encode, List.append_assoc _ _ (LittleEndian.encode 4 _)]
    exact take_drop_append (by simp) (LittleEndian.length_encode ..).symm
  have hlengthBytes : (h.encode.drop 22).take 4 =
      LittleEndian.encode 4 h.dataLength.toUInt32.toNat := by
    rw [encode, ← List.append_nil (LittleEndian.encode 4 h.dataLength.toUInt32.toNat)]
    exact take_drop_append (by simp) (by simp)
  rw [decode, htake, hsequenceBytes, htypeBytes, hoffsetBytes, hlengthBytes,
    LittleEndian.decode_encode htimestamp, LittleEndian.decode_encode hsequence,
    LittleEndian.decode_encode htypeLength, LittleEndian.decode_encode hdataOffset,
    LittleEndian.decode_encode hdataLength]
  simp

/-- The first byte of a record is the low byte of its timestamp. -/
theorem timestamp_decode_cons (b : UInt8) (bytes : Bytes) :
    (decode (b :: bytes)).timestamp.toUInt64.toNat % 256 = b.toNat := by
  have hb : b.toNat < 256 := b.toNat_lt
  simp only [decode, List.take_succ_cons, LittleEndian.decode, UInt64.toInt64,
    UInt64.toNat_ofNat']
  omega

theorem timestamp_of_eventId {h : HeaderRecord} {id : EventId}
    (hid : h.eventId = .ok id) : h.timestamp = id.timestamp := by
  rw [eventId] at hid
  split at hid
  · cases hid
    rfl
  · cases hid

theorem length_flatMap_encode (hs : List HeaderRecord) :
    (hs.flatMap encode).length = hs.length * size := by
  induction hs with
  | nil => rw [List.flatMap_nil, List.length_nil, List.length_nil, Nat.zero_mul]
  | cons h hs ih =>
      rw [List.flatMap_cons, List.length_append, length_encode, ih,
        List.length_cons, Nat.succ_mul, Nat.add_comm]

/-- Records in a row are cut where one of them starts. -/
theorem drop_flatMap_encode (hs : List HeaderRecord) (n : Nat) :
    (hs.flatMap encode).drop (n * size) = (hs.drop n).flatMap encode := by
  rcases Nat.lt_or_ge n hs.length with hn | hn
  · have hsplit : (hs.take n ++ hs.drop n).flatMap encode = hs.flatMap encode := by
      rw [List.take_append_drop]
    rw [← hsplit, List.flatMap_append]
    apply List.drop_left'
    rw [length_flatMap_encode, List.length_take, Nat.min_eq_left (Nat.le_of_lt hn)]
  · rw [List.drop_eq_nil_of_le hn, List.flatMap_nil]
    apply List.drop_eq_nil_of_le
    rw [length_flatMap_encode]
    exact Nat.mul_le_mul_right size hn

/-- A torn record at the end does not count. -/
theorem length_div_size (hs : List HeaderRecord) {torn : Bytes}
    (htorn : torn.length < size) :
    (hs.flatMap encode ++ torn).length / size = hs.length := by
  rw [List.length_append, length_flatMap_encode, Nat.add_comm,
    Nat.add_mul_div_right _ _ (by decide), Nat.div_eq_of_lt htorn, Nat.zero_add]

end HeaderRecord

/-! ## Cursors -/

namespace Cursor

/-- The bytes that a cursor has ahead of it, read ahead or not. -/
def rest (d : Disk) (c : Cursor) : Bytes :=
  c.buffer ++ (d.contentOf c.source).drop c.position

theorem straight_le (count : Nat) : straight count ≤ count := by
  rw [straight]
  split
  · exact Nat.sub_le _ _
  · exact Nat.le_refl _

/-- What does not come straight from the file fits into the buffer. -/
theorem sub_straight_le (count : Nat) : count - straight count ≤ bufferSize := by
  have hmod := Nat.mod_le count maxChunk
  rw [straight]
  split
  · omega
  · omega

theorem drop_take_append_drop (bytes : Bytes) {k m : Nat} (h : k ≤ m) :
    (bytes.take m).drop k ++ bytes.drop m = bytes.drop k := by
  have hrest : bytes.drop m = (bytes.drop k).drop (m - k) := by
    rw [List.drop_drop]
    congr 1
    omega
  rw [List.drop_take, hrest, List.take_append_drop]

/-- What a long read and a buffer take from a file is what comes first in it. -/
theorem take_straight_append (ahead : Bytes) (count : Nat) :
    let last := if straight count < count
      then (ahead.drop (straight count)).take bufferSize else []
    ahead.take (straight count) ++ last.take (count - straight count) =
        ahead.take count ∧
      last.drop (count - straight count) ++
        ahead.drop (straight count + last.length) = ahead.drop count := by
  have hle := straight_le count
  have hfits := sub_straight_le count
  by_cases hlong : straight count < count
  · simp only [if_pos hlong]
    constructor
    · rw [List.take_take, Nat.min_eq_left hfits, ← List.take_add]
      congr 1
      omega
    · have hlast : ahead.drop (straight count +
          ((ahead.drop (straight count)).take bufferSize).length) =
          (ahead.drop (straight count)).drop bufferSize := by
        rw [← List.drop_drop, List.length_take]
        rcases Nat.le_total bufferSize (ahead.drop (straight count)).length with h | h
        · rw [Nat.min_eq_left h]
        · rw [Nat.min_eq_right h, List.drop_length, List.drop_eq_nil_of_le h]
      rw [hlast, drop_take_append_drop _ hfits, List.drop_drop]
      congr 1
      omega
  · have heq : straight count = count := by omega
    simp [heq]

/-- A read gives the next bytes if there are enough of them, and fails if not. -/
theorem read_eq (d : Disk) {c : Cursor} {path : Path} {earlier : Nat}
    (hsource : c.source = .file path earlier) (n : Nat) :
    if n ≤ (c.rest d).length then
      ∃ c', c.read d n = .ok ((c.rest d).take n, c') ∧
        c'.source = .file path earlier ∧ c'.rest d = (c.rest d).drop n
    else c.read d n = .error (.io .earlyEnd) := by
  rw [read]
  by_cases hbuffer : n ≤ c.buffer.length
  · have henough : n ≤ (c.rest d).length := by
      rw [rest, List.length_append]
      omega
    rw [if_pos henough, if_pos hbuffer, rest, List.take_append_of_le_length hbuffer,
      List.drop_append_of_le_length hbuffer]
    exact ⟨_, rfl, hsource, rfl⟩
  · rw [if_neg hbuffer]
    simp only [hsource]
    have hahead := take_straight_append
      ((d.contentOf (.file path earlier)).drop c.position) (n - c.buffer.length)
    simp only at hahead
    obtain ⟨hbytes, hleft⟩ := hahead
    rw [List.append_assoc, hbytes, rest, hsource]
    generalize hfile : (d.contentOf (.file path earlier)).drop c.position = ahead at *
    by_cases henough : n ≤ (c.buffer ++ ahead).length
    · rw [List.length_append] at henough
      have hlength : ¬(c.buffer ++ ahead.take (n - c.buffer.length)).length < n := by
        rw [List.length_append, List.length_take]
        omega
      rw [if_neg hlength, if_pos (by rw [List.length_append]; exact henough)]
      rw [List.take_append, List.take_of_length_le (Nat.le_of_not_le hbuffer),
        List.drop_append, List.drop_eq_nil_of_le (Nat.le_of_not_le hbuffer),
        List.nil_append, ← hleft]
      refine ⟨_, rfl, rfl, ?_⟩
      rw [rest]
      simp only
      rw [Nat.add_assoc, ← List.drop_drop, hfile]
    · rw [if_neg henough]
      rw [List.length_append] at henough
      have hlength : (c.buffer ++ ahead.take (n - c.buffer.length)).length < n := by
        rw [List.length_append, List.length_take]
        omega
      rw [if_pos hlength]

/-- Placing a cursor leaves the bytes from there on ahead of it. -/
theorem seek_eq (d : Disk) (c : Cursor) {position : Nat} (h : position ≤ maxPosition) :
    ∃ c', c.seek position = .ok c' ∧ c'.source = c.source ∧
      c'.rest d = (d.contentOf c.source).drop position := by
  rw [seek, if_neg (Nat.not_lt.mpr h)]
  exact ⟨_, rfl, rfl, rfl⟩

end Cursor

/-! ## Events on disk -/

/-- An event as it comes back from disk, its type name cut to what fits. -/
def Event.stored (e : Event) : Event :=
  { e with type := String.ofList (Utf8.fitting maxEventTypeLength e.type.toList) }

theorem Event.stored_of_fits {e : Event}
    (h : e.type.utf8ByteSize ≤ maxEventTypeLength) : e.stored = e := by
  rw [← Utf8.length_encode_toList] at h
  rw [Event.stored, Utf8.fitting_of_length_le h, String.ofList_toList]

namespace DataFile

/-- The bytes of an event in the data file. -/
def record (e : Event) : Bytes := (TypeBuffer.ofType e.type).bytes ++ e.data

theorem length_record (e : Event) :
    (record e).length = maxEventTypeLength + e.data.length := by
  rw [record, List.length_append, TypeBuffer.length_bytes_ofType]

theorem eventId_header (offset : Nat) (buffer : TypeBuffer) (e : Event) :
    (header offset buffer e).eventId = .ok e.id := by
  have hlt := e.id.sequence.toNat_lt
  have hsequence : (Int32.ofNat e.id.sequence.toNat).toInt = e.id.sequence.toNat :=
    Int32.toInt_ofNat_of_lt (by omega)
  simp only [HeaderRecord.eventId, header, hsequence]
  rw [if_pos ⟨by omega, by omega⟩, Int.toNat_natCast, UInt16.ofNat_toNat]

theorem typeLength_header (offset : Nat) (e : Event) :
    (header offset (TypeBuffer.ofType e.type) e).typeLength.toInt =
      (TypeBuffer.ofType e.type).used :=
  TypeBuffer.toInt_used_ofType e.type

/-- A header and the data file it belongs to hold an event. -/
def Holds (data : Bytes) (h : HeaderRecord) (e : Event) : Prop :=
  ∃ offset, h = header offset (TypeBuffer.ofType e.type) e ∧
    offset ≤ Cursor.maxPosition ∧ e.data.length ≤ maxPayload ∧
    record e <+: data.drop offset

/-- What is written behind a data file changes none of the events in it. -/
theorem Holds.append {data : Bytes} {h : HeaderRecord} {e : Event}
    (hholds : Holds data h e) (bytes : Bytes) : Holds (data ++ bytes) h e := by
  obtain ⟨offset, hheader, hoffset, hpayload, hrecord⟩ := hholds
  refine ⟨offset, hheader, hoffset, hpayload, ?_⟩
  rw [List.drop_append]
  exact hrecord.trans (List.prefix_append _ _)

theorem validate_of_holds {data : Bytes} {h : HeaderRecord} {e : Event}
    (hholds : Holds data h e) : h.validate maxEventTypeLength = .ok () := by
  obtain ⟨offset, rfl, hoffset, hpayload, -⟩ := hholds
  have hused : (TypeBuffer.ofType e.type).used ≤ 64 := TypeBuffer.used_ofType_le e.type
  have htype := typeLength_header offset e
  have hoffset' : (header offset (TypeBuffer.ofType e.type) e).dataOffset.toInt = offset :=
    Int64.toInt_ofNat_of_lt (by rw [Cursor.maxPosition] at hoffset; omega)
  have hlength : (header offset (TypeBuffer.ofType e.type) e).dataLength.toInt =
      e.data.length :=
    Int32.toInt_ofNat_of_lt (by rw [maxPayload] at hpayload; omega)
  rw [HeaderRecord.validate, htype, hoffset', hlength, if_neg, if_neg (by omega),
    if_neg (by omega)]
  rw [maxEventTypeLength]
  omega

/-- Whether or not the cursor has to be moved, it then stands at the offset. -/
theorem place_eq {d : Disk} {c : Cursor} {path : Path} {earlier offset : Nat}
    {data : Bytes} {position : Option Nat}
    (hsource : c.source = .file path earlier)
    (hdata : d.contentOf (.file path earlier) = data)
    (hposition : ∀ p, position = some p → c.rest d = data.drop p)
    (hoffset : offset ≤ Cursor.maxPosition) :
    ∃ c', place c position offset = .ok c' ∧
      c'.source = .file path earlier ∧ c'.rest d = data.drop offset := by
  rw [place]
  by_cases hp : position = some offset
  · rw [if_pos hp]
    exact ⟨c, rfl, hsource, hposition offset hp⟩
  · rw [if_neg hp]
    obtain ⟨c', hseek, hkeep, hrest⟩ := c.seek_eq d hoffset
    rw [hsource] at hkeep hrest
    rw [hdata] at hrest
    exact ⟨c', hseek, hkeep, hrest⟩

/-- An event that is read has the identity that its header names. -/
theorem eventId_of_readEvent {d : Disk} {c c' : Cursor} {position : Option Nat}
    {h : HeaderRecord} {e : Event} {p' : Nat}
    (hrun : readEvent d c position h = .ok (e, c', p')) : h.eventId = .ok e.id := by
  simp only [readEvent, bind, Except.bind] at hrun
  split at hrun
  · cases hrun
  split at hrun
  · cases hrun
  split at hrun
  · cases hrun
  split at hrun
  · cases hrun
  split at hrun
  · cases hrun
  split at hrun
  · cases hrun
  next id hid =>
    cases hrun
    exact hid

/-- An event is read back from a data file that holds it, from wherever the
cursor stood before. -/
theorem readEvent_of_holds {d : Disk} {c : Cursor} {path : Path} {earlier : Nat}
    {data : Bytes} {position : Option Nat} {h : HeaderRecord} {e : Event}
    (hsource : c.source = .file path earlier)
    (hdata : d.contentOf (.file path earlier) = data)
    (hposition : ∀ p, position = some p → c.rest d = data.drop p)
    (hholds : Holds data h e) :
    ∃ c' p', readEvent d c position h = .ok (e.stored, c', p') ∧
      c'.source = .file path earlier ∧ c'.rest d = data.drop p' := by
  have hvalid := validate_of_holds hholds
  obtain ⟨offset, rfl, hoffset, hpayload, hrecord⟩ := hholds
  have hoffset' : (header offset (TypeBuffer.ofType e.type) e).dataOffset.toUInt64.toNat
      = offset := by
    simp only [header, Int64.toUInt64_ofNat', UInt64.toNat_ofNat']
    rw [Cursor.maxPosition] at hoffset
    omega
  have hlength : (header offset (TypeBuffer.ofType e.type) e).dataLength.toInt =
      e.data.length :=
    Int32.toInt_ofNat_of_lt (by rw [maxPayload] at hpayload; omega)
  obtain ⟨c₁, hplace, hsource₁, hrest₁⟩ :=
    place_eq hsource hdata hposition hoffset
  obtain ⟨behind, hbehind⟩ := hrecord
  rw [record, List.append_assoc] at hbehind
  have hread₁ := Cursor.read_eq d hsource₁ maxEventTypeLength
  rw [hrest₁, ← hbehind, if_pos (by
    rw [List.length_append, TypeBuffer.length_bytes_ofType]
    exact Nat.le_add_right _ _)] at hread₁
  obtain ⟨c₂, hread₁, hsource₂, hrest₂⟩ := hread₁
  rw [List.take_left' (TypeBuffer.length_bytes_ofType _)] at hread₁
  rw [List.drop_left' (TypeBuffer.length_bytes_ofType _)] at hrest₂
  have hread₂ := Cursor.read_eq d hsource₂ e.data.length
  rw [hrest₂, if_pos (by rw [List.length_append]; exact Nat.le_add_right _ _),
    List.take_left, List.drop_left] at hread₂
  obtain ⟨c₃, hread₂, hsource₃, hrest₃⟩ := hread₂
  refine ⟨c₃, offset + (maxEventTypeLength + e.data.length), ?_, hsource₃, ?_⟩
  · have hname : typeName (header offset (TypeBuffer.ofType e.type) e)
        (TypeBuffer.ofType e.type).bytes = .ok e.stored.type := typeName_ofType rfl
    have hnonneg : ¬(e.data.length : Int) < 0 := by omega
    simp only [readEvent, hoffset', hplace, hread₁, hname, hlength, hread₂, bind,
      Except.bind, if_neg hnonneg, Int.toNat_natCast, eventId_header]
    rfl
  · rw [hrest₃, ← List.drop_drop, ← hbehind, ← List.append_assoc]
    refine (List.drop_left' ?_).symm
    rw [List.length_append, TypeBuffer.length_bytes_ofType]

end DataFile

end StreamStore
