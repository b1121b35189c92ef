import StreamStore.Proofs.Storage.Crash
import StreamStore.Proofs.Storage.Positions

/-!
# Header records and their bytes

A record has 26 bytes, and any 26 bytes are those of one record, whatever they are.  So a headers
file of whole records and the list of its records determine each other: the bytes from `26 n` to
`26 n + 26` are record `n`.
-/

namespace StreamStore

/-! ## One record -/

namespace HeaderRecord

variable {bytes : Bytes} {hs : List HeaderRecord}

/-- The five fields are all that a record consists of. -/
theorem append_fields (h : bytes.length = size) :
    bytes.take 8 ++ (bytes.drop 8).take 4 ++ (bytes.drop 12).take 2 ++ (bytes.drop 14).take 8 ++
      (bytes.drop 22).take 4 = bytes := by
  have hlast : (bytes.drop 22).take 4 = bytes.drop 22 := by
    apply List.take_of_length_le
    rw [List.length_drop, h, size]
  rw [hlast, ← List.take_add, ← List.take_add, ← List.take_add, List.take_append_drop]

/-- A field is written as it was read, and what it spells fits into as many bytes. -/
theorem encode_decode_field (h : bytes.length = size) (place width : Nat)
    (hwidth : place + width ≤ size) :
    LittleEndian.encode width (LittleEndian.decode ((bytes.drop place).take width)) =
        (bytes.drop place).take width ∧
      LittleEndian.decode ((bytes.drop place).take width) < 1 <<< (8 * width) := by
  have hlength : ((bytes.drop place).take width).length = width := by
    rw [List.length_take, List.length_drop, h]
    omega
  have hencode := LittleEndian.encode_decode ((bytes.drop place).take width)
  have hlt := LittleEndian.decode_lt ((bytes.drop place).take width)
  rw [hlength] at hencode hlt
  exact ⟨hencode, hlt⟩

/-- Writing the record that 26 bytes spell gives these bytes back. -/
theorem encode_decode (h : bytes.length = size) : (decode bytes).encode = bytes := by
  obtain ⟨htimestamp, htimestampLt⟩ := encode_decode_field h 0 8 (by decide)
  obtain ⟨hsequence, hsequenceLt⟩ := encode_decode_field h 8 4 (by decide)
  obtain ⟨htype, htypeLt⟩ := encode_decode_field h 12 2 (by decide)
  obtain ⟨hoffset, hoffsetLt⟩ := encode_decode_field h 14 8 (by decide)
  obtain ⟨hlength, hlengthLt⟩ := encode_decode_field h 22 4 (by decide)
  rw [List.drop_zero] at htimestamp htimestampLt
  rw [encode, decode]
  simp only [UInt64.toUInt64_toInt64, UInt32.toUInt32_toInt32, UInt16.toUInt16_toInt16]
  rw [UInt64.toNat_ofNat_of_lt' htimestampLt, UInt32.toNat_ofNat_of_lt' hsequenceLt,
    UInt16.toNat_ofNat_of_lt' htypeLt, UInt64.toNat_ofNat_of_lt' hoffsetLt,
    UInt32.toNat_ofNat_of_lt' hlengthLt, htimestamp, hsequence, htype, hoffset, hlength,
    append_fields h]

end HeaderRecord

/-! ## Files of whole records -/

namespace HeadersFile

open HeaderRecord (size nth)

variable {bytes : Bytes} {hs : List HeaderRecord} {k : Nat}

/-- A file consists of these records: it has as many bytes as they have, and each one stands at its
place. -/
structure Consists (bytes : Bytes) (hs : List HeaderRecord) : Prop where
  length_eq : bytes.length = hs.length * size
  record_eq : ∀ n (hn : n < hs.length), (bytes.drop (n * size)).take size = hs[n].encode

/-- What is written for records consists of them. -/
theorem consists_flatMap_encode (hs : List HeaderRecord) :
    Consists (hs.flatMap HeaderRecord.encode) hs where
  length_eq := HeaderRecord.length_flatMap_encode hs
  record_eq n hn := by
    rw [HeaderRecord.drop_flatMap_encode, List.drop_eq_getElem_cons hn, List.flatMap_cons]
    exact List.take_left' (HeaderRecord.length_encode _)

/-- Whole records are read at their places, and what is read there was written there. -/
theorem Consists.nth_eq (h : Consists bytes hs) {n : Nat} (hn : n < hs.length) :
    nth bytes n = hs[n] := by
  rw [nth, h.record_eq n hn, HeaderRecord.decode_encode]

/-- A file that consists of records has nothing else in it. -/
theorem Consists.eq_flatMap_encode (h : Consists bytes hs) :
    bytes = hs.flatMap HeaderRecord.encode := by
  induction hs generalizing bytes with
  | nil => exact List.length_eq_zero_iff.mp (h.length_eq.trans (Nat.zero_mul _))
  | cons header hs ih =>
      have hfirst : bytes.take size = header.encode := by
        simpa using h.record_eq 0 (Nat.zero_lt_succ _)
      have hrest : Consists (bytes.drop size) hs := by
        constructor
        · rw [List.length_drop, h.length_eq, List.length_cons, Nat.succ_mul, Nat.add_sub_cancel]
        · intro n hn
          have hrecord := h.record_eq (n + 1) (Nat.succ_lt_succ hn)
          rwa [Nat.succ_mul, Nat.add_comm, ← List.drop_drop, List.getElem_cons_succ] at hrecord
      rw [List.flatMap_cons, ← hfirst, ← ih hrest, List.take_append_drop]

/-- Any bytes of a whole number of records consist of what is read at their places. -/
theorem consists_map_nth (h : bytes.length = k * size) :
    Consists bytes ((List.range k).map (nth bytes)) := by
  have hlength : ((List.range k).map (nth bytes)).length = k := by
    rw [List.length_map, List.length_range]
  constructor
  · rw [hlength, h]
  · intro n hn
    rw [hlength] at hn
    have hrecord : ((bytes.drop (n * size)).take size).length = size := by
      have hle := Nat.mul_le_mul_right size (Nat.succ_le_of_lt hn)
      rw [List.length_take, List.length_drop, h]
      rw [Nat.succ_mul] at hle
      omega
    rw [List.getElem_map, List.getElem_range, nth, HeaderRecord.encode_decode hrecord]

/-- What is written for records as long as nobody cancels. -/
theorem layOut_none (hs : List HeaderRecord) :
    layOut none hs = (hs.flatMap HeaderRecord.encode, .ok ()) := by
  rw [layOut_eq, Patience.upTo, List.take_length]
  rfl

theorem layOut_none_eq_iff : layOut none hs = (bytes, .ok ()) ↔ Consists bytes hs := by
  rw [layOut_none, Prod.mk.injEq, and_iff_left rfl]
  constructor
  · rintro rfl
    exact consists_flatMap_encode hs
  · exact fun h => h.eq_flatMap_encode.symm

/-- There is one list of records that a file of whole records consists of. -/
theorem consists_iff_eq_map_nth (h : bytes.length = k * size) :
    Consists bytes hs ↔ hs = (List.range k).map (nth bytes) := by
  constructor
  · intro hconsists
    have hlength : hs.length = k :=
      Nat.eq_of_mul_eq_mul_right (by decide) (hconsists.length_eq.symm.trans h)
    apply List.ext_getElem
    · rw [hlength, List.length_map, List.length_range]
    · intro n hn _
      rw [List.getElem_map, List.getElem_range, hconsists.nth_eq hn]
  · rintro rfl
    exact consists_map_nth h

/-- Records that are appended stand behind those of which the file consisted. -/
theorem Consists.append {d d' : Disk} {base : Path} {s : StreamId} {more : List HeaderRecord}
    {patience : Patience} (h : d.Rooted base)
    (htype : d.node? (Extent.typeDirectory base s.type) = some .directory)
    (hconsists : Consists (d.bytesAt (Extent.ofStream base s).headers) hs)
    (hrun : append d (Extent.ofStream base s) more patience = (.ok (), d')) :
    Consists (d'.bytesAt (Extent.ofStream base s).headers) (hs ++ more) := by
  obtain ⟨-, -, hnode, -⟩ := append_eq_ok h htype hrun
  rw [Disk.bytesAt_eq hnode, hconsists.eq_flatMap_encode, ← List.flatMap_append]
  exact consists_flatMap_encode _

/-- Records and their bytes determine each other, one by one and in files of any length, and files
of whole records are what appending makes. -/
theorem determine_each_other :
    (∀ h : HeaderRecord, h.encode.length = size ∧ HeaderRecord.decode h.encode = h) ∧
      (∀ bytes : Bytes, bytes.length = size → (HeaderRecord.decode bytes).encode = bytes) ∧
      (∀ hs bytes, layOut none hs = (bytes, .ok ()) ↔ Consists bytes hs) ∧
      (∀ k bytes hs, bytes.length = k * size →
        (Consists bytes hs ↔ hs = (List.range k).map (nth bytes))) ∧
      ∀ (d d' : Disk) base s hs more patience, d.Rooted base →
        d.node? (Extent.typeDirectory base s.type) = some .directory →
        Consists (d.bytesAt (Extent.ofStream base s).headers) hs →
        append d (Extent.ofStream base s) more patience = (.ok (), d') →
        Consists (d'.bytesAt (Extent.ofStream base s).headers) (hs ++ more) := by
  refine ⟨fun h => ⟨h.length_encode, h.decode_encode⟩, ?_, ?_, ?_, ?_⟩
  · intro bytes
    exact HeaderRecord.encode_decode
  · intro hs bytes
    exact layOut_none_eq_iff
  · intro k bytes hs
    exact consists_iff_eq_map_nth
  · intro d d' base s hs more patience hrooted htype hconsists
    exact hconsists.append hrooted htype

/-- A record with nothing but negative numbers. -/
def negative : HeaderRecord := ⟨-5, -1, -2, -3, -4⟩

/-- A record of negative numbers before 26 bytes that nobody wrote as a record, and its append to a
stream that has no files yet. -/
theorem determine_each_other_of_negative :
    HeaderRecord.decode negative.encode = negative ∧
      (HeaderRecord.decode (List.replicate size 255)).encode = List.replicate size 255 ∧
      Consists (negative.encode ++ List.replicate size 255) [negative, ⟨-1, -1, -1, -1, -1⟩] ∧
      ∃ d d' : Disk, append d (Extent.ofStream [] Archive.orders) [negative] none = (.ok (), d') ∧
        Consists (d'.bytesAt (Extent.ofStream [] Archive.orders).headers) [negative] := by
  obtain ⟨hrecord, hbytes, -, hfile, hdisk⟩ := determine_each_other
  obtain ⟨d, hprepare, hrooted, htype, hagree⟩ :=
    Archive.vacant_blank.rooted.prepare_extent Archive.orders
  have hnone : d.bytesAt (Extent.ofStream [] Archive.orders).headers = [] := by
    rw [Disk.bytesAt_congr (hagree _ ((Extent.isFileOf_headers [] _).ne_typeDirectory _))]
    rfl
  obtain ⟨d', hrun⟩ := exists_append hrooted htype (layOut_none [negative]) (by
    rw [HeaderRecord.length_flatMap_encode]
    exact Nat.le_trans (by decide) (Nat.sub_le_sub_left (Nat.le_of_eq (congrArg _ hnone)) _))
  refine ⟨(hrecord negative).2, hbytes _ List.length_replicate, ?_, d, d', hrun, ?_⟩
  · refine (hfile 2 _ _ (by decide)).mpr ?_
    decide
  · refine hdisk d d' [] Archive.orders [] [negative] none hrooted htype ?_ hrun
    rw [hnone]
    exact consists_flatMap_encode []

end HeadersFile

end StreamStore
