import Mathlib.Data.Int.Notation
import StreamStore.Proofs.Text.Boundaries
import StreamStore.Storage.DataFile

/-!
# Type names in buffers

A writer cuts a type name by looking at single bytes, from the limit backwards.  What it keeps is
the longest leading part of the name that fits, whole characters only, so a reader who is told how
many bytes of the buffer are in use gets back just that part.
-/

namespace StreamStore

namespace TypeBuffer

/-- A buffer in terms of the part of the name that it keeps. -/
theorem ofType_eq (type : String) :
    ofType type =
      let name := Utf8.encode (Utf8.fitting maxEventTypeLength type.toList)
      ⟨name ++ List.replicate (maxEventTypeLength - name.length) 0, name.length⟩ := by
  have hkept := Utf8.fitting_prefix maxEventTypeLength type.toList
  have htake := List.prefix_iff_eq_take.mp (Utf8.encode_prefix_encode hkept)
  rw [ofType, Utf8.lastBoundary_encode, ← htake]

/-- The bytes in use are those of the part of the name that fits. -/
theorem take_used_ofType (type : String) :
    (ofType type).bytes.take (ofType type).used =
      Utf8.encode (Utf8.fitting maxEventTypeLength type.toList) := by
  rw [ofType_eq, List.take_left]

theorem drop_used_ofType (type : String) :
    (ofType type).bytes.drop (ofType type).used =
      List.replicate (maxEventTypeLength - (ofType type).used) 0 := by
  rw [ofType_eq, List.drop_left]

theorem used_ofType_of_le {type : String} (h : type.utf8ByteSize ≤ maxEventTypeLength) :
    (ofType type).used = type.utf8ByteSize := by
  rw [← Utf8.length_encode_toList] at h ⊢
  rw [ofType_eq, Utf8.fitting_of_length_le h]

/-- How many bytes are in use is a number that the field of a header holds. -/
theorem toInt_used_ofType (type : String) :
    (Int16.ofNat (ofType type).used).toInt = (ofType type).used := by
  have hle : (ofType type).used ≤ 64 := used_ofType_le type
  exact Int16.toInt_ofNat_of_lt (by omega)

/-- A name that is cut leaves at most three bytes of its buffer unused. -/
theorem lt_used_ofType_add {type : String} (h : maxEventTypeLength < type.utf8ByteSize) :
    maxEventTypeLength < (ofType type).used + 4 := by
  rw [← Utf8.length_encode_toList] at h
  rw [ofType_eq]
  exact Utf8.lt_length_fitting_add h

end TypeBuffer

namespace DataFile

/-- A reader gets the part of a type name that its writer kept. -/
theorem typeName_ofType {header : HeaderRecord} {type : String}
    (hused : header.typeLength = Int16.ofNat (TypeBuffer.ofType type).used) :
    typeName header (TypeBuffer.ofType type).bytes =
      .ok (String.ofList (Utf8.fitting maxEventTypeLength type.toList)) := by
  have hle : (TypeBuffer.ofType type).used ≤ 64 := TypeBuffer.used_ofType_le type
  have hlength : header.typeLength.toInt = (TypeBuffer.ofType type).used := by
    rw [hused, TypeBuffer.toInt_used_ofType]
  have hbounds : ¬(((TypeBuffer.ofType type).used : Int) < 0 ∨
      (maxEventTypeLength : Int) < (TypeBuffer.ofType type).used) := by
    rw [maxEventTypeLength]
    omega
  simp only [typeName, hlength, if_neg hbounds, Int.toNat_natCast, TypeBuffer.take_used_ofType,
    Utf8.decode_encode]

end DataFile

namespace TypeBuffer

/-- A buffer holds the longest leading part of a type name that fits, and readers find it there. -/
structure HoldsLongest (buffer : TypeBuffer) (type kept : String) : Prop where
  /-- Going back from the limit, or from the end of a shorter name, ends where the bytes in use
  end. -/
  goesBack : Utf8.GoesBack (Utf8.encode type.toList) (min type.utf8ByteSize maxEventTypeLength)
    buffer.used
  length_bytes : buffer.bytes.length = maxEventTypeLength
  take_used : buffer.bytes.take buffer.used = kept.toUTF8.data.toList
  drop_used : buffer.bytes.drop buffer.used =
    List.replicate (maxEventTypeLength - buffer.used) 0
  leads : kept.toList <+: type.toList
  fits : kept.utf8ByteSize ≤ maxEventTypeLength
  longest : ∀ other : String, other.toList <+: type.toList →
    other.utf8ByteSize ≤ maxEventTypeLength → other.toList <+: kept.toList
  used_of_le : type.utf8ByteSize ≤ maxEventTypeLength → buffer.used = type.utf8ByteSize
  used_of_lt : maxEventTypeLength < type.utf8ByteSize → 61 ≤ buffer.used ∧ buffer.used ≤ 64
  toInt_used : (Int16.ofNat buffer.used).toInt = buffer.used
  /-- A header that says how many bytes are in use gets that part back. -/
  typeName_eq : ∀ header : HeaderRecord, header.typeLength = Int16.ofNat buffer.used →
    DataFile.typeName header buffer.bytes = .ok kept

/-- Of every type name the buffer holds the longest leading part that fits. -/
theorem holdsLongest_ofType (type : String) : ∃ kept, (ofType type).HoldsLongest type kept := by
  refine ⟨String.ofList (Utf8.fitting maxEventTypeLength type.toList), ?_⟩
  constructor
  · rw [← Utf8.length_encode_toList]
    exact Utf8.goesBack_lastBoundary _ _
  · exact length_bytes_ofType type
  · rw [take_used_ofType, ← Utf8.encode_toList, String.toList_ofList]
  · exact drop_used_ofType type
  · rw [String.toList_ofList]
    exact Utf8.fitting_prefix _ _
  · rw [Utf8.utf8ByteSize_ofList]
    exact Utf8.length_encode_fitting _ _
  · intro other hleads hfits
    rw [← Utf8.length_encode_toList] at hfits
    rw [String.toList_ofList]
    exact Utf8.prefix_fitting hleads hfits
  · exact used_ofType_of_le
  · intro hlong
    have hcut := lt_used_ofType_add hlong
    rw [maxEventTypeLength] at hcut
    exact ⟨by omega, used_ofType_le type⟩
  · exact toInt_used_ofType type
  · exact fun header hused => DataFile.typeName_ofType hused

/-- A character that the limit falls into is left out as a whole. -/
example : (ofType (String.ofList (List.replicate 63 'a' ++ ['é']))).used = 63 := by
  decide +kernel

end TypeBuffer

end StreamStore
