import StreamStore.Proofs.Text.Utf8
import StreamStore.Stream.Type

/-!
# The grammar of stream types

Which texts name stream types is said of their bytes: there are 1 to 64 of them, each is an ASCII
letter, a digit, `-`, `_` or `.`, and the first one is no `.`.  A character beyond ASCII has bytes
from `0x80` on only, so it makes no difference whether characters or bytes are looked at.
-/

namespace StreamStore

namespace Utf8

theorem encodeChar_of_lt {c : Char} (h : c.toNat < 0x80) :
    encodeChar c = [UInt8.ofNat c.toNat] := by
  rw [encodeChar]
  exact if_pos h

/-- No byte of a character beyond ASCII is one of an ASCII character. -/
theorem le_of_mem_encodeChar {c : Char} (h : 0x80 ≤ c.toNat) {b : UInt8}
    (hb : b ∈ encodeChar c) : 0x80 ≤ b.toNat := by
  have hlt := toNat_lt_surrogates_or c
  rw [encodeChar] at hb
  simp only [if_neg (Nat.not_lt.mpr h)] at hb
  split at hb
  · simp only [List.mem_cons, List.not_mem_nil, or_false] at hb
    rcases hb with rfl | rfl <;> (rw [toNat_ofNat_of_lt (by omega)]; omega)
  · split at hb
    · simp only [List.mem_cons, List.not_mem_nil, or_false] at hb
      rcases hb with rfl | rfl | rfl <;> (rw [toNat_ofNat_of_lt (by omega)]; omega)
    · simp only [List.mem_cons, List.not_mem_nil, or_false] at hb
      rcases hb with rfl | rfl | rfl | rfl <;> (rw [toNat_ofNat_of_lt (by omega)]; omega)

end Utf8

namespace StreamType

/-- A byte that may stand in a stream type: a letter, a digit, `-`, `_` or `.`. -/
def IsTypeByte (b : UInt8) : Prop :=
  (0x61 ≤ b ∧ b ≤ 0x7A) ∨ (0x41 ≤ b ∧ b ≤ 0x5A) ∨ (0x30 ≤ b ∧ b ≤ 0x39) ∨
    b = 0x2D ∨ b = 0x5F ∨ b = 0x2E

instance (b : UInt8) : Decidable (IsTypeByte b) :=
  inferInstanceAs (Decidable (_ ∨ _))

/-- The bytes of a text that names a stream type. -/
structure IsTypeName (bytes : Bytes) : Prop where
  length_pos : 1 ≤ bytes.length
  length_le : bytes.length ≤ 64
  all_isTypeByte : ∀ b ∈ bytes, IsTypeByte b
  head?_ne : bytes.head? ≠ some 0x2E

theorem isTypeByte_iff {b : UInt8} :
    IsTypeByte b ↔ (97 ≤ b.toNat ∧ b.toNat ≤ 122) ∨ (65 ≤ b.toNat ∧ b.toNat ≤ 90) ∨
      (48 ≤ b.toNat ∧ b.toNat ≤ 57) ∨ b.toNat = 45 ∨ b.toNat = 95 ∨ b.toNat = 46 := by
  simp only [IsTypeByte, UInt8.le_iff_toNat_le, ← UInt8.toNat_inj]
  rfl

theorem allows_iff_toNat {c : Char} :
    allows c = true ↔ (97 ≤ c.toNat ∧ c.toNat ≤ 122) ∨ (65 ≤ c.toNat ∧ c.toNat ≤ 90) ∨
      (48 ≤ c.toNat ∧ c.toNat ≤ 57) ∨ c.toNat = 45 ∨ c.toNat = 95 ∨ c.toNat = 46 := by
  simp only [allows, Bool.or_eq_true, Bool.and_eq_true, decide_eq_true_eq, Char.le_def,
    UInt32.le_iff_toNat_le, Char.ext_iff, ← UInt32.toNat_inj, or_assoc]
  rfl

/-- A character is allowed where all its bytes are. -/
theorem allows_iff {c : Char} : allows c = true ↔ ∀ b ∈ Utf8.encodeChar c, IsTypeByte b := by
  rw [allows_iff_toNat]
  by_cases hascii : c.toNat < 0x80
  · rw [Utf8.encodeChar_of_lt hascii, List.forall_mem_singleton, isTypeByte_iff,
      Utf8.toNat_ofNat_of_lt (by omega)]
  · have hbytes := Utf8.length_encodeChar c
    have hwidth : 0 < Utf8.width c := by
      unfold Utf8.width
      split_ifs <;> decide
    obtain ⟨b, hb⟩ := List.exists_mem_of_length_pos (hbytes ▸ hwidth)
    have hle := Utf8.le_of_mem_encodeChar (Nat.le_of_not_lt hascii) hb
    refine iff_of_false (by omega) fun hall => ?_
    have hbyte := isTypeByte_iff.mp (hall b hb)
    omega

theorem fault?_eq_none_iff {s : String} :
    fault? s = none ↔ s ≠ "" ∧ s.utf8ByteSize ≤ maxStreamTypeLength ∧
      s.toList.head? ≠ some '.' ∧ ∀ c ∈ s.toList, allows c = true := by
  rw [fault?]
  split_ifs with hempty hlong hdot
  · exact iff_of_false nofun fun h => h.1 (String.isEmpty_iff.mp hempty)
  · exact iff_of_false nofun fun h => Nat.not_lt.mpr h.2.1 hlong
  · exact iff_of_false nofun fun h => h.2.2.1 hdot
  · rw [Option.map_eq_none_iff, List.find?_eq_none]
    constructor
    · intro hall
      refine ⟨fun heq => hempty (String.isEmpty_iff.mpr heq), Nat.le_of_not_lt hlong, hdot,
        fun c hc => ?_⟩
      simpa using hall c hc
    · rintro ⟨-, -, -, hall⟩ c hc
      rw [hall c hc]
      decide

/-- The first byte of a text is that of a full stop where its first character is. -/
theorem head?_encode_eq_iff {cs : List Char} (hall : ∀ c ∈ cs, allows c = true) :
    (Utf8.encode cs).head? = some 0x2E ↔ cs.head? = some '.' := by
  cases cs with
  | nil => exact iff_of_false nofun nofun
  | cons c cs =>
      have hc := allows_iff_toNat.mp (hall c List.mem_cons_self)
      rw [Utf8.encode, List.flatMap_cons, Utf8.encodeChar_of_lt (by omega), List.singleton_append,
        List.head?_cons, List.head?_cons, Option.some_inj, Option.some_inj, ← UInt8.toNat_inj,
        Utf8.toNat_ofNat_of_lt (by omega), ← Char.toNat_inj]
      rfl

/-- A text names a stream type where its bytes do. -/
theorem fault?_eq_none_iff_isTypeName {s : String} :
    fault? s = none ↔ IsTypeName (Utf8.encode s.toList) := by
  have hlength := Utf8.length_encode_toList s
  have hall : (∀ b ∈ Utf8.encode s.toList, IsTypeByte b) ↔ ∀ c ∈ s.toList, allows c = true := by
    simp only [Utf8.encode, List.mem_flatMap, allows_iff]
    constructor
    · intro h c hc b hb
      exact h b ⟨c, hc, hb⟩
    · rintro h b ⟨c, hc, hb⟩
      exact h c hc b hb
  have hpos : 1 ≤ s.utf8ByteSize ↔ s ≠ "" := by
    rw [Nat.one_le_iff_ne_zero, Ne, String.utf8ByteSize_eq_zero_iff]
  rw [fault?_eq_none_iff]
  constructor
  · rintro ⟨hne, hle, hdot, hallowed⟩
    rw [Ne, ← head?_encode_eq_iff hallowed] at hdot
    exact ⟨hlength ▸ hpos.mpr hne, hlength ▸ hle, hall.mpr hallowed, hdot⟩
  · rintro ⟨hone, hle, hbytes, hdot⟩
    have hallowed := hall.mp hbytes
    rw [Ne, head?_encode_eq_iff hallowed] at hdot
    exact ⟨hpos.mp (hlength ▸ hone), hlength ▸ hle, hdot, hallowed⟩

/-- A text is taken as a stream type where its bytes name one. -/
theorem exists_ofString_iff {s : String} :
    (∃ t, ofString s = .ok t) ↔ IsTypeName (Utf8.encode s.toList) := by
  rw [← fault?_eq_none_iff_isTypeName]
  constructor
  · rintro ⟨t, ht⟩
    rw [← ofString_eq_ok_iff.mp ht]
    exact t.valid
  · exact fun h => ⟨⟨s, h⟩, ofString_text ⟨s, h⟩⟩

end StreamType

end StreamStore
