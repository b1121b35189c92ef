import StreamStore.Text.Utf8

/-!
# Little-endian numbers

A number as a given count of bytes, least significant first.  Main statements: `decode_encode` and
`encode_decode`, the two directions undo each other.
-/

namespace StreamStore.LittleEndian

/-- The low bytes of a number, least significant first. -/
def encode : Nat → Nat → Bytes
  | 0, _ => []
  | width + 1, n => UInt8.ofNat (n % 256) :: encode width (n / 256)

/-- The number that bytes spell, least significant first. -/
def decode : Bytes → Nat
  | [] => 0
  | b :: bytes => b.toNat + 256 * decode bytes

@[simp] theorem length_encode (width n : Nat) : (encode width n).length = width := by
  induction width generalizing n with
  | zero => rfl
  | succ width ih => simp [encode, ih]

theorem decode_lt (bytes : Bytes) : decode bytes < 1 <<< (8 * bytes.length) := by
  induction bytes with
  | nil => simp [decode]
  | cons b bytes ih =>
    have hb : b.toNat < 256 := b.toNat_lt
    rw [decode, List.length_cons, Nat.mul_succ, Nat.shiftLeft_add, Nat.shiftLeft_eq _ 8]
    omega

theorem decode_encode {width n : Nat} (h : n < 1 <<< (8 * width)) :
    decode (encode width n) = n := by
  induction width generalizing n with
  | zero =>
    have hn : n = 0 := by simpa using h
    simp [encode, decode, hn]
  | succ width ih =>
    have hdiv : n / 256 < 1 <<< (8 * width) := by
      apply Nat.div_lt_of_lt_mul
      rwa [Nat.mul_succ, Nat.shiftLeft_add, Nat.shiftLeft_eq _ 8, Nat.mul_comm] at h
    have hmod : (UInt8.ofNat (n % 256)).toNat = n % 256 := by
      simp
    simp only [encode, decode, ih hdiv, hmod]
    omega

theorem encode_decode (bytes : Bytes) : encode bytes.length (decode bytes) = bytes := by
  induction bytes with
  | nil => rfl
  | cons b bytes ih =>
    have hb : b.toNat < 256 := b.toNat_lt
    have hmod : (b.toNat + 256 * decode bytes) % 256 = b.toNat := by omega
    have hdiv : (b.toNat + 256 * decode bytes) / 256 = decode bytes := by omega
    simp only [List.length_cons, encode, decode, hmod, hdiv, ih]
    simp

end StreamStore.LittleEndian
