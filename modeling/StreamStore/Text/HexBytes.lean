import StreamStore.Text.Hex
import StreamStore.Text.Utf8

/-!
# Bytes as text

Bytes written with two hexadecimal digits each, and a short fingerprint for bytes that are too many
to be written.
-/

namespace StreamStore

namespace Bytes

/-- The hexadecimal digits of bytes, two for each. -/
def toHex (bytes : Bytes) : List Char := bytes.flatMap fun b => Hex.encode 2 b.toNat

/-- The bytes that hexadecimal digits write, two for each. -/
def ofHex? : List Char → Option Bytes
  | [] => some []
  | [_] => none
  | a :: b :: rest => do
    let n := 16 * (← Hex.value? a) + (← Hex.value? b)
    return UInt8.ofNat n :: (← ofHex? rest)

theorem ofHex?_toHex (bytes : Bytes) : ofHex? (toHex bytes) = some bytes := by
  induction bytes with
  | nil => rfl
  | cons b bytes ih =>
    have hb : b.toNat < 256 := b.toNat_lt
    have hhigh : b.toNat / 16 % 16 = b.toNat / 16 := Nat.mod_eq_of_lt (by omega)
    have hlow : b.toNat % 16 < 16 := Nat.mod_lt _ (by decide)
    have hsum : 16 * (b.toNat / 16) + b.toNat % 16 = b.toNat := by omega
    have hhead : Hex.encode 2 b.toNat = [Hex.digit (b.toNat / 16), Hex.digit (b.toNat % 16)] := by
      simp [Hex.encode, hhigh]
    rw [toHex, List.flatMap_cons, hhead, List.cons_append, List.cons_append, List.nil_append,
      ofHex?, Hex.value?_digit (by omega), Hex.value?_digit hlow]
    change (ofHex? (toHex bytes)).bind _ = _
    rw [ih]
    simp [hsum]

/-- A fingerprint of 64 bits: each byte is added by exclusive or, and the whole then multiplied by a
prime. -/
def fingerprint (bytes : Bytes) : UInt64 :=
  bytes.foldl (fun h b => (h ^^^ b.toUInt64) * 0x100000001b3) 0xcbf29ce484222325

end Bytes

end StreamStore
