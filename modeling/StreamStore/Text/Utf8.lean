/-!
# UTF-8

Characters as bytes and back.  A refusal says where the bad sequence starts and how many bytes it
spoils, or that the bytes end inside a sequence.  Bytes are cut where a character begins, which is
seen from the byte there alone.
-/

namespace StreamStore

abbrev Bytes := List UInt8

namespace Utf8

/-- Why bytes are not UTF-8. -/
inductive Fault
  /-- The sequence that starts at an index can be completed by no further byte. -/
  | invalid (index length : Nat)
  /-- The bytes end inside the sequence that starts at an index. -/
  | incomplete (index : Nat)
deriving Repr, DecidableEq

def Fault.message : Fault → String
  | invalid index length => s!"invalid utf-8 sequence of {length} bytes from index {index}"
  | incomplete index => s!"incomplete utf-8 byte sequence from index {index}"

def width (c : Char) : Nat :=
  if c.toNat < 0x80 then 1 else if c.toNat < 0x800 then 2 else if c.toNat < 0x10000 then 3 else 4

/-- The bytes of a character. -/
def encodeChar (c : Char) : Bytes :=
  let n := c.toNat
  if n < 0x80 then
    [UInt8.ofNat n]
  else if n < 0x800 then
    [UInt8.ofNat (0xC0 + n / 0x40), UInt8.ofNat (0x80 + n % 0x40)]
  else if n < 0x10000 then
    [UInt8.ofNat (0xE0 + n / 0x1000), UInt8.ofNat (0x80 + n / 0x40 % 0x40),
      UInt8.ofNat (0x80 + n % 0x40)]
  else
    [UInt8.ofNat (0xF0 + n / 0x40000), UInt8.ofNat (0x80 + n / 0x1000 % 0x40),
      UInt8.ofNat (0x80 + n / 0x40 % 0x40), UInt8.ofNat (0x80 + n % 0x40)]

def encode (cs : List Char) : Bytes := cs.flatMap encodeChar

/-- The bounds on the byte after a lead byte and the number of bytes that follow the lead byte,
for the lead bytes of longer sequences. -/
def follow? (lead : UInt8) : Option (UInt8 × UInt8 × Nat) :=
  if 0xC2 ≤ lead ∧ lead ≤ 0xDF then some (0x80, 0xBF, 1)
  else if lead = 0xE0 then some (0xA0, 0xBF, 2)
  else if lead = 0xED then some (0x80, 0x9F, 2)
  else if 0xE1 ≤ lead ∧ lead ≤ 0xEF then some (0x80, 0xBF, 2)
  else if lead = 0xF0 then some (0x90, 0xBF, 3)
  else if 0xF1 ≤ lead ∧ lead ≤ 0xF3 then some (0x80, 0xBF, 3)
  else if lead = 0xF4 then some (0x80, 0x8F, 3)
  else none

def low (b : UInt8) : Nat := b.toNat % 0x40

/-- Read `need` continuation bytes, the first within the given bounds, into a code point. -/
def continuation (index got : Nat) (lo hi : UInt8) (need point : Nat) (bytes : Bytes) :
    Except Fault (Nat × Bytes) :=
  match need, bytes with
  | 0, bytes => .ok (point, bytes)
  | _ + 1, [] => .error (.incomplete index)
  | need + 1, b :: bytes =>
    if lo ≤ b ∧ b ≤ hi then
      continuation index (got + 1) 0x80 0xBF need (0x40 * point + low b) bytes
    else
      .error (.invalid index got)

theorem length_of_continuation {index got need point : Nat} {lo hi : UInt8} {bytes rest : Bytes}
    {point' : Nat} (h : continuation index got lo hi need point bytes = .ok (point', rest)) :
    rest.length ≤ bytes.length := by
  induction need generalizing got lo hi point bytes with
  | zero =>
    unfold continuation at h
    cases h
    exact Nat.le_refl _
  | succ need ih =>
    cases bytes with
    | nil => simp [continuation] at h
    | cons b bytes =>
      unfold continuation at h
      split at h
      · have hle := ih h
        simp only [List.length_cons]
        omega
      · cases h

/-- The value bits of a lead byte that `need` bytes follow. -/
def leadBits (lead : UInt8) (need : Nat) : Nat :=
  if need = 1 then lead.toNat % 0x20 else if need = 2 then lead.toNat % 0x10 else lead.toNat % 0x08

/-- The first character of some bytes that start at an index, and the bytes after it. -/
def next (index : Nat) (lead : UInt8) (bytes : Bytes) : Except Fault (Char × Bytes) :=
  if lead < 0x80 then
    .ok (Char.ofNat lead.toNat, bytes)
  else
    match follow? lead with
    | none => .error (.invalid index 1)
    | some (lo, hi, need) =>
      (continuation index 1 lo hi need (leadBits lead need) bytes).map
        fun (point, rest) => (Char.ofNat point, rest)

theorem length_of_next {index : Nat} {lead : UInt8} {bytes rest : Bytes} {c : Char}
    (h : next index lead bytes = .ok (c, rest)) : rest.length ≤ bytes.length := by
  unfold next at h
  split at h
  · cases h
    exact Nat.le_refl _
  · split at h
    · cases h
    · rename_i lo hi need _
      cases hc : continuation index 1 lo hi need (leadBits lead need) bytes with
      | error fault => simp [hc, Except.map] at h
      | ok found =>
        simp only [hc, Except.map, Except.ok.injEq, Prod.mk.injEq] at h
        have hle := length_of_continuation hc
        rw [h.2] at hle
        exact hle

/-- The characters of bytes that start at an index. -/
def decodeFrom (index : Nat) (bytes : Bytes) : Except Fault (List Char) :=
  match bytes with
  | [] => .ok []
  | lead :: bytes =>
    match h : next index lead bytes with
    | .error fault => .error fault
    | .ok (c, rest) =>
      have := length_of_next h
      (decodeFrom (index + (bytes.length + 1 - rest.length)) rest).map (c :: ·)
termination_by bytes.length
decreasing_by simp only [List.length_cons]; omega

def decode (bytes : Bytes) : Except Fault (List Char) := decodeFrom 0 bytes

theorem length_encodeChar (c : Char) : (encodeChar c).length = width c := by
  unfold encodeChar width
  simp only
  split
  · rfl
  · split
    · rfl
    · split <;> rfl

theorem length_encode_cons (c : Char) (cs : List Char) :
    (encode (c :: cs)).length = width c + (encode cs).length := by
  simp [encode, length_encodeChar]

/-! ## Cutting bytes -/

/-- Whether a byte goes on with a character that an earlier byte began. -/
def isContinuation (b : UInt8) : Bool := 0x80 ≤ b && b < 0xC0

/-- Whether the bytes of a text may be cut at an index: at either end, or where a character
begins. -/
def isBoundary (bytes : Bytes) (index : Nat) : Bool :=
  index == 0 || match bytes[index]? with
    | some b => !isContinuation b
    | none => index == bytes.length

/-- The last index, up to a given one, at which the bytes of a text may be cut. -/
def lastBoundary (bytes : Bytes) : Nat → Nat
  | 0 => 0
  | index + 1 => if isBoundary bytes (index + 1) then index + 1 else lastBoundary bytes index

theorem lastBoundary_le (bytes : Bytes) (index : Nat) : lastBoundary bytes index ≤ index := by
  induction index with
  | zero => exact Nat.le_refl 0
  | succ index ih =>
    unfold lastBoundary
    split
    · exact Nat.le_refl _
    · exact Nat.le_succ_of_le ih

end Utf8

end StreamStore
