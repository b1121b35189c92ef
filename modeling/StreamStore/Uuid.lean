import StreamStore.Text.Hex

/-!
# UUIDs

A UUID is 128 bits.  It is written as 32 hexadecimal digits or, hyphenated, in groups of 8, 4, 4,
4 and 12; it is read in either form, the hyphenated one also in braces or after `urn:uuid:`.
-/

namespace StreamStore

/-- A universally unique identifier. -/
structure Uuid where
  /-- The bits, the first byte most significant. -/
  bits : BitVec 128
deriving DecidableEq, Repr

namespace Uuid

instance : Inhabited Uuid := ⟨⟨0⟩⟩

def ofNat (n : Nat) : Uuid := ⟨BitVec.ofNat 128 n⟩

def toNat (u : Uuid) : Nat := u.bits.toNat

def digits (u : Uuid) : List Char := Hex.encode 32 u.toNat

def simple (u : Uuid) : String := String.ofList u.digits

/-- The digits with a hyphen after the 8th, 12th, 16th and 20th. -/
def hyphenated (u : Uuid) : String :=
  let cs := u.digits
  String.ofList (cs.take 8 ++ ['-'] ++ (cs.drop 8).take 4 ++ ['-'] ++ (cs.drop 12).take 4 ++
    ['-'] ++ (cs.drop 16).take 4 ++ ['-'] ++ cs.drop 20)

def ofDigits? (cs : List Char) : Option Uuid :=
  if cs.length = 32 then (Hex.decode? cs).map ofNat else none

/-- Read digits in hyphenated groups of 8, 4, 4, 4 and 12. -/
def ofHyphenated? (cs : List Char) : Option Uuid :=
  if cs.length = 36 ∧ cs[8]? = some '-' ∧ cs[13]? = some '-' ∧ cs[18]? = some '-'
      ∧ cs[23]? = some '-' then
    ofDigits? (cs.take 8 ++ (cs.drop 9).take 4 ++ (cs.drop 14).take 4 ++ (cs.drop 19).take 4 ++
      cs.drop 24)
  else none

/-- Read any of the accepted forms. -/
def parse? (s : String) : Option Uuid :=
  let cs := s.toList
  if cs.length = 32 then ofDigits? cs
  else if cs.length = 36 then ofHyphenated? cs
  else if cs.length = 38 ∧ cs.head? = some '\x7b' ∧ cs.getLast? = some '\x7d' then
    ofHyphenated? ((cs.drop 1).take 36)
  else if cs.length = 45 ∧ cs.take 9 = "urn:uuid:".toList then ofHyphenated? (cs.drop 9)
  else none

theorem toNat_lt (u : Uuid) : u.toNat < 1 <<< 128 :=
  Nat.lt_of_lt_of_eq u.bits.isLt (by decide)

@[simp] theorem ofNat_toNat (u : Uuid) : ofNat u.toNat = u := by
  cases u
  simp [ofNat, toNat]

@[simp] theorem length_digits (u : Uuid) : u.digits.length = 32 := Hex.length_encode ..

theorem ofDigits?_digits (u : Uuid) : ofDigits? u.digits = some u := by
  have hdecode : Hex.decode? (Hex.encode 32 u.toNat) = some u.toNat :=
    Hex.decode?_encode u.toNat_lt
  simp [ofDigits?, digits, hdecode]

theorem digits_injective {u v : Uuid} (h : u.digits = v.digits) : u = v := by
  have hu := ofDigits?_digits u
  rw [h, ofDigits?_digits v] at hu
  exact (Option.some.inj hu).symm

end Uuid

end StreamStore
