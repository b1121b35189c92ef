/-!
# Hexadecimal digits

Writing a number with a given count of lowercase hexadecimal digits, and reading digits of either
case.  Main statements: `Hex.decode?_encode`, reading what was written gives the number back, and
`Hex.length_encode`, the count of digits is the one asked for.
-/

namespace StreamStore.Hex

def digit (n : Nat) : Char :=
  if n < 10 then Char.ofNat (48 + n) else Char.ofNat (87 + n)

/-- The number a digit of either case stands for. -/
def value? (c : Char) : Option Nat :=
  if '0' ≤ c ∧ c ≤ '9' then some (c.toNat - 48)
  else if 'a' ≤ c ∧ c ≤ 'f' then some (c.toNat - 87)
  else if 'A' ≤ c ∧ c ≤ 'F' then some (c.toNat - 55)
  else none

def isDigit (c : Char) : Bool := (value? c).isSome

/-- The last `width` hexadecimal digits of a number, most significant first. -/
def encode : Nat → Nat → List Char
  | 0, _ => []
  | width + 1, n => encode width (n / 16) ++ [digit (n % 16)]

/-- The number that digits continue, when `n` has been read already. -/
def decodeFrom? (n : Nat) : List Char → Option Nat
  | [] => some n
  | c :: cs => (value? c).bind fun d => decodeFrom? (16 * n + d) cs

def decode? (cs : List Char) : Option Nat := decodeFrom? 0 cs

/-- Digits without leading zeros, a single zero for zero. -/
def minimal (n : Nat) : List Char :=
  match (encode 32 n).dropWhile (· = '0') with
  | [] => ['0']
  | cs => cs

@[simp] theorem length_encode (width n : Nat) : (encode width n).length = width := by
  induction width generalizing n with
  | zero => rfl
  | succ width ih => simp [encode, ih]

theorem value?_digit {n : Nat} (h : n < 16) : value? (digit n) = some n := by
  have hall : ∀ m : Fin 16, value? (digit m.val) = some m.val := by decide
  exact hall ⟨n, h⟩

theorem decodeFrom?_append (n : Nat) (xs ys : List Char) :
    decodeFrom? n (xs ++ ys) = (decodeFrom? n xs).bind fun m => decodeFrom? m ys := by
  induction xs generalizing n with
  | nil => rfl
  | cons x xs ih =>
    simp only [List.cons_append, decodeFrom?]
    cases value? x with
    | none => rfl
    | some d => simp [ih]

theorem decode?_encode {width n : Nat} (h : n < 1 <<< (4 * width)) :
    decode? (encode width n) = some n := by
  induction width generalizing n with
  | zero =>
    have hn : n = 0 := by simpa using h
    simp [hn, encode, decode?, decodeFrom?]
  | succ width ih =>
    have hdiv : n / 16 < 1 <<< (4 * width) := by
      apply Nat.div_lt_of_lt_mul
      rwa [Nat.mul_succ, Nat.shiftLeft_add, Nat.shiftLeft_eq, Nat.mul_comm] at h
    have hmod : n % 16 < 16 := Nat.mod_lt _ (by decide)
    have hread := ih hdiv
    simp only [decode?] at hread
    simp only [decode?, encode, decodeFrom?_append, hread, Option.bind_some, decodeFrom?,
      value?_digit hmod]
    congr 1
    omega

end StreamStore.Hex
