/-!
# Binary fractions of 64 bits

The numbers of IEEE 754's binary64 format as bits, with rounding, products and comparisons in
exact arithmetic on natural numbers.  A finite number is `m · 2^q` up to its sign; rounding goes
to the nearest such number and, half way between two, to the one whose `m` is even.
-/

namespace StreamStore

/-- A number of the binary64 format. -/
structure Binary64 where
  bits : UInt64
deriving DecidableEq, Repr

namespace Binary64

def negative (x : Binary64) : Bool := 1 <<< 63 ≤ x.bits.toNat

/-- The bits without the sign.  They order the finite numbers by magnitude. -/
def magnitudeBits (x : Binary64) : Nat := x.bits.toNat % 1 <<< 63

/-- The magnitude bits of infinity, below which every number is finite. -/
def infinityBits : Nat := 0x7FF <<< 52

def oneBits : Nat := 0x3FF <<< 52

def isNaN (x : Binary64) : Bool := infinityBits < x.magnitudeBits

def isInfinite (x : Binary64) : Bool := x.magnitudeBits = infinityBits

/-- The factor `m` of a finite number's magnitude `m · 2^q`. -/
def significand (x : Binary64) : Nat :=
  let field : Nat := x.magnitudeBits >>> 52
  let fraction := x.magnitudeBits % 1 <<< 52
  if field = 0 then fraction else 1 <<< 52 + fraction

/-- The exponent `q` of a finite number's magnitude `m · 2^q`. -/
def exponent (x : Binary64) : Int :=
  let field : Nat := x.magnitudeBits >>> 52
  if field = 0 then -1074 else (field : Int) - 1075

def ofMagnitude (negative : Bool) (bits : Nat) : Binary64 :=
  ⟨UInt64.ofNat (if negative then 1 <<< 63 + bits else bits)⟩

def ofBits (bits : Nat) : Binary64 := ⟨UInt64.ofNat bits⟩

/-- The nearest natural number to a quotient; half way, the even one. -/
def roundHalfEven (num den : Nat) : Nat :=
  let quotient := num / den
  let rest := num % den
  if 2 * rest < den then quotient
  else if den < 2 * rest then quotient + 1
  else quotient + quotient % 2

/-- A quotient scaled by a power of two, as a quotient. -/
def scale (num den : Nat) (power : Int) : Nat × Nat :=
  if 0 ≤ power then (num <<< power.toNat, den) else (num, den <<< (-power).toNat)

/-- The nearest number to a quotient of natural numbers, infinity if it is too large. -/
def ofRatio (negative : Bool) (num den : Nat) : Binary64 :=
  if num = 0 ∨ den = 0 then ofMagnitude negative 0
  else
    let guess : Int := (num.log2 : Int) - den.log2
    let (n, d) := scale num den (-guess)
    let log : Int := if d ≤ n then guess else guess - 1
    let q : Int := max (log - 52) (-1074)
    let (n, d) := scale num den (-q)
    let m := roundHalfEven n d
    let bits := if m < 1 <<< 52 then m else (q + 1074).toNat <<< 52 + m
    ofMagnitude negative (min bits infinityBits)

def ofInt (n : Int) : Binary64 := ofRatio (n < 0) n.natAbs 1

/-- The nearest number to `digits · 10^power`.  Powers far outside the format's range are not
worked out. -/
def ofDecimal (negative : Bool) (digits : Nat) (power : Int) : Binary64 :=
  let places : Int := (Nat.log2 digits : Int) / 3 + 1 + power
  if digits = 0 ∨ places < -400 then ofMagnitude negative 0
  else if 700 < power then ofMagnitude negative infinityBits
  else if 0 ≤ power then ofRatio negative (digits * Nat.pow 10 power.toNat) 1
  else ofRatio negative digits (Nat.pow 10 (-power).toNat)

def mul (x y : Binary64) : Binary64 :=
  let (num, den) := scale (x.significand * y.significand) 1 (x.exponent + y.exponent)
  ofRatio (x.negative != y.negative) num den

/-- The nearest number to the quotient of two finite ones, the second not zero. -/
def div (x y : Binary64) : Binary64 :=
  let (num, den) := scale x.significand y.significand (x.exponent - y.exponent)
  ofRatio (x.negative != y.negative) num den

/-- The least natural number that is not below a finite number. -/
def ceil (x : Binary64) : Nat :=
  if x.negative then 0
  else
    let (num, den) := scale x.significand 1 x.exponent
    (num + den - 1) / den

def isShare (x : Binary64) : Bool :=
  !x.negative && 0 < x.magnitudeBits && x.magnitudeBits ≤ oneBits

end Binary64

end StreamStore
