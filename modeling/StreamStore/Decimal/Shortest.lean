import StreamStore.Decimal.Binary64

/-!
# Shortest decimals

The decimal with the fewest digits that rounds back to a number; of several the nearest, and the
greater one of two that are equally near.  It is found in exact arithmetic: from the grid of the
power of ten above the number on, grid by grid, the two neighbours of the number are compared with
the ends of the interval that rounds to the number.
-/

namespace StreamStore.Binary64

/-- A quotient of natural numbers, the denominator positive. -/
structure Ratio where
  num : Nat
  den : Nat

namespace Ratio

def compare (a b : Ratio) : Ordering := Ord.compare (a.num * b.den) (b.num * a.den)

def ofDecimal (digits : Nat) (power : Int) : Ratio :=
  if 0 ≤ power then ⟨digits * Nat.pow 10 power.toNat, 1⟩
  else ⟨digits, Nat.pow 10 (-power).toNat⟩

def floorAt (a : Ratio) (power : Int) : Nat :=
  if 0 ≤ power then a.num / (a.den * Nat.pow 10 power.toNat)
  else a.num * Nat.pow 10 (-power).toNat / a.den

end Ratio

/-- The interval that rounds to a positive finite number, with the number itself.  Its ends are
counted in quarters of the last place; below a power of two the lower half is half as long. -/
def roundingInterval (x : Binary64) : Ratio × Ratio × Ratio :=
  let m := x.significand
  let at_ (quarters : Nat) : Ratio :=
    let (num, den) := scale quarters 1 (x.exponent - 2)
    ⟨num, den⟩
  let below := if m = 1 <<< 52 ∧ -1074 < x.exponent then 1 else 2
  (at_ (4 * m - below), at_ (4 * m), at_ (4 * m + 2))

/-- Whether a quotient rounds to a positive finite number. -/
def roundsTo (x : Binary64) (r : Ratio) : Bool :=
  let (low, _, high) := roundingInterval x
  let closed := x.significand % 2 = 0
  match low.compare r, r.compare high with
  | .lt, .lt => true
  | .eq, .lt => closed
  | .lt, .eq => closed
  | _, _ => false

/-- The power of ten of the first digit, near a guess. -/
def leadingPower (value : Ratio) (guess : Int) : Int :=
  match [guess + 2, guess + 1, guess, guess - 1].find? fun p =>
      ((Ratio.ofDecimal 1 p).compare value).isLE with
  | some p => p
  | none => guess - 2

/-- The hit among the two neighbours on the grid of a power of ten.  Of two hits it is the nearer
one, as twice the number against their sum tells, or else the greater one. -/
def gridHit? (x : Binary64) (power : Int) : Option Nat :=
  let (_, value, _) := roundingInterval x
  let under := value.floorAt power
  let hits := [under, under + 1].filter fun c => 0 < c && roundsTo x (Ratio.ofDecimal c power)
  match hits with
  | [a, b] =>
    match (⟨2 * value.num, value.den⟩ : Ratio).compare (Ratio.ofDecimal (a + b) power) with
    | .lt => some a
    | _ => some b
  | [a] => some a
  | _ => none

/-- The digits and the power of ten of the shortest decimal of a positive finite number. -/
def shortest (x : Binary64) : Nat × Int :=
  let (_, value, _) := roundingInterval x
  let binary : Int := (value.num.log2 : Int) - value.den.log2
  let first := leadingPower value (binary * 30103 / 100000)
  let found := (List.range 18).findSome? fun (n : Nat) =>
    let power := first + 1 - n
    (gridHit? x power).map fun c => (c, power)
  found.getD (0, 0)

/-- A number of digits at a power of ten in positional notation, without a point where it would
end the text. -/
def positional (digits : Nat) (power : Int) : String :=
  let cs := (toString digits).toList
  if 0 ≤ power then String.ofList (cs ++ List.replicate power.toNat '0')
  else
    let places := (-power).toNat
    if places < cs.length then
      String.ofList (cs.take (cs.length - places) ++ ['.'] ++ cs.drop (cs.length - places))
    else
      String.ofList (['0', '.'] ++ List.replicate (places - cs.length) '0' ++ cs)

/-- The shortest positional text of a number. -/
def display (x : Binary64) : String :=
  if x.isNaN then "NaN"
  else
    let sign := if x.negative then "-" else ""
    if x.isInfinite then sign ++ "inf"
    else if x.magnitudeBits = 0 then sign ++ "0"
    else
      let (digits, power) := shortest x
      sign ++ positional digits power

end StreamStore.Binary64
