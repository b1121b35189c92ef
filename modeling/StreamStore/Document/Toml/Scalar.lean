import StreamStore.Document.Basic
import StreamStore.Text.Hex

/-!
# Numbers, dates and times in TOML

Digits may have single underscores between them.  An integer has 64 bits; a number with a fraction
or an exponent is the nearest binary fraction, and too large a positive one is refused.  A date or a
time is a record whose only row is its text in one fixed form.
-/

namespace StreamStore.Toml

/-- Digits that follow a digit, each perhaps after one underscore, and the input behind them. -/
def moreDigits (isDigit : Char → Bool) : List Char → Option (List Char × List Char)
  | '_' :: c :: rest =>
    if isDigit c then (moreDigits isDigit rest).map fun (ds, rest) => (c :: ds, rest) else none
  | c :: rest =>
    if isDigit c then (moreDigits isDigit rest).map fun (ds, rest) => (c :: ds, rest)
    else if c = '_' then none
    else some ([], c :: rest)
  | [] => some ([], [])

/-- One or more digits, with single underscores between them, and the input behind them. -/
def digits? (isDigit : Char → Bool) : List Char → Option (List Char × List Char)
  | c :: rest =>
    if isDigit c then (moreDigits isDigit rest).map fun (ds, rest) => (c :: ds, rest) else none
  | [] => none

def natural (base : Nat) (ds : List Char) : Nat :=
  ds.foldl (fun n c => base * n + (Hex.value? c).getD 0) 0

/-- A sign, whether it says negative, and the input behind it. -/
def sign (cs : List Char) : Bool × List Char :=
  match cs with
  | '-' :: rest => (true, rest)
  | '+' :: rest => (false, rest)
  | _ => (false, cs)

/-- The digits of a decimal integer without leading zeros, and the input behind them. -/
def decimal? : List Char → Option (List Char × List Char)
  | '0' :: rest => some (['0'], rest)
  | cs => digits? Char.isDigit cs

def word? (n : Int) : Option Document :=
  if -0x8000_0000_0000_0000 ≤ n ∧ n < 0x8000_0000_0000_0000 then some (.number (.integer n))
  else none

/-- An integer in some base after its mark. -/
def based? (base : Nat) (isDigit : Char → Bool) (cs : List Char) :
    Option (Document × List Char) := do
  let (ds, rest) ← digits? isDigit cs
  return (← word? (natural base ds), rest)

/-- An integer and the input behind it. -/
def integer? : List Char → Option (Document × List Char)
  | '0' :: 'x' :: rest => based? 16 Hex.isDigit rest
  | '0' :: 'o' :: rest => based? 8 (fun c => '0' ≤ c && c ≤ '7') rest
  | '0' :: 'b' :: rest => based? 2 (fun c => c = '0' || c = '1') rest
  | cs => do
    let (negative, cs) := sign cs
    let (ds, rest) ← decimal? cs
    let n : Int := natural 10 ds
    return (← word? (if negative then -n else n), rest)

/-- Digits after a point, if there is one. -/
def decimals? : List Char → Option (Option (List Char) × List Char)
  | '.' :: rest => (digits? Char.isDigit rest).map fun (ds, rest) => (some ds, rest)
  | cs => some (none, cs)

/-- A power of ten after its mark, if there is one. -/
def exponent? (cs : List Char) : Option (Option Int × List Char) :=
  match cs with
  | c :: rest =>
    if c = 'e' ∨ c = 'E' then do
      let (negative, rest) := sign rest
      let (ds, rest) ← digits? Char.isDigit rest
      let n : Int := natural 10 ds
      return (some (if negative then -n else n), rest)
    else some (none, cs)
  | [] => some (none, [])

/-- The numbers without digits, by name. -/
def special? (negative : Bool) : List Char → Option (Document × List Char)
  | 'i' :: 'n' :: 'f' :: rest =>
    some (.number (.fraction (.ofMagnitude negative Binary64.infinityBits)), rest)
  | 'n' :: 'a' :: 'n' :: rest =>
    some (.number (.fraction (.ofMagnitude negative (Binary64.infinityBits + 1 <<< 51))), rest)
  | _ => none

/-- A number with a fraction, an exponent or a name, and the input behind it. -/
def fraction? (cs : List Char) : Option (Document × List Char) :=
  let (negative, unsigned) := sign cs
  match special? negative unsigned with
  | some special => some special
  | none => do
    let (whole, rest) ← decimal? unsigned
    let (decimals, rest) ← decimals? rest
    let (exponent, rest) ← exponent? rest
    if decimals.isNone ∧ exponent.isNone then none
    let ds := decimals.getD []
    let power : Int := exponent.getD 0 - ds.length
    let x := Binary64.ofDecimal negative (natural 10 (whole ++ ds)) power
    if x.isInfinite ∧ !negative then none
    return (.number (.fraction x), rest)

/-- A number of exactly `count` digits between bounds, and the input behind it. -/
def fixed? (count low high : Nat) (cs : List Char) : Option (Nat × List Char) :=
  let ds := cs.take count
  let n := natural 10 ds
  if ds.length = count ∧ ds.all Char.isDigit ∧ low ≤ n ∧ n ≤ high then some (n, cs.drop count)
  else none

def after? (c : Char) : List Char → Option (List Char)
  | d :: rest => if d = c then some rest else none
  | [] => none

/-- The days of a month. -/
def daysOf (year month : Nat) : Nat :=
  if month = 2 then
    if year % 4 = 0 ∧ (year % 100 ≠ 0 ∨ year % 400 = 0) then 29 else 28
  else if month = 4 ∨ month = 6 ∨ month = 9 ∨ month = 11 then 30
  else 31

/-- The text of a date, and the input behind it. -/
def date? (cs : List Char) : Option (List Char × List Char) := do
  let (year, rest) ← fixed? 4 0 9999 cs
  let (month, rest) ← fixed? 2 1 12 (← after? '-' rest)
  let (_, rest) ← fixed? 2 1 (daysOf year month) (← after? '-' rest)
  return (cs.take 10, rest)

/-- The text of the fraction of a second, down to the last digit of a nanosecond that is not zero,
and the input behind it. -/
def secondFraction? (cs : List Char) : Option (List Char × List Char) :=
  match cs with
  | '.' :: rest =>
    let ds := rest.takeWhile Char.isDigit
    let shown := ((ds.take 9).reverse.dropWhile (· = '0')).reverse
    if ds.isEmpty then none
    else some (if shown.isEmpty then [] else '.' :: shown, rest.dropWhile Char.isDigit)
  | _ => some ([], cs)

/-- The text of a time of day, and the input behind it. -/
def time? (cs : List Char) : Option (List Char × List Char) := do
  let (_, rest) ← fixed? 2 0 23 cs
  let (_, rest) ← fixed? 2 0 59 (← after? ':' rest)
  let (_, rest) ← fixed? 2 0 60 (← after? ':' rest)
  let (fraction, rest) ← secondFraction? rest
  return (cs.take 8 ++ fraction, rest)

/-- The text of an offset from universal time, if there is one, and the input behind it.  No offset
is negative zero. -/
def offset? (cs : List Char) : Option (List Char × List Char) :=
  match cs with
  | c :: rest =>
    if c = 'Z' ∨ c = 'z' then some (['Z'], rest)
    else if c = '+' ∨ c = '-' then do
      let (hours, behind) ← fixed? 2 0 23 rest
      let (minutes, behind) ← fixed? 2 0 59 (← after? ':' behind)
      return ((if hours + minutes = 0 then '+' else c) :: rest.take 5, behind)
    else some ([], cs)
  | [] => some ([], [])

/-- The text of a time that follows a date, if there is one, and the input behind it. -/
def timeOfDate? (cs : List Char) : Option (List Char × List Char) :=
  match cs with
  | c :: rest =>
    if c = 'T' ∨ c = 't' ∨ c = ' ' ∧ (fixed? 2 0 99 rest).isSome then do
      let (time, rest) ← time? rest
      let (offset, rest) ← offset? rest
      return ('T' :: time ++ offset, rest)
    else some ([], cs)
  | [] => some ([], [])

/-- The text of a date, a time or both, and the input behind it. -/
def momentText? (cs : List Char) : Option (List Char × List Char) :=
  let dated := do
    let (date, rest) ← date? cs
    let (time, rest) ← timeOfDate? rest
    return (date ++ time, rest)
  dated.or (time? cs)

/-- The name of the only row of the record that stands for a date or a time. -/
def momentName : String := "$__toml_private_datetime"

/-- A date, a time or both, and the input behind it: a record of one row with its text. -/
def moment? (cs : List Char) : Option (Document × List Char) :=
  (momentText? cs).map fun (text, rest) =>
    (.record [(momentName, .text (String.ofList text))], rest)

/-- A number, a date or a time, and the input behind it. -/
def scalar? (cs : List Char) : Option (Document × List Char) :=
  (moment? cs).or ((fraction? cs).or (integer? cs))

end StreamStore.Toml
