import StreamStore.Document.Basic
import StreamStore.Text.Hex

/-!
# JSON

Documents written in JSON.  The reader is strict: nothing but the four kinds of blanks around a
value, no comments or stray commas.  An escape that denotes no character leaves a garbled text, fit
only to be passed over.  A number with a fraction or an exponent, or too large for 64 bits, is read
from its first digits that fit into 64 bits, scaled by a power of ten.
-/

namespace StreamStore.Json

def isBlank (c : Char) : Bool := c = ' ' || c = '\t' || c = '\n' || c = '\r'

def skip (cs : List Char) : List Char := cs.dropWhile isBlank

/-- The values of leading decimal digits, and the input behind them. -/
def digits (cs : List Char) : List Nat × List Char :=
  ((cs.takeWhile Char.isDigit).map fun c => c.toNat - 48, cs.dropWhile Char.isDigit)

def maxWord : Nat := 1 <<< 64 - 1

/-- Digits added to a number as long as 64 bits hold it; how many were used. -/
def absorb (n used : Nat) : List Nat → Nat × Nat
  | [] => (n, used)
  | d :: ds => if maxWord < 10 * n + d then (n, used) else absorb (10 * n + d) (used + 1) ds

/-- A significand scaled by a power of ten: powers beyond the largest finite one are divided out
in steps. -/
def scaled (significand : Binary64) (power : Int) : Nat → Numeral
  | 0 => .fraction significand
  | steps + 1 =>
    if power.natAbs ≤ 308 then
      let factor := Binary64.ofDecimal false 1 power.natAbs
      if 0 ≤ power then
        let value := significand.mul factor
        if value.isInfinite then .excessive else .fraction value
      else .fraction (significand.div factor)
    else if significand.magnitudeBits = 0 then .fraction significand
    else if 0 ≤ power then .excessive
    else scaled (significand.div (Binary64.ofDecimal false 1 308)) (power + 308) steps

/-- The numeral of a sign, whole digits, decimals and an exponent. -/
def numeral (negative : Bool) (whole : List Nat) (decimals : Option (List Nat))
    (exponent : Option (Bool × List Nat)) : Numeral :=
  let (n, used) := absorb 0 0 whole
  let finish (significand : Nat) (power : Int) : Numeral :=
    match scaled (Binary64.ofInt significand) power 8 with
    | .fraction x => .fraction (Binary64.ofMagnitude negative x.magnitudeBits)
    | other => other
  let dropped : Int := (whole.length : Int) - used
  match decimals, exponent with
  | none, none =>
    if used < whole.length then finish n dropped
    else if !negative then .integer n
    else if n = 0 ∨ 1 <<< 63 < n then .fraction (Binary64.ofRatio true n 1)
    else .integer (-n)
  | decimals, exponent =>
    let (significand, places) := absorb n 0 (decimals.getD [])
    let power : Int := dropped - (places : Int)
    match exponent with
    | none => finish significand power
    | some (down, ds) =>
      let size : Nat := ds.foldl (fun n d => min (10 * n + d) (1 <<< 31)) 0
      if 1 <<< 31 ≤ size then
        if significand ≠ 0 ∧ !down then .excessive
        else .fraction (Binary64.ofMagnitude negative 0)
      else finish significand (if down then power - (size : Int) else power + (size : Int))

/-- A number and the input behind it. -/
def number (cs : List Char) : Option (Numeral × List Char) := do
  let (negative, cs) := match cs with
    | '-' :: rest => (true, rest)
    | _ => (false, cs)
  let (whole, cs) := digits cs
  if whole.isEmpty then none
  if whole.head? = some 0 ∧ 1 < whole.length then none
  let (decimals, cs) ← match cs with
    | '.' :: rest =>
      let (ds, rest) := digits rest
      if ds.isEmpty then none else some (some ds, rest)
    | _ => some (none, cs)
  let (exponent, cs) ← match cs with
    | e :: rest =>
      if e = 'e' ∨ e = 'E' then
        let (down, rest) := match rest with
          | '-' :: rest => (true, rest)
          | '+' :: rest => (false, rest)
          | _ => (false, rest)
        let (ds, rest) := digits rest
        if ds.isEmpty then none else some (some (down, ds), rest)
      else some (none, cs)
    | [] => some (none, [])
  return (numeral negative whole decimals exponent, cs)

/-- The code unit of four hexadecimal digits, and the input behind them. -/
def unit? (cs : List Char) : Option (Nat × List Char) :=
  if (cs.take 4).length = 4 then (Hex.decode? (cs.take 4)).map fun n => (n, cs.drop 4) else none

/-- The character of an escape after `\u`, and the input behind it.  Two halves of a pair make one
character; a half alone makes none. -/
def unicode? (cs : List Char) : Option (Option Char × List Char) := do
  let (high, rest) ← unit? cs
  if 0xDC00 ≤ high ∧ high < 0xE000 then return (none, rest)
  if high < 0xD800 ∨ 0xDC00 ≤ high then return (some (Char.ofNat high), rest)
  match rest with
  | '\\' :: 'u' :: behind =>
    let (low, behind) ← unit? behind
    if 0xDC00 ≤ low ∧ low < 0xE000 then
      return (some (Char.ofNat (0x10000 + (high - 0xD800) * 0x400 + (low - 0xDC00))), behind)
    return (none, rest)
  | _ => return (none, rest)

/-- The character of an escape of one letter. -/
def escape? : Char → Option Char
  | '"' => some '"'
  | '\\' => some '\\'
  | '/' => some '/'
  | 'b' => some '\x08'
  | 'f' => some '\x0c'
  | 'n' => some '\n'
  | 'r' => some '\r'
  | 't' => some '\t'
  | _ => none

/-- The rest of a text after its opening quote, and the input behind it.  A text with an escape that
makes no character is read to its end but is none. -/
def textFrom : Nat → Option (List Char) → List Char → Option (Option String × List Char)
  | 0, _, _ => none
  | fuel + 1, got, cs =>
    let put (c? : Option Char) := got.bind fun got => c?.map (· :: got)
    match cs with
    | '"' :: rest => some (got.map fun got => String.ofList got.reverse, rest)
    | '\\' :: 'u' :: rest => (unicode? rest).bind fun (c?, rest) => textFrom fuel (put c?) rest
    | '\\' :: c :: rest => (escape? c).bind fun c => textFrom fuel (put (some c)) rest
    | c :: rest => if c.toNat < 0x20 ∨ c = '\\' then none else textFrom fuel (put (some c)) rest
    | [] => none

/-- A text after its opening quote, and the input behind it. -/
def text? (cs : List Char) : Option (Option String × List Char) :=
  textFrom (cs.length + 1) (some []) cs

def ofText? (s? : Option String) : Document := (s?.map Document.text).getD .garbled

/-- The record of some rows that were read. -/
def ofRows (rows : List (Option String × Document)) : Document :=
  match rows.mapM fun (name?, item) => name?.map fun name => (name, item) with
  | some rows => .record rows
  | none => .garbled

def after? (word : String) (cs : List Char) : Option (List Char) :=
  if word.toList.isPrefixOf cs then some (cs.drop word.length) else none

mutual

/-- A value at the start of the input, and the input behind it.  The fuel bounds the number of
characters. -/
def value : Nat → List Char → Option (Document × List Char)
  | 0, _ => none
  | fuel + 1, cs =>
    match skip cs with
    | '"' :: rest => (text? rest).map fun (s?, rest) => (ofText? s?, rest)
    | '[' :: rest =>
      match skip rest with
      | ']' :: rest => some (.list [], rest)
      | rest => (items fuel rest).map fun (items, rest) => (.list items, rest)
    | '\x7b' :: rest =>
      match skip rest with
      | '\x7d' :: rest => some (.record [], rest)
      | rest => (rows fuel rest).map fun (rows, rest) => (ofRows rows, rest)
    | 'n' :: rest => (after? "ull" rest).map fun rest => (.null, rest)
    | 't' :: rest => (after? "rue" rest).map fun rest => (.boolean true, rest)
    | 'f' :: rest => (after? "alse" rest).map fun rest => (.boolean false, rest)
    | cs => (number cs).map fun (n, rest) => (.number n, rest)

/-- The items of a list up to its closing bracket. -/
def items : Nat → List Char → Option (List Document × List Char)
  | 0, _ => none
  | fuel + 1, cs =>
    (value fuel cs).bind fun (item, rest) =>
      match skip rest with
      | ',' :: rest => (items fuel rest).map fun (items, rest) => (item :: items, rest)
      | ']' :: rest => some ([item], rest)
      | _ => none

/-- The rows of a record up to its closing brace. -/
def rows : Nat → List Char → Option (List (Option String × Document) × List Char)
  | 0, _ => none
  | fuel + 1, cs =>
    match skip cs with
    | '"' :: rest =>
      (text? rest).bind fun (name?, rest) =>
        match skip rest with
        | ':' :: rest =>
          (value fuel rest).bind fun (item, rest) =>
            match skip rest with
            | ',' :: rest => (rows fuel rest).map fun (rows, rest) => ((name?, item) :: rows, rest)
            | '\x7d' :: rest => some ([(name?, item)], rest)
            | _ => none
        | _ => none
    | _ => none

end

/-- The document that a text spells, with nothing but blanks around it. -/
def parse? (s : String) : Option Document :=
  let cs := s.toList
  (value (cs.length + 1) cs).bind fun (d, rest) => if (skip rest).isEmpty then some d else none

/-- One character inside a printed text. -/
def escaped (c : Char) : List Char :=
  if c = '"' ∨ c = '\\' then ['\\', c]
  else if c.toNat < 0x20 then ['\\', 'u'] ++ Hex.encode 4 c.toNat
  else [c]

def printText (s : String) : String :=
  String.ofList (['"'] ++ s.toList.flatMap escaped ++ ['"'])

mutual

/-- A document on one line.  Binary fractions are written by their bits. -/
def print : Document → String
  | .null => "null"
  | .boolean b => if b then "true" else "false"
  | .number (.integer n) => toString n
  | .number (.fraction x) => printText (String.ofList (Hex.encode 16 x.bits.toNat))
  | .number .excessive => "null"
  | .text s => printText s
  | .list items => "[" ++ ",".intercalate (printItems items) ++ "]"
  | .record rows => "\x7b" ++ ",".intercalate (printRows rows) ++ "\x7d"
  | .garbled => "null"

def printItems : List Document → List String
  | [] => []
  | item :: items => print item :: printItems items

def printRows : List (String × Document) → List String
  | [] => []
  | (name, item) :: rows => (printText name ++ ":" ++ print item) :: printRows rows

end

end StreamStore.Json
