import StreamStore.Log.Level
import StreamStore.Log.Pattern
import StreamStore.Text.Utf8

/-!
# Filters of the log

Which events are logged.  A filter has directives: a level for all targets, a level for the targets
that begin with a given text, or a level for what happens within some spans.  Of the directives for
targets the most specific one decides; one for spans can only let more through.  A directive stands
in for an earlier one that differs in the level alone.
-/

namespace StreamStore

/-- The value of a field of an event or a span. -/
inductive FieldValue
  | text (s : String)
  | integer (n : Int)
deriving DecidableEq, Repr

/-- The fields that an event or a span declares, each perhaps without a value. -/
abbrev LogFields := List (String × Option FieldValue)

namespace LogFields

def declares (fields : LogFields) (name : String) : Bool := (fields.lookup name).isSome

def given (fields : LogFields) : List (String × FieldValue) :=
  fields.filterMap fun (name, value?) => value?.map fun value => (name, value)

end LogFields

/-- A stretch of work that log events happen in. -/
structure LogSpan where
  target : String
  name : String
  level : LogLevel
  fields : LogFields := []
deriving DecidableEq, Repr

/-- What a directive asks of the value of a field. -/
inductive FieldWish
  /-- A number written without a minus sign. -/
  | natural (n : Nat)
  /-- A number written with a minus sign. -/
  | negative (n : Nat)
  /-- A value that no number has: a truth value, a fraction or a pattern for texts. -/
  | other (text : String)
deriving DecidableEq, Repr

/-- What a directive asks of a field. -/
structure FieldTest where
  name : String
  /-- What is asked of its value, if it is not just to be there. -/
  value : Option FieldWish := none
deriving DecidableEq, Repr

/-- Part of a filter. -/
structure Directive where
  /-- What the target begins with. -/
  target : Option String := none
  /-- The name of the spans it is about. -/
  span : Option String := none
  /-- What it asks of the fields of these spans, or of the events. -/
  fields : List FieldTest := []
  level : Threshold := some .trace
deriving DecidableEq, Repr

/-- Which events are logged. -/
structure LogFilter where
  /-- The directives in the order in which they were given. -/
  directives : List Directive := []
deriving DecidableEq, Repr

namespace FieldWish

/-- Whether a value is as asked for. -/
def admits : FieldWish → FieldValue → Bool
  | natural n, .integer m => m = n
  | negative n, .integer m => m = -(n : Int)
  | _, _ => false

/-- The input behind an exponent, if there is one. -/
def skipExponent? : List Char → Option (List Char)
  | c :: cs =>
    if c = 'e' ∨ c = 'E' then
      let cs := match cs with
        | '+' :: rest => rest
        | '-' :: rest => rest
        | _ => cs
      if (cs.takeWhile Char.isDigit).isEmpty then none else some (cs.dropWhile Char.isDigit)
    else some (c :: cs)
  | [] => some []

/-- Whether a text without a sign is a number, perhaps with a point and an exponent, or the name of
one that has no digits. -/
def isFraction (cs : List Char) : Bool :=
  let whole := cs.takeWhile Char.isDigit
  let rest := cs.dropWhile Char.isDigit
  let (decimals, rest) := match rest with
    | '.' :: rest => (rest.takeWhile Char.isDigit, rest.dropWhile Char.isDigit)
    | _ => ([], rest)
  String.ofList (cs.map Char.toLower) ∈ ["inf", "infinity", "nan"]
    || !(whole.isEmpty && decimals.isEmpty) && skipExponent? rest = some []

/-- Whether a text may be asked for as something else than a number with digits only. -/
def isOther (cs : List Char) : Bool :=
  let unsigned := match cs with
    | '+' :: rest => rest
    | '-' :: rest => rest
    | _ => cs
  isFraction unsigned || Pattern.isValid cs

/-- What is asked for by a text. -/
def ofChars? (cs : List Char) : Option FieldWish :=
  let other := if isOther cs then some (.other (String.ofList cs)) else none
  match Threshold.rankOf? cs, cs with
  | some n, _ => if n < 1 <<< 64 then some (natural n) else other
  | none, '-' :: ds =>
    match ds, Threshold.rankOf? ds with
    | '+' :: _, _ => other
    | _, some n => if n ≤ 1 <<< 63 then some (negative n) else other
    | _, none => other
  | none, _ => other

end FieldWish

namespace FieldTest

/-- Whether a span's fields pass the test. -/
def passes (fields : LogFields) (test : FieldTest) : Bool :=
  match test.value with
  | none => true
  | some wish => (fields.given.lookup test.name).any wish.admits

/-- A test as it is written: a name, perhaps an equals sign and a value, and nothing that counts
after another equals sign. -/
def ofChars? (cs : List Char) : Option FieldTest :=
  let before (cs : List Char) := cs.takeWhile (· ≠ '=')
  let name := String.ofList (before cs)
  match cs.drop (before cs).length with
  | [] => some { name }
  | _ :: value => (FieldWish.ofChars? (before value)).map fun wish => { name, value := some wish }

end FieldTest

namespace Directive

def isScoped (d : Directive) : Bool := d.span.isSome || !d.fields.isEmpty

def isStatic (d : Directive) : Bool := d.span.isNone && !d.fields.any (·.value.isSome)

def sameSubject (d e : Directive) : Bool :=
  d.target = e.target && d.span = e.span && d.fields = e.fields

def covers (d : Directive) (target : String) : Bool :=
  d.target.all fun start => target.startsWith start

/-- How specific a directive is: first the length of the target, then the number of fields. -/
def specificity (d : Directive) : Nat × Nat :=
  ((d.target.map fun target => target.utf8ByteSize + 1).getD 0, d.fields.length)

/-- Whether a directive comes before another one that covers the same target: because it is more
specific, or because of two that are equally specific its fields are later in the order of names. -/
def precedes (d e : Directive) : Bool :=
  let (a, m) := d.specificity
  let (b, n) := e.specificity
  b < a || a = b && (n < m || m = n && decide (e.fields.map (·.name) < d.fields.map (·.name)))

/-- Whether a directive for spans is about a span, whatever the values of its fields. -/
def concerns (d : Directive) (s : LogSpan) : Bool :=
  d.isScoped && d.covers s.target && d.span.all (· = s.name) &&
    d.fields.all fun test => s.fields.declares test.name

def holdsIn (d : Directive) (s : LogSpan) : Bool := d.concerns s && d.fields.all (·.passes s.fields)

/-- Of some directives that cover the same target the one that comes before all others. -/
def first? (ds : List Directive) : Option Directive :=
  ds.foldl (fun best? d =>
    match best? with
    | some best => if d.precedes best then some d else some best
    | none => some d) none

/-! ## Reading directives

A directive is read by its text without the blanks around it, but its parts are taken from the same
places of the whole text.  So each byte comes with the one that is taken in its place, and what is
left over of the whole text belongs to a part that goes on to the end.  A part must be whole
characters. -/

/-- Bytes to read, each with the one to take in its place. -/
abbrev Cells := List (UInt8 × UInt8)

def ascii (c : Char) : UInt8 := UInt8.ofNat c.toNat

def text? (cells : Cells) (tail : Bytes := []) : Option (List Char) :=
  (Utf8.decode (cells.map (·.2) ++ tail)).toOption

def string? (cells : Cells) (tail : Bytes := []) : Option String :=
  (text? cells tail).map String.ofList

/-- The cells before the first ASCII character of some and those from it on. -/
def upTo (ends : List Char) (cells : Cells) : Cells × Cells :=
  let isEnd (cell : UInt8 × UInt8) := ends.any fun c => cell.1 = ascii c
  (cells.takeWhile fun cell => !isEnd cell, cells.dropWhile fun cell => !isEnd cell)

def after? (c : Char) : Cells → Option Cells
  | (byte, _) :: rest => if byte = ascii c then some rest else none
  | [] => none

/-- The level after an equals sign; none means all. -/
def levelOf? (cells : Cells) (tail : Bytes) : Option Threshold :=
  (string? cells tail).bind fun s => if s.isEmpty then some (some .trace) else Threshold.ofText? s

/-- The end of a directive after a span, perhaps with a level. -/
def endOf? (d : Directive) (tail : Bytes) (cells : Cells) : Option Directive :=
  if cells.isEmpty then some d
  else do return { d with level := ← levelOf? (← after? '=' cells) tail }

/-- A span after its opening bracket, perhaps with a field in braces. -/
def spanOf? (d : Directive) (tail : Bytes) (cells : Cells) : Option Directive := do
  let (name, rest) := upTo [']', '\x7b'] cells
  let span ← string? name
  match after? ']' rest with
  | some rest => endOf? { d with span := some span } tail rest
  | none =>
    let (field, rest) := upTo ['\x7d'] (← after? '\x7b' rest)
    let rest ← after? ']' (← after? '\x7d' rest)
    let field ← text? field
    if field.isEmpty then none
    let span := if span.isEmpty then none else some span
    endOf? { d with span, fields := [← FieldTest.ofChars? field] } tail rest

def isFirst (c : Char) : Bool := c = '-' || c = ':' || c = '_' || Text.isAlphanumeric c

/-- A directive from its cells, where its first character is known. -/
def ofCells? (first : Char) (tail : Bytes) (cells : Cells) : Option Directive := do
  if first = '[' then return ← spanOf? {} tail (cells.drop 1)
  if !isFirst first then none
  let (head, rest) := upTo ['=', '['] cells
  if rest.isEmpty then
    let text ← string? head tail
    match Threshold.ofText? text with
    | some level => return { level }
    | none => return { target := some text }
  let d : Directive := { target := some (← string? head) }
  match after? '=' rest with
  | some rest => return { d with level := ← levelOf? rest tail }
  | none => spanOf? d tail (rest.drop 1)

/-- A directive as it is written. -/
def ofChars? (cs : List Char) : Option Directive :=
  let bare := ((cs.dropWhile Text.isBlank).reverse.dropWhile Text.isBlank).reverse
  let read := Utf8.encode bare
  let whole := Utf8.encode cs
  bare.head?.bind fun first => ofCells? first (whole.drop read.length) (read.zip whole)

end Directive

namespace LogFilter

/-- The filter that comma-separated directives make, empty ones passed over. -/
def ofText? (s : String) : Option LogFilter := do
  let pieces := (s.splitOn ",").filter (· ≠ "")
  return ⟨← pieces.mapM fun piece => Directive.ofChars? piece.toList⟩

/-- The directives without those that a later one stands in for. -/
def effective (f : LogFilter) : List Directive := standing f.directives
where
  /-- The directives of a list without those that a later one stands in for. -/
  standing : List Directive → List Directive
    | [] => []
    | d :: ds => if ds.any d.sameSubject then standing ds else d :: standing ds

/-- What a filter lets through of a target, the spans apart. -/
def threshold (f : LogFilter) (target : String) (hasField : String → Bool) : Threshold :=
  let fitting := f.effective.filter fun d =>
    d.isStatic && d.covers target && d.fields.all fun test => hasField test.name
  (Directive.first? fitting).bind (·.level)

/-- What a filter lets through at all; also directives that others stand in for count. -/
def ceiling (f : LogFilter) : Threshold :=
  if f.directives.any fun d => d.fields.any (·.value.isSome) then some .trace
  else f.directives.foldl (fun t d => t.max d.level) none

def admitsSpan (f : LogFilter) (s : LogSpan) : Bool :=
  f.ceiling.admits s.level &&
    (f.effective.any (·.concerns s) || (f.threshold s.target fun _ => true).admits s.level)

def within (f : LogFilter) (s : LogSpan) : Threshold :=
  (f.effective.filter (·.holdsIn s)).foldl (fun t d => t.max d.level) none

def admits (f : LogFilter) (spans : List LogSpan) (target : String) (hasField : String → Bool)
    (level : LogLevel) : Bool :=
  spans.any (fun s => (f.within s).admits level) || (f.threshold target hasField).admits level

end LogFilter

end StreamStore
