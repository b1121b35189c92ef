import StreamStore.Decimal.Binary64

/-!
# Documents

The values that a configuration file or a message in a text format can hold, whatever the format,
and reading typed values out of them.  Reading is strict: a number must be in range and of the
right kind, a field may not come twice, and a record may also be written as the list of its fields
in order.
-/

namespace StreamStore

/-- A number in a document. -/
inductive Numeral
  | integer (value : Int)
  | fraction (value : Binary64)
  /-- A number too large for the formats at hand. -/
  | excessive
deriving DecidableEq, Repr

/-- A value in a document. -/
inductive Document
  | null
  | boolean (value : Bool)
  | number (value : Numeral)
  | text (value : String)
  | list (items : List Document)
  | record (rows : List (String × Document))
  /-- A text with half of a pair in it that makes a character only with the other half, or a record
  with such a name. -/
  | garbled
deriving Repr

/-- What formats disagree on when typed values are read. -/
structure Dialect where
  /-- Whether a list may have items after the last field of the record it stands for. -/
  allowsSurplus : Bool
  /-- Whether a choice without content may be written as a record with an empty record or list
  under the choice's name; otherwise with a null. -/
  emptyContent : Bool

namespace Document

instance : Inhabited Document := ⟨null⟩

def field? (name : String) : Document → Option Document
  | record rows => (rows.find? fun row => row.1 = name).map (·.2)
  | _ => none

/-- The value of a record's first row with a name, where null means none. -/
def given? (d : Document) (name : String) : Option Document :=
  match d.field? name with
  | some null => none
  | value? => value?

def integerIn? (low high : Int) : Document → Option Int
  | number (.integer n) => if low ≤ n ∧ n ≤ high then some n else none
  | _ => none

def natural? (bits : Nat) (d : Document) : Option Nat :=
  let bound : Nat := 1 <<< bits
  (d.integerIn? 0 (bound - 1)).map Int.toNat

def signed? (bits : Nat) (d : Document) : Option Int :=
  let bound : Nat := 1 <<< (bits - 1)
  d.integerIn? (-bound) (bound - 1)

/-- A binary fraction, also written as an integer. -/
def fraction? : Document → Option Binary64
  | number (.integer n) => some (Binary64.ofInt n)
  | number (.fraction x) => some x
  | _ => none

def text? : Document → Option String
  | text s => some s
  | _ => none

def boolean? : Document → Option Bool
  | boolean b => some b
  | _ => none

def list? : Document → Option (List Document)
  | list items => some items
  | _ => none

/-- The fields of a record by name, each at most once; unknown names are passed over. -/
def fields? (dialect : Dialect) (names : List String) : Document → Option (List (String × Document))
  | record rows =>
    let known := rows.filter fun row => row.1 ∈ names
    if (known.map (·.1)).Nodup then some known else none
  | list items =>
    if names.length < items.length ∧ ¬ dialect.allowsSurplus then none
    else some (names.zip items)
  | _ => none

def required? (fields : List (String × Document)) (name : String) (read : Document → Option α) :
    Option α :=
  (fields.lookup name).bind read

/-- A field that is there or has a default. -/
def optional? (fields : List (String × Document)) (name : String) (default : α)
    (read : Document → Option α) : Option α :=
  match fields.lookup name with
  | some value => read value
  | none => some default

def nullable? (read : Document → Option α) : Document → Option (Option α)
  | null => some none
  | d => (read d).map some

/-- Whether a value is what a dialect writes for a choice's missing content. -/
def isEmptyContent (dialect : Dialect) : Document → Bool
  | null => !dialect.emptyContent
  | record [] => dialect.emptyContent
  | list [] => dialect.emptyContent
  | _ => false

mutual

/-- Whether every number and text of a value can be held, and its lists and records nest at most so
deep.  A value that is passed over need not be such. -/
def isHeld : Nat → Document → Bool
  | _, number .excessive => false
  | _, garbled => false
  | depth, list items => depth ≠ 0 && areItemsHeld (depth - 1) items
  | depth, record rows => depth ≠ 0 && areRowsHeld (depth - 1) rows
  | _, _ => true

def areItemsHeld : Nat → List Document → Bool
  | _, [] => true
  | depth, item :: items => item.isHeld depth && areItemsHeld depth items

def areRowsHeld : Nat → List (String × Document) → Bool
  | _, [] => true
  | depth, (_, item) :: rows => item.isHeld depth && areRowsHeld depth rows

end

/-- One of some named choices without content. -/
def choice? (dialect : Dialect) (choices : List (String × α)) : Document → Option α
  | text name => choices.lookup name
  | record [(name, content)] =>
    if content.isEmptyContent dialect then choices.lookup name else none
  | _ => none

end Document

end StreamStore
