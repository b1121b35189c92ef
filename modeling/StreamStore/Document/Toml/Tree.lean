import StreamStore.Document.Basic

/-!
# Trees of tables

What the lines of a TOML document build up: tables within tables.  A table comes into being under a
header of its own, on the way to another header, or on the way of a dotted key.  Each may be
defined once: a header may still define a table that was only on the way to another one, and dotted
keys may add only to tables that dotted keys made.
-/

namespace StreamStore.Toml

/-- How a table came into being. -/
inductive TableOrigin
  /-- Under a header of its own. -/
  | headed
  /-- On the way to another header. -/
  | implied
  /-- On the way of a dotted key. -/
  | dotted
deriving DecidableEq, Repr

/-- What a name in a table stands for. -/
inductive Node
  | value (d : Document)
  | table (origin : TableOrigin) (rows : List (String × Node))
  /-- Tables under one repeated header. -/
  | tables (earlier : List (List (String × Node))) (last : List (String × Node))

abbrev Rows := List (String × Node)

namespace Rows

def node? (rows : Rows) (name : String) : Option Node := rows.lookup name

def replace (rows : Rows) (name : String) (node : Node) : Rows :=
  rows.map fun row => if row.1 = name then (name, node) else row

/-- Change the table at the end of a path of names.  Missing tables on the path are made, and of
tables under one repeated header the last one counts. -/
def within? (f : Rows → Option Rows) : List String → Rows → Option Rows
  | [], rows => f rows
  | name :: path, rows =>
    match rows.node? name with
    | none => (within? f path []).map fun child => rows ++ [(name, .table .implied child)]
    | some (.table origin child) =>
      (within? f path child).map fun child => rows.replace name (.table origin child)
    | some (.tables earlier last) =>
      (within? f path last).map fun last => rows.replace name (.tables earlier last)
    | some (.value _) => none

/-- Define a table by its name. -/
def define? (name : String) (rows : Rows) : Option Rows :=
  match rows.node? name with
  | none => some (rows ++ [(name, .table .headed [])])
  | some (.table .implied child) => some (rows.replace name (.table .headed child))
  | some _ => none

/-- Define one more table under a repeated header. -/
def defineNext? (name : String) (rows : Rows) : Option Rows :=
  match rows.node? name with
  | none => some (rows ++ [(name, .tables [] [])])
  | some (.tables earlier last) => some (rows.replace name (.tables (earlier ++ [last]) []))
  | some _ => none

/-- Add a value under a dotted key, the table it goes into being fit to take it. -/
def insertFrom? (fit : Bool) (rows : Rows) (name : String) (d : Document) :
    List String → Option Rows
  | [] =>
    if fit ∧ (rows.node? name).isNone then some (rows ++ [(name, .value d)]) else none
  | step :: path =>
    match rows.node? step with
    | none => (insertFrom? true [] name d path).map fun child =>
        rows ++ [(step, .table .dotted child)]
    | some (.table .headed _) => none
    | some (.table origin child) =>
      (insertFrom? (origin = .dotted) child name d path).map fun child =>
        rows.replace step (.table origin child)
    | some (.tables earlier last) =>
      (insertFrom? false last name d path).map fun last =>
        rows.replace step (.tables earlier last)
    | some (.value _) => none

def insert? (rows : Rows) (path : List String) (name : String) (d : Document) : Option Rows :=
  insertFrom? true rows name d path

end Rows

mutual

/-- What a name stands for as a document. -/
def Node.toDocument : Node → Document
  | .value d => d
  | .table _ rows => .record (rowsToDocument rows)
  | .tables earlier last => .list (tablesToDocument earlier ++ [.record (rowsToDocument last)])

def rowsToDocument : List (String × Node) → List (String × Document)
  | [] => []
  | (name, node) :: rows => (name, node.toDocument) :: rowsToDocument rows

def tablesToDocument : List (List (String × Node)) → List Document
  | [] => []
  | rows :: tables => .record (rowsToDocument rows) :: tablesToDocument tables

end

end StreamStore.Toml
