import StreamStore.Document.Toml.Scalar
import StreamStore.Document.Toml.Text
import StreamStore.Document.Toml.Tree

/-!
# TOML

Documents written in TOML, version 1.0: a line is blank, heads a table, or gives a value to a key.
Lists and tables within a line nest less than `maxDepth` deep.
-/

namespace StreamStore.Toml

/-- How deep values may not nest any more. -/
def maxDepth : Nat := 80

/-- TOML as a dialect: a list that stands for a record may go on behind its last field. -/
def dialect : Dialect := ⟨true, true⟩

/-- The input behind a comment, if there is one. -/
def skipComment? (cs : List Char) : Option (List Char) :=
  match cs with
  | '#' :: rest =>
    let behind := rest.dropWhile isPlain
    if behind.isEmpty ∨ (lineBreak? behind).isSome then some behind else none
  | _ => some cs

/-- The input behind the blanks, comments and line breaks between the items of a list. -/
def skipSpace : Nat → List Char → Option (List Char)
  | 0, cs => some cs
  | fuel + 1, cs => do
    let cs ← skipComment? (skipBlanks cs)
    match lineBreak? cs with
    | some rest => skipSpace fuel rest
    | none => some cs

def lineEnd? (cs : List Char) : Option (List Char) := do
  let cs ← skipComment? (skipBlanks cs)
  if cs.isEmpty then some [] else lineBreak? cs

def isBare (c : Char) : Bool := c.isAlphanum || c = '-' || c = '_'

/-- One name of a key, and the input behind it. -/
def name? (cs : List Char) : Option (String × List Char) :=
  match cs with
  | '"' :: rest => lineText '"' (rest.length + 1) [] rest
  | '\'' :: rest => lineText '\'' (rest.length + 1) [] rest
  | _ =>
    let name := cs.takeWhile isBare
    if name.isEmpty then none else some (String.ofList name, cs.dropWhile isBare)

/-- The names of a dotted key, the last one apart, and the input behind it. -/
def keyFrom : Nat → List String → List Char → Option ((List String × String) × List Char)
  | 0, _, _ => none
  | fuel + 1, path, cs => do
    let (name, cs) ← name? (skipBlanks cs)
    match skipBlanks cs with
    | '.' :: rest => keyFrom fuel (path ++ [name]) rest
    | rest => some ((path, name), rest)

/-- A key of fewer than `maxDepth` names, and the input behind it. -/
def key? (cs : List Char) : Option ((List String × String) × List Char) :=
  keyFrom (maxDepth - 1) [] cs

def expect? (word : String) (cs : List Char) : Option (List Char) :=
  if word.toList.isPrefixOf cs then some (cs.drop word.length) else none

mutual

/-- A value at a depth, and the input behind it.  The fuel bounds the number of characters. -/
def value (depth : Nat) : Nat → List Char → Option (Document × List Char)
  | 0, _ => none
  | fuel + 1, cs =>
    match cs with
    | '[' :: rest =>
      if maxDepth ≤ depth + 1 then none
      else (items (depth + 1) fuel rest).map fun (items, rest) => (.list items, rest)
    | '\x7b' :: rest =>
      if maxDepth ≤ depth + 1 then none
      else
        match skipBlanks rest with
        | '\x7d' :: rest => some (.record [], rest)
        | rest => (pairs (depth + 1) fuel [] rest).map fun (rows, rest) =>
            (.record (rowsToDocument rows), rest)
    | 't' :: rest => (expect? "rue" rest).map fun rest => (.boolean true, rest)
    | 'f' :: rest => (expect? "alse" rest).map fun rest => (.boolean false, rest)
    | '"' :: _ => (text? cs).map fun (s, rest) => (.text s, rest)
    | '\'' :: _ => (text? cs).map fun (s, rest) => (.text s, rest)
    | _ => scalar? cs

/-- The items of a list up to its closing bracket; a comma may stand behind the last one. -/
def items (depth : Nat) : Nat → List Char → Option (List Document × List Char)
  | 0, _ => none
  | fuel + 1, cs =>
    (skipSpace cs.length cs).bind fun cs =>
      match cs with
      | ']' :: rest => some ([], rest)
      | _ =>
        (value depth fuel cs).bind fun (item, rest) =>
          (skipSpace rest.length rest).bind fun rest =>
            match rest with
            | ',' :: rest => (items depth fuel rest).map fun (items, rest) => (item :: items, rest)
            | ']' :: rest => some ([item], rest)
            | _ => none

/-- The rows of a table within a line, up to its closing brace. -/
def pairs (depth : Nat) : Nat → Rows → List Char → Option (Rows × List Char)
  | 0, _, _ => none
  | fuel + 1, rows, cs =>
    (key? cs).bind fun ((path, name), rest) =>
      match rest with
      | '=' :: rest =>
        (value depth fuel (skipBlanks rest)).bind fun (d, rest) =>
          (rows.insert? path name d).bind fun rows =>
            match skipBlanks rest with
            | ',' :: rest => pairs depth fuel rows rest
            | '\x7d' :: rest => some (rows, rest)
            | _ => none
      | _ => none

end

/-- A document being read: all tables so far, and the names on the way to the current one. -/
structure Progress where
  root : Rows := []
  current : List String := []

/-- One line: what it does to the document, and the input behind it. -/
def line? (p : Progress) (cs : List Char) : Option (Progress × List Char) := do
  let cs := skipBlanks cs
  match cs with
  | '[' :: '[' :: rest =>
    let ((path, name), rest) ← key? rest
    let rest ← lineEnd? (← after? ']' (← after? ']' rest))
    return (⟨← Rows.within? (Rows.defineNext? name) path p.root, path ++ [name]⟩, rest)
  | '[' :: rest =>
    let ((path, name), rest) ← key? rest
    let rest ← lineEnd? (← after? ']' rest)
    return (⟨← Rows.within? (Rows.define? name) path p.root, path ++ [name]⟩, rest)
  | _ =>
    if cs.isEmpty ∨ cs.head? = some '#' ∨ (lineBreak? cs).isSome then
      return (p, ← lineEnd? cs)
    else
      let ((path, name), rest) ← key? cs
      let rest := skipBlanks (← after? '=' rest)
      let (d, rest) ← value 0 (rest.length + 1) rest
      let rest ← lineEnd? rest
      let root ← Rows.within? (fun rows => rows.insert? path name d) p.current p.root
      return ({ p with root }, rest)

/-- All lines of an input. -/
def lines : Nat → Progress → List Char → Option Progress
  | 0, _, _ => none
  | _, p, [] => some p
  | fuel + 1, p, cs => (line? p cs).bind fun (p, rest) => lines fuel p rest

/-- The document that a text spells. -/
def parse? (s : String) : Option Document :=
  let cs := match s.toList with
    | '\ufeff' :: rest => rest
    | cs => cs
  (lines (cs.length + 1) {} cs).map fun p => .record (rowsToDocument p.root)

end StreamStore.Toml
