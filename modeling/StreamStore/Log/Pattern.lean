import StreamStore.Text.Alphanumeric
import StreamStore.Text.Blank
import StreamStore.Text.Hex

/-!
# Patterns of field values

Which texts are regular expressions.  What a pattern matches does not matter here: no number is
matched by one, and the fields of spans hold numbers.

A pattern is about characters, whose classes by name and whose upper and lower cases are not
available; so neither may be asked for, nor may the edges of words.  After `(?-u)` a pattern is
about bytes and may ask for all of these, but not for anything that could match part of a character.
Counted repetitions cannot be written, as a directive's value ends at the first closing brace.
-/

namespace StreamStore.Pattern

/-- How a part of a pattern is read. -/
structure Mode where
  /-- Whether upper and lower case are the same. -/
  caseless : Bool := false
  /-- Whether blanks and comments are passed over. -/
  spaced : Bool := false
  /-- Whether the pattern is about characters, not bytes. -/
  unicode : Bool := true
deriving DecidableEq, Repr

namespace Mode

def needsCases (m : Mode) : Bool := m.caseless && m.unicode

end Mode

/-- The input without the blanks and comments that a mode passes over. -/
def skip (m : Mode) : List Char → List Char
  | [] => []
  | cs@(c :: rest) =>
    if !m.spaced then cs
    else if Text.isBlank c then skip m rest
    else if c = '#' then skipLine rest
    else cs
where
  /-- The input behind a comment and what is passed over after it. -/
  skipLine : List Char → List Char
    | [] => []
    | c :: rest => if c = '\n' then skip m rest else skipLine rest

/-- What one item of a pattern is. -/
inductive Atom
  /-- A character, and whether it is written as the number of a byte. -/
  | char (c : Char) (isByte : Bool)
  /-- A class by name, perhaps of all other characters. -/
  | named (negated : Bool)
  /-- An edge of a word. -/
  | wordEdge
  /-- Another place in the text. -/
  | place
deriving DecidableEq, Repr

/-- A number of hexadecimal digits, perhaps with blanks between them, and the input behind them. -/
def hexDigits (m : Mode) : Nat → Nat → List Char → Option (Nat × List Char)
  | 0, n, cs => some (n, cs)
  | count + 1, n, cs =>
    match cs with
    | c :: rest => (Hex.value? c).bind fun d => hexDigits m count (16 * n + d) (skip m rest)
    | [] => none

def charOf? (n : Nat) : Option Char := if n.isValidChar then some (Char.ofNat n) else none

/-- The letters that denote controls, each with the number of the control. -/
def controls : List (Char × Nat) :=
  [('a', 7), ('f', 12), ('t', 9), ('n', 10), ('r', 13), ('v', 11)]

/-- An item after its backslash, and the input behind it. -/
def escape? (m : Mode) : List Char → Option (Atom × List Char)
  | [] => none
  | c :: rest =>
    let hex (count : Nat) := do
      let (n, rest) ← hexDigits m count 0 (skip m rest)
      return (.char (← charOf? n) (count = 2), rest)
    if c = 'x' then hex 2
    else if c = 'u' then hex 4
    else if c = 'U' then hex 8
    else if c ∈ ['d', 's', 'w'] then some (.named false, rest)
    else if c ∈ ['D', 'S', 'W'] then some (.named true, rest)
    else if c ∈ ['b', 'B', '<', '>'] then some (.wordEdge, rest)
    else if c ∈ ['A', 'z'] then some (.place, rest)
    else if let some n := controls.lookup c then some (.char (Char.ofNat n) false, rest)
    else if c.isAlphanum ∨ 128 ≤ c.toNat then none
    else some (.char c false, rest)

/-- An item and the input behind it; brackets and repetitions are no items. -/
def atom? (m : Mode) : List Char → Option (Atom × List Char)
  | '\\' :: rest => escape? m rest
  | c :: rest => some (if c = '^' ∨ c = '$' then .place else .char c false, rest)
  | [] => none

/-- Whether an item may stand by itself in a mode. -/
def Atom.isAllowed (m : Mode) : Atom → Bool
  | char c isByte => !m.needsCases && (m.unicode || !isByte || c.toNat < 128)
  | named negated => !m.unicode && !negated
  | wordEdge => !m.unicode
  | place => true

/-! ## Classes in brackets -/

def asciiClasses : List String :=
  ["alnum", "alpha", "ascii", "blank", "cntrl", "digit", "graph", "lower", "print", "punct",
    "space", "upper", "word", "xdigit"]

/-- A class of ASCII characters by name after its opening bracket: whether it is negated, and the
input behind it. -/
def asciiClass? : List Char → Option (Bool × List Char)
  | ':' :: rest =>
    let (negated, rest) := match rest with
      | '^' :: rest => (true, rest)
      | _ => (false, rest)
    let name := rest.takeWhile (· ≠ ':')
    match rest.dropWhile (· ≠ ':') with
    | ':' :: ']' :: rest => if String.ofList name ∈ asciiClasses then some (negated, rest) else none
    | _ => none
  | _ => none

def goesOn? (cs : List Char) : Option (List Char) := if cs.isEmpty then none else some cs

/-- The input behind the hyphens that stand for themselves, and whether there are any. -/
def skipHyphens (m : Mode) : Nat → List Char → Bool × List Char
  | fuel + 1, '-' :: rest => (true, (skipHyphens m fuel (skip m rest)).2)
  | _, cs => (false, cs)

/-- The input behind the start of a class: its opening bracket was read, and there follow a sign
that negates it, hyphens and a closing bracket that stand for themselves. -/
def openClass? (m : Mode) (cs : List Char) : Option (List Char) := do
  let cs ← goesOn? (skip m cs)
  let cs ← match cs with
    | '^' :: rest => if m.unicode then goesOn? (skip m rest) else none
    | _ => some cs
  let (hyphens, cs) := skipHyphens m cs.length cs
  let cs ← goesOn? cs
  match cs with
  | ']' :: rest => if hyphens then some cs else goesOn? (skip m rest)
  | _ => some cs

/-- An item of a class, and the input behind it. -/
def classItem? (m : Mode) : List Char → Option (Atom × List Char)
  | '\\' :: rest => escape? m rest
  | c :: rest => some (.char c false, rest)
  | [] => none

/-- The character of an item, where only a character will do. -/
def Atom.char? : Atom → Option Char
  | char c _ => some c
  | _ => none

/-- Whether an item may stand in a class. -/
def Atom.isAllowedInClass (m : Mode) : Atom → Bool
  | char c _ => m.unicode || c.toNat < 128
  | named negated => !m.unicode && !negated
  | _ => false

/-- A range or a single item of a class, and the input behind it. -/
def range? (m : Mode) (cs : List Char) : Option (List Char) := do
  let (first, cs) ← classItem? m cs
  let cs ← goesOn? (skip m cs)
  if !first.isAllowedInClass m then none
  match cs with
  | '-' :: rest =>
    let behind := skip m rest
    if behind.head? = some ']' ∨ behind.head? = some '-' then return cs
    let (last, cs) ← classItem? m (← goesOn? behind)
    if !last.isAllowedInClass m then none
    if (← first.char?).toNat ≤ (← last.char?).toNat then return cs else none
  | _ => return cs

/-- The input behind a class that is open `depth + 1` levels deep.  The fuel bounds the length of
the input. -/
def classFrom (m : Mode) : Nat → Nat → List Char → Option (List Char)
  | 0, _, _ => none
  | fuel + 1, depth, cs =>
    match skip m cs with
    | [] => none
    | '[' :: rest =>
      match asciiClass? rest with
      | some (negated, rest) => if negated ∧ !m.unicode then none else classFrom m fuel depth rest
      | none => (openClass? m rest).bind (classFrom m fuel (depth + 1))
    | ']' :: rest =>
      match depth with
      | 0 => some rest
      | depth + 1 => classFrom m fuel depth rest
    | '&' :: '&' :: rest => classFrom m fuel depth rest
    | '-' :: '-' :: rest => classFrom m fuel depth rest
    | '~' :: '~' :: rest => classFrom m fuel depth rest
    | cs => (range? m cs).bind (classFrom m fuel depth)

def class? (m : Mode) (cs : List Char) : Option (List Char) :=
  if m.needsCases then none
  else (openClass? m cs).bind (classFrom m (cs.length + 1) 0)

/-! ## Groups -/

/-- The start of a group. -/
inductive GroupStart
  /-- A group, perhaps with a name, that is read in a mode. -/
  | group (name : Option String) (mode : Mode)
  /-- No group but a change of the mode up to the end of the group around. -/
  | change (mode : Mode)

/-- The mode that a letter switches on or off. -/
def Mode.switch (m : Mode) (letter : Char) (on : Bool) : Mode :=
  match letter with
  | 'i' => { m with caseless := on }
  | 'x' => { m with spaced := on }
  | 'u' => { m with unicode := on }
  | _ => m

/-- The letters that switch modes: no letter comes twice, and one hyphen may come before those to
switch off.  The answer is the mode, what ends the letters, and the input behind it. -/
def letters? (m : Mode) (on : Bool) (seen : List Char) :
    List Char → Option (Mode × Char × List Char)
  | [] => none
  | c :: rest =>
    if c = ':' ∨ c = ')' then if seen.head? = some '-' then none else some (m, c, rest)
    else if c ∈ seen then none
    else if c = '-' then letters? m false (c :: seen) rest
    else if c ∈ ['i', 'm', 's', 'U', 'u', 'R', 'x'] then
      letters? (m.switch c on) on (c :: seen) rest
    else none

/-- A group's name up to its closing bracket, and the input behind it. -/
def name? (cs : List Char) : Option (String × List Char) :=
  let name := cs.takeWhile (· ≠ '>')
  match name, cs.dropWhile (· ≠ '>') with
  | first :: others, _ :: rest =>
    if (first = '_' ∨ Text.isAlphabetic first) ∧
        others.all (fun c => c ∈ ['_', '.', '[', ']'] || Text.isAlphanumeric c) then
      some (String.ofList name, rest)
    else none
  | _, _ => none

/-- The start of a group after its opening bracket, and the input behind it. -/
def groupStart? (m : Mode) (cs : List Char) : Option (GroupStart × List Char) :=
  let named (rest : List Char) := (name? rest).map fun (name, rest) => (.group (some name) m, rest)
  match skip m cs with
  | '?' :: 'P' :: '<' :: rest => named rest
  | '?' :: '<' :: rest => named rest
  | '?' :: rest =>
    match letters? m true [] rest with
    | some (mode, ':', rest) => some (.group none mode, rest)
    | some (mode, _, behind) => if rest.head? = some ')' then none else some (.change mode, behind)
    | none => none
  | cs => some (.group none m, cs)

/-! ## Patterns -/

/-- How far a pattern is read. -/
structure Progress where
  mode : Mode := {}
  /-- The modes around the groups that are open, the innermost first. -/
  around : List Mode := []
  names : List String := []
  /-- Whether there is something to repeat. -/
  repeatable : Bool := false

/-- Read one part of a pattern. -/
def part? (p : Progress) (c : Char) (rest : List Char) : Option (Progress × List Char) :=
  match c with
  | '(' => do
    match ← groupStart? p.mode rest with
    | (.change mode, rest) => return ({ p with mode, repeatable := false }, rest)
    | (.group name mode, rest) =>
      if name.any (· ∈ p.names) then none
      return ({
        mode
        around := p.mode :: p.around
        names := name.toList ++ p.names
        repeatable := false }, rest)
  | ')' =>
    match p.around with
    | [] => none
    | mode :: around => some ({ p with mode, around, repeatable := true }, rest)
  | '|' => some ({ p with repeatable := false }, rest)
  | '[' => (class? p.mode rest).map fun rest => ({ p with repeatable := true }, rest)
  | '\x7b' => none
  | '.' => if p.mode.unicode then some ({ p with repeatable := true }, rest) else none
  | c =>
    if c = '?' ∨ c = '*' ∨ c = '+' then
      if p.repeatable then some (p, if rest.head? = some '?' then rest.drop 1 else rest) else none
    else
      (atom? p.mode (c :: rest)).bind fun (atom, rest) =>
        if atom.isAllowed p.mode then some ({ p with repeatable := true }, rest) else none

/-- Whether the rest of a pattern is well-formed.  The fuel bounds its length. -/
def isValidFrom : Nat → Progress → List Char → Bool
  | 0, _, _ => false
  | fuel + 1, p, cs =>
    match skip p.mode cs with
    | [] => p.around.isEmpty
    | c :: rest =>
      match part? p c rest with
      | some (p, rest) => isValidFrom fuel p rest
      | none => false

def isValid (cs : List Char) : Bool := isValidFrom (cs.length + 1) {} cs

end StreamStore.Pattern
