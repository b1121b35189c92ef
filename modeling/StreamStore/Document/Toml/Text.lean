import StreamStore.Text.Hex

/-!
# Texts in TOML

A text stands between double quotes, where escapes denote characters, or between single quotes,
where every character denotes itself; between three quotes of a kind it may have several lines.
Control characters other than the tab never stand for themselves.
-/

namespace StreamStore.Toml

def isPlain (c : Char) : Bool := c = '\t' || (' ' ≤ c && c ≠ '\x7f')

/-- The input behind a line break. -/
def lineBreak? : List Char → Option (List Char)
  | '\n' :: rest => some rest
  | '\r' :: '\n' :: rest => some rest
  | _ => none

def skipBlanks (cs : List Char) : List Char := cs.dropWhile fun c => c = ' ' || c = '\t'

/-- The character that a number of hexadecimal digits denote, and the input behind them. -/
def codePoint? (count : Nat) (cs : List Char) : Option (Char × List Char) := do
  let ds := cs.take count
  if ds.length < count then none
  let n ← Hex.decode? ds
  if n.isValidChar then some (Char.ofNat n, cs.drop count) else none

/-- The character of an escape after its backslash, and the input behind it. -/
def escape? : List Char → Option (Char × List Char)
  | 'b' :: rest => some ('\x08', rest)
  | 't' :: rest => some ('\t', rest)
  | 'n' :: rest => some ('\n', rest)
  | 'f' :: rest => some ('\x0c', rest)
  | 'r' :: rest => some ('\r', rest)
  | '"' :: rest => some ('"', rest)
  | '\\' :: rest => some ('\\', rest)
  | 'u' :: rest => codePoint? 4 rest
  | 'U' :: rest => codePoint? 8 rest
  | _ => none

/-- The rest of a text on one line after its opening quote, and the input behind it. -/
def lineText (quote : Char) : Nat → List Char → List Char → Option (String × List Char)
  | 0, _, _ => none
  | _, _, [] => none
  | fuel + 1, got, c :: rest =>
    if c = quote then some (String.ofList got.reverse, rest)
    else if c = '\\' ∧ quote = '"' then
      (escape? rest).bind fun (c, rest) => lineText quote fuel (c :: got) rest
    else if isPlain c then lineText quote fuel (c :: got) rest
    else none

/-- The input behind the blanks and line breaks after a backslash that ends a line. -/
def skipLines : Nat → List Char → List Char
  | 0, cs => cs
  | fuel + 1, cs =>
    let cs := skipBlanks cs
    match lineBreak? cs with
    | some rest => skipLines fuel rest
    | none => cs

/-- The rest of a text on several lines after its opening quotes, and the input behind it.  Up to
two quotes may stand right before the closing ones. -/
def linesText (quote : Char) : Nat → List Char → List Char → Option (String × List Char)
  | 0, _, _ => none
  | _, _, [] => none
  | fuel + 1, got, c :: rest =>
    if c = quote then
      let quotes := (c :: rest).takeWhile (· = quote)
      let behind := (c :: rest).dropWhile (· = quote)
      if quotes.length < 3 then linesText quote fuel (quotes ++ got) behind
      else if 5 < quotes.length then none
      else some (String.ofList ((quotes.drop 3 ++ got).reverse), behind)
    else if c = '\\' ∧ quote = '"' then
      match lineBreak? (skipBlanks rest) with
      | some behind => linesText quote fuel got (skipLines behind.length behind)
      | none => (escape? rest).bind fun (c, rest) => linesText quote fuel (c :: got) rest
    else
      match lineBreak? (c :: rest) with
      | some rest => linesText quote fuel ('\n' :: got) rest
      | none => if isPlain c then linesText quote fuel (c :: got) rest else none

/-- A text and the input behind it. -/
def text? (cs : List Char) : Option (String × List Char) :=
  match cs with
  | q :: rest =>
    if q = '"' ∨ q = '\'' then
      match rest with
      | a :: b :: behind =>
        if a = q ∧ b = q then
          let behind := (lineBreak? behind).getD behind
          linesText q (behind.length + 1) [] behind
        else lineText q (rest.length + 1) [] rest
      | _ => lineText q (rest.length + 1) [] rest
    else none
  | [] => none

end StreamStore.Toml
