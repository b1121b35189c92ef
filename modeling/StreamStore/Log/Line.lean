import StreamStore.Document.Json
import StreamStore.Log.Filter
import StreamStore.Log.Settings
import StreamStore.Text.Quoted

/-!
# Lines of the log

An event with the spans it happened in, as a JSON line for programs and as a plain or coloured line
for people.
-/

namespace StreamStore

/-- Something that is logged. -/
structure LogEvent where
  level : LogLevel
  target : String
  message : String
  fields : LogFields := []
deriving DecidableEq, Repr

/-- When and where an event happened. -/
structure LogStamp where
  time : String
  file : String
  line : Nat
deriving DecidableEq, Repr

namespace FieldValue

def toDocument : FieldValue → Document
  | text s => .text s
  | integer n => .number (.integer n)

def display : FieldValue → String
  | text s => Text.quoted s
  | integer n => toString n

end FieldValue

namespace LogFields

/-- The fields that have a value, in a JSON line. -/
def toRows (fields : LogFields) : List (String × Document) :=
  fields.given.map fun (name, value) => (name, value.toDocument)

end LogFields

namespace LogSpan

def toDocument (s : LogSpan) : Document :=
  .record (s.fields.toRows ++ [("name", .text s.name)])

end LogSpan

namespace LogEvent

/-- The JSON line of an event, in the given spans from the outermost to the innermost. -/
def toDocument (p : LineParts) (stamp : LogStamp) (spans : List LogSpan) (e : LogEvent) :
    Document :=
  let own := ("message", Document.text e.message) :: e.fields.toRows
  let current := match spans.getLast? with
    | some s => [("span", s.toDocument)]
    | none => []
  .record (
    [("timestamp", .text stamp.time), ("level", .text e.level.name)]
    ++ (if p.flatten then own else [("fields", .record own)])
    ++ [("target", .text e.target)]
    ++ (if p.location then
        [("filename", .text stamp.file), ("line_number", .number (.integer stamp.line))] else [])
    ++ (if p.currentSpan then current else [])
    ++ (if p.spanList ∧ spans ≠ [] then [("spans", .list (spans.map LogSpan.toDocument))] else []))

/-! ## Lines for people -/

/-- How a piece of text is set off on a terminal. -/
inductive Style
  | bold
  | dimmed
  | italic
  | red
  | green
  | yellow
  | blue
  | purple
deriving DecidableEq, Repr

/-- The number of a style in a terminal's control sequences. -/
def Style.code : Style → String
  | bold => "1"
  | dimmed => "2"
  | italic => "3"
  | red => "31"
  | green => "32"
  | yellow => "33"
  | blue => "34"
  | purple => "35"

/-- A piece of text in a style, if styles are shown. -/
def styled (ansi : Bool) (style : Style) (s : String) : String :=
  if ansi then "\x1b[" ++ style.code ++ "m" ++ s ++ "\x1b[0m" else s

/-- The colour of a level. -/
def levelStyle : LogLevel → Style
  | .error => .red
  | .warn => .yellow
  | .info => .green
  | .debug => .blue
  | .trace => .purple

/-- The name of a level, five characters wide. -/
def levelText (level : LogLevel) : String :=
  String.ofList (List.replicate (5 - level.name.length) ' ') ++ level.name

/-- A character of a message; one that could begin a control sequence is shown by its number. -/
def shownChar (c : Char) : String :=
  if c = '\x1b' ∨ c = '\x07' ∨ c = '\x08' ∨ c = '\x0c' ∨ c = '\x7f' then
    "\\x" ++ String.ofList (Hex.encode 2 c.toNat)
  else if 0x80 ≤ c.toNat ∧ c.toNat ≤ 0x9f then
    "\\u\x7b" ++ String.ofList (Hex.minimal c.toNat) ++ "\x7d"
  else c.toString

/-- Fields with their values, one space apart. -/
def fieldsText (ansi : Bool) (fields : List (String × FieldValue)) : String :=
  " ".intercalate (fields.map fun (name, value) =>
    styled ansi .italic name ++ styled ansi .dimmed "=" ++ value.display)

/-- A span in front of an event. -/
def spanText (ansi : Bool) (s : LogSpan) : String :=
  styled ansi .bold s.name
    ++ (if s.fields.given.isEmpty then ""
        else styled ansi .bold "\x7b" ++ fieldsText ansi s.fields.given
          ++ styled ansi .bold "\x7d")
    ++ styled ansi .dimmed ":"

/-- The line of an event for people, in the given spans from the outermost to the innermost. -/
def toText (ansi : Bool) (time : String) (spans : List LogSpan) (e : LogEvent) : String :=
  styled ansi .dimmed time ++ " "
    ++ styled ansi (levelStyle e.level) (levelText e.level) ++ " "
    ++ (if spans.isEmpty then "" else String.join (spans.map (spanText ansi)) ++ " ")
    ++ styled ansi .dimmed e.target ++ styled ansi .dimmed ":" ++ " "
    ++ String.join (e.message.toList.map shownChar)
    ++ String.join (e.fields.given.map fun field => " " ++ fieldsText ansi [field])

end LogEvent

end StreamStore
