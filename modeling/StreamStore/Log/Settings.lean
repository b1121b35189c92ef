import StreamStore.Document.Basic

/-!
# Settings of the log

What is logged and where: a default level, levels for single targets, a console format, perhaps a
file, and what each JSON line shows.  Every setting has a default.
-/

namespace StreamStore

/-- What goes to the console. -/
inductive ConsoleFormat
  | off
  | json
  | pretty (ansi : Bool)
deriving DecidableEq, Repr

/-- When a new log file is begun. -/
inductive Rotation
  | daily
  | hourly
  | never
deriving DecidableEq, Repr

/-- Where the log file goes. -/
structure LogFile where
  directory : String := "./logs"
  stem : String := "eventvault"
  rotation : Rotation := .daily
deriving DecidableEq, Repr

/-- What a JSON line shows. -/
structure LineParts where
  /-- Whether an event's fields stand in the line itself, not in a record of their own. -/
  flatten : Bool := true
  spanList : Bool := true
  currentSpan : Bool := true
  /-- Whether the file and the line of code are shown. -/
  location : Bool := true
deriving DecidableEq, Repr

/-- The settings of the log. -/
structure LogSettings where
  defaultLevel : String := "info"
  console : ConsoleFormat := .json
  file : Option LogFile := none
  parts : LineParts := {}
  /-- Levels for single targets, in the order of the targets. -/
  targets : List (String × String) := []
deriving DecidableEq, Repr

namespace Rotation

def names : List (String × Rotation) := [("daily", daily), ("hourly", hourly), ("never", never)]

/-- The name of a rotation. -/
def name : Rotation → String
  | daily => "daily"
  | hourly => "hourly"
  | never => "never"

end Rotation

namespace ConsoleFormat

/-- A format by its name and by what else is given: fields that may be more than are needed, or
just the values that are needed. -/
def ofTag? (others : Document) : Document → Option ConsoleFormat
  | .text "off" => (needed []).map fun _ => off
  | .text "json" => (needed []).map fun _ => json
  | .text "pretty" => do
    return pretty (← Document.required? (← needed ["ansi"]) "ansi" Document.boolean?)
  | _ => none
where
  /-- The fields of some names. -/
  needed (names : List String) : Option (List (String × Document)) :=
    others.fields? ⟨false, false⟩ names

/-- How deep a console format and what it holds may nest. -/
def maxDepth : Nat := 126

/-- Read a console format: a record with the format's name in it, or a list that begins with the
name.  As the name may come last, all of the document must be one that can be held. -/
def ofDocument? (d : Document) : Option ConsoleFormat :=
  if ¬ d.isHeld maxDepth then none
  else
    match d with
    | .record rows =>
      let others := rows.filter fun row => row.1 ≠ "format"
      match rows.filter fun row => row.1 = "format" with
      | [(_, tag)] => ofTag? (.record others) tag
      | _ => none
    | .list (tag :: content) => ofTag? (.list content) tag
    | _ => none

/-- A console format as a document. -/
def toDocument : ConsoleFormat → Document
  | off => .record [("format", .text "off")]
  | json => .record [("format", .text "json")]
  | pretty ansi => .record [("format", .text "pretty"), ("ansi", .boolean ansi)]

end ConsoleFormat

namespace LogFile

/-- Read where the log file goes. -/
def ofDocument? (dialect : Dialect) (d : Document) : Option LogFile := do
  let fields ← d.fields? dialect ["directory", "prefix", "rotation"]
  let defaults : LogFile := {}
  return {
    directory := ← Document.optional? fields "directory" defaults.directory Document.text?
    stem := ← Document.optional? fields "prefix" defaults.stem Document.text?
    rotation :=
      ← Document.optional? fields "rotation" defaults.rotation
        (Document.choice? dialect Rotation.names) }

/-- Where the log file goes, as a document. -/
def toDocument (f : LogFile) : Document :=
  .record [("directory", .text f.directory), ("prefix", .text f.stem),
    ("rotation", .text f.rotation.name)]

end LogFile

namespace LineParts

/-- Read what a JSON line shows. -/
def ofDocument? (dialect : Dialect) (d : Document) : Option LineParts := do
  let fields ← d.fields? dialect ["flatten", "span_list", "current_span", "location"]
  let shown (name : String) := Document.optional? fields name true Document.boolean?
  return {
    flatten := ← shown "flatten"
    spanList := ← shown "span_list"
    currentSpan := ← shown "current_span"
    location := ← shown "location" }

/-- What a JSON line shows, as a document. -/
def toDocument (p : LineParts) : Document :=
  .record [("flatten", .boolean p.flatten), ("span_list", .boolean p.spanList),
    ("current_span", .boolean p.currentSpan), ("location", .boolean p.location)]

end LineParts

namespace LogSettings

/-- Put a target's level among levels in the order of their targets, in place of an earlier one. -/
def insertTarget (target level : String) : List (String × String) → List (String × String)
  | [] => [(target, level)]
  | (t, l) :: rest =>
    if target < t then (target, level) :: (t, l) :: rest
    else if target = t then (target, level) :: rest
    else (t, l) :: insertTarget target level rest

def withLevel (s : LogSettings) (level : String) : LogSettings := { s with defaultLevel := level }

def withTarget (s : LogSettings) (target level : String) : LogSettings :=
  { s with targets := insertTarget target level s.targets }

/-- Settings for development: everything but traces, on a console for people. -/
def development : LogSettings := { defaultLevel := "debug", console := .pretty true }

/-- Settings for tests: warnings and errors only, without colours. -/
def testing : LogSettings := { defaultLevel := "warn", console := .pretty false }

/-- The filter directives: the default level, then one for each target. -/
def directives (s : LogSettings) : String :=
  ",".intercalate (s.defaultLevel :: s.targets.map fun (target, level) => target ++ "=" ++ level)

/-- Read levels of targets. -/
def targetsOf? : Document → Option (List (String × String))
  | .record rows => do
    let levels ← rows.mapM fun (target, level) => level.text?.map fun level => (target, level)
    return levels.foldl (fun targets (target, level) => insertTarget target level targets) []
  | _ => none

/-- Read settings of the log from a document. -/
def ofDocument? (dialect : Dialect) (d : Document) : Option LogSettings := do
  let fields ← d.fields? dialect ["default_level", "console", "file", "json", "targets"]
  let defaults : LogSettings := {}
  return {
    defaultLevel := ← Document.optional? fields "default_level" defaults.defaultLevel Document.text?
    console := ← Document.optional? fields "console" defaults.console ConsoleFormat.ofDocument?
    file :=
      ← Document.optional? fields "file" none (Document.nullable? (LogFile.ofDocument? dialect))
    parts := ← Document.optional? fields "json" defaults.parts (LineParts.ofDocument? dialect)
    targets := ← Document.optional? fields "targets" [] targetsOf? }

/-- Settings of the log as a document. -/
def toDocument (s : LogSettings) : Document :=
  .record [
    ("default_level", .text s.defaultLevel),
    ("console", s.console.toDocument),
    ("file", match s.file with
      | some file => file.toDocument
      | none => .null),
    ("json", s.parts.toDocument),
    ("targets", .record (s.targets.map fun (target, level) => (target, .text level)))]

end LogSettings

end StreamStore
