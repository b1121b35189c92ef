import StreamStore.Document.Toml.Reader
import StreamStore.Log.Settings
import StreamStore.Settings

/-!
# Settings in files

Settings of a store and of the log as they stand in TOML files.
-/

namespace StreamStore

namespace Settings

/-- Read settings from the text of a file; they need not be valid. -/
def ofToml? (text : String) : Except LoadFault Settings :=
  match (Toml.parse? text).bind (ofDocument? Toml.dialect) with
  | some settings => .ok settings
  | none => .error .parse

/-- Load valid settings from a file, given its content if it can be read. -/
def load (content : Option String) : Except LoadFault Settings := do
  let some text := content | throw .read
  let settings ← ofToml? text
  match settings.validate with
  | .ok () => return settings
  | .error fault => throw (.invalid fault)

end Settings

namespace LogSettings

def ofToml? (text : String) : Option LogSettings :=
  (Toml.parse? text).bind (ofDocument? Toml.dialect)

end LogSettings

end StreamStore
