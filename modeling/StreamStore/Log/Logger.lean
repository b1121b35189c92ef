import StreamStore.Log.File
import StreamStore.Log.Line

/-!
# Loggers

What settings of the log amount to: a filter, a console format and perhaps a file.  A process has
at most one logger, the first one that is installed.
-/

namespace StreamStore

/-- Why a logger cannot be made or installed. -/
inductive LogFault
  | filter
  | file
  | alreadyInstalled
deriving DecidableEq, Repr

/-- What logs events. -/
structure Logger where
  filter : LogFilter
  settings : LogSettings
deriving DecidableEq, Repr

namespace Logger

/-- A logger by its settings, where log files are begun at a site. -/
def ofSettings? (s : LogSettings) (site : LogSite) : Except LogFault Logger :=
  match LogFilter.ofText? s.directives with
  | none => .error .filter
  | some filter =>
    if s.file.all fun file => (file.begin? site).isSome then .ok ⟨filter, s⟩ else .error .file

/-- Make a logger and install it where there may be one already. -/
def install? (s : LogSettings) (site : LogSite) (installed : Option Logger) :
    Except LogFault Logger :=
  (ofSettings? s site).bind fun logger =>
    if installed.isSome then .error .alreadyInstalled else .ok logger

/-- The events that are logged within nested spans, and the spans that are noticed.  The message
counts as a field. -/
def select (l : Logger) (spans : List LogSpan) (events : List LogEvent) :
    List LogSpan × List LogEvent :=
  let spans := spans.filter l.filter.admitsSpan
  (spans, events.filter fun e =>
    l.filter.admits spans e.target (fun name => name = "message" || e.fields.declares name) e.level)

def entries (l : Logger) (site : LogSite) : LogEntries :=
  (l.settings.file.bind (·.begin? site)).getD ⟨[], false⟩

/-- What events within nested spans leave in the file, if it is in the log directory. -/
def fileLines (l : Logger) (site : LogSite) (stamp : LogStamp) (spans : List LogSpan)
    (events : List LogEvent) : List Document :=
  let (spans, events) := l.select spans events
  if (l.entries site).holdsFile then events.map (·.toDocument l.settings.parts stamp spans) else []

/-- A line on the console. -/
inductive ConsoleLine
  | json (d : Document)
  | plain (s : String)

/-- The lines of a text, without a carriage return before the end of one. -/
def linesOf (s : String) : List String :=
  (s.splitOn "\n").map fun line =>
    if line.endsWith "\r" then String.ofList line.toList.dropLast else line

/-- What events within nested spans leave on the console. -/
def consoleLines (l : Logger) (stamp : LogStamp) (spans : List LogSpan) (events : List LogEvent) :
    List ConsoleLine :=
  let (spans, events) := l.select spans events
  match l.settings.console with
  | .off => []
  | .json => events.map fun e => .json (e.toDocument l.settings.parts stamp spans)
  | .pretty ansi => events.flatMap fun e =>
      (linesOf (e.toText ansi stamp.time spans)).map .plain

end Logger

end StreamStore
