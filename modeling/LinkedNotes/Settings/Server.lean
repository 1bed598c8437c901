import LinkedNotes.Files.Basic
import LinkedNotes.Settings.Merge
import LinkedNotes.Settings.Yaml

/-!
# Settings of the server

The server has one setting of its own, how much it logs. A workspace may have a file with settings;
a broken file counts as none. Overrides are taken as a whole: when the log level or any other part
does not fit, nothing changes.
-/

namespace LinkedNotes

/-- How much the server logs. -/
inductive LogLevel where
  | trace
  | debug
  | info
  | warning
  | error
  deriving DecidableEq, Repr

namespace LogLevel

/-- The log levels by name. -/
def variants : List (Text × LogLevel) :=
  [("trace".toList, .trace), ("debug".toList, .debug), ("info".toList, .info),
    ("warning".toList, .warning), ("error".toList, .error)]

/-- The name of a log level. -/
def name : LogLevel → Text
  | .trace => "trace".toList
  | .debug => "debug".toList
  | .info => "info".toList
  | .warning => "warning".toList
  | .error => "error".toList

/-- The name of the filter that a log level sets for the whole process. -/
def filterName : LogLevel → Text
  | .trace => "TRACE".toList
  | .debug => "DEBUG".toList
  | .info => "INFO".toList
  | .warning => "WARN".toList
  | .error => "ERROR".toList

end LogLevel

/-- The settings of a running server. -/
structure ServerSettings where
  /-- How much is logged. -/
  logLevel : LogLevel := .info
  /-- The settings of the workspace. -/
  notes : Settings := {}
  deriving DecidableEq, Repr

namespace ServerSettings

/-- Name of the file with the settings of a workspace. -/
def fileName : Path :=
  ⟨".wikilinks.yaml".toList⟩

/-- The settings that the file of a workspace gives; the defaults when there is none that can be
read. -/
def load {σ : Type} [FileSystem σ] (files : σ) (root : Path) : ServerSettings :=
  let path := root.join fileName
  if FileSystem.isFile files path then
    { notes := ((FileSystem.read files path).bind Settings.readYaml?).getD {} }
  else {}

/-- Name of the log level among the settings of a client. -/
def logLevelName : Text :=
  "logLevel".toList

/-- The settings with overrides laid over them; the log level is looked at first. -/
def mergedWith (settings : ServerSettings) (overrides : Json) :
    Except Json.Misfit ServerSettings := do
  let logLevel ← match Json.field? logLevelName overrides with
    | some level => Json.readVariant LogLevel.variants level
    | none => pure settings.logLevel
  return ⟨logLevel, ← settings.notes.mergedWith overrides⟩

end ServerSettings
end LinkedNotes
