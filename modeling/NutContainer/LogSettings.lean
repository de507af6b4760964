import NutContainer.Json.Record

/-!
Where notices are to be shown. Without a directory they go to the console alone.
-/
namespace NutContainer

/-- How notices are shown. -/
structure LogSettings where
  /-- The least urgent notices that are shown. -/
  level : String := "info"
  /-- Where log files go. -/
  directory : Option String := none
  /-- How the names of log files begin. -/
  fileStem : String := "nutmux"
  console : Bool := true
  deriving DecidableEq, Repr

namespace LogSettings

/-- The names of the settings, in order. -/
def names : List String := ["level", "directory", "file_prefix", "console"]

/-- Settings from a JSON value. -/
def ofJson? (json : Json) : Option LogSettings := do
  let fields ← json.fields? names
  let defaults : LogSettings := {}
  return {
    level := ← Json.field? fields "level" Json.text? defaults.level
    directory := ← Json.field? fields "directory" (Json.orNull? Json.text?) defaults.directory
    fileStem := ← Json.field? fields "file_prefix" Json.text? defaults.fileStem
    console := ← Json.field? fields "console" Json.bool? defaults.console }

/-- Settings from a JSON text. -/
def parse? (text : String) : Option LogSettings := do ofJson? (← Json.parse? text)

def toJson (settings : LogSettings) : Json :=
  .record [
    ("level", .ofText settings.level),
    ("directory", settings.directory.elim .null .ofText),
    ("file_prefix", .ofText settings.fileStem),
    ("console", .bool settings.console)]

/-- Settings as a JSON text. -/
def toText (settings : LogSettings) : String := settings.toJson.render

end LogSettings

end NutContainer
