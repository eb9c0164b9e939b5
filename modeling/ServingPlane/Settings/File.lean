import ServingPlane.Settings.Basic
import ServingPlane.Toml.Printer
import ServingPlane.Toml.Reader

/-! # Settings files

    The daemon's settings as a TOML text, in both directions. -/

namespace ServingPlane.Settings

/-- Where a settings file holds a choice between named variants. -/
def choicePaths : List (String × String) := [("resource_backend", "kind"), ("logging", "format")]

/-- Whether a value holds nothing. -/
def isEmptyValue : Toml.Value → Bool
  | .table es => es.isEmpty
  | .array items => items.isEmpty
  | _ => false

/-- A choice may be written as a table from its name to nothing. -/
def plainChoice : Toml.Value → Toml.Value
  | .table [(name, v)] => if isEmptyValue v then .string name else .table [(name, v)]
  | v => v

/-- The names of the fields of a section. -/
def sectionFields (name : String) : List String :=
  (((codec.write standard).get? name).map fun s => s.members.map (·.1)).getD []

/-- The value of a field, if it is a choice by its name alone. -/
def plainField (name key : String) (v : Toml.Value) : Toml.Value :=
  if choicePaths.contains (name, key) then plainChoice v else v

/-- Write the choices of a section by their names alone.  A section may
    also be the list of its fields; what follows them does not count. -/
def plainSection (name : String) : Toml.Value → Toml.Value
  | .table entries => .table (entries.map fun (key, v) => (key, plainField name key v))
  | .array items => .array ((sectionFields name).zipWith (plainField name) items)
  | v => v

/-- Write all sections in their plain form. -/
def plainSections : Toml.Value → Toml.Value
  | .table sections => .table (sections.map fun (name, v) => (name, plainSection name v))
  | v => v

/-- Read the settings of a text; what it leaves out is at its default. -/
def ofToml (text : String) : Option Settings := do
  let v ← Toml.parse text
  match codec.read (plainSections v).document with
  | .ok s => some s
  | .error _ => none

/-- The settings as a text; a number above the range of the format has none. -/
def toToml (s : Settings) : Option String := Toml.print? (codec.write s)

end ServingPlane.Settings
