import ServingPlane.Settings.Environment
import ServingPlane.Settings.File

/-! # Loading settings

    A file, if there is one, gives the settings; the environment overrides
    them. -/

namespace ServingPlane

/-- What stands at the path of the settings file. -/
inductive FileContent where
  | absent
  | unreadable
  | text (content : String)
  deriving DecidableEq, Repr

/-- Why the settings cannot be loaded. -/
inductive LoadError where
  | unreadableFile
  | malformedFile
  | override (error : OverrideError)
  deriving DecidableEq, Repr

namespace Settings

/-- The settings of a file that has to be there. -/
def ofFile : FileContent → Except LoadError Settings
  | .absent => .error .unreadableFile
  | .unreadable => .error .unreadableFile
  | .text content =>
    match ofToml content with
    | some s => .ok s
    | none => .error .malformedFile

/-- The settings in effect: an absent file leaves all at the defaults. -/
def load (file : FileContent) (lookup : String → Option String) : Except LoadError Settings := do
  let s ← match file with
    | .absent => .ok standard
    | f => ofFile f
  match s.underEnvironment lookup with
  | .ok s => .ok s
  | .error e => .error (.override e)

end Settings

end ServingPlane
