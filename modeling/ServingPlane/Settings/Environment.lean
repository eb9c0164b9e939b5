import ServingPlane.Settings.Basic

/-! # Overrides from the environment

    A fixed set of variables overrides settings, one after the other; the
    first that cannot be read ends the start. -/

namespace ServingPlane

/-- Why an override fails. -/
inductive OverrideError where
  | unreadable (variableName value : String)
  | unknownBackend (name : String)
  deriving DecidableEq, Repr

/-- The message of a cause. -/
def OverrideError.message : OverrideError → String
  | unreadable variableName value => s!"{variableName}={value}"
  | unknownBackend name => BackendKind.unknownMessage name

namespace Settings

/-- How one variable changes the settings. -/
structure Override where
  variableName : String
  apply : String → Settings → Except OverrideError Settings

/-- An override that takes any text. -/
def Override.text (variableName : String) (set : String → Settings → Settings) : Override :=
  ⟨variableName, fun v s => .ok (set v s)⟩

/-- An override that has to be read. -/
def Override.parsed {α : Type} (variableName : String) (read : String → Option α)
    (set : α → Settings → Settings) : Override where
  variableName := variableName
  apply v s := match read v with
    | some a => .ok (set a s)
    | none => .error (.unreadable variableName v)

/-- All overrides, in the order in which they apply. -/
def overrides : List Override := [
  .parsed "SERVEGRID_API_LISTEN" SocketAddress.read?
    (fun a s => { s with api := { s.api with listen := a } }),
  .text "SERVEGRID_PROMETHEUS_URL" (fun v s => { s with prometheusUrl := v }),
  .text "SERVEGRID_ADVISOR_URL" (fun v s => { s with advisor := { s.advisor with url := v } }),
  .parsed "SERVEGRID_DETECT_INTERVAL_SECS"
    (fun v => (Numeric.readNatural? UInt64.size v.toList).map UInt64.ofNat)
    (fun n s => { s with detector := { s.detector with intervalSecs := n } }),
  ⟨"SERVEGRID_RESOURCE_BACKEND", fun v s =>
    match BackendKind.ofName v with
    | .ok k => .ok { s with backend := k }
    | .error name => .error (.unknownBackend name)⟩,
  .text "SERVEGRID_STATE_PATH" (fun v s => { s with statePath := v }),
  .text "SERVEGRID_SERVING_IMAGE" (fun v s => { s with serving := { s.serving with image := v } })]

/-- Apply overrides whose variables are set. -/
def applyOverrides (lookup : String → Option String) :
    List Override → Settings → Except OverrideError Settings
  | [], s => .ok s
  | o :: r, s =>
    match lookup o.variableName with
    | none => applyOverrides lookup r s
    | some v => do applyOverrides lookup r (← o.apply v s)

/-- The settings under an environment. -/
def underEnvironment (s : Settings) (lookup : String → Option String) :
    Except OverrideError Settings :=
  applyOverrides lookup overrides s

end Settings

end ServingPlane
