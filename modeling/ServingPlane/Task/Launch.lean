import ServingPlane.Task.Spec

/-! # Launch commands

    The argument list that starts one replica: the start command, six
    fixed flags, the engine's flags, and the extra arguments in key
    order.  Backends differ only in the exporter identity and endpoint. -/

namespace ServingPlane

open Numeric

/-- Flags with their values, one after the other. -/
def flagWords (flags : List (String × String)) : List String :=
  flags.flatMap fun (flag, value) => [flag, value]

/-- The flags that every replica gets. -/
def TaskSpec.fixedFlags (s : TaskSpec) (exporterName exporterEndpoint : String) :
    List (String × String) :=
  [("--model", s.model), ("--port", natText s.port.toNat), ("--host", s.host),
    ("--backend", s.engine.kind), ("--exporter_service_name", exporterName),
    ("--exporter_endpoint", exporterEndpoint)]

/-- One flag for each extra argument, in key order. -/
def TaskSpec.extraFlags (s : TaskSpec) : List (String × String) :=
  s.extraArguments.entries.map fun (key, value) => ("--" ++ key, value)

/-- The argument list of one replica. -/
def TaskSpec.launchCommand (s : TaskSpec) (startCommand : List String)
    (exporterName exporterEndpoint : String) : List String :=
  startCommand ++ flagWords (s.fixedFlags exporterName exporterEndpoint
    ++ s.engine.launchFlags ++ s.extraFlags)

end ServingPlane
