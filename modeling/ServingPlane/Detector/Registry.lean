import ServingPlane.Task.Wire

/-! # The task registry

    The tasks that callers asked for, by name, and the status that was
    last observed of each. -/

namespace ServingPlane

/-- Registered tasks by name. -/
abbrev Registry := Dict String RegisteredTask

namespace Registry

/-- Enter a task as created, in place of an earlier one of its name. -/
def register (r : Registry) (spec : TaskSpec) : Registry :=
  Dict.insert r spec.name (.new spec)

/-- Remove a task. -/
def unregister (r : Registry) (name : String) : Registry := Dict.erase r name

/-- Note the status of a task, if it is registered. -/
def setStatus (r : Registry) (name : String) (status : TaskStatus) : Registry :=
  Dict.modify r name fun t => { t with status }

/-- Note a new spec of a task, leaving its status alone. -/
def setSpec (r : Registry) (name : String) (spec : TaskSpec) : Registry :=
  Dict.modify r name fun t => { t with spec }

/-- The specs of all tasks. -/
def specs (r : Registry) : List TaskSpec := (Dict.values r).map (·.spec)

end Registry

/-- The status that an observation shows: a running task, else one that
    failed if some instance ended, else one that is still to come. -/
def TaskStatus.observed (running : Bool) (runtime : List RuntimeInstance) : TaskStatus :=
  if running then .running
  else if runtime.any RuntimeInstance.isExited then .error
  else .scheduling

/-- A registered task as callers see it. -/
structure TaskView where
  spec : TaskSpec
  status : TaskStatus
  runtime : List RuntimeInstance

/-- A view as a document. -/
def TaskView.document (v : TaskView) : Json :=
  .object [("spec", TaskSpec.codec.write v.spec), ("status", TaskStatus.codec.write v.status),
    ("runtime", .array (v.runtime.map RuntimeInstance.codec.write))]

end ServingPlane
