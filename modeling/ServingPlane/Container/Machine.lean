import ServingPlane.Container.Engine

/-! # A machine with containers

    A container engine as a state: the containers that live on it, and
    which of the calls to come it refuses.  Every container that is
    created gets an id of its own. -/

namespace ServingPlane

open Numeric

/-- Which calls a machine refuses. -/
structure EngineFaults where
  /-- How many of the next fetches, creations and starts. -/
  pulls : Nat
  creations : Nat
  starts : Nat
  /-- The containers that cannot be stopped, and those that cannot be looked at. -/
  stops : List String
  inspections : List String
  deriving DecidableEq, Repr

/-- No call is refused. -/
def EngineFaults.none : EngineFaults := ⟨0, 0, 0, [], []⟩

/-- A machine. -/
structure Machine where
  /-- The containers that live on it, oldest first. -/
  containers : List RuntimeInstance
  /-- How many containers were ever created. -/
  created : Nat
  faults : EngineFaults
  deriving DecidableEq, Repr

namespace Machine

/-- A machine without containers. -/
def new : Machine := ⟨[], 0, .none⟩

/-- The id of the next container. -/
def nextId (m : Machine) : String := "c" ++ natText m.created

/-- A refusal. -/
def refuse {α : Type} (reason : String) : Except BackendError α := .error (.engine reason)

/-- Set the status of a container. -/
def setStatus (m : Machine) (id status : String) : Machine :=
  { m with containers := m.containers.map fun c => if c.id = id then { c with status } else c }

/-- A container is gone. -/
def remove (m : Machine) (id : String) : Machine :=
  { m with containers := m.containers.filter (·.id ≠ id) }

/-- Serve a call of the container engine. -/
def serve (m : Machine) : {α : Type} → EngineCall α → α × Machine
  | _, .ensureImage image =>
    match m.faults.pulls with
    | n + 1 => (refuse s!"no image {image}", { m with faults := { m.faults with pulls := n } })
    | 0 => (.ok (), m)
  | _, .create launch =>
    match m.faults.creations with
    | n + 1 => (refuse "create refused", { m with faults := { m.faults with creations := n } })
    | 0 => (.ok m.nextId, { m with
        containers := m.containers ++ [⟨m.nextId, launch.name, "created"⟩]
        created := m.created + 1 })
  | _, .start id =>
    match m.faults.starts with
    | n + 1 => (refuse "start refused", { m with faults := { m.faults with starts := n } })
    | 0 => (.ok (), m.setStatus id "running")
  | _, .stopAndRemove id =>
    if m.faults.stops.contains id then (refuse "stop refused", m) else (.ok (), m.remove id)
  | _, .inspect id =>
    if m.faults.inspections.contains id then (refuse s!"inspect {id} refused", m)
    else (.ok (m.containers.find? (·.id = id)), m)

end Machine

end ServingPlane
