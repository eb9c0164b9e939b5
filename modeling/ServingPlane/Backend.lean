import ServingPlane.Program
import ServingPlane.Store

/-! # Resource backends

    What every infrastructure that runs replicas can be asked, and how
    such a request fails. -/

namespace ServingPlane

/-- A fault of the local container daemon. -/
inductive DaemonFault where
  /-- The daemon answered with an error status. -/
  | status (code : Nat) (message : String)
  /-- The daemon's answer does not have the expected shape. -/
  | malformed (detail : String)
  /-- The daemon could not be reached. -/
  | unreachable (detail : String)
  deriving DecidableEq, Repr

/-- The text of a daemon fault. -/
def DaemonFault.message : DaemonFault → String
  | status code message =>
    s!"Docker responded with status code {Numeric.natText code}: {message}"
  | malformed detail => detail
  | unreachable detail => detail

/-- Why a request to a backend fails. -/
inductive BackendError where
  | daemon (fault : DaemonFault)
  | apiServer (reason : String)
  | engine (reason : String)
  | cluster (reason : String)
  | invalidTask (reason : String)
  | gpuDiscovery (reason : String)
  /-- Some objects of a task could not be brought into their desired state. -/
  | reconcile (task kinds : String)
  | store (error : StoreError)
  | unencodable (fault : Fault)

/-- The message of a cause. -/
def BackendError.message : BackendError → String
  | daemon fault => s!"docker error: {fault.message}"
  | apiServer reason => s!"kubernetes error: {reason}"
  | engine reason => s!"container engine error: {reason}"
  | cluster reason => s!"cluster error: {reason}"
  | invalidTask reason => s!"invalid task: {reason}"
  | gpuDiscovery reason => s!"gpu discovery failed: {reason}"
  | reconcile task kinds => s!"reconcile of {task} failed for: {kinds}"
  | store error => s!"state store error: {error.message}"
  | unencodable fault => s!"serialization error: {fault.message}"

/-- What a backend is asked. -/
inductive BackendCall : Type → Type where
  /-- Bring the task's replicas into the state of the spec. -/
  | deploy (spec : TaskSpec) : BackendCall (Except BackendError Unit)
  /-- Remove every replica of the task. -/
  | delete (spec : TaskSpec) : BackendCall (Except BackendError Unit)
  /-- Whether the task has a running replica. -/
  | isRunning (spec : TaskSpec) : BackendCall (Except BackendError Bool)
  /-- The task's replicas and their status. -/
  | instances (spec : TaskSpec) : BackendCall (Except BackendError (List RuntimeInstance))

end ServingPlane
