import ServingPlane.Backend
import ServingPlane.Detector.Registry
import ServingPlane.Metrics.Collection
import ServingPlane.Queue

/-! # What the detector asks for

    The detector works on the state of the control plane, which several
    of its programs share, and asks the outside: the backend, the clock,
    and the servers for metrics and advice.  Between two calls others may
    act; while the registry is locked nobody else reads or changes it. -/

namespace ServingPlane

/-- What is asked of the control plane's own state. -/
inductive PlaneCall : Type → Type where
  /-- Wait until the registry is free and read it. -/
  | readRegistry : PlaneCall Registry
  /-- Wait until the registry is free and change it at once. -/
  | updateRegistry (change : Registry → Registry) : PlaneCall Unit
  /-- Wait until the registry is free and lock it. -/
  | lockRegistry : PlaneCall Registry
  /-- Release the registry with new contents. -/
  | unlockRegistry (contents : Registry) : PlaneCall Unit
  /-- Hand a spec to the queue, waiting for a free slot. -/
  | enqueue (spec : TaskSpec) : PlaneCall AppendResult
  /-- How many tasks wait in the queue. -/
  | queuedCount : PlaneCall Nat
  | appendHistory (task : String) (record : RecoveryRecord) (limit : Nat) :
    PlaneCall (Except StoreError Unit)
  | listHistory (task : String) : PlaneCall (Except StoreError (List RecoveryRecord))

/-- What is asked of the outside. -/
inductive OutsideCall : Type → Type where
  /-- Whether the backend has a running replica of the task. -/
  | isRunning (spec : TaskSpec) : OutsideCall (Except BackendError Bool)
  /-- The task's replicas, as the backend sees them. -/
  | instances (spec : TaskSpec) : OutsideCall (Except BackendError (List RuntimeInstance))
  | now : OutsideCall Instant
  /-- Send metric requests at once; the replies come in order of arrival. -/
  | gather (requests : List (Metric × HttpRequest)) : OutsideCall (List (Metric × HttpOutcome))
  /-- Send a request to the advisor. -/
  | advise (request : HttpRequest) : OutsideCall HttpOutcome
  /-- Report an observed status; the answer is the reason if that fails. -/
  | report (task : String) (status : TaskStatus) (runtime : List RuntimeInstance) :
    OutsideCall (Except String Unit)

/-- All that the detector asks for. -/
abbrev DetectorCall : Type → Type := OneOf PlaneCall OutsideCall

end ServingPlane
