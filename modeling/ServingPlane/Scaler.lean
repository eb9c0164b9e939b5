import ServingPlane.Backend

/-! # The scaler

    The one consumer of the task queue.  A spec without replicas removes
    its task; any other is deployed.  A failed request is not retried and
    does not stop the scaler. -/

namespace ServingPlane.Scaler

/-- Bring the infrastructure into the state of one spec. -/
def reconcile (spec : TaskSpec) : Program BackendCall (Except BackendError Unit) :=
  .ask (if spec.replica = 0 then .delete spec else .deploy spec)

/-- What the scaler wakes up for. -/
inductive Wake where
  | popped (spec : TaskSpec)
  /-- Every producer is gone and nothing is queued. -/
  | drained
  | shutdown
  deriving DecidableEq

/-- Serve wake-ups until one ends the loop; tells whether one did. -/
def run : List Wake → Program BackendCall Bool
  | [] => pure false
  | .popped spec :: rest => do
    let _ ← reconcile spec
    run rest
  | .drained :: _ => pure true
  | .shutdown :: _ => pure true

end ServingPlane.Scaler
