import ServingPlane.Advisor.Client
import ServingPlane.Backend
import ServingPlane.Metrics.Server

/-! # Why a request to the detector fails -/

namespace ServingPlane

/-- Why a request to the detector fails. -/
inductive DetectorError where
  | unknownTask (name : String)
  | invalidTask (cause : TaskSpec.Invalid)
  /-- The task's engine has no configuration to recommend. -/
  | unsupportedEngine (kind : String)
  | advisor (cause : AdvisorError)
  | metrics (cause : MetricsError)
  | backend (cause : BackendError)
  | store (cause : StoreError)
  /-- Nobody takes specs from the queue any more. -/
  | queueClosed

/-- The message of a cause. -/
def DetectorError.message : DetectorError → String
  | unknownTask name => s!"task {name} is not registered"
  | invalidTask cause => s!"invalid task: {cause.message}"
  | unsupportedEngine kind => s!"unsupported backend: {kind}"
  | advisor cause => s!"advisor: {cause.message}"
  | metrics cause => s!"metrics: {cause.message}"
  | backend cause => s!"resource backend: {cause.message}"
  | store cause => s!"state store: {cause.message}"
  | queueClosed => "task queue closed"

end ServingPlane
