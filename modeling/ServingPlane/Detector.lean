import ServingPlane.Detector.Calls
import ServingPlane.Detector.Error

/-! # The detector

    The detector keeps the registry of tasks and looks after them.  Every
    change of a task's spec enters the queue and the registry together,
    under the registry's lock, so that a recovery computed from an older
    spec cannot slip in between.  A cycle observes each task, reports what
    it saw, and asks the advisor to end an anomaly. -/

namespace ServingPlane

/-- The servers that the detector asks, and whether it reports what it observes. -/
structure Detector where
  metrics : MetricsCollection
  advisor : Advisor
  reports : Bool

/-- A program of the detector. -/
abbrev Detection := Program DetectorCall

namespace Detector

/-- How many recoveries of a task stay on record. -/
def historyLimit : Nat := 10

/-- Ask the control plane's own state. -/
def ask {α : Type} (call : PlaneCall α) : Detection α := .askFirst call

/-- Ask the outside. -/
def askOutside {α : Type} (call : OutsideCall α) : Detection α := .askSecond call

/-- Send what an advisor request needs and read its reply. -/
def consult {α β : Type} (d : Detector) (e : Advisor.Endpoint α β) (input : α) :
    Detection (Except AdvisorError β) :=
  (d.advisor.ask e input).interpret fun
    | .send request => askOutside (.advise request)

/-- Collect the metrics of a task. -/
def collect (d : Detector) (spec : TaskSpec) : Detection (Except MetricsError RecoveryRequest) :=
  (d.metrics.collect spec).interpret fun
    | .now => askOutside .now
    | .gather requests => askOutside (.gather requests)

/-! ## The registry -/

/-- Enter a task without queueing it. -/
def register (spec : TaskSpec) : Detection Unit :=
  ask (.updateRegistry (·.register spec))

/-- The spec to deploy: an auto-scaled task first takes the advisor's sizing. -/
def seed (d : Detector) (spec : TaskSpec) : Detection (Except AdvisorError TaskSpec) :=
  if spec.isAutoScaled then do
    let request : SizingRequest := ⟨spec.modelConfig.family, spec.modelConfig.gpu⟩
    return (← d.consult Advisor.sizing request).map spec.apply
  else return .ok spec

/-- Queue a spec and register it.  If any step fails, nothing is queued or registered. -/
def deploy (d : Detector) (spec : TaskSpec) : Detection (Except DetectorError Unit) :=
  match spec.validate with
  | .error cause => return .error (.invalidTask cause)
  | .ok () => do
    match ← d.seed spec with
    | .error cause => return .error (.advisor cause)
    | .ok spec =>
      let registry ← ask .lockRegistry
      match ← ask (.enqueue spec) with
      | .closed =>
        ask (.unlockRegistry registry)
        return .error .queueClosed
      | .accepted =>
        ask (.unlockRegistry (registry.register spec))
        return .ok ()

/-- Queue the teardown of a task and unregister it; tells whether it was registered. -/
def delete (name : String) : Detection (Except DetectorError Bool) := do
  let registry ← ask .lockRegistry
  match registry.get? name with
  | none =>
    ask (.unlockRegistry registry)
    return .ok false
  | some task =>
    match ← ask (.enqueue task.spec.teardown) with
    | .closed =>
      ask (.unlockRegistry registry)
      return .error .queueClosed
    | .accepted =>
      ask (.unlockRegistry (registry.unregister name))
      return .ok true

/-- Number of registered tasks. -/
def taskCount : Detection Nat := do return (← ask .readRegistry).size

/-- Number of specs that wait for the scaler. -/
def queuedTasks : Detection Nat := ask .queuedCount

/-! ## Status -/

/-- Ask the backend about a task and note the status. -/
def observe (spec : TaskSpec) :
    Detection (Except BackendError (TaskStatus × List RuntimeInstance)) := do
  match ← askOutside (.isRunning spec) with
  | .error cause => return .error cause
  | .ok running =>
    match ← askOutside (.instances spec) with
    | .error cause => return .error cause
    | .ok runtime =>
      let status := TaskStatus.observed running runtime
      ask (.updateRegistry (·.setStatus spec.name status))
      return .ok (status, runtime)

/-- Whether a task runs, noting its status. -/
def isTaskRunning (spec : TaskSpec) : Detection (Except DetectorError Bool) := do
  match ← observe spec with
  | .error cause => return .error (.backend cause)
  | .ok (status, _) => return .ok (status == .running)

/-- Spec, status and replicas of a registered task.  A running replica
    shows, and is noted, as a running task. -/
def describe (name : String) : Detection (Except DetectorError TaskView) := do
  match (← ask .readRegistry).get? name with
  | none => return .error (.unknownTask name)
  | some task =>
    match ← askOutside (.instances task.spec) with
    | .error cause => return .error (.backend cause)
    | .ok runtime =>
      if runtime.any RuntimeInstance.isRunning then
        ask (.updateRegistry (·.setStatus name .running))
        return .ok ⟨task.spec, .running, runtime⟩
      else return .ok ⟨task.spec, task.status, runtime⟩

/-- The recoveries of a registered task, newest first. -/
def history (name : String) : Detection (Except DetectorError (Option (List RecoveryRecord))) := do
  if (← ask .readRegistry).contains name then
    match ← ask (.listHistory name) with
    | .error cause => return .error (.store cause)
    | .ok records => return .ok (some records)
  else return .ok none

/-! ## Anomalies -/

/-- The advisor's verdict on a task. -/
def verdict (d : Detector) (spec : TaskSpec) : Detection (Except DetectorError Verdict) := do
  match ← d.collect spec with
  | .error cause => return .error (.metrics cause)
  | .ok request => return (← d.consult Advisor.detection request.detection).mapError .advisor

/-- Whether a task behaves anomalously; without a verdict it does not. -/
def isAnomalous (d : Detector) (spec : TaskSpec) : Detection Bool := do
  match ← d.verdict spec with
  | .ok v => return v.isAnomalous
  | .error _ => return false

/-- The advisor's recommendation for a task. -/
def recommendation (d : Detector) (spec : TaskSpec) :
    Detection (Except DetectorError Recommendation) := do
  match ← d.collect spec with
  | .error cause => return .error (.metrics cause)
  | .ok request => return (← d.consult Advisor.recovery request).mapError .advisor

/-- Queue a recovered spec and put it in the registry's place of the spec it
    was computed from; tells whether that spec was still there. -/
def install (spec updated : TaskSpec) : Detection (Except DetectorError Bool) := do
  let registry ← ask .lockRegistry
  if (registry.get? spec.name).any (·.spec.eqv spec) then
    match ← ask (.enqueue updated) with
    | .closed =>
      ask (.unlockRegistry registry)
      return .error .queueClosed
    | .accepted =>
      ask (.unlockRegistry (registry.setSpec spec.name updated))
      return .ok true
  else
    ask (.unlockRegistry registry)
    return .ok false

/-- Ask for a recommendation, queue the spec that it leads to, and record
    the change.  Nothing happens if the task was deleted or deployed anew
    in the meantime; the answer is the spec that was queued. -/
def recover (d : Detector) (spec : TaskSpec) :
    Detection (Except DetectorError (Option TaskSpec)) :=
  match spec.currentConfig with
  | none => return .error (.unsupportedEngine spec.engine.kind)
  | some previous => do
    match ← d.recommendation spec with
    | .error cause => return .error cause
    | .ok recommended =>
      let updated := spec.apply recommended
      match ← install spec updated with
      | .error cause => return .error cause
      | .ok false => return .ok none
      | .ok true =>
        let record : RecoveryRecord :=
          ⟨.ofInt (← askOutside .now).millis, true, recommended, previous⟩
        match ← ask (.appendHistory spec.name record historyLimit) with
        | .error cause => return .error (.store cause)
        | .ok () => return .ok (some updated)

/-- Look after one task.  Failures end its turn and nothing else, and a
    report that fails does not even that. -/
def visit (d : Detector) (spec : TaskSpec) : Detection Unit := do
  match ← observe spec with
  | .error _ => return ()
  | .ok (status, runtime) =>
    if d.reports then
      let _ ← askOutside (.report spec.name status runtime)
    if spec.isAutoScaled && status == .running then
      if ← d.isAnomalous spec then
        let _ ← d.recover spec

/-- Look after tasks in order. -/
def cycle (d : Detector) : List TaskSpec → Detection Unit
  | [] => return ()
  | spec :: specs => do
    d.visit spec
    d.cycle specs

/-- One cycle over all registered tasks, in the order of some walk over the registry. -/
def detectWalking (d : Detector) (walk : Registry → List TaskSpec) : Detection Unit := do
  d.cycle (walk (← ask .readRegistry))

/-- One cycle over all registered tasks, in the order of their names. -/
def detectOnce (d : Detector) : Detection Unit := do
  d.cycle (← ask .readRegistry).specs

/-- What the detection loop wakes up for. -/
inductive Wake where
  | interval
  | shutdown
  deriving DecidableEq, Repr

/-- Serve wake-ups until a shutdown; a cycle under way always completes. -/
def run (d : Detector) : List Wake → Detection Bool
  | [] => return false
  | .interval :: rest => do
    d.detectOnce
    d.run rest
  | .shutdown :: _ => return true

end Detector

end ServingPlane
