import ServingPlane.Metrics.Query
import ServingPlane.Metrics.Server

/-! # Collecting the metrics of a task

    The six queries of a task are under way at once; their outcomes are
    gathered by replica, in the order in which they arrive.  An outcome
    only touches the series of its own query, so the order does not show
    in the result.  A failed query adds nothing. -/

namespace ServingPlane

/-- The series gathered so far, by replica. -/
abbrev MetricsByReplica := Dict String ReplicaMetrics

/-- What became of the query for one metric. -/
structure MetricOutcome where
  metric : Metric
  outcome : Except MetricsError (List RangeSeries)

namespace MetricsByReplica

/-- Add one series to the replica it belongs to. -/
def addSeries (metric : Metric) (gathered : MetricsByReplica) (s : RangeSeries) :
    MetricsByReplica :=
  gathered.insert s.identity
    (metric.extend s.points ((gathered.get? s.identity).getD .blank))

/-- Add the outcome of one query. -/
def addOutcome (gathered : MetricsByReplica) (o : MetricOutcome) : MetricsByReplica :=
  match o.outcome with
  | .ok series => series.foldl (addSeries o.metric) gathered
  | .error _ => gathered

end MetricsByReplica

/-- The metrics of each replica, in the order of the replicas' names. -/
def gatherMetrics (outcomes : List MetricOutcome) : List ReplicaMetrics :=
  Dict.values (outcomes.foldl MetricsByReplica.addOutcome Dict.empty)

/-- Where and over which stretch metrics are collected. -/
structure MetricsCollection where
  server : MetricsServer
  lookback : Span
  step : String
  deriving DecidableEq, Repr

namespace MetricsCollection

/-- The six requests for a task. -/
def requests (c : MetricsCollection) (window : QueryWindow) (spec : TaskSpec) :
    List (Metric × HttpRequest) :=
  Metric.all.map fun m => (m, c.server.rangeRequest (m.query spec.exporterServiceName) window)

/-- What is asked of the advisor about a task, given the outcomes of the
    six requests in order of arrival. -/
def recoveryRequest (spec : TaskSpec) (settings : VllmSettings)
    (replies : List (Metric × HttpOutcome)) : RecoveryRequest where
  metrics := gatherMetrics (replies.map fun (m, r) => ⟨m, MetricsServer.readRange r⟩)
  settings := settings
  family := spec.modelConfig.family
  gpu := spec.modelConfig.gpu

/-- What collecting asks of the outside. -/
inductive Call : Type → Type where
  | now : Call Instant
  /-- Send requests at once; the replies come in order of arrival. -/
  | gather (requests : List (Metric × HttpRequest)) : Call (List (Metric × HttpOutcome))

/-- Collect the metrics of a task, beside its configuration and model.  A
    lookback that reaches before the calendar panics; the collection ends
    there with a cause of its own. -/
def collect (c : MetricsCollection) (spec : TaskSpec) :
    Program Call (Except MetricsError RecoveryRequest) :=
  match spec.engine.vllm? with
  | none => return .error (.unsupportedEngine spec.engine.kind)
  | some settings => do
    match QueryWindow.endingAt (← Program.ask Call.now) c.lookback c.step with
    | none => return .error .window
    | some window =>
      return .ok (recoveryRequest spec settings (← Program.ask (Call.gather (c.requests window spec))))

end MetricsCollection

end ServingPlane
