import ServingPlane.Advisor.Payload

/-! # Metric queries

    The six series that are collected for every task, and the text of the
    query for each.  Replicas of a task export under its service name
    followed by `-replica`. -/

namespace ServingPlane

/-- One of the collected series. -/
inductive Metric where
  | pendingRequests
  | activeRequests
  | runningRequests
  | kvCacheUsage
  | newRequests
  | successes
  deriving DecidableEq, Repr, Inhabited

namespace Metric

/-- All six, in the order in which they are asked for. -/
def all : List Metric :=
  [pendingRequests, activeRequests, runningRequests, kvCacheUsage, newRequests, successes]

/-- The name of a series. -/
def name : Metric → String
  | pendingRequests => "pending_requests"
  | activeRequests => "active_requests"
  | runningRequests => "running_requests"
  | kvCacheUsage => "gpu_kv_cache_usage"
  | newRequests => "server_new_requests"
  | successes => "server_success_requests"

/-- The label value that every replica of a service matches. -/
def replicaPattern (service : String) : String := service ++ "-replica.*"

/-- A label matcher: the label is fully matched by a pattern. -/
def labelMatcher (label pattern : String) : String := label ++ "=~\"" ++ pattern ++ "\""

/-- A selector: a series name with matchers. -/
def selector (series : String) (matchers : List String) : String :=
  series ++ "\x7b" ++ ", ".intercalate matchers ++ "\x7d"

/-- The mean over the replicas of one gauge. -/
def gaugeQuery (series service : String) : String :=
  "avg by(exported_job) (" ++
    selector series [labelMatcher "exported_job" (replicaPattern service)] ++ ")"

/-- The query for a series of a task whose replicas export under a service name. -/
def query (service : String) : Metric → String
  | pendingRequests => gaugeQuery "pending_requests" service
  | activeRequests => gaugeQuery "http_server_active_requests" service
  | runningRequests => gaugeQuery "running_requests" service
  | kvCacheUsage => gaugeQuery "gpu_kv_cache_usage_percent" service
  | newRequests =>
    "sum(rate(" ++
      selector "http_server_requests_total"
        [labelMatcher "exported_job" (replicaPattern service)] ++
      "[1m]) * 60) by (exported_job)"
  | successes =>
    "avg by(service) (increase(" ++
      selector "traces_spanmetrics_calls_total"
        [labelMatcher "service" (replicaPattern service), "span_name=\"POST /generate\"",
          labelMatcher "http_status_code" "2.."] ++
      "[1m]))"

/-- Add samples to the series that a query fills. -/
def extend (points : List MetricPoint) (m : ReplicaMetrics) : Metric → ReplicaMetrics
  | pendingRequests => { m with pending := m.pending ++ points }
  | activeRequests => { m with active := m.active ++ points }
  | runningRequests => { m with running := m.running ++ points }
  | kvCacheUsage => { m with kvCacheUsage := m.kvCacheUsage ++ points }
  | newRequests => { m with newRequests := m.newRequests ++ points }
  | successes => { m with successes := m.successes ++ points }

end Metric

end ServingPlane
