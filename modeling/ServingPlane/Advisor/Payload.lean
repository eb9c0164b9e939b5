import ServingPlane.Task.Wire

/-! # What the advisor is asked and answers

    Requests carry the metrics of each replica and the configuration in
    effect; answers are a verdict or a recommendation.  A recovery leaves
    a record of both behind. -/

namespace ServingPlane

open Numeric

/-- One sample: unix seconds and a value. -/
abbrev MetricPoint := Double × Double

/-- The six series of one replica. -/
structure ReplicaMetrics where
  active : List MetricPoint
  running : List MetricPoint
  pending : List MetricPoint
  kvCacheUsage : List MetricPoint
  newRequests : List MetricPoint
  successes : List MetricPoint
  deriving DecidableEq, Repr

namespace ReplicaMetrics

/-- No samples. -/
def blank : ReplicaMetrics := ⟨[], [], [], [], [], []⟩

instance : Inhabited ReplicaMetrics := ⟨blank⟩

/-- A series on the wire. -/
def points : Codec (List MetricPoint) := .list (.pair "an array of length 2" .double .double)

/-- The series by metric name. -/
def shape : RecordShape ReplicaMetrics where
  name := "Metrics"
  initial := blank
  fields := [
    .optional "active_requests" points (·.active) (fun v m => { m with active := v }),
    .optional "running_requests" points (·.running) (fun v m => { m with running := v }),
    .optional "pending_requests" points (·.pending) (fun v m => { m with pending := v }),
    .optional "gpu_kv_cache_usage" points (·.kvCacheUsage)
      (fun v m => { m with kvCacheUsage := v }),
    .optional "server_new_requests" points (·.newRequests)
      (fun v m => { m with newRequests := v }),
    .optional "server_success_requests" points (·.successes)
      (fun v m => { m with successes := v })]

end ReplicaMetrics

/-- Ask for a first configuration of a model on a card. -/
structure SizingRequest where
  family : ModelFamily
  gpu : GpuModel
  deriving DecidableEq, Repr, Inhabited

/-- Both parts are required. -/
def SizingRequest.shape : RecordShape SizingRequest where
  name := "ConfigRecommendRequest"
  initial := default
  fields := [
    .needed "llm" ModelFamily.shape.codec (·.family) (fun v r => { r with family := v }),
    .needed "gpu" GpuModel.shape.codec (·.gpu) (fun v r => { r with gpu := v })]

/-- Ask whether a task behaves anomalously. -/
structure DetectionRequest where
  metrics : List ReplicaMetrics
  settings : VllmSettings
  deriving DecidableEq, Repr, Inhabited

/-- Both parts are required. -/
def DetectionRequest.shape : RecordShape DetectionRequest where
  name := "AnomalyDetectRequest"
  initial := default
  fields := [
    .needed "metrics" (.list ReplicaMetrics.shape.codec) (·.metrics)
      (fun v r => { r with metrics := v }),
    .needed "configurations" VllmSettings.codec (·.settings)
      (fun v r => { r with settings := v })]

/-- Ask for a configuration that ends an anomaly. -/
structure RecoveryRequest where
  metrics : List ReplicaMetrics
  settings : VllmSettings
  family : ModelFamily
  gpu : GpuModel
  deriving DecidableEq, Repr, Inhabited

namespace RecoveryRequest

/-- All four parts are required. -/
def shape : RecordShape RecoveryRequest where
  name := "AnomalyRecoverRequest"
  initial := default
  fields := [
    .needed "metrics" (.list ReplicaMetrics.shape.codec) (·.metrics)
      (fun v r => { r with metrics := v }),
    .needed "configurations" VllmSettings.codec (·.settings)
      (fun v r => { r with settings := v }),
    .needed "llm" ModelFamily.shape.codec (·.family) (fun v r => { r with family := v }),
    .needed "gpu" GpuModel.shape.codec (·.gpu) (fun v r => { r with gpu := v })]

/-- The part that a detection needs. -/
def detection (r : RecoveryRequest) : DetectionRequest := ⟨r.metrics, r.settings⟩

end RecoveryRequest

/-- The advisor's verdict on a task. -/
structure Verdict where
  score : Int64
  deriving DecidableEq, Repr, Inhabited

namespace Verdict

/-- A missing score is zero. -/
def shape : RecordShape Verdict where
  name := "AnomalyDetectResult"
  initial := ⟨0⟩
  fields := [.optional "is_anomaly" .int64 (·.score) (fun v _ => ⟨v⟩)]

/-- A positive score is an anomaly. -/
def isAnomalous (v : Verdict) : Bool := 0 < v.score

end Verdict

/-- What a recovery leaves in the history of its task. -/
structure RecoveryRecord where
  /-- Milliseconds since the epoch. -/
  timestamp : Int64
  isAnomaly : Bool
  recommended : Recommendation
  /-- In effect before the recommendation was applied. -/
  previous : Recommendation
  deriving DecidableEq, Repr, Inhabited

/-- All four parts are required. -/
def RecoveryRecord.shape : RecordShape RecoveryRecord where
  name := "AnomalyRecommendResult"
  initial := default
  fields := [
    .needed "timestamp" .int64 (·.timestamp) (fun v r => { r with timestamp := v }),
    .needed "isAnomaly" .bool (·.isAnomaly) (fun v r => { r with isAnomaly := v }),
    .needed "configRecommendResult" Recommendation.codec (·.recommended)
      (fun v r => { r with recommended := v }),
    .needed "currentConfig" Recommendation.codec (·.previous)
      (fun v r => { r with previous := v })]

end ServingPlane
