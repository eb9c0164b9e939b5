import ServingPlane.Settings.Address
import ServingPlane.Task.Spec

/-! # Daemon settings

    Everything the daemon is told at start, in sections.  Every section
    and every field has a default, so nothing need be said at all. -/

namespace ServingPlane

/-- The HTTP boundary. -/
structure ApiSettings where
  listen : SocketAddress
  mountPath : String
  /-- Reported in every response. -/
  version : String
  deriving DecidableEq, Repr, Inhabited

/-- The detection loop. -/
structure DetectorSettings where
  intervalSecs : UInt64
  /-- How far back each range query looks. -/
  lookbackSecs : UInt64
  /-- Resolution of a range query. -/
  step : String
  deriving DecidableEq, Repr, Inhabited

/-- The advisor service. -/
structure AdvisorSettings where
  url : String
  path : String
  deriving DecidableEq, Repr, Inhabited

/-- Defaults of every serving replica. -/
structure ServingSettings where
  /-- Start of derived exporter names. -/
  name : String
  image : String
  startCommand : List String
  network : String
  networkAlias : String
  deriving DecidableEq, Repr, Inhabited

/-- The infrastructure that runs replicas. -/
inductive BackendKind where
  | docker
  | k8s
  deriving DecidableEq, Repr, Inhabited

/-- The local container engine. -/
structure DockerSettings where
  /-- Fixed GPU indices; discovered when absent. -/
  gpuIndices : Option (List UInt32)
  stopTimeoutSecs : Int64
  deriving DecidableEq, Repr, Inhabited

/-- The cluster. -/
structure ClusterSettings where
  inCluster : Bool
  kubeconfigPath : Option String
  gpuResourceName : String
  ingressClass : String
  collectorServiceAccount : String
  deriving DecidableEq, Repr, Inhabited

/-- The form of log lines. -/
inductive LogFormat where
  | text
  | json
  deriving DecidableEq, Repr, Inhabited

/-- The log. -/
structure LoggingSettings where
  level : String
  format : LogFormat
  deriving DecidableEq, Repr, Inhabited

/-- All sections. -/
structure Settings where
  api : ApiSettings
  detector : DetectorSettings
  prometheusUrl : String
  advisor : AdvisorSettings
  serving : ServingSettings
  statePath : String
  queueCapacity : UInt64
  backend : BackendKind
  docker : DockerSettings
  cluster : ClusterSettings
  logging : LoggingSettings
  deriving DecidableEq, Repr, Inhabited

/-- The section on the wire. -/
def ApiSettings.shape : RecordShape ApiSettings where
  name := "ApiConfig"
  initial := ⟨.v4 [0, 0, 0, 0] 8183, "/api/servegrid/v1", "v1"⟩
  fields := [
    .optional "listen" SocketAddress.codec (·.listen) (fun v s => { s with listen := v }),
    .optional "url_prefix" .string (·.mountPath) (fun v s => { s with mountPath := v }),
    .optional "version" .string (·.version) (fun v s => { s with version := v })]

/-- The section on the wire. -/
def DetectorSettings.shape : RecordShape DetectorSettings where
  name := "DetectorConfig"
  initial := ⟨30, 10800, "60s"⟩
  fields := [
    .optional "detect_interval_secs" .uint64 (·.intervalSecs)
      (fun v s => { s with intervalSecs := v }),
    .optional "lookback_secs" .uint64 (·.lookbackSecs) (fun v s => { s with lookbackSecs := v }),
    .optional "step" .string (·.step) (fun v s => { s with step := v })]

/-- The section of the metrics server on the wire. -/
def prometheusShape : RecordShape String where
  name := "PrometheusConfig"
  initial := "http://127.0.0.1:9090"
  fields := [.optional "url" .string id (fun v _ => v)]

/-- The section on the wire. -/
def AdvisorSettings.shape : RecordShape AdvisorSettings where
  name := "AdvisorConfig"
  initial := ⟨"http://127.0.0.1:8181", "/api/algo/v1"⟩
  fields := [
    .optional "url" .string (·.url) (fun v s => { s with url := v }),
    .optional "path_prefix" .string (·.path) (fun v s => { s with path := v })]

/-- The section on the wire. -/
def ServingSettings.shape : RecordShape ServingSettings where
  name := "ServingConfig"
  initial := ⟨"servegrid", "", ["servegrid-serve", "run"], "", ""⟩
  fields := [
    .optional "name" .string (·.name) (fun v s => { s with name := v }),
    .optional "image" .string (·.image) (fun v s => { s with image := v }),
    .optional "start_cmd" (.list .string) (·.startCommand) (fun v s => { s with startCommand := v }),
    .optional "network" .string (·.network) (fun v s => { s with network := v }),
    .optional "network_alias" .string (·.networkAlias) (fun v s => { s with networkAlias := v })]

/-- Paths, which are texts. -/
def pathCodec : Codec String where
  write := .string
  read
    | .string (some s) => .ok s
    | d => .error (d.mismatch "path string")

/-- The section of the state store on the wire. -/
def stateShape : RecordShape String where
  name := "StateConfig"
  initial := "/var/lib/servegrid/state.redb"
  fields := [.optional "path" pathCodec id (fun v _ => v)]

/-- The section of the queue on the wire. -/
def queueShape : RecordShape UInt64 where
  name := "QueueConfig"
  initial := 1
  fields := [.optional "capacity" .count id (fun v _ => v)]

namespace BackendKind

/-- The name of a kind. -/
def text : BackendKind → String
  | docker => "docker"
  | k8s => "k8s"

/-- Kinds on the wire. -/
def codec : Codec BackendKind := .choice [("docker", .docker), ("k8s", .k8s)] text

/-- The section on the wire. -/
def shape : RecordShape BackendKind where
  name := "ResourceBackendConfig"
  initial := .docker
  fields := [.optional "kind" codec id (fun v _ => v)]

/-- The spelling that a kind's name is looked up by. -/
def folded (s : String) : String := String.ofList (s.toList.map Char.toLower)

/-- A kind as an operator names it, in any ASCII letter case; an unknown
    one comes back folded. -/
def ofName (s : String) : Except String BackendKind :=
  let name := folded s
  if name = "docker" then .ok .docker
  else if name = "k8s" ∨ name = "kubernetes" then .ok .k8s
  else .error name

/-- The message for a name that is no kind. -/
def unknownMessage (folded : String) : String := s!"unknown resource backend: {folded}"

end BackendKind

/-- The section on the wire. -/
def DockerSettings.shape : RecordShape DockerSettings where
  name := "DockerConfig"
  initial := ⟨none, 10⟩
  fields := [
    .optional "gpu_indices" (.option (.list .uint32)) (·.gpuIndices)
      (fun v s => { s with gpuIndices := v }),
    .optional "stop_timeout_secs" .int64 (·.stopTimeoutSecs)
      (fun v s => { s with stopTimeoutSecs := v })]

/-- The section on the wire. -/
def ClusterSettings.shape : RecordShape ClusterSettings where
  name := "K8sConfig"
  initial := ⟨false, none, "nvidia.com/gpu", "nginx", "otel-collector"⟩
  fields := [
    .optional "in_cluster" .bool (·.inCluster) (fun v s => { s with inCluster := v }),
    .optional "kubeconfig_path" (.option pathCodec) (·.kubeconfigPath)
      (fun v s => { s with kubeconfigPath := v }),
    .optional "gpu_resource_name" .string (·.gpuResourceName)
      (fun v s => { s with gpuResourceName := v }),
    .optional "ingress_class" .string (·.ingressClass) (fun v s => { s with ingressClass := v }),
    .optional "collector_service_account" .string (·.collectorServiceAccount)
      (fun v s => { s with collectorServiceAccount := v })]

/-- The section on the wire. -/
def LoggingSettings.shape : RecordShape LoggingSettings where
  name := "LoggingConfig"
  initial := ⟨"info,servegrid=debug", .text⟩
  fields := [
    .optional "level" .string (·.level) (fun v s => { s with level := v }),
    .optional "format"
      (.choice [("text", .text), ("json", .json)] fun
        | .text => "text"
        | .json => "json")
      (·.format) (fun v s => { s with format := v })]

namespace Settings

/-- All sections at their defaults. -/
def standard : Settings where
  api := ApiSettings.shape.initial
  detector := DetectorSettings.shape.initial
  prometheusUrl := prometheusShape.initial
  advisor := AdvisorSettings.shape.initial
  serving := ServingSettings.shape.initial
  statePath := stateShape.initial
  queueCapacity := queueShape.initial
  backend := BackendKind.shape.initial
  docker := DockerSettings.shape.initial
  cluster := ClusterSettings.shape.initial
  logging := LoggingSettings.shape.initial

/-- The sections on the wire. -/
def shape : RecordShape Settings where
  name := "ServegridConfig"
  initial := standard
  fields := [
    .optional "api" ApiSettings.shape.codec (·.api) (fun v s => { s with api := v }),
    .optional "detector" DetectorSettings.shape.codec (·.detector)
      (fun v s => { s with detector := v }),
    .optional "prometheus" prometheusShape.codec (·.prometheusUrl)
      (fun v s => { s with prometheusUrl := v }),
    .optional "advisor" AdvisorSettings.shape.codec (·.advisor)
      (fun v s => { s with advisor := v }),
    .optional "serving" ServingSettings.shape.codec (·.serving)
      (fun v s => { s with serving := v }),
    .optional "state" stateShape.codec (·.statePath) (fun v s => { s with statePath := v }),
    .optional "queue" queueShape.codec (·.queueCapacity)
      (fun v s => { s with queueCapacity := v }),
    .optional "resource_backend" BackendKind.shape.codec (·.backend)
      (fun v s => { s with backend := v }),
    .optional "docker" DockerSettings.shape.codec (·.docker) (fun v s => { s with docker := v }),
    .optional "k8s" ClusterSettings.shape.codec (·.cluster) (fun v s => { s with cluster := v }),
    .optional "logging" LoggingSettings.shape.codec (·.logging)
      (fun v s => { s with logging := v })]

/-- The wire form of all settings. -/
def codec : Codec Settings := shape.codec

end Settings

/-- Fill fields that a deploy request may leave out. -/
def TaskSpec.fillDefaults (s : TaskSpec) (serving : ServingSettings) : TaskSpec :=
  { s with
    exporterServiceName := if s.exporterServiceName.isEmpty then
        s!"{serving.name}-{s.modelConfig.family.framework}-{s.modelConfig.version}"
      else s.exporterServiceName
    gpus := if s.gpus.isEmpty then "all" else s.gpus
    image := if s.image.isEmpty then serving.image else s.image }

end ServingPlane
