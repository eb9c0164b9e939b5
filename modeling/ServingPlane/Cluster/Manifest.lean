import ServingPlane.Backend
import ServingPlane.Cluster.Kind
import ServingPlane.Cluster.Pipeline
import ServingPlane.Settings.Basic
import ServingPlane.Task.Launch

/-! # Manifests

    The cluster objects of a task, built from its spec alone: a deployment
    always, a service if there are ports, an ingress if there are routes,
    and a collector if telemetry is on and there is a service to scrape.
    All of them carry the task's label. -/

namespace ServingPlane

open Numeric

/-- Settings of the cluster that shape every task's objects. -/
structure ClusterContext where
  defaultImage : String
  startCommand : List String
  gpuResourceName : String
  ingressClass : String
  collectorServiceAccount : String
  deriving DecidableEq, Repr

/-- The context that the daemon's settings give. -/
def ClusterContext.ofSettings (serving : ServingSettings) (cluster : ClusterSettings) :
    ClusterContext where
  defaultImage := serving.image
  startCommand := serving.startCommand
  gpuResourceName := cluster.gpuResourceName
  ingressClass := cluster.ingressClass
  collectorServiceAccount := cluster.collectorServiceAccount

namespace TaskSpec

/-- The label that every object and pod of a task carries. -/
def taskLabel : String := "servegrid.io/task-name"

/-- The namespace of the task's objects. -/
def clusterNamespace (s : TaskSpec) : String :=
  if s.namespaceName.isEmpty then "default" else s.namespaceName

/-- The labels of the task's objects. -/
def labels (s : TaskSpec) : List (String × String) := [(taskLabel, s.name)]

/-- The selector for the task's pods. -/
def podSelector (s : TaskSpec) : String := taskLabel ++ "=" ++ s.name

/-- The name of the task's object of a kind. -/
def objectName (s : TaskSpec) : ObjectKind → String
  | .deployment | .collector => s.name
  | .service => if s.service.name.isEmpty then s.name else s.service.name
  | .ingress => if s.ingress.name.isEmpty then s.name ++ "-ingress" else s.ingress.name

/-- Where replicas deliver telemetry: the service of the task's own collector. -/
def collectorEndpoint (s : TaskSpec) : String :=
  s.name ++ "-collector:" ++ natText PipelineConfig.httpPort

end TaskSpec

/-- What every object says about itself. -/
structure ObjectMetadata where
  name : String
  namespaceName : String
  labels : List (String × String)
  deriving DecidableEq, Repr

/-- The volume behind a mount of a pod. -/
inductive PodVolume where
  /-- Memory shared between the processes of the pod. -/
  | sharedMemory (name : String)
  | hostPath (name path : String)
  deriving DecidableEq, Repr

/-- The name of a volume. -/
def PodVolume.name : PodVolume → String
  | sharedMemory n => n
  | hostPath n _ => n

/-- A volume seen at a path. -/
structure PodMount where
  volume : String
  path : String
  deriving DecidableEq, Repr

/-- The deployment of a task. -/
structure DeploymentManifest where
  metadata : ObjectMetadata
  replicas : Nat
  matchLabels : List (String × String)
  podLabels : List (String × String)
  containerName : String
  image : String
  /-- The first word of the start command; absent without one. -/
  command : Option (List String)
  arguments : List String
  port : UInt16
  environment : List EnvVar
  mounts : List PodMount
  volumes : List PodVolume
  gpuRequests : String × String
  gpuLimits : String × String
  nodeSelector : Dict String String
  deriving DecidableEq

/-- The service of a task. -/
structure ServiceManifest where
  metadata : ObjectMetadata
  selector : List (String × String)
  /-- Port names and numbers. -/
  ports : List (String × Int32)
  deriving DecidableEq

/-- The ingress of a task. -/
structure IngressManifest where
  metadata : ObjectMetadata
  className : String
  routes : List IngressRoute
  deriving DecidableEq

/-- The collector of a task. -/
structure CollectorManifest where
  metadata : ObjectMetadata
  serviceAccount : String
  config : PipelineConfig

/-- A cluster object of a task. -/
inductive Manifest where
  | deployment (m : DeploymentManifest)
  | service (m : ServiceManifest)
  | ingress (m : IngressManifest)
  | collector (m : CollectorManifest)

namespace Manifest

/-- The kind of an object. -/
def kind : Manifest → ObjectKind
  | deployment _ => .deployment
  | service _ => .service
  | ingress _ => .ingress
  | collector _ => .collector

/-- What an object says about itself. -/
def metadata : Manifest → ObjectMetadata
  | deployment m => m.metadata
  | service m => m.metadata
  | ingress m => m.metadata
  | collector m => m.metadata

/-- Labels as a document. -/
def labelsDocument (l : List (String × String)) : Json :=
  .object (l.map fun (k, v) => (k, .string v))

/-- Metadata as a document. -/
def metadataDocument (m : ObjectMetadata) : Json :=
  .object [("labels", labelsDocument m.labels), ("name", .string m.name),
    ("namespace", .string m.namespaceName)]

/-- The health check of a replica: minutes may pass until a model is loaded. -/
def probeDocument (port : UInt16) : Json :=
  .object [("failureThreshold", .ofNat 60),
    ("httpGet", .object [("path", .string "/metrics"), ("port", .ofNat port.toNat)]),
    ("initialDelaySeconds", .ofNat 30), ("periodSeconds", .ofNat 10),
    ("timeoutSeconds", .ofNat 5)]

/-- A volume as a document. -/
def volumeDocument : PodVolume → Json
  | .sharedMemory n => .object [("emptyDir", .object [("medium", .string "Memory")]), ("name", .string n)]
  | .hostPath n p => .object [("hostPath", .object [("path", .string p)]), ("name", .string n)]

/-- A quantity of one resource as a document. -/
def quantityDocument (q : String × String) : Json := .object [(q.1, .string q.2)]

/-- The container of a pod as a document. -/
def containerDocument (m : DeploymentManifest) : Json :=
  .object ([("args", .strings m.arguments)]
    ++ (match m.command with
      | some c => [("command", Json.strings c)]
      | none => [])
    ++ [("env", .array (m.environment.map fun e =>
        .object [("name", .string e.name), ("value", .string e.value)])),
      ("image", .string m.image),
      ("livenessProbe", probeDocument m.port),
      ("name", .string m.containerName),
      ("ports", .array [.object [("containerPort", .ofNat m.port.toNat)]]),
      ("readinessProbe", probeDocument m.port),
      ("resources", .object [("limits", quantityDocument m.gpuLimits),
        ("requests", quantityDocument m.gpuRequests)]),
      ("volumeMounts", .array (m.mounts.map fun v =>
        .object [("mountPath", .string v.path), ("name", .string v.volume)]))])

/-- The pod of a deployment as a document. -/
def podDocument (m : DeploymentManifest) : Json :=
  .object ([("containers", .array [containerDocument m])]
    ++ (if m.nodeSelector.isEmpty then []
      else [("nodeSelector", Json.dictionary m.nodeSelector)])
    ++ [("volumes", .array (m.volumes.map volumeDocument))])

/-- What a deployment asks for, as a document. -/
def deploymentDocument (m : DeploymentManifest) : Json :=
  .object [("replicas", .ofNat m.replicas),
    ("selector", .object [("matchLabels", labelsDocument m.matchLabels)]),
    ("template", .object [
      ("metadata", .object [("labels", labelsDocument m.podLabels)]),
      ("spec", podDocument m)])]

/-- What a service asks for, as a document. -/
def serviceDocument (m : ServiceManifest) : Json :=
  .object [
    ("ports", .array (m.ports.map fun (name, port) =>
      .object [("name", .string name), ("port", .ofInt port.toInt), ("protocol", .string "TCP"),
        ("targetPort", .ofInt port.toInt)])),
    ("selector", labelsDocument m.selector)]

/-- A route as a document. -/
def routeDocument (r : IngressRoute) : Json :=
  .object [
    ("backend", .object [("service", .object [("name", .string r.serviceName),
      ("port", .object [("number", .ofInt r.servicePort.toInt)])])]),
    ("path", .string r.path), ("pathType", .string "Prefix")]

/-- What an ingress asks for, as a document. -/
def ingressDocument (m : IngressManifest) : Json :=
  .object [("ingressClassName", .string m.className),
    ("rules", .array [.object [("http", .object [
      ("paths", .array (m.routes.map routeDocument))])]])]

/-- What a collector asks for, as a document. -/
def collectorDocument (m : CollectorManifest) : Json :=
  .object [("config", .string m.config.text), ("mode", .string "deployment"),
    ("serviceAccount", .string m.serviceAccount)]

/-- What an object asks for, as a document. -/
def desiredDocument : Manifest → Json
  | deployment m => deploymentDocument m
  | service m => serviceDocument m
  | ingress m => ingressDocument m
  | collector m => collectorDocument m

/-- An object as a document, members in key order. -/
def document (m : Manifest) : Json :=
  .object [("apiVersion", .string m.kind.apiVersion), ("kind", .string m.kind.name),
    ("metadata", metadataDocument m.metadata), ("spec", m.desiredDocument)]

end Manifest

namespace TaskSpec

/-- What the task's object of a kind says about itself. -/
def objectMetadata (s : TaskSpec) (kind : ObjectKind) : ObjectMetadata :=
  ⟨s.objectName kind, s.clusterNamespace, s.labels⟩

/-- The name of the volume of shared memory. -/
def sharedMemoryVolume : String := "dshm"

/-- Name of the volume for a mount of the spec, by position. -/
def hostVolumeName (i : Nat) : String := "hostpath" ++ natText i

/-- The volumes of a replica's pod: shared memory, then the mounts in order. -/
def podVolumes (s : TaskSpec) : List PodVolume :=
  .sharedMemory sharedMemoryVolume
    :: s.volumes.mapIdx fun i v => .hostPath (hostVolumeName i) v.hostPath

/-- The mounts of a replica's pod, in the order of the volumes. -/
def podMounts (s : TaskSpec) : List PodMount :=
  ⟨sharedMemoryVolume, "/dev/shm"⟩
    :: s.volumes.mapIdx fun i v => ⟨hostVolumeName i, v.mountPath⟩

/-- The quantity of GPUs that a replica requests. -/
def gpuQuantity (s : TaskSpec) (ctx : ClusterContext) : String × String :=
  (ctx.gpuResourceName,
    if s.resources.gpu.isEmpty then natText s.gpusPerReplica.toNat else s.resources.gpu)

/-- The argument list of a replica, cut after the first word of the start command. -/
def podCommand (s : TaskSpec) (ctx : ClusterContext) : Option (List String) × List String :=
  let words := s.launchCommand ctx.startCommand s.exporterServiceName s.collectorEndpoint
  if ctx.startCommand.isEmpty then (none, words) else (some (words.take 1), words.drop 1)

/-- The task's deployment; the replica count has to fit in four signed bytes. -/
def deploymentManifest (s : TaskSpec) (ctx : ClusterContext) :
    Except BackendError DeploymentManifest :=
  if Int32.maxValue.toInt < s.replica.toNat then
    .error (.invalidTask
      s!"task {s.name} asks for {natText s.replica.toNat} replicas, more than a deployment holds")
  else
    .ok {
      metadata := s.objectMetadata .deployment
      replicas := s.replica.toNat
      matchLabels := s.labels
      podLabels := s.labels
      containerName := s.name
      image := if s.image.isEmpty then ctx.defaultImage else s.image
      command := (s.podCommand ctx).1
      arguments := (s.podCommand ctx).2
      port := s.port
      environment := s.envs
      mounts := s.podMounts
      volumes := s.podVolumes
      gpuRequests := s.gpuQuantity ctx
      gpuLimits := s.gpuQuantity ctx
      nodeSelector := s.nodeSelector }

/-- The task's service; none without ports. -/
def serviceManifest? (s : TaskSpec) : Option ServiceManifest :=
  if s.service.ports.isEmpty then none
  else some {
    metadata := s.objectMetadata .service
    selector := s.labels
    ports := s.service.ports.mapIdx fun i p => ("tcp" ++ natText i, p) }

/-- The task's ingress; none without routes. -/
def ingressManifest? (s : TaskSpec) (ctx : ClusterContext) : Option IngressManifest :=
  if s.ingress.routes.isEmpty then none
  else some {
    metadata := s.objectMetadata .ingress
    className := ctx.ingressClass
    routes := s.ingress.routes }

/-- Where the collector scrapes: the task's service at a port. -/
def scrapeTarget (s : TaskSpec) (port : Int32) : String :=
  s.objectName .service ++ "." ++ s.clusterNamespace ++ ".svc:" ++ intText port.toInt

/-- The task's collector; none if telemetry is off or there is no service to scrape. -/
def collectorManifest? (s : TaskSpec) (ctx : ClusterContext) : Option CollectorManifest :=
  match s.collector.enable, s.service.ports with
  | true, port :: _ => some {
      metadata := s.objectMetadata .collector
      serviceAccount := ctx.collectorServiceAccount
      config := .forTask s (s.scrapeTarget port) }
  | _, _ => none

/-- Every object that the task should have, in the order of kinds. -/
def desiredObjects (s : TaskSpec) (ctx : ClusterContext) : Except BackendError (List Manifest) := do
  let deployment ← s.deploymentManifest ctx
  return .deployment deployment :: (s.serviceManifest?.map Manifest.service).toList
    ++ ((s.ingressManifest? ctx).map Manifest.ingress).toList
    ++ ((s.collectorManifest? ctx).map Manifest.collector).toList

end TaskSpec

end ServingPlane
