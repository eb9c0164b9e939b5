import ServingPlane.Settings.Basic
import ServingPlane.Task.Launch

/-! # Container launches

    All that is needed to start one replica on this machine.  A replica
    exports under its own name: the service name of its task, `-replica-`
    and a random suffix. -/

namespace ServingPlane

open Numeric

/-- How one container is started. -/
structure ContainerLaunch where
  name : String
  image : String
  command : List String
  /-- Each `key=value`. -/
  env : List String
  /-- Each `host path:container path`. -/
  binds : List String
  port : UInt16
  gpuIds : List String
  network : String
  networkAlias : String
  deriving DecidableEq, Repr, Inhabited

/-- A launch on the wire. -/
def ContainerLaunch.shape : RecordShape ContainerLaunch where
  name := "ContainerLaunch"
  initial := default
  fields := [
    .optional "name" .string (·.name) (fun v l => { l with name := v }),
    .optional "image" .string (·.image) (fun v l => { l with image := v }),
    .optional "cmd" (.list .string) (·.command) (fun v l => { l with command := v }),
    .optional "env" (.list .string) (·.env) (fun v l => { l with env := v }),
    .optional "binds" (.list .string) (·.binds) (fun v l => { l with binds := v }),
    .optional "port" .uint16 (·.port) (fun v l => { l with port := v }),
    .optional "gpu_ids" (.list .string) (·.gpuIds) (fun v l => { l with gpuIds := v }),
    .optional "network" .string (·.network) (fun v l => { l with network := v }),
    .optional "network_alias" .string (·.networkAlias) (fun v l => { l with networkAlias := v })]

namespace TaskSpec

/-- The name that a task's replicas share: its service name, or its own if it has none. -/
def replicaBase (s : TaskSpec) : String :=
  if s.exporterServiceName.isEmpty then s.name else s.exporterServiceName

/-- The name of one replica. -/
def replicaName (s : TaskSpec) (suffix : String) : String :=
  s.replicaBase ++ "-replica-" ++ suffix

/-- The image that a task's replicas run. -/
def replicaImage (s : TaskSpec) (serving : ServingSettings) : String :=
  if s.image.isEmpty then serving.image else s.image

/-- The launch of one replica on the given GPUs. -/
def containerLaunch (s : TaskSpec) (serving : ServingSettings) (suffix : String)
    (gpus : List UInt32) : ContainerLaunch where
  name := s.replicaName suffix
  image := s.replicaImage serving
  command := s.launchCommand serving.startCommand (s.replicaName suffix) s.exporterEndpoint
  env := s.envs.map fun e => e.name ++ "=" ++ e.value
  binds := s.volumes.map fun v => v.hostPath ++ ":" ++ v.mountPath
  port := s.port
  gpuIds := gpus.map fun i => natText i.toNat
  network := serving.network
  networkAlias := serving.networkAlias

end TaskSpec

end ServingPlane
