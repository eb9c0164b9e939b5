import ServingPlane.Task.Spec

/-! # Task specs on the wire

    Field names and defaults of every part of a spec.  Sections and
    fields may be left out; environment variables, mounts and ports must
    be complete.  The engine's two members stand beside the others. -/

namespace ServingPlane

open Numeric

/-- Model family on the wire, with a given form of the parameter count. -/
def ModelFamily.shapeIn (form : Codec Single) : RecordShape ModelFamily where
  name := "LlmConfig"
  initial := ⟨"", .zero⟩
  fields := [
    .optional "framework" .string (·.framework) (fun v s => { s with framework := v }),
    .optional "param" form (·.param) (fun v s => { s with param := v })]

/-- Model family in a text. -/
def ModelFamily.shape : RecordShape ModelFamily := ModelFamily.shapeIn .single

/-- Card on the wire. -/
def GpuModel.shape : RecordShape GpuModel where
  name := "GpuConfig"
  initial := ⟨"", 0, 0⟩
  fields := [
    .optional "name" .string (·.name) (fun v s => { s with name := v }),
    .optional "spec" .uint32 (·.memory) (fun v s => { s with memory := v }),
    .optional "num" .uint32 (·.number) (fun v s => { s with number := v })]

/-- Model section on the wire, with a given form of the parameter count. -/
def ModelConfig.shapeIn (form : Codec Single) : RecordShape ModelConfig where
  name := "ModelConfig"
  initial := ⟨(ModelFamily.shapeIn form).initial, GpuModel.shape.initial, ""⟩
  fields := [
    .optional "llm" (ModelFamily.shapeIn form).codec (·.family) (fun v s => { s with family := v }),
    .optional "gpu" GpuModel.shape.codec (·.gpu) (fun v s => { s with gpu := v }),
    .optional "version" .string (·.version) (fun v s => { s with version := v })]

/-- Model section in a text. -/
def ModelConfig.shape : RecordShape ModelConfig := ModelConfig.shapeIn .single

/-- Environment variable on the wire. -/
def EnvVar.shape : RecordShape EnvVar where
  name := "EnvVar"
  initial := ⟨"", ""⟩
  fields := [
    .needed "name" .string (·.name) (fun v s => { s with name := v }),
    .needed "value" .string (·.value) (fun v s => { s with value := v })]

/-- Mount on the wire. -/
def VolumeMount.shape : RecordShape VolumeMount where
  name := "VolumeMount"
  initial := ⟨"", ""⟩
  fields := [
    .needed "mountPath" .string (·.mountPath) (fun v s => { s with mountPath := v }),
    .needed "hostPath" .string (·.hostPath) (fun v s => { s with hostPath := v })]

/-- A port on the wire: a record of one number. -/
def portShape : RecordShape Int32 where
  name := "PortNumber"
  initial := 0
  fields := [.needed "number" .int32 id (fun v _ => v)]

/-- The service a route leads to. -/
def IngressRoute.targetShape : RecordShape (String × Int32) where
  name := "IngressServiceRef"
  initial := ("", 0)
  fields := [
    .optional "name" .string (·.1) (fun v s => (v, s.2)),
    .optional "port" portShape.codec (·.2) (fun v s => (s.1, v))]

/-- The wrapper around the target of a route. -/
def IngressRoute.backendShape : RecordShape (String × Int32) where
  name := "IngressBackend"
  initial := ("", 0)
  fields := [.optional "service" IngressRoute.targetShape.codec id (fun v _ => v)]

/-- Route on the wire. -/
def IngressRoute.shape : RecordShape IngressRoute where
  name := "IngressPath"
  initial := ⟨"", "", 0⟩
  fields := [
    .optional "path" .string (·.path) (fun v s => { s with path := v }),
    .optional "backend" IngressRoute.backendShape.codec (fun s => (s.serviceName, s.servicePort))
      (fun v s => { s with serviceName := v.1, servicePort := v.2 })]

/-- Front door on the wire. -/
def IngressConfig.shape : RecordShape IngressConfig where
  name := "IngressConfig"
  initial := ⟨"", []⟩
  fields := [
    .optional "name" .string (·.name) (fun v s => { s with name := v }),
    .optional "paths" (.list IngressRoute.shape.codec) (·.routes)
      (fun v s => { s with routes := v })]

/-- Service on the wire. -/
def ServiceConfig.shape : RecordShape ServiceConfig where
  name := "ServiceConfig"
  initial := ⟨"", []⟩
  fields := [
    .optional "name" .string (·.name) (fun v s => { s with name := v }),
    .optional "ports" (.list portShape.codec) (·.ports) (fun v s => { s with ports := v })]

/-- Resource request on the wire. -/
def ResourceRequest.shape : RecordShape ResourceRequest where
  name := "ResourceRequest"
  initial := ⟨"", ""⟩
  fields := [
    .optional "gpu" .string (·.gpu) (fun v s => { s with gpu := v }),
    .optional "gpu_type" .string (·.gpuType) (fun v s => { s with gpuType := v })]

/-- Strategy names. -/
def Strategy.codec : Codec Strategy :=
  .choice [("manual", .manual), ("auto", .auto)]
    fun
    | .manual => "manual"
    | .auto => "auto"

/-- Strategy section on the wire. -/
def Strategy.shape : RecordShape Strategy where
  name := "ScalingStrategy"
  initial := .manual
  fields := [.optional "strategy" Strategy.codec id (fun v _ => v)]

/-- Data sink on the wire. -/
def KafkaConfig.shape : RecordShape KafkaConfig where
  name := "KafkaConfig"
  initial := ⟨[], "", ""⟩
  fields := [
    .optional "brokers" (.list .string) (·.brokers) (fun v s => { s with brokers := v }),
    .optional "username" .string (·.username) (fun v s => { s with username := v }),
    .optional "password" .string (·.password) (fun v s => { s with password := v })]

/-- Collector section on the wire. -/
def CollectorConfig.shape : RecordShape CollectorConfig where
  name := "CollectorConfig"
  initial := ⟨false, "", ⟨[], "", ""⟩⟩
  fields := [
    .optional "enable" .bool (·.enable) (fun v s => { s with enable := v }),
    .optional "cluster_id" .string (·.clusterId) (fun v s => { s with clusterId := v }),
    .optional "kafka" KafkaConfig.shape.codec (·.kafka) (fun v s => { s with kafka := v })]

namespace TaskSpec

/-- The fields of a spec other than the engine's, with a given form of the
    parameter count. -/
def shapeIn (form : Codec Single) : RecordShape TaskSpec where
  name := "TaskSpec"
  initial := blank
  fields := [
    .optional "name" .string (·.name) (fun v s => { s with name := v }),
    .optional "model" .string (·.model) (fun v s => { s with model := v }),
    .optional "host" .string (·.host) (fun v s => { s with host := v }),
    .optional "port" .uint16 (·.port) (fun v s => { s with port := v }),
    .optional "image" .string (·.image) (fun v s => { s with image := v }),
    .optional "exporter_endpoint" .string (·.exporterEndpoint)
      (fun v s => { s with exporterEndpoint := v }),
    .optional "exporter_service_name" .string (·.exporterServiceName)
      (fun v s => { s with exporterServiceName := v }),
    .optional "model_config" (ModelConfig.shapeIn form).codec (·.modelConfig)
      (fun v s => { s with modelConfig := v }),
    .optional "backend_extra_config" (.dict .string) (·.extraArguments)
      (fun v s => { s with extraArguments := v }),
    .optional "replica" .uint32 (·.replica) (fun v s => { s with replica := v }),
    .optional "envs" (.list EnvVar.shape.codec) (·.envs) (fun v s => { s with envs := v }),
    .optional "gpus" .string (·.gpus) (fun v s => { s with gpus := v }),
    .optional "volumes" (.list VolumeMount.shape.codec) (·.volumes)
      (fun v s => { s with volumes := v }),
    .optional "namespace" .string (·.namespaceName) (fun v s => { s with namespaceName := v }),
    .optional "node_selector" (.dict .string) (·.nodeSelector)
      (fun v s => { s with nodeSelector := v }),
    .optional "ingress" IngressConfig.shape.codec (·.ingress) (fun v s => { s with ingress := v }),
    .optional "service" ServiceConfig.shape.codec (·.service) (fun v s => { s with service := v }),
    .optional "resources" ResourceRequest.shape.codec (·.resources)
      (fun v s => { s with resources := v }),
    .optional "scaling_strategy" Strategy.shape.codec (·.strategy)
      (fun v s => { s with strategy := v }),
    .optional "collector" CollectorConfig.shape.codec (·.collector)
      (fun v s => { s with collector := v })]

/-- Keep the engine's members; any other unknown member must only be well formed. -/
def keepEngineMember (key : String) (d : Document) (kept : List (String × Json)) :
    Except Fault (List (String × Json)) := do
  let v ← liftBreakage d.toJson
  return if key = "backend" ∨ key = "backend_config" then kept ++ [(key, v)] else kept

/-- The wire form of a spec, with a given form of the parameter count.  The
    engine is read after all other fields. -/
def codecIn (form : Codec Single) : Codec TaskSpec where
  write s :=
    .object ((shapeIn form).writeMembers s ++ Engine.wireShape.writeMembers s.engine.toWire)
  read
    | .object members ending => do
      let (_, s, kept) ← (shapeIn form).readMembers keepEngineMember members []
        (shapeIn form).initial []
      Codec.settleMembers ending
      let engine ← Engine.ofMembers kept
      return { s with engine }
    | d => .error (d.mismatch "struct TaskSpec")

/-- A spec in a text, where a four-byte number is its shortest decimal. -/
def codec : Codec TaskSpec := codecIn .single

/-- A spec as a structured value, where a four-byte number is exactly itself. -/
def valueCodec : Codec TaskSpec := codecIn .wideSingle

end TaskSpec

/-- Status names. -/
def TaskStatus.codec : Codec TaskStatus :=
  .choice [("created", .created), ("scheduling", .scheduling), ("running", .running),
    ("error", .error)] TaskStatus.text

/-- Registered task on the wire. -/
def RegisteredTask.shape : RecordShape RegisteredTask where
  name := "DetectTask"
  initial := .new .blank
  fields := [
    .needed "spec" TaskSpec.codec (·.spec) (fun v s => { s with spec := v }),
    .needed "status" TaskStatus.codec (·.status) (fun v s => { s with status := v })]

/-- Runtime instance on the wire. -/
def RuntimeInstance.shape : RecordShape RuntimeInstance where
  name := "RuntimeInfo"
  initial := ⟨"", "", ""⟩
  fields := [
    .needed "id" .string (·.id) (fun v s => { s with id := v }),
    .needed "name" .string (·.name) (fun v s => { s with name := v }),
    .needed "status" .string (·.status) (fun v s => { s with status := v })]

/-- The wire form of a runtime instance. -/
def RuntimeInstance.codec : Codec RuntimeInstance := RuntimeInstance.shape.codec

end ServingPlane
