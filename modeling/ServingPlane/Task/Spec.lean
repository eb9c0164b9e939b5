import ServingPlane.Task.Engine
import ServingPlane.Text.Blank

/-! # Task specs

    The desired state of one model-serving task.  The name is its key
    everywhere; a replica count of zero asks for the task to be torn
    down. -/

namespace ServingPlane

open Numeric

/-- The model family, as the advisor sees it. -/
structure ModelFamily where
  framework : String
  /-- Parameters in billions. -/
  param : Single
  deriving DecidableEq, Repr, Inhabited

/-- The card a task runs on, as the advisor sees it. -/
structure GpuModel where
  name : String
  /-- Memory per card in GiB. -/
  memory : UInt32
  number : UInt32
  deriving DecidableEq, Repr, Inhabited

/-- What is served, and on what. -/
structure ModelConfig where
  family : ModelFamily
  gpu : GpuModel
  version : String
  deriving DecidableEq, Repr, Inhabited

/-- An environment variable of a replica. -/
structure EnvVar where
  name : String
  value : String
  deriving DecidableEq, Repr, Inhabited

/-- A host directory seen inside a replica. -/
structure VolumeMount where
  mountPath : String
  hostPath : String
  deriving DecidableEq, Repr, Inhabited

/-- A route of the cluster's front door to a service port. -/
structure IngressRoute where
  path : String
  serviceName : String
  servicePort : Int32
  deriving DecidableEq, Repr, Inhabited

/-- The front door of a task. -/
structure IngressConfig where
  name : String
  routes : List IngressRoute
  deriving DecidableEq, Repr, Inhabited

/-- The service that exposes a task's replicas. -/
structure ServiceConfig where
  name : String
  ports : List Int32
  deriving DecidableEq, Repr, Inhabited

/-- The GPUs a replica asks the cluster for; `gpu` is a quantity text. -/
structure ResourceRequest where
  gpu : String
  gpuType : String
  deriving DecidableEq, Repr, Inhabited

/-- Who decides on the replica count. -/
inductive Strategy where
  | manual
  | auto
  deriving DecidableEq, Repr, Inhabited

/-- Where a telemetry collector sends its data. -/
structure KafkaConfig where
  brokers : List String
  username : String
  password : String
  deriving DecidableEq, Repr, Inhabited

/-- The telemetry collector of a task. -/
structure CollectorConfig where
  enable : Bool
  clusterId : String
  kafka : KafkaConfig
  deriving DecidableEq, Repr, Inhabited

/-- The desired state of one task. -/
structure TaskSpec where
  name : String
  model : String
  host : String
  port : UInt16
  image : String
  exporterEndpoint : String
  exporterServiceName : String
  modelConfig : ModelConfig
  engine : Engine
  extraArguments : Dict String String
  replica : UInt32
  envs : List EnvVar
  gpus : String
  volumes : List VolumeMount
  namespaceName : String
  nodeSelector : Dict String String
  ingress : IngressConfig
  service : ServiceConfig
  resources : ResourceRequest
  strategy : Strategy
  collector : CollectorConfig
  deriving DecidableEq

namespace TaskSpec

/-- Every field empty or zero. -/
def blank : TaskSpec where
  name := ""
  model := ""
  host := ""
  port := 0
  image := ""
  exporterEndpoint := ""
  exporterServiceName := ""
  modelConfig := ⟨⟨"", .zero⟩, ⟨"", 0, 0⟩, ""⟩
  engine := .standard
  extraArguments := .empty
  replica := 0
  envs := []
  gpus := ""
  volumes := []
  namespaceName := ""
  nodeSelector := .empty
  ingress := ⟨"", []⟩
  service := ⟨"", []⟩
  resources := ⟨"", ""⟩
  strategy := .manual
  collector := ⟨false, "", ⟨[], "", ""⟩⟩

instance : Inhabited TaskSpec := ⟨blank⟩

/-- Equality as specs: floating-point fields are compared as numbers. -/
def eqv (a b : TaskSpec) : Bool :=
  a.modelConfig.family.param.eqv b.modelConfig.family.param && a.engine.eqv b.engine
    && decide ({ a with
      engine := b.engine
      modelConfig := { a.modelConfig with
        family := { a.modelConfig.family with param := b.modelConfig.family.param } } } = b)

/-- Take a recommendation: its replica count always, its tunables where none is set. -/
def apply (s : TaskSpec) (r : Recommendation) : TaskSpec :=
  { s with replica := r.replicas, engine := s.engine.fill r }

/-- The configuration in effect, in the shape of a recommendation; nothing
    for an engine without that shape. -/
def currentConfig (s : TaskSpec) : Option Recommendation :=
  s.engine.vllm?.map fun v =>
    ⟨v.maxNumSeqs, v.tensorParallelSize, v.gpuMemoryUtilization, s.replica⟩

/-- GPUs that each replica should get. -/
def gpusPerReplica (s : TaskSpec) : UInt32 := s.engine.gpusPerReplica

/-- Whether the replica count follows recommendations. -/
def isAutoScaled (s : TaskSpec) : Bool := s.strategy = .auto

/-- The same task with no replicas. -/
def teardown (s : TaskSpec) : TaskSpec := { s with replica := 0 }

/-- Why a spec cannot be scheduled anywhere. -/
inductive Invalid where
  | emptyName
  | illegalName (name : String)
  | noModel (name : String)
  deriving DecidableEq, Repr

/-- The message of a cause. -/
def Invalid.message : Invalid → String
  | emptyName => "name must not be empty"
  | illegalName name => s!"name {Text.quoted name} contains illegal characters"
  | noModel name => s!"task {name} has no model"

/-- Refuse a spec that cannot be scheduled anywhere. -/
def validate (s : TaskSpec) : Except Invalid Unit :=
  if Text.allBlank s.name then .error .emptyName
  else if s.name.toList.any (fun c => Text.isBlank c || c == '/') then .error (.illegalName s.name)
  else if Text.allBlank s.model then .error (.noModel s.name)
  else .ok ()

end TaskSpec

/-- What is known of a registered task. -/
inductive TaskStatus where
  | created
  | scheduling
  | running
  | error
  deriving DecidableEq, Repr, Inhabited

/-- The name of a status. -/
def TaskStatus.text : TaskStatus → String
  | created => "created"
  | scheduling => "scheduling"
  | running => "running"
  | error => "error"

/-- A registered task and its last observed status. -/
structure RegisteredTask where
  spec : TaskSpec
  status : TaskStatus
  deriving DecidableEq, Inhabited

/-- A task enters the registry as created. -/
def RegisteredTask.new (spec : TaskSpec) : RegisteredTask := ⟨spec, .created⟩

/-- One live container or pod of a task. -/
structure RuntimeInstance where
  id : String
  name : String
  /-- As the infrastructure words it. -/
  status : String
  deriving DecidableEq, Repr, Inhabited

namespace RuntimeInstance

/-- ASCII letter case does not matter. -/
def hasStatus (r : RuntimeInstance) (word : String) : Bool :=
  r.status.toList.map Char.toLower == word.toList

/-- The instance serves. -/
def isRunning (r : RuntimeInstance) : Bool := r.hasStatus "running"

/-- The instance has ended. -/
def isExited (r : RuntimeInstance) : Bool := r.hasStatus "exited"

end RuntimeInstance

end ServingPlane
