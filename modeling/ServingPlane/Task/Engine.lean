import ServingPlane.Task.Recommendation

/-! # Serving engines

    Which engine serves a task, and its tunables.  A tunable that is zero
    or empty is unset: it is left out of the launch command, and a
    recommendation may fill it in.  On the wire the kind and the tunables
    are two sibling members. -/

namespace ServingPlane

open Numeric

/-- Tunables of the vLLM engine. -/
structure VllmSettings where
  maxNumSeqs : UInt32
  tensorParallelSize : UInt32
  gpuMemoryUtilization : Single
  mode : String
  trustRemoteCode : Bool
  deriving DecidableEq, Repr, Inhabited

namespace VllmSettings

/-- Nothing set. -/
def unset : VllmSettings := ⟨0, 0, .zero, "", false⟩

/-- The tunables on the wire, with a given form of the fraction. -/
def shape (fraction : Codec Single) : RecordShape VllmSettings where
  name := "VllmBackendConfig"
  initial := unset
  fields := [
    .optional "max_num_seqs" .uint32 (·.maxNumSeqs) (fun v s => { s with maxNumSeqs := v }),
    .optional "tensor_parallel_size" .uint32 (·.tensorParallelSize)
      (fun v s => { s with tensorParallelSize := v }),
    .optional "gpu_memory_utilization" fraction (·.gpuMemoryUtilization)
      (fun v s => { s with gpuMemoryUtilization := v }),
    .optional "vllm_mode" .string (·.mode) (fun v s => { s with mode := v }),
    .optional "trust_remote_code" .bool (·.trustRemoteCode)
      (fun v s => { s with trustRemoteCode := v })]

/-- The wire form on its own: the fraction by its shortest decimal. -/
def codec : Codec VllmSettings := (shape .single).codec

/-- The wire form inside a task: the fraction by its exact value. -/
def wideCodec : Codec VllmSettings := (shape .wideSingle).codec

/-- Fill in from a recommendation what is still unset. -/
def fill (s : VllmSettings) (r : Recommendation) : VllmSettings :=
  { s with
    maxNumSeqs := if s.maxNumSeqs = 0 then r.maxNumSeqs else s.maxNumSeqs
    tensorParallelSize := if s.tensorParallelSize = 0 then r.tensorParallelSize
      else s.tensorParallelSize
    gpuMemoryUtilization := if s.gpuMemoryUtilization.isPositive || s.gpuMemoryUtilization.isNaN
      then s.gpuMemoryUtilization else r.gpuMemoryUtilization }

/-- The launch flags: one pair for each tunable that is set, in declaration order. -/
def launchFlags (s : VllmSettings) : List (String × String) :=
  (if s.maxNumSeqs = 0 then [] else [("--max_num_seqs", natText s.maxNumSeqs.toNat)])
  ++ (if s.tensorParallelSize = 0 then []
      else [("--tensor_parallel_size", natText s.tensorParallelSize.toNat)])
  ++ (if s.gpuMemoryUtilization.isPositive
      then [("--gpu_memory_utilization", s.gpuMemoryUtilization.plainText)] else [])
  ++ (if s.mode.isEmpty then [] else [("--vllm_mode", s.mode)])
  ++ (if s.trustRemoteCode then [("--trust_remote_code", "true")] else [])

/-- Equality as settings: the fraction is compared as a number. -/
def eqv (a b : VllmSettings) : Bool :=
  a.gpuMemoryUtilization.eqv b.gpuMemoryUtilization
    && decide ({ a with gpuMemoryUtilization := b.gpuMemoryUtilization } = b)

end VllmSettings

/-- A serving engine with its tunables. -/
inductive Engine where
  | vllm (settings : VllmSettings)
  deriving DecidableEq, Repr, Inhabited

namespace Engine

/-- The engine of a task that names none. -/
def standard : Engine := .vllm .unset

/-- The name of the engine. -/
def kind : Engine → String
  | vllm _ => "vllm"

/-- The tunables of a vLLM engine. -/
def vllm? : Engine → Option VllmSettings
  | vllm s => some s

/-- Fill in from a recommendation what is still unset. -/
def fill (r : Recommendation) : Engine → Engine
  | vllm s => .vllm (s.fill r)

/-- GPUs that one replica wants; at least one. -/
def gpusPerReplica : Engine → UInt32
  | vllm s => if s.tensorParallelSize = 0 then 1 else s.tensorParallelSize

/-- The launch flags of the engine. -/
def launchFlags : Engine → List (String × String)
  | vllm s => s.launchFlags

/-- Equality as engines. -/
def eqv : Engine → Engine → Bool
  | vllm a, vllm b => a.eqv b

/-- The two members as they are read: a kind, and tunables that are still untyped. -/
structure Wire where
  kind : String
  settings : Json

/-- A missing kind is vLLM; missing tunables are null. -/
def wireShape : RecordShape Wire where
  name := "BackendRepr"
  initial := ⟨"vllm", .null⟩
  fields := [
    .optional "backend" .string (·.kind) (fun v w => { w with kind := v }),
    .optional "backend_config" .json (·.settings) (fun v w => { w with settings := v })]

/-- Give the tunables their type; null counts as none set. -/
def ofWire (w : Wire) : Except Fault Engine :=
  if w.kind = "vllm" then
    let settings := match w.settings with
      | .null => .object []
      | v => v
    match VllmSettings.wideCodec.ofJson settings with
    | .ok s => .ok (.vllm s)
    | .error e => .error (.invalidEngineSettings w.kind e)
  else .error (.unsupportedEngine w.kind)

/-- The two members as they are written. -/
def toWire : Engine → Wire
  | vllm s => ⟨"vllm", VllmSettings.wideCodec.write s⟩

/-- Read the engine from members collected elsewhere. -/
def ofMembers (members : List (String × Json)) : Except Fault Engine := do
  ofWire (← wireShape.readMap (Document.ofMembers members) none)

/-- The wire form on its own. -/
def codec : Codec Engine where
  write e := wireShape.codec.write e.toWire
  read d := do ofWire (← wireShape.read d)

end Engine

end ServingPlane
