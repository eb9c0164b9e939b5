import ServingPlane.Json.Codec

/-! # Recommendations

    A suggested size of the serving engine: how it should run and on how
    many replicas.  The same shape reports the configuration in effect. -/

namespace ServingPlane

open Numeric

/-- Suggested engine tunables and replica count; zero leaves a tunable open. -/
structure Recommendation where
  maxNumSeqs : UInt32
  tensorParallelSize : UInt32
  gpuMemoryUtilization : Single
  replicas : UInt32
  deriving DecidableEq, Repr, Inhabited

namespace Recommendation

/-- Every tunable open, no replicas. -/
def blank : Recommendation := ⟨0, 0, .zero, 0⟩

/-- Absent fields are zero. -/
def shape : RecordShape Recommendation where
  name := "ConfigRecommendation"
  initial := blank
  fields := [
    .optional "max_num_seqs" .uint32 (·.maxNumSeqs) (fun v r => { r with maxNumSeqs := v }),
    .optional "tensor_parallel_size" .uint32 (·.tensorParallelSize)
      (fun v r => { r with tensorParallelSize := v }),
    .optional "gpu_memory_utilization" .single (·.gpuMemoryUtilization)
      (fun v r => { r with gpuMemoryUtilization := v }),
    .optional "replicas" .uint32 (·.replicas) (fun v r => { r with replicas := v })]

/-- The wire form. -/
def codec : Codec Recommendation := shape.codec

end Recommendation

end ServingPlane
