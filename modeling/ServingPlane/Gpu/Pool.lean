import ServingPlane.Dict

/-! # The GPU pool

    Which of the machine's GPUs are in use.  Allocation takes the lowest
    free indices and may come up short; releasing an index that is not in
    the pool does nothing. -/

namespace ServingPlane

/-- What a GPU does. -/
inductive GpuStatus where
  | available
  | inUse
  deriving DecidableEq, Repr, Inhabited

/-- GPUs by index. -/
structure GpuPool where
  gpus : Dict UInt32 GpuStatus
  deriving DecidableEq

namespace GpuPool

/-- A pool of the given indices, all available. -/
def ofIndices (indices : List UInt32) : GpuPool :=
  ⟨.ofList (indices.map fun i => (i, .available))⟩

/-- Set the status of a GPU. -/
def mark (p : GpuPool) (index : UInt32) (status : GpuStatus) : GpuPool :=
  ⟨p.gpus.insert index status⟩

/-- Indices with a given status, in increasing order. -/
def withStatus (p : GpuPool) (status : GpuStatus) : List UInt32 :=
  (p.gpus.entries.filter (·.2 = status)).map (·.1)

/-- The indices in use. -/
def inUseIndices (p : GpuPool) : List UInt32 := p.withStatus .inUse

/-- Take up to `want` available GPUs, lowest index first. -/
def allocate (p : GpuPool) (want : Nat) : List UInt32 × GpuPool :=
  let picked := (p.withStatus .available).take want
  (picked, picked.foldl (fun p i => p.mark i .inUse) p)

/-- Give a GPU back; an unknown index is ignored. -/
def releaseOne (p : GpuPool) (index : UInt32) : GpuPool :=
  ⟨p.gpus.modify index fun _ => .available⟩

/-- Give GPUs back. -/
def release (p : GpuPool) (indices : List UInt32) : GpuPool := indices.foldl releaseOne p

/-- The status of a GPU of the pool. -/
def status? (p : GpuPool) (index : UInt32) : Option GpuStatus := p.gpus.get? index

/-- Number of GPUs in the pool. -/
def size (p : GpuPool) : Nat := p.gpus.size

/-- Number of GPUs in use. -/
def inUse (p : GpuPool) : Nat := p.gpus.values.countP (· = .inUse)

/-- Number of GPUs that can be allocated. -/
def available (p : GpuPool) : Nat := p.size - p.inUse

/-- Whether the pool has no GPUs at all. -/
def isEmpty (p : GpuPool) : Bool := p.gpus.isEmpty

end GpuPool

end ServingPlane
