import ServingPlane.Container.Engine
import ServingPlane.Gpu.Pool

/-! # The container pool

    The backend of a single machine.  For each task the ids of its
    containers are on record, oldest first; which GPUs each container
    holds is kept in memory.  A reconcile compares the number on record
    with the wanted one: it starts what is missing, or stops the oldest
    of what is too much.  One failed container does not stop the others,
    and what failed to stop stays on record. -/

namespace ServingPlane

open Numeric

/-- The GPUs and who holds them. -/
structure PoolState where
  gpus : GpuPool
  /-- The GPUs of each container. -/
  assignments : Dict String (List UInt32)
  deriving DecidableEq

namespace PoolState

/-- All given GPUs available. -/
def ofIndices (indices : List UInt32) : PoolState := ⟨.ofIndices indices, .empty⟩

/-- A container is gone; its GPUs are available again. -/
def releaseContainer (p : PoolState) (id : String) : PoolState :=
  match p.assignments.get? id with
  | some held => ⟨p.gpus.release held, p.assignments.erase id⟩
  | none => p

/-- Number of GPUs held by containers. -/
def assigned (p : PoolState) : Nat := p.assignments.values.flatten.length

end PoolState

/-- What the container pool asks of whoever keeps its records. -/
inductive RecordCall : Type → Type where
  /-- The container ids on record for a task. -/
  | recordedIds (task : String) : RecordCall (Except StoreError (Option (List String)))
  /-- Replace the record of a task. -/
  | recordIds (task : String) (ids : List String) : RecordCall (Except StoreError Unit)
  /-- Drop the record of a task; tells whether there was one. -/
  | forgetIds (task : String) : RecordCall (Except StoreError Bool)
  /-- Four random hexadecimal digits. -/
  | replicaSuffix : RecordCall String

/-- What the container pool asks of the outside. -/
abbrev PoolCall : Type → Type := OneOf EngineCall RecordCall

/-- What a step of a reconcile made of the pool, beside its own result. -/
structure Pooled (α : Type) where
  result : α
  pool : PoolState

/-- What a round of launches made. -/
structure Launched where
  /-- The ids that started, in order. -/
  started : List String
  /-- How many did not. -/
  failed : Nat
  deriving DecidableEq

namespace ContainerPool

/-- Ask the container engine. -/
def ask {α : Type} (call : EngineCall α) : Program PoolCall α := .askFirst call

/-- Ask the keeper of the records. -/
def askRecord {α : Type} (call : RecordCall α) : Program PoolCall α := .askSecond call

/-- Launch one replica.  GPUs are taken before the container is created and
    given back if it does not start; a container that was created and did
    not start is removed. -/
def launchOne (serving : ServingSettings) (spec : TaskSpec) (pool : PoolState) :
    Program PoolCall (Pooled (Except BackendError String)) := do
  let (picked, gpus) := pool.gpus.allocate spec.gpusPerReplica.toNat
  let suffix ← askRecord .replicaSuffix
  match ← ask (.create (spec.containerLaunch serving suffix picked)) with
  | .error e => return ⟨.error e, { pool with gpus := gpus.release picked }⟩
  | .ok id =>
    match ← ask (.start id) with
    | .error e =>
      let _ ← ask (.stopAndRemove id)
      return ⟨.error e, { pool with gpus := gpus.release picked }⟩
    | .ok () => return ⟨.ok id, ⟨gpus, pool.assignments.insert id picked⟩⟩

/-- Launch replicas one after the other. -/
def launchEach (serving : ServingSettings) (spec : TaskSpec) :
    Nat → PoolState → Program PoolCall (Pooled Launched)
  | 0, pool => return ⟨⟨[], 0⟩, pool⟩
  | n + 1, pool => do
    let one ← launchOne serving spec pool
    let rest ← launchEach serving spec n one.pool
    match one.result with
    | .ok id => return ⟨{ rest.result with started := id :: rest.result.started }, rest.pool⟩
    | .error _ => return ⟨{ rest.result with failed := rest.result.failed + 1 }, rest.pool⟩

/-- Launch replicas once their image is present. -/
def launchMany (serving : ServingSettings) (spec : TaskSpec) (count : Nat) (pool : PoolState) :
    Program PoolCall (Pooled (Except BackendError Launched)) := do
  match ← ask (.ensureImage (spec.replicaImage serving)) with
  | .error e => return ⟨.error e, pool⟩
  | .ok () =>
    let launched ← launchEach serving spec count pool
    return ⟨.ok launched.result, launched.pool⟩

/-- Stop containers in order; the result lists those that could not be stopped. -/
def stopMany : List String → PoolState → Program PoolCall (Pooled (List String))
  | [], pool => return ⟨[], pool⟩
  | id :: ids, pool => do
    match ← ask (.stopAndRemove id) with
    | .ok () => stopMany ids (pool.releaseContainer id)
    | .error _ =>
      let rest ← stopMany ids pool
      return ⟨id :: rest.result, rest.pool⟩

/-- What is done to a replica. -/
inductive ReplicaAction where
  | start
  | stop
  deriving DecidableEq, Repr

/-- The word for an action. -/
def ReplicaAction.text : ReplicaAction → String
  | start => "start"
  | stop => "stop"

/-- Some replicas failed, unless none did. -/
def checkFailures (task : String) (action : ReplicaAction) (failed attempted : Nat) :
    Except BackendError Unit :=
  if failed = 0 then .ok ()
  else .error (.engine
    s!"{task}: {natText failed} of {natText attempted} replicas failed to {action.text}")

/-- Put ids on record, then answer with a result. -/
def recordThen (task : String) (ids : List String) (result : Except BackendError Unit) :
    Program PoolCall (Except BackendError Unit) := do
  match ← askRecord (.recordIds task ids) with
  | .error e => return .error (.store e)
  | .ok () => return result

/-- Start `missing` replicas beside those on record. -/
def grow (serving : ServingSettings) (spec : TaskSpec) (ids : List String) (missing : Nat)
    (pool : PoolState) : Program PoolCall (Pooled (Except BackendError Unit)) := do
  let launched ← launchMany serving spec missing pool
  match launched.result with
  | .error e => return ⟨.error e, launched.pool⟩
  | .ok l =>
    let result ← recordThen spec.name (ids ++ l.started)
      (checkFailures spec.name .start l.failed missing)
    return ⟨result, launched.pool⟩

/-- Stop the oldest `excess` replicas on record. -/
def shrink (spec : TaskSpec) (ids : List String) (excess : Nat) (pool : PoolState) :
    Program PoolCall (Pooled (Except BackendError Unit)) := do
  let stopped ← stopMany (ids.take excess) pool
  let result ← recordThen spec.name (stopped.result ++ ids.drop excess)
    (checkFailures spec.name .stop stopped.result.length excess)
  return ⟨result, stopped.pool⟩

/-- Stop all replicas on record, and drop the record if all of them stopped. -/
def tearDown (spec : TaskSpec) (ids : List String) (pool : PoolState) :
    Program PoolCall (Pooled (Except BackendError Unit)) := do
  let stopped ← stopMany ids pool
  if stopped.result.isEmpty then
    match ← askRecord (.forgetIds spec.name) with
    | .error e => return ⟨.error (.store e), stopped.pool⟩
    | .ok _ => return ⟨.ok (), stopped.pool⟩
  else
    let result ← recordThen spec.name stopped.result
      (checkFailures spec.name .stop stopped.result.length ids.length)
    return ⟨result, stopped.pool⟩

/-- Bring the number of a task's replicas to that of the spec. -/
def reconcile (serving : ServingSettings) (spec : TaskSpec) (pool : PoolState) :
    Program PoolCall (Pooled (Except BackendError Unit)) := do
  let desired := spec.replica.toNat
  match ← askRecord (.recordedIds spec.name) with
  | .error e => return ⟨.error (.store e), pool⟩
  | .ok none => if desired = 0 then return ⟨.ok (), pool⟩ else grow serving spec [] desired pool
  | .ok (some ids) =>
    if desired = 0 then tearDown spec ids pool
    else if desired < ids.length then shrink spec ids (ids.length - desired) pool
    else if ids.length < desired then grow serving spec ids (desired - ids.length) pool
    else return ⟨.ok (), pool⟩

/-- Look at containers in order; those that are gone are left out. -/
def inspectAll : List String → Program PoolCall (Except BackendError (List RuntimeInstance))
  | [] => return .ok []
  | id :: ids => do
    match ← ask (.inspect id) with
    | .error e => return .error e
    | .ok found =>
      match ← inspectAll ids with
      | .error e => return .error e
      | .ok rest => return .ok (found.toList ++ rest)

/-- The replicas of a task. -/
def instances (spec : TaskSpec) : Program PoolCall (Except BackendError (List RuntimeInstance)) := do
  match ← askRecord (.recordedIds spec.name) with
  | .error e => return .error (.store e)
  | .ok ids => inspectAll (ids.getD [])

/-- Serve a call of the backend. -/
def serve (serving : ServingSettings) (pool : PoolState) :
    {α : Type} → BackendCall α → Program PoolCall (Pooled α)
  | _, .deploy spec => reconcile serving spec pool
  | _, .delete spec => reconcile serving spec.teardown pool
  | _, .isRunning spec => do
    match ← instances spec with
    | .error e => return ⟨.error e, pool⟩
    | .ok found => return ⟨.ok (found.any RuntimeInstance.isRunning), pool⟩
  | _, .instances spec => do return ⟨← instances spec, pool⟩

/-- Serve a call of the record keeper from the store, giving one suffix. -/
def record (store : Store) (suffix : String) : {α : Type} → RecordCall α → α × Store
  | _, .recordedIds task => (store.containerIds task, store)
  | _, .recordIds task ids => (.ok (), store.putContainerIds task ids)
  | _, .forgetIds task =>
    let (existed, store) := store.deleteContainerIds task
    (.ok existed, store)
  | _, .replicaSuffix => (suffix, store)

end ContainerPool

end ServingPlane
