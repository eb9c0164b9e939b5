import ServingPlane.Detector.Calls

/-! # The state of the control plane

    Registry, queue and store, and how a call changes them.  A call that
    cannot go on yet, because the registry is locked or the queue is full,
    changes nothing and waits; a schedule of several programs serves any
    one of those that can go on. -/

namespace ServingPlane

/-- What the programs of the control plane share. -/
structure Plane where
  registry : Registry
  /-- Some program holds the registry. -/
  locked : Bool
  queue : TaskQueue
  store : Store
  deriving DecidableEq

namespace Plane

/-- Nothing registered, queued or recorded. -/
def new (capacity : Nat) : Plane := ⟨.empty, false, .new capacity, .empty⟩

/-- Go on only while nobody holds the registry. -/
def whenFree {α : Type} (p : Plane) (next : α × Plane) : Option (α × Plane) :=
  if p.locked then none else some next

/-- Serve a call, if it can go on. -/
def serve (p : Plane) : {α : Type} → PlaneCall α → Option (α × Plane)
  | _, .readRegistry => p.whenFree (p.registry, p)
  | _, .updateRegistry change => p.whenFree ((), { p with registry := change p.registry })
  | _, .lockRegistry => p.whenFree (p.registry, { p with locked := true })
  | _, .unlockRegistry contents => some ((), { p with registry := contents, locked := false })
  | _, .enqueue spec =>
    match p.queue.append spec with
    | (.finished result, queue) => some (result, { p with queue })
    | (.waits _, _) => none
  | _, .queuedCount => some (p.queue.pendingCount, p)
  | _, .appendHistory task record limit =>
    match p.store.appendHistory task record limit with
    | .ok store => some (.ok (), { p with store })
    | .error cause => some (.error cause, p)
  | _, .listHistory task => some (p.store.listHistory task, p)

/-- A program that is given up releases the registry if it holds it. -/
def release (p : Plane) : Plane := { p with locked := false }

/-- Take the oldest spec from the queue, if one waits. -/
def pop (p : Plane) : Option TaskSpec × Plane :=
  match p.queue.pop with
  | (.spec spec, queue) => (some spec, { p with queue })
  | (_, queue) => (none, { p with queue })

/-- The scaler is gone. -/
def closeQueue (p : Plane) : Plane := { p with queue := p.queue.close }

end Plane

end ServingPlane
