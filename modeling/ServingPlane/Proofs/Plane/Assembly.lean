import ServingPlane.Proofs.Container.Success
import ServingPlane.Proofs.Plane.Newest
import ServingPlane.Scaler

/-! # The control plane with its scaler

    The scaler takes specs from the queue and brings the container pool
    into the state of each, one after the other.  Its calls to the engine
    and to the store fall between the steps of the requests and of the
    queue, in any order.  What it has still to do is a program, so a spec
    that is taken while an earlier one is being worked on is put behind
    it. -/

namespace ServingPlane

namespace ContainerPool

/-- Serve all that a program asks of the backend, one call after the other. -/
def serveAll {α : Type} (serving : ServingSettings) :
    Program BackendCall α → PoolState → Program PoolCall (Pooled α)
  | .done a, pool => return ⟨a, pool⟩
  | .call e k, pool => do
    let served ← serve serving pool e
    serveAll serving (k served.result) served.pool

/-- Bring the pool into the state of one spec; whether it went well is only logged. -/
def scale (serving : ServingSettings) (spec : TaskSpec) (pool : PoolState) :
    Program PoolCall PoolState := do
  let scaled ← serveAll serving (Scaler.reconcile spec) pool
  return scaled.pool

/-- To scale is to reconcile, with replicas or without. -/
theorem scale_eq (serving : ServingSettings) (spec : TaskSpec) (pool : PoolState) :
    scale serving spec pool = do return (← reconcile serving spec pool).pool := by
  have hserve : ∀ call : BackendCall (Except BackendError Unit),
      serveAll serving (.ask call) pool = serve serving pool call := fun call => bind_pure _
  simp only [scale, Scaler.reconcile]
  by_cases hzero : spec.replica = 0
  · have hspec : spec.teardown = spec := by
      rw [TaskSpec.teardown, ← hzero]
    rw [if_pos hzero, hserve, serve, hspec]
  · rw [if_neg hzero, hserve, serve]

theorem runs_scale {serving : ServingSettings} {spec : TaskSpec} {pool after : PoolState}
    {w w' : PoolWorld} :
    (scale serving spec pool).Runs PoolWorld.respond w after w' ↔
      ∃ r, Reconciliation serving spec pool w r w' ∧ after = r.pool := by
  rw [scale_eq, Program.runs_bind]
  constructor
  · rintro ⟨r, u, hruns, rfl, rfl⟩
    exact ⟨r, runs_reconcile.mp hruns, rfl⟩
  · rintro ⟨r, hruns, rfl⟩
    exact ⟨r, w', runs_reconcile.mpr hruns, rfl, rfl⟩

end ContainerPool

/-- What an engine answers that does all it is asked, and gives the next
    container this id. -/
def EngineCall.success (id : String) : {β : Type} → EngineCall β → β
  | _, .ensureImage _ => .ok ()
  | _, .create _ => .ok id
  | _, .start _ => .ok ()
  | _, .stopAndRemove _ => .ok ()
  | _, .inspect _ => .ok none

/-- Whether the next container would get the id of a live one. -/
def EngineCall.reuses (events : List EngineEvent) (id : String) : {β : Type} → EngineCall β → Bool
  | _, .create _ => id ∈ aliveIds events
  | _, _ => false

theorem EngineEvent.succeeds_success {β : Type} {events : List EngineEvent} {id : String}
    {e : EngineCall β} (he : e.reuses events id = false) :
    (EngineEvent.of e (e.success id)).Succeeds events := by
  cases e with
  | ensureImage image => rfl
  | create launch => exact ⟨id, rfl, of_decide_eq_false he⟩
  | start id => rfl
  | stopAndRemove id => rfl
  | inspect id => exact ⟨none, rfl⟩

/-- The container records alone. -/
def Store.records (s : Store) : Store := { s with history := .empty }

/-- The record keeper heeds no history. -/
theorem ContainerPool.record_records {β : Type} (s : Store) (suffix : String) (e : RecordCall β) :
    record s.records suffix e = ((record s suffix e).1, (record s suffix e).2.records) := by
  cases e with
  | _ => rfl

/-- Requests, queue, scaler and container pool. -/
structure Assembly where
  schedule : Schedule
  /-- What the scaler has still to do; at the end it tells the state of the pool. -/
  work : Program PoolCall PoolState
  /-- What the engine was asked and answered, oldest first. -/
  events : List EngineEvent

namespace Assembly

/-- What may happen next. -/
inductive Action where
  /-- A step of the requests, of the queue or of its consumer. -/
  | control (action : Schedule.Action)
  /-- The scaler goes one step on.  Any suffix may be drawn, and if a
      container is created it gets this id. -/
  | work (suffix id : String)

/-- Nothing registered, queued, recorded or alive. -/
def start (capacity : Nat) (indices : List UInt32) : Assembly :=
  ⟨.start capacity, .done (.ofIndices indices), []⟩

/-- The consumer goes one step on; a spec that it gets is work for the scaler. -/
def consume (serving : ServingSettings) (a : Assembly) : Assembly :=
  match a.schedule.consume with
  | (some (.spec spec), schedule) =>
    { a with schedule, work := a.work >>= ContainerPool.scale serving spec }
  | (_, schedule) => { a with schedule }

/-- The scaler goes one step on.  No id is given that a live container has. -/
def proceed (a : Assembly) (suffix id : String) : Assembly :=
  match a.work with
  | .done _ => a
  | .call (.inl e) k =>
    if e.reuses a.events id then a
    else { a with work := k (e.success id), events := a.events ++ [.of e (e.success id)] }
  | .call (.inr e) k =>
    let (answer, store) := ContainerPool.record a.schedule.plane.store suffix e
    { a with
      schedule := { a.schedule with plane := { a.schedule.plane with store } }, work := k answer }

/-- One step.  Nobody but the requests and the scaler writes the store. -/
def step (d : Detector) (serving : ServingSettings) (a : Assembly) : Action → Assembly
  | .control .consume => a.consume serving
  | .control (.write _) => a
  | .control action => { a with schedule := a.schedule.step d action }
  | .work suffix id => a.proceed suffix id

/-- Any number of steps from nothing. -/
def run (d : Detector) (serving : ServingSettings) (capacity : Nat) (indices : List UInt32)
    (actions : List Action) : Assembly :=
  actions.foldl (step d serving) (start capacity indices)

/-- No request is under way, none of the scaler's work is left, and nothing is queued. -/
structure Quiet (a : Assembly) : Prop where
  requests : ∀ i, a.schedule.activities i = none
  work : ∃ pool, a.work = .done pool
  queue : a.schedule.plane.queue.pendingCount = 0

/-- What the scaler works against: the container records and the engine. -/
def world (a : Assembly) : PoolWorld := ⟨a.schedule.plane.store.records, a.events⟩

end Assembly

end ServingPlane
