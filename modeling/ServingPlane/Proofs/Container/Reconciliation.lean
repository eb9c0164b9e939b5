import ServingPlane.Container.Pool
import ServingPlane.Proofs.Gpu.Pool
import ServingPlane.Proofs.Program

/-! # What a reconcile can do

    A reconcile asks a container engine, whose every call may succeed or
    fail, and the store.  Here all that it can do is listed: the launches
    and stops it tries, in order and with the engine's answers, what
    becomes of the pool, what is put on record, and how it ends.  The
    reconcile has exactly the runs of this list, so that facts about it
    are proved by cases on the list and never by opening the program. -/

namespace ServingPlane

/-- A call of the container engine and its answer. -/
inductive EngineEvent where
  | fetched (image : String) (answer : Except BackendError Unit)
  | created (launch : ContainerLaunch) (answer : Except BackendError String)
  | started (id : String) (answer : Except BackendError Unit)
  | stopped (id : String) (answer : Except BackendError Unit)
  | inspected (id : String) (answer : Except BackendError (Option RuntimeInstance))

/-- The event that a call with an answer is. -/
def EngineEvent.of : {β : Type} → EngineCall β → β → EngineEvent
  | _, .ensureImage image, answer => .fetched image answer
  | _, .create launch, answer => .created launch answer
  | _, .start id, answer => .started id answer
  | _, .stopAndRemove id, answer => .stopped id answer
  | _, .inspect id, answer => .inspected id answer

/-- What the container pool works against: the store, and an engine of
    which only its answers are known, oldest first. -/
structure PoolWorld where
  store : Store
  events : List EngineEvent

/-- The engine may answer anything; the store answers as it does, and any
    suffix may be drawn. -/
def PoolWorld.respond {β : Type} (w : PoolWorld) : PoolCall β → β → PoolWorld → Prop
  | .inl call, answer, w' => w' = { w with events := w.events ++ [.of call answer] }
  | .inr call, answer, w' =>
    ∃ suffix, w' = { w with store := (ContainerPool.record w.store suffix call).2 } ∧
      answer = (ContainerPool.record w.store suffix call).1

/-- The same store after more events. -/
def PoolWorld.after (w : PoolWorld) (events : List EngineEvent) : PoolWorld :=
  { w with events := w.events ++ events }

/-- The world after events, with new ids on record for a task. -/
def PoolWorld.recorded (w : PoolWorld) (events : List EngineEvent) (task : String)
    (ids : List String) : PoolWorld :=
  ⟨w.store.putContainerIds task ids, w.events ++ events⟩

/-- The world after events, with the record of a task dropped. -/
def PoolWorld.forgotten (w : PoolWorld) (events : List EngineEvent) (task : String) : PoolWorld :=
  ⟨(w.store.deleteContainerIds task).2, w.events ++ events⟩

namespace PoolWorld

@[simp] theorem after_nil (w : PoolWorld) : w.after [] = w :=
  congrArg (mk w.store) (List.append_nil _)

theorem after_after (w : PoolWorld) (before later : List EngineEvent) :
    (w.after before).after later = w.after (before ++ later) :=
  congrArg (mk w.store) (List.append_assoc ..)

end PoolWorld

namespace ContainerPool

open Program

variable {serving : ServingSettings} {spec : TaskSpec} {pool : PoolState} {w w' : PoolWorld}

theorem runs_askEngine {α : Type} {call : EngineCall α} {answer : α} :
    (ask call).Runs PoolWorld.respond w answer w' ↔ w' = w.after [.of call answer] :=
  runs_ask

theorem runs_askRecord {α : Type} {call : RecordCall α} {answer : α} :
    (askRecord call).Runs PoolWorld.respond w answer w' ↔
      ∃ suffix, w' = { w with store := (record w.store suffix call).2 } ∧
        answer = (record w.store suffix call).1 :=
  runs_ask

/-! ## Launches -/

/-- The GPUs that one replica gets, and the pool without them. -/
def take (spec : TaskSpec) (pool : PoolState) : List UInt32 × GpuPool :=
  pool.gpus.allocate spec.gpusPerReplica.toNat

/-- How one launch ends: without a container, with one that did not start
    and was stopped again, or with one that runs. -/
inductive LaunchEnd (serving : ServingSettings) (spec : TaskSpec) (pool : PoolState) :
    Pooled (Except BackendError String) → List EngineEvent → Prop where
  | refused (suffix : String) (e : BackendError) :
    LaunchEnd serving spec pool ⟨.error e, pool⟩
      [.created (spec.containerLaunch serving suffix (take spec pool).1) (.error e)]
  | unstarted (suffix id : String) (e : BackendError) (cleanup : Except BackendError Unit) :
    LaunchEnd serving spec pool ⟨.error e, pool⟩
      [.created (spec.containerLaunch serving suffix (take spec pool).1) (.ok id),
        .started id (.error e), .stopped id cleanup]
  | running (suffix id : String) :
    LaunchEnd serving spec pool
      ⟨.ok id, ⟨(take spec pool).2, pool.assignments.insert id (take spec pool).1⟩⟩
      [.created (spec.containerLaunch serving suffix (take spec pool).1) (.ok id),
        .started id (.ok ())]

private theorem give_back (spec : TaskSpec) (pool : PoolState) :
    (⟨(take spec pool).2.release (take spec pool).1, pool.assignments⟩ : PoolState) = pool := by
  rw [show (take spec pool).2.release (take spec pool).1 = pool.gpus from
    GpuPool.release_allocate ..]

/-- A launch runs as listed. -/
theorem runs_launchOne {r : Pooled (Except BackendError String)} :
    (launchOne serving spec pool).Runs PoolWorld.respond w r w' ↔
      ∃ events, LaunchEnd serving spec pool r events ∧ w' = w.after events := by
  have hback := give_back spec pool
  simp only [launchOne]
  constructor
  · intro h
    obtain ⟨drawn, u, hs, h⟩ := runs_bind.mp h
    obtain ⟨suffix, hu, hdrawn⟩ := runs_askRecord.mp hs
    subst hu
    rw [hdrawn] at h
    obtain ⟨created, u, hc, h⟩ := runs_bind.mp h
    rw [runs_askEngine] at hc
    subst hc
    cases created with
    -- the GPUs that were taken are given back, which leaves the pool as it was
    | error e =>
      obtain ⟨rfl, rfl⟩ := h
      refine ⟨_, ?_, rfl⟩
      show LaunchEnd serving spec pool
        ⟨.error e, ⟨(take spec pool).2.release (take spec pool).1, pool.assignments⟩⟩ _
      rw [hback]
      exact .refused suffix e
    | ok id =>
      obtain ⟨started, u, hc, h⟩ := runs_bind.mp h
      rw [runs_askEngine] at hc
      subst hc
      cases started with
      | error e =>
        obtain ⟨cleanup, u, hc, h⟩ := runs_bind.mp h
        rw [runs_askEngine] at hc
        subst hc
        obtain ⟨rfl, rfl⟩ := h
        refine ⟨_, ?_, by rw [PoolWorld.after_after, PoolWorld.after_after]; rfl⟩
        show LaunchEnd serving spec pool
          ⟨.error e, ⟨(take spec pool).2.release (take spec pool).1, pool.assignments⟩⟩ _
        rw [hback]
        exact .unstarted suffix id e cleanup
      | ok =>
        obtain ⟨rfl, rfl⟩ := h
        exact ⟨_, .running suffix id, PoolWorld.after_after ..⟩
  · rintro ⟨events, hend, rfl⟩
    cases hend with
    | refused suffix e =>
      refine runs_bind.mpr ⟨_, _, runs_askRecord.mpr ⟨suffix, rfl, rfl⟩, ?_⟩
      refine runs_bind.mpr ⟨.error e, _, runs_askEngine.mpr rfl, ?_⟩
      exact ⟨congrArg (Pooled.mk (Except.error e)) hback.symm, rfl⟩
    | unstarted suffix id e cleanup =>
      refine runs_bind.mpr ⟨_, _, runs_askRecord.mpr ⟨suffix, rfl, rfl⟩, ?_⟩
      refine runs_bind.mpr ⟨.ok id, _, runs_askEngine.mpr rfl, ?_⟩
      refine runs_bind.mpr ⟨.error e, _, runs_askEngine.mpr rfl, ?_⟩
      refine runs_bind.mpr ⟨cleanup, _, runs_askEngine.mpr rfl, ?_⟩
      refine ⟨congrArg (Pooled.mk (Except.error e)) hback.symm, ?_⟩
      rw [PoolWorld.after_after, PoolWorld.after_after]
      rfl
    | running suffix id =>
      refine runs_bind.mpr ⟨_, _, runs_askRecord.mpr ⟨suffix, rfl, rfl⟩, ?_⟩
      refine runs_bind.mpr ⟨.ok id, _, runs_askEngine.mpr rfl, ?_⟩
      refine runs_bind.mpr ⟨.ok (), _, runs_askEngine.mpr rfl, ?_⟩
      exact ⟨rfl, by rw [PoolWorld.after_after]; rfl⟩

/-- Launches one after the other, with what started and what did not. -/
inductive LaunchRound (serving : ServingSettings) (spec : TaskSpec) :
    Nat → PoolState → Pooled Launched → List EngineEvent → Prop where
  | finished (pool : PoolState) : LaunchRound serving spec 0 pool ⟨⟨[], 0⟩, pool⟩ []
  | started {n : Nat} {pool next : PoolState} {id : String} {rest : Pooled Launched}
    {first later : List EngineEvent} :
    LaunchEnd serving spec pool ⟨.ok id, next⟩ first →
    LaunchRound serving spec n next rest later →
    LaunchRound serving spec (n + 1) pool
      ⟨{ rest.result with started := id :: rest.result.started }, rest.pool⟩ (first ++ later)
  | failed {n : Nat} {pool next : PoolState} {e : BackendError} {rest : Pooled Launched}
    {first later : List EngineEvent} :
    LaunchEnd serving spec pool ⟨.error e, next⟩ first →
    LaunchRound serving spec n next rest later →
    LaunchRound serving spec (n + 1) pool
      ⟨{ rest.result with failed := rest.result.failed + 1 }, rest.pool⟩ (first ++ later)

/-- Several launches run as listed. -/
theorem runs_launchEach {n : Nat} {r : Pooled Launched} :
    (launchEach serving spec n pool).Runs PoolWorld.respond w r w' ↔
      ∃ events, LaunchRound serving spec n pool r events ∧ w' = w.after events := by
  -- the pool and the world change from launch to launch
  induction n generalizing pool r w w' with
  | zero =>
    constructor
    · rintro ⟨rfl, rfl⟩
      exact ⟨[], .finished pool, (PoolWorld.after_nil _).symm⟩
    · rintro ⟨events, hround, rfl⟩
      cases hround with
      | finished => exact ⟨rfl, PoolWorld.after_nil w⟩
  | succ n ih =>
    simp only [launchEach]
    constructor
    · intro h
      obtain ⟨⟨result, next⟩, u, hone, h⟩ := runs_bind.mp h
      obtain ⟨first, hend, rfl⟩ := runs_launchOne.mp hone
      obtain ⟨rest, v, hrest, h⟩ := runs_bind.mp h
      obtain ⟨later, hround, rfl⟩ := ih.mp hrest
      refine ⟨first ++ later, ?_, ?_⟩
      · cases result with
        | error e =>
          obtain ⟨rfl, rfl⟩ := h
          exact .failed hend hround
        | ok id =>
          obtain ⟨rfl, rfl⟩ := h
          exact .started hend hround
      · cases result with
        | error e => exact h.2.trans (PoolWorld.after_after ..)
        | ok id => exact h.2.trans (PoolWorld.after_after ..)
    · rintro ⟨events, hround, rfl⟩
      cases hround with
      | started hend hrest =>
        refine runs_bind.mpr ⟨_, _, runs_launchOne.mpr ⟨_, hend, rfl⟩, ?_⟩
        refine runs_bind.mpr ⟨_, _, ih.mpr ⟨_, hrest, rfl⟩, ?_⟩
        exact ⟨rfl, (PoolWorld.after_after ..).symm⟩
      | failed hend hrest =>
        refine runs_bind.mpr ⟨_, _, runs_launchOne.mpr ⟨_, hend, rfl⟩, ?_⟩
        refine runs_bind.mpr ⟨_, _, ih.mpr ⟨_, hrest, rfl⟩, ?_⟩
        exact ⟨rfl, (PoolWorld.after_after ..).symm⟩

/-! ## Stops -/

/-- Stops one after the other, with those that failed. -/
inductive StopRound : List String → PoolState → Pooled (List String) → List EngineEvent → Prop where
  | finished (pool : PoolState) : StopRound [] pool ⟨[], pool⟩ []
  | stopped {id : String} {ids : List String} {pool : PoolState} {rest : Pooled (List String)}
    {later : List EngineEvent} :
    StopRound ids (pool.releaseContainer id) rest later →
    StopRound (id :: ids) pool rest (.stopped id (.ok ()) :: later)
  | kept {id : String} {ids : List String} {pool : PoolState} {rest : Pooled (List String)}
    {later : List EngineEvent} (e : BackendError) :
    StopRound ids pool rest later →
    StopRound (id :: ids) pool ⟨id :: rest.result, rest.pool⟩ (.stopped id (.error e) :: later)

/-- Several stops run as listed. -/
theorem runs_stopMany {ids : List String} {r : Pooled (List String)} :
    (stopMany ids pool).Runs PoolWorld.respond w r w' ↔
      ∃ events, StopRound ids pool r events ∧ w' = w.after events := by
  -- the pool changes with each container that stops
  induction ids generalizing pool r w w' with
  | nil =>
    constructor
    · rintro ⟨rfl, rfl⟩
      exact ⟨[], .finished pool, (PoolWorld.after_nil _).symm⟩
    · rintro ⟨events, hround, rfl⟩
      cases hround with
      | finished => exact ⟨rfl, PoolWorld.after_nil w⟩
  | cons id ids ih =>
    simp only [stopMany]
    constructor
    · intro h
      obtain ⟨answer, u, hstop, h⟩ := runs_bind.mp h
      rw [runs_askEngine] at hstop
      subst hstop
      cases answer with
      | ok =>
        obtain ⟨later, hround, rfl⟩ := ih.mp h
        exact ⟨_, .stopped hround, PoolWorld.after_after ..⟩
      | error e =>
        obtain ⟨rest, v, hrest, h⟩ := runs_bind.mp h
        obtain ⟨later, hround, rfl⟩ := ih.mp hrest
        obtain ⟨rfl, rfl⟩ := h
        exact ⟨_, .kept e hround, PoolWorld.after_after ..⟩
    · rintro ⟨events, hround, rfl⟩
      cases hround with
      | stopped hrest =>
        refine runs_bind.mpr ⟨.ok (), _, runs_askEngine.mpr rfl, ?_⟩
        exact ih.mpr ⟨_, hrest, by rw [PoolWorld.after_after]; rfl⟩
      | kept e hrest =>
        refine runs_bind.mpr ⟨.error e, _, runs_askEngine.mpr rfl, ?_⟩
        refine runs_bind.mpr ⟨_, _, ih.mpr ⟨_, hrest, rfl⟩, ?_⟩
        exact ⟨rfl, by rw [PoolWorld.after_after]; rfl⟩

/-! ## Reconciles -/

/-- All that a reconcile can do, with its result, the pool it leaves and
    the world after it. -/
inductive Reconciliation (serving : ServingSettings) (spec : TaskSpec) (pool : PoolState)
    (w : PoolWorld) : Pooled (Except BackendError Unit) → PoolWorld → Prop where
  /-- The record cannot be read. -/
  | unreadable {e : StoreError} (hread : w.store.containerIds spec.name = .error e) :
    Reconciliation serving spec pool w ⟨.error (.store e), pool⟩ w
  /-- As many replicas as wanted are on record, or none and none is wanted. -/
  | settled {record : Option (List String)} (hread : w.store.containerIds spec.name = .ok record)
    (hlength : (record.getD []).length = spec.replica.toNat)
    (hsome : record.isSome → spec.replica.toNat ≠ 0) :
    Reconciliation serving spec pool w ⟨.ok (), pool⟩ w
  /-- Replicas are missing, and their image cannot be had. -/
  | unfetched {record : Option (List String)} {e : BackendError}
    (hread : w.store.containerIds spec.name = .ok record)
    (hlength : (record.getD []).length < spec.replica.toNat) :
    Reconciliation serving spec pool w ⟨.error e, pool⟩
      (w.after [.fetched (spec.replicaImage serving) (.error e)])
  /-- Replicas were missing; those that started are on record now. -/
  | grown {record : Option (List String)} {launched : Pooled Launched} {events : List EngineEvent}
    (hread : w.store.containerIds spec.name = .ok record)
    (hlength : (record.getD []).length < spec.replica.toNat)
    (hround : LaunchRound serving spec (spec.replica.toNat - (record.getD []).length) pool launched
      events) :
    Reconciliation serving spec pool w
      ⟨checkFailures spec.name .start launched.result.failed
        (spec.replica.toNat - (record.getD []).length), launched.pool⟩
      (w.recorded (.fetched (spec.replicaImage serving) (.ok ()) :: events) spec.name
        (record.getD [] ++ launched.result.started))
  /-- There were too many replicas; the oldest are stopped, and those that
      did not stop are on record still. -/
  | shrunk {ids : List String} {left : Pooled (List String)} {events : List EngineEvent}
    (hread : w.store.containerIds spec.name = .ok (some ids))
    (hwanted : spec.replica.toNat ≠ 0) (hlength : spec.replica.toNat < ids.length)
    (hround : StopRound (ids.take (ids.length - spec.replica.toNat)) pool left events) :
    Reconciliation serving spec pool w
      ⟨checkFailures spec.name .stop left.result.length (ids.length - spec.replica.toNat),
        left.pool⟩
      (w.recorded events spec.name (left.result ++ ids.drop (ids.length - spec.replica.toNat)))
  /-- None is wanted, and all have stopped. -/
  | tornDown {ids : List String} {after : PoolState} {events : List EngineEvent}
    (hread : w.store.containerIds spec.name = .ok (some ids)) (hwanted : spec.replica.toNat = 0)
    (hround : StopRound ids pool ⟨[], after⟩ events) :
    Reconciliation serving spec pool w ⟨.ok (), after⟩ (w.forgotten events spec.name)
  /-- None is wanted, and some did not stop. -/
  | stuck {ids : List String} {left : Pooled (List String)} {events : List EngineEvent}
    (hread : w.store.containerIds spec.name = .ok (some ids)) (hwanted : spec.replica.toNat = 0)
    (hround : StopRound ids pool left events) (hleft : left.result ≠ []) :
    Reconciliation serving spec pool w
      ⟨checkFailures spec.name .stop left.result.length ids.length, left.pool⟩
      (w.recorded events spec.name left.result)

theorem runs_recordThen {task : String} {ids : List String} {result r : Except BackendError Unit} :
    (recordThen task ids result).Runs PoolWorld.respond w r w' ↔
      r = result ∧ w' = { w with store := w.store.putContainerIds task ids } := by
  simp only [recordThen]
  constructor
  · intro h
    obtain ⟨answer, u, hput, h⟩ := runs_bind.mp h
    obtain ⟨suffix, hu, hanswer⟩ := runs_askRecord.mp hput
    subst hu
    rw [hanswer] at h
    exact h
  · rintro ⟨rfl, rfl⟩
    exact runs_bind.mpr ⟨.ok (), _, runs_askRecord.mpr ⟨"", rfl, rfl⟩, rfl, rfl⟩

variable {r : Pooled (Except BackendError Unit)}

/-- What growing can do. -/
theorem runs_grow {record : Option (List String)} {missing : Nat} :
    (grow serving spec (record.getD []) missing pool).Runs PoolWorld.respond w r w' ↔
      (∃ e, r = ⟨.error e, pool⟩ ∧
        w' = w.after [.fetched (spec.replicaImage serving) (.error e)]) ∨
      ∃ launched events, LaunchRound serving spec missing pool launched events ∧
        r = ⟨checkFailures spec.name .start launched.result.failed missing, launched.pool⟩ ∧
        w' = w.recorded (.fetched (spec.replicaImage serving) (.ok ()) :: events) spec.name
          (record.getD [] ++ launched.result.started) := by
  simp only [grow, launchMany]
  constructor
  · intro h
    obtain ⟨launched, u, hmany, h⟩ := runs_bind.mp h
    obtain ⟨fetched, v, hfetch, hmany⟩ := runs_bind.mp hmany
    rw [runs_askEngine] at hfetch
    subst hfetch
    cases fetched with
    | error e =>
      obtain ⟨rfl, rfl⟩ := hmany
      obtain ⟨rfl, rfl⟩ := h
      exact .inl ⟨e, rfl, rfl⟩
    | ok =>
      obtain ⟨round, v, hruns, hmany⟩ := runs_bind.mp hmany
      obtain ⟨events, hround, rfl⟩ := runs_launchEach.mp hruns
      obtain ⟨rfl, rfl⟩ := hmany
      obtain ⟨result, v, hput, h⟩ := runs_bind.mp h
      obtain ⟨rfl, rfl⟩ := runs_recordThen.mp hput
      obtain ⟨rfl, rfl⟩ := h
      exact .inr ⟨round, events, hround, rfl, by rw [PoolWorld.after_after]; rfl⟩
  · rintro (⟨e, rfl, rfl⟩ | ⟨launched, events, hround, rfl, rfl⟩)
    · refine runs_bind.mpr ⟨⟨.error e, pool⟩, _, ?_, rfl, rfl⟩
      exact runs_bind.mpr ⟨.error e, _, runs_askEngine.mpr rfl, rfl, rfl⟩
    · refine runs_bind.mpr ⟨⟨.ok launched.result, launched.pool⟩,
        w.after (.fetched (spec.replicaImage serving) (.ok ()) :: events), ?_, ?_⟩
      · refine runs_bind.mpr ⟨.ok (), _, runs_askEngine.mpr rfl, ?_⟩
        refine runs_bind.mpr ⟨_, _, runs_launchEach.mpr ⟨events, hround, rfl⟩, rfl, ?_⟩
        rw [PoolWorld.after_after]
        rfl
      · exact runs_bind.mpr ⟨_, _, runs_recordThen.mpr ⟨rfl, rfl⟩, rfl, rfl⟩

/-- What shrinking can do. -/
theorem runs_shrink {ids : List String} {excess : Nat} :
    (shrink spec ids excess pool).Runs PoolWorld.respond w r w' ↔
      ∃ left events, StopRound (ids.take excess) pool left events ∧
        r = ⟨checkFailures spec.name .stop left.result.length excess, left.pool⟩ ∧
        w' = w.recorded events spec.name (left.result ++ ids.drop excess) := by
  simp only [shrink]
  constructor
  · intro h
    obtain ⟨left, u, hruns, h⟩ := runs_bind.mp h
    obtain ⟨events, hround, rfl⟩ := runs_stopMany.mp hruns
    obtain ⟨result, v, hput, h⟩ := runs_bind.mp h
    obtain ⟨rfl, rfl⟩ := runs_recordThen.mp hput
    obtain ⟨rfl, rfl⟩ := h
    exact ⟨left, events, hround, rfl, rfl⟩
  · rintro ⟨left, events, hround, rfl, rfl⟩
    refine runs_bind.mpr ⟨left, _, runs_stopMany.mpr ⟨events, hround, rfl⟩, ?_⟩
    exact runs_bind.mpr ⟨_, _, runs_recordThen.mpr ⟨rfl, rfl⟩, rfl, rfl⟩

/-- What tearing down can do. -/
theorem runs_tearDown {ids : List String} :
    (tearDown spec ids pool).Runs PoolWorld.respond w r w' ↔
      (∃ after events, StopRound ids pool ⟨[], after⟩ events ∧
        r = ⟨.ok (), after⟩ ∧ w' = w.forgotten events spec.name) ∨
      ∃ left events, StopRound ids pool left events ∧ left.result ≠ [] ∧
        r = ⟨checkFailures spec.name .stop left.result.length ids.length, left.pool⟩ ∧
        w' = w.recorded events spec.name left.result := by
  simp only [tearDown]
  constructor
  · intro h
    obtain ⟨⟨left, after⟩, u, hruns, h⟩ := runs_bind.mp h
    obtain ⟨events, hround, rfl⟩ := runs_stopMany.mp hruns
    cases left with
    | nil =>
      obtain ⟨answer, v, hforget, h⟩ := runs_bind.mp h
      obtain ⟨suffix, hv, hanswer⟩ := runs_askRecord.mp hforget
      subst hv
      rw [hanswer] at h
      obtain ⟨rfl, rfl⟩ := h
      exact .inl ⟨after, events, hround, rfl, rfl⟩
    | cons id left =>
      obtain ⟨result, v, hput, h⟩ := runs_bind.mp h
      obtain ⟨rfl, rfl⟩ := runs_recordThen.mp hput
      obtain ⟨rfl, rfl⟩ := h
      exact .inr ⟨_, events, hround, List.cons_ne_nil id left, rfl, rfl⟩
  · rintro (⟨after, events, hround, rfl, rfl⟩ | ⟨⟨left, after⟩, events, hround, hleft, rfl, rfl⟩)
    · refine runs_bind.mpr ⟨_, _, runs_stopMany.mpr ⟨events, hround, rfl⟩, ?_⟩
      exact runs_bind.mpr ⟨_, _, runs_askRecord.mpr ⟨"", rfl, rfl⟩, rfl, rfl⟩
    · refine runs_bind.mpr ⟨_, _, runs_stopMany.mpr ⟨events, hround, rfl⟩, ?_⟩
      cases left with
      | nil => exact absurd rfl hleft
      | cons id left => exact runs_bind.mpr ⟨_, _, runs_recordThen.mpr ⟨rfl, rfl⟩, rfl, rfl⟩

/-- What a reconcile does once it knows the record. -/
def reconcileRecorded (serving : ServingSettings) (spec : TaskSpec) (pool : PoolState) :
    Option (List String) → Program PoolCall (Pooled (Except BackendError Unit))
  | none =>
    if spec.replica.toNat = 0 then return ⟨.ok (), pool⟩
    else grow serving spec [] spec.replica.toNat pool
  | some ids =>
    if spec.replica.toNat = 0 then tearDown spec ids pool
    else if spec.replica.toNat < ids.length then
      shrink spec ids (ids.length - spec.replica.toNat) pool
    else if ids.length < spec.replica.toNat then
      grow serving spec ids (spec.replica.toNat - ids.length) pool
    else return ⟨.ok (), pool⟩

theorem runs_reconcile_iff :
    (reconcile serving spec pool).Runs PoolWorld.respond w r w' ↔
      (∃ e, w.store.containerIds spec.name = .error e ∧ r = ⟨.error (.store e), pool⟩ ∧ w' = w) ∨
      ∃ record, w.store.containerIds spec.name = .ok record ∧
        (reconcileRecorded serving spec pool record).Runs PoolWorld.respond w r w' := by
  simp only [reconcile]
  constructor
  · intro h
    obtain ⟨record, u, hask, h⟩ := runs_bind.mp h
    obtain ⟨suffix, hu, hread⟩ := runs_askRecord.mp hask
    subst hu
    match record with
    | .error e => exact .inl ⟨e, hread.symm, h⟩
    | .ok none => exact .inr ⟨none, hread.symm, h⟩
    | .ok (some ids) => exact .inr ⟨some ids, hread.symm, h⟩
  · rintro (⟨e, hread, h⟩ | ⟨record, hread, h⟩)
    · exact runs_bind.mpr ⟨_, _, runs_askRecord.mpr ⟨"", rfl, hread.symm⟩, h⟩
    · refine runs_bind.mpr ⟨_, _, runs_askRecord.mpr ⟨"", rfl, hread.symm⟩, ?_⟩
      cases record with
      | none => exact h
      | some ids => exact h

theorem reconcileRecorded_settled {record : Option (List String)}
    (hlength : (record.getD []).length = spec.replica.toNat)
    (hsome : record.isSome → spec.replica.toNat ≠ 0) :
    reconcileRecorded serving spec pool record = pure ⟨.ok (), pool⟩ := by
  cases record with
  | none => exact if_pos hlength.symm
  | some ids =>
    have hids : ids.length = spec.replica.toNat := hlength
    rw [reconcileRecorded, if_neg (hsome rfl), if_neg (by omega), if_neg (by omega)]

theorem reconcileRecorded_lt {record : Option (List String)}
    (hlength : (record.getD []).length < spec.replica.toNat) :
    reconcileRecorded serving spec pool record
      = grow serving spec (record.getD []) (spec.replica.toNat - (record.getD []).length) pool := by
  cases record with
  | none => exact if_neg (Nat.ne_of_gt hlength)
  | some ids =>
    have hids : ids.length < spec.replica.toNat := hlength
    rw [reconcileRecorded, if_neg (by omega), if_neg (by omega), if_pos hids]
    rfl

theorem reconcileRecorded_gt {ids : List String} (hwanted : spec.replica.toNat ≠ 0)
    (hlength : spec.replica.toNat < ids.length) :
    reconcileRecorded serving spec pool (some ids)
      = shrink spec ids (ids.length - spec.replica.toNat) pool := by
  rw [reconcileRecorded, if_neg hwanted, if_pos hlength]

theorem reconcileRecorded_zero {ids : List String} (hwanted : spec.replica.toNat = 0) :
    reconcileRecorded serving spec pool (some ids) = tearDown spec ids pool :=
  if_pos hwanted

/-- A record is settled, short, too long, or not wanted at all. -/
theorem record_cases (spec : TaskSpec) (record : Option (List String)) :
    ((record.getD []).length = spec.replica.toNat ∧ (record.isSome → spec.replica.toNat ≠ 0)) ∨
    (record.getD []).length < spec.replica.toNat ∨
    (∃ ids, record = some ids ∧ spec.replica.toNat ≠ 0 ∧ spec.replica.toNat < ids.length) ∨
    ∃ ids, record = some ids ∧ spec.replica.toNat = 0 := by
  cases record with
  | none =>
    rcases Nat.eq_zero_or_pos spec.replica.toNat with hzero | hpos
    · exact .inl ⟨hzero.symm, fun h => (nomatch h)⟩
    · exact .inr (.inl hpos)
  | some ids =>
    by_cases hwanted : spec.replica.toNat = 0
    · exact .inr (.inr (.inr ⟨ids, rfl, hwanted⟩))
    · rcases Nat.lt_trichotomy ids.length spec.replica.toNat with hlt | heq | hgt
      · exact .inr (.inl hlt)
      · exact .inl ⟨heq, fun _ => hwanted⟩
      · exact .inr (.inr (.inl ⟨ids, rfl, hwanted, hgt⟩))

/-- A reconcile runs as listed. -/
theorem runs_reconcile :
    (reconcile serving spec pool).Runs PoolWorld.respond w r w' ↔
      Reconciliation serving spec pool w r w' := by
  rw [runs_reconcile_iff]
  constructor
  · rintro (⟨e, hread, rfl, rfl⟩ | ⟨record, hread, h⟩)
    · exact .unreadable hread
    · rcases record_cases spec record with
        ⟨hlength, hsome⟩ | hlength | ⟨ids, rfl, hwanted, hlength⟩ | ⟨ids, rfl, hwanted⟩
      · rw [reconcileRecorded_settled hlength hsome] at h
        obtain ⟨rfl, rfl⟩ := h
        exact .settled hread hlength hsome
      · rw [reconcileRecorded_lt hlength] at h
        rcases runs_grow.mp h with ⟨e, rfl, rfl⟩ | ⟨launched, events, hround, rfl, rfl⟩
        · exact .unfetched hread hlength
        · exact .grown hread hlength hround
      · rw [reconcileRecorded_gt hwanted hlength] at h
        obtain ⟨left, events, hround, rfl, rfl⟩ := runs_shrink.mp h
        exact .shrunk hread hwanted hlength hround
      · rw [reconcileRecorded_zero hwanted] at h
        rcases runs_tearDown.mp h with
          ⟨after, events, hround, rfl, rfl⟩ | ⟨left, events, hround, hleft, rfl, rfl⟩
        · exact .tornDown hread hwanted hround
        · exact .stuck hread hwanted hround hleft
  · intro h
    cases h with
    | unreadable hread => exact .inl ⟨_, hread, rfl, rfl⟩
    | settled hread hlength hsome =>
      refine .inr ⟨_, hread, ?_⟩
      rw [reconcileRecorded_settled hlength hsome]
      exact ⟨rfl, rfl⟩
    | unfetched hread hlength =>
      refine .inr ⟨_, hread, ?_⟩
      rw [reconcileRecorded_lt hlength]
      exact runs_grow.mpr (.inl ⟨_, rfl, rfl⟩)
    | grown hread hlength hround =>
      refine .inr ⟨_, hread, ?_⟩
      rw [reconcileRecorded_lt hlength]
      exact runs_grow.mpr (.inr ⟨_, _, hround, rfl, rfl⟩)
    | shrunk hread hwanted hlength hround =>
      refine .inr ⟨_, hread, ?_⟩
      rw [reconcileRecorded_gt hwanted hlength]
      exact runs_shrink.mpr ⟨_, _, hround, rfl, rfl⟩
    | tornDown hread hwanted hround =>
      refine .inr ⟨_, hread, ?_⟩
      rw [reconcileRecorded_zero hwanted]
      exact runs_tearDown.mpr (.inl ⟨_, _, hround, rfl, rfl⟩)
    | stuck hread hwanted hround hleft =>
      refine .inr ⟨_, hread, ?_⟩
      rw [reconcileRecorded_zero hwanted]
      exact runs_tearDown.mpr (.inr ⟨_, _, hround, hleft, rfl, rfl⟩)

end ContainerPool

end ServingPlane
