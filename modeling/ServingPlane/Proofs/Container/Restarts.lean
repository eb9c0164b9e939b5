import Mathlib.Logic.Relation
import ServingPlane.Proofs.Container.Exclusion

/-! # Restarts of the daemon

    The store and the containers outlive the daemon; the pool does not,
    and a new one knows no container.  Between two starts no GPU is handed
    to a container while another one on record and alive has it, at every
    call and up to the moment of a crash.  Across a start the same is not
    true, and a run of one restart refutes it: both tasks get the one GPU
    there is. -/

namespace ServingPlane

open Program

/-- A daemon at work, and what outlives it. -/
structure Daemon where
  /-- What is left of the order that is served, down to the pool after it. -/
  work : Program PoolCall PoolState
  store : Store
  /-- What happened on the engine before the last start. -/
  earlier : List EngineEvent
  /-- What happened on the engine since. -/
  events : List EngineEvent

namespace Daemon

/-- The store, and the engine since the last start. -/
def world (d : Daemon) : PoolWorld := ⟨d.store, d.events⟩

/-- All that ever happened on the engine. -/
def history (d : Daemon) : List EngineEvent := d.earlier ++ d.events

/-- A daemon that was started for the first time. -/
def first (indices : List UInt32) : Daemon := ⟨.done (.ofIndices indices), .empty, [], []⟩

/-- One step of a daemon over the same GPUs: an idle one takes an order, a
    busy one has its next call answered, and at any moment it may stop and
    start anew. -/
inductive Step (serving : ServingSettings) (indices : List UInt32) : Daemon → Daemon → Prop where
  | order {pool : PoolState} {store : Store} {earlier events : List EngineEvent}
    (order : ContainerPool.Order) :
    Step serving indices ⟨.done pool, store, earlier, events⟩
      ⟨Pooled.pool <$> ContainerPool.serveOrder serving pool order, store, earlier, events⟩
  | answer {β : Type} {request : PoolCall β} {next : β → Program PoolCall PoolState} {answer : β}
    {store : Store} {earlier events : List EngineEvent} {w : PoolWorld}
    (h : PoolWorld.respond ⟨store, events⟩ request answer w) :
    Step serving indices ⟨.call request next, store, earlier, events⟩
      ⟨next answer, w.store, earlier, w.events⟩
  | restart (d : Daemon) :
    Step serving indices d ⟨.done (.ofIndices indices), d.store, d.history, []⟩

/-- What a daemon can become. -/
def Reachable (serving : ServingSettings) (indices : List UInt32) : Daemon → Prop :=
  Relation.ReflTransGen (Step serving indices) (first indices)

/-- What every step keeps: the calls to come are admissible, the pool after
    them knows its containers, and all ids on record were given. -/
structure Kept (d : Daemon) : Prop where
  guarded : d.work.Guarded PoolWorld.respond (Admissible d.earlier) d.world
  rests : ∀ pool w, d.work.Runs PoolWorld.respond d.world pool w →
    DistinctIds (d.earlier ++ w.events) → Exclusive d.earlier pool w
  known : DistinctIds d.history → ∀ task, ∀ id ∈ d.store.idsOf task, id ∈ createdIds d.history

variable {serving : ServingSettings} {indices : List UInt32} {d d' : Daemon}

theorem Kept.start {store : Store} {earlier : List EngineEvent}
    (hknown : DistinctIds earlier → ∀ task, ∀ id ∈ store.idsOf task, id ∈ createdIds earlier) :
    Kept ⟨.done (.ofIndices indices), store, earlier, []⟩ where
  guarded := trivial
  rests := by
    rintro pool w ⟨rfl, rfl⟩ hids
    exact .ofIndices indices (hknown hids.of_append)
  known := by
    intro hids
    replace hids : DistinctIds (earlier ++ []) := hids
    show ∀ task, ∀ id ∈ store.idsOf task, id ∈ createdIds (earlier ++ [])
    rw [List.append_nil]
    exact hknown hids.of_append

theorem guarded_serveOrder {pool : PoolState} {w : PoolWorld} {earlier : List EngineEvent}
    (h : DistinctIds (earlier ++ w.events) → Exclusive earlier pool w)
    (order : ContainerPool.Order) :
    (ContainerPool.serveOrder serving pool order).Guarded PoolWorld.respond
      (Admissible earlier) w := by
  cases order with
  | deploy spec => exact ContainerPool.guarded_reconcile h
  | delete spec => exact ContainerPool.guarded_reconcile h

/-- An admissible call leaves only given ids on record. -/
theorem known_of_respond {β : Type} {earlier : List EngineEvent} {w w' : PoolWorld}
    {request : PoolCall β} {answer : β} (hrequest : Admissible earlier w request)
    (hknown : DistinctIds (earlier ++ w.events) →
      ∀ task, ∀ id ∈ w.store.idsOf task, id ∈ createdIds (earlier ++ w.events))
    (h : w.respond request answer w') (hids : DistinctIds (earlier ++ w'.events)) :
    ∀ task, ∀ id ∈ w'.store.idsOf task, id ∈ createdIds (earlier ++ w'.events) := by
  match request, h with
  | .inl request, h =>
    obtain rfl := h
    rw [← List.append_assoc] at hids
    intro task id hid
    show id ∈ createdIds (earlier ++ (w.events ++ [_]))
    rw [← List.append_assoc]
    exact mem_createdIds_concat.mpr (.inl (hknown hids.of_append task id hid))
  | .inr (.recordedIds _), ⟨_, hw, _⟩ =>
    obtain rfl := hw
    exact hknown hids
  | .inr .replicaSuffix, ⟨_, hw, _⟩ =>
    obtain rfl := hw
    exact hknown hids
  | .inr (.recordIds task ids), ⟨_, hw, _⟩ =>
    obtain rfl := hw
    intro other id hid
    replace hid : id ∈ (w.store.putContainerIds task ids).idsOf other := hid
    rw [Store.idsOf_put] at hid
    by_cases hother : other = task
    · rw [if_pos hother] at hid
      exact hrequest hids id hid
    · rw [if_neg hother] at hid
      exact hknown hids other id hid
  | .inr (.forgetIds task), ⟨_, hw, _⟩ =>
    obtain rfl := hw
    intro other id hid
    replace hid : id ∈ (w.store.deleteContainerIds task).2.idsOf other := hid
    rw [Store.idsOf_delete] at hid
    by_cases hother : other = task
    · rw [if_pos hother] at hid
      exact absurd hid List.not_mem_nil
    · rw [if_neg hother] at hid
      exact hknown hids other id hid

theorem Kept.step (h : Kept d) (hstep : Step serving indices d d') : Kept d' := by
  cases hstep with
  | restart =>
    -- of what was kept, a start needs only what it finds on record
    exact .start h.known
  | @order pool store earlier events order =>
    have hpool := h.rests pool _ ⟨rfl, rfl⟩
    -- the pool at rest is known; what serving the order asks for and leaves follows from it
    refine ⟨?_, ?_, h.known⟩
    · exact guarded_bind.mpr ⟨guarded_serveOrder hpool order, fun _ _ _ => trivial⟩
    · intro after w hruns hids
      obtain ⟨served, u, hone, rfl, rfl⟩ := runs_bind.mp hruns
      obtain ⟨spec, hone⟩ := ContainerPool.runs_serveOrder hone
      obtain ⟨later, hlater⟩ := hone.events_append
      refine hone.exclusive (hpool ?_) hids
      rw [hlater, ← List.append_assoc] at hids
      exact hids.of_append
  | @answer β request next answer store earlier events w hanswer =>
    -- one call less is to come, and runs from here are runs from before
    refine ⟨h.guarded.2 answer w hanswer, fun pool u hruns => ?_, fun hids => ?_⟩
    · exact h.rests pool u ⟨answer, w, hanswer, hruns⟩
    · exact known_of_respond h.guarded.1 h.known hanswer hids

theorem Kept.of_reachable (h : Reachable serving indices d) : Kept d := by
  induction h with
  | refl => exact .start fun _ _ id hid => absurd hid List.not_mem_nil
  | tail _ hstep ih => exact ih.step hstep

/-- At every launch of a daemon, none of the GPUs belongs to a container
    that was created since the last start, if that is on record and alive. -/
theorem launch_apart_since_start (h : Reachable serving indices d) (hids : DistinctIds d.history)
    {launch : ContainerLaunch} {next : Except BackendError String → Program PoolCall PoolState}
    (hlaunch : d.work = .call (.inl (.create launch)) next) :
    Apart d.store (aliveIds d.history) d.events launch := by
  have hguarded := (Kept.of_reachable h).guarded
  rw [hlaunch] at hguarded
  exact hguarded.1 hids

/-- An order may be served to its end. -/
theorem reachable_of_runs {work : Program PoolCall PoolState} {store : Store}
    {earlier events : List EngineEvent} {pool : PoolState} {w : PoolWorld}
    (h : Reachable serving indices ⟨work, store, earlier, events⟩)
    (hruns : work.Runs PoolWorld.respond ⟨store, events⟩ pool w) :
    Reachable serving indices ⟨.done pool, w.store, earlier, w.events⟩ := by
  induction work generalizing store events with
  | done a =>
    obtain ⟨rfl, rfl⟩ := hruns
    exact h
  | call request next ih =>
    obtain ⟨answer, u, hanswer, hrest⟩ := hruns
    exact ih answer (h.tail (.answer hanswer)) hrest

/-! ## Two tasks of one replica each -/

/-- A task of one replica. -/
def single (name : String) : TaskSpec := { TaskSpec.blank with name := name, replica := 1 }

/-- The launch of a task's replica on the first available GPU. -/
def singleLaunch (name : String) (pool : PoolState) : ContainerLaunch :=
  (single name).containerLaunch default "0000" (ContainerPool.take (single name) pool).1

/-- What the engine did for the first task. -/
def deployed (indices : List UInt32) : List EngineEvent :=
  [.fetched "" (.ok ()), .created (singleLaunch "chat" (.ofIndices indices)) (.ok "c0"),
    .started "c0" (.ok ())]

/-- The record of the first task. -/
def onRecord : Store := Store.empty.putContainerIds "chat" ["c0"]

theorem mem_onRecord : "c0" ∈ onRecord.idsOf "chat" := by
  rw [onRecord, Store.idsOf_put, if_pos rfl]
  exact List.mem_singleton_self _

/-- The pool that knows the container of the first task. -/
def occupied (indices : List UInt32) : PoolState :=
  ⟨(ContainerPool.take (single "chat") (.ofIndices indices)).2,
    Dict.empty.insert "c0" (ContainerPool.take (single "chat") (.ofIndices indices)).1⟩

/-- The first task is deployed. -/
theorem reachable_deployed (indices : List UInt32) :
    Reachable default indices ⟨.done (occupied indices), onRecord, [], deployed indices⟩ := by
  have hdeploy : ContainerPool.Reconciliation default (single "chat") (.ofIndices indices)
      ⟨.empty, []⟩ _ _ :=
    .grown rfl (by decide) (.started (.running "0000" "c0") (.finished _))
  exact reachable_of_runs (Relation.ReflTransGen.single (.order (.deploy (single "chat"))))
    (runs_bind.mpr ⟨_, _, ContainerPool.runs_reconcile.mpr hdeploy, rfl, rfl⟩)

/-- Whenever the record of the first task is all there is, an idle daemon may
    come to launch a second one. -/
theorem reachable_second_launch {pool : PoolState} {earlier events : List EngineEvent}
    (h : Reachable default indices ⟨.done pool, onRecord, earlier, events⟩) :
    ∃ next, Reachable default indices
      ⟨.call (.inl (.create (singleLaunch "code" pool))) next, onRecord, earlier,
        events ++ [.fetched "" (.ok ())]⟩ := by
  have horder := h.tail (.order (.deploy (single "code")))
  have hread := horder.tail
    (@Step.answer default indices _ (.inr (.recordedIds "code")) _ (.ok none) _ _ _ _
      ⟨"", rfl, rfl⟩)
  have hfetched := hread.tail
    (@Step.answer default indices _ (.inl (.ensureImage "")) _ (.ok ()) _ _ _ _ rfl)
  have hdrawn := hfetched.tail
    (@Step.answer default indices _ (.inr .replicaSuffix) _ "0000" _ _ _ _ ⟨"0000", rfl, rfl⟩)
  exact ⟨_, hdrawn⟩

/-- Without a restart in between, the second task gets the second GPU. -/
theorem launch_apart_since_start_of_second_task :
    ∃ d launch next, Reachable default [0, 1] d ∧ DistinctIds d.history ∧
      d.work = .call (.inl (.create launch)) next ∧ launch.gpuIds = [gpuText 1] ∧
      "c0" ∈ d.store.idsOf "chat" ∧ Apart d.store (aliveIds d.history) d.events launch := by
  obtain ⟨next, hlaunch⟩ := reachable_second_launch (reachable_deployed [0, 1])
  have hdistinct : DistinctIds ([] ++ (deployed [0, 1] ++ [.fetched "" (.ok ())])) :=
    List.nodup_singleton "c0"
  exact ⟨_, _, next, hlaunch, hdistinct, rfl, rfl, mem_onRecord,
    launch_apart_since_start hlaunch hdistinct rfl⟩

/-- With a restart in between, both tasks get the one GPU there is. -/
theorem gpu_shared_across_restart :
    ∃ d launch next, Reachable default [0] d ∧ DistinctIds d.history ∧
      d.work = .call (.inl (.create launch)) next ∧
      ¬ Apart d.store (aliveIds d.history) d.history launch := by
  obtain ⟨next, hlaunch⟩ := reachable_second_launch ((reachable_deployed [0]).tail (.restart _))
  refine ⟨_, _, next, hlaunch, List.nodup_singleton "c0", rfl, fun hapart => ?_⟩
  have hcreated : .created (singleLaunch "chat" (.ofIndices [0])) (.ok "c0") ∈
      ([] ++ deployed [0]) ++ ([] ++ [.fetched "" (.ok ())]) := .tail _ (.head _)
  have hgpu : ∀ name, gpuText 0 ∈ (singleLaunch name (.ofIndices [0])).gpuIds := fun _ => .head _
  exact hapart "chat" "c0" mem_onRecord (.head _) _ hcreated _ (hgpu "chat") (hgpu "code")

end Daemon

end ServingPlane
