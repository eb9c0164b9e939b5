import ServingPlane.Proofs.Container.Success
import ServingPlane.Proofs.Json.Number

/-! # No GPU for two containers

    A container keeps the GPUs of its launch for as long as it is alive,
    so a new one must get others.  The pool knows only the containers that
    it launched itself; of those it is shown here that none on record and
    alive has a GPU in common with a launch, whatever the engine answers,
    at every call of every order, not only at its end.  Each event of the
    engine has a lemma, and the orders are followed event by event. -/

namespace ServingPlane

open Numeric

/-! ## Ids and GPUs of containers -/

/-- How a launch names a GPU. -/
def gpuText (gpu : UInt32) : String := natText gpu.toNat

theorem gpuText_injective : Function.Injective gpuText := fun _ _ h =>
  UInt32.toNat_inj.mp (natText_injective h)

/-- The id that an event gives to a new container. -/
def EngineEvent.createdId? : EngineEvent → Option String
  | .created _ (.ok id) => some id
  | _ => none

/-- The ids that the engine gave, oldest first. -/
def createdIds (events : List EngineEvent) : List String := events.filterMap EngineEvent.createdId?

theorem createdIds_append (before later : List EngineEvent) :
    createdIds (before ++ later) = createdIds before ++ createdIds later :=
  List.filterMap_append

theorem mem_createdIds_concat {before : List EngineEvent} {event : EngineEvent} {id : String} :
    id ∈ createdIds (before ++ [event]) ↔ id ∈ createdIds before ∨ event.createdId? = some id := by
  rw [createdIds_append, List.mem_append]
  refine or_congr_right ?_
  simp only [createdIds, List.mem_filterMap, List.mem_singleton, exists_eq_left]

theorem mem_createdIds {events : List EngineEvent} {launch : ContainerLaunch} {id : String}
    (h : .created launch (.ok id) ∈ events) : id ∈ createdIds events :=
  List.mem_filterMap.mpr ⟨_, h, rfl⟩

/-- The engine gave no id twice. -/
def DistinctIds (events : List EngineEvent) : Prop := (createdIds events).Nodup

theorem DistinctIds.of_append {before later : List EngineEvent}
    (h : DistinctIds (before ++ later)) : DistinctIds before := by
  simp only [DistinctIds] at h
  rw [createdIds_append] at h
  exact (List.nodup_append.mp h).1

/-- An id that is given now was not given before. -/
theorem DistinctIds.not_mem {before later : List EngineEvent} {launch : ContainerLaunch}
    {id : String} (h : DistinctIds (before ++ .created launch (.ok id) :: later)) :
    id ∉ createdIds before := by
  simp only [DistinctIds] at h
  rw [createdIds_append] at h
  exact fun hid => List.disjoint_of_nodup_append h hid List.mem_cons_self

/-- Whatever is alive after an event was alive before, or is new. -/
theorem EngineEvent.mem_living {event : EngineEvent} {alive : List String} {id : String}
    (h : id ∈ event.living alive) : id ∈ alive ∨ event.createdId? = some id := by
  match event, h with
  | .created _ (.ok new), h =>
    rcases List.mem_cons.mp h with rfl | h
    · exact .inr rfl
    · exact .inl h
  | .stopped _ (.ok _), h => exact .inl (List.mem_filter.mp h).1
  | .created _ (.error _), h => exact .inl h
  | .stopped _ (.error _), h => exact .inl h
  | .fetched _ _, h => exact .inl h
  | .started _ _, h => exact .inl h
  | .inspected _ _, h => exact .inl h

theorem heldIds_concat (before : List EngineEvent) (event : EngineEvent) :
    heldIds (before ++ [event]) = event.holding (heldIds before) :=
  heldIds_append ..

theorem aliveIds_concat (earlier before : List EngineEvent) (event : EngineEvent) :
    aliveIds (earlier ++ (before ++ [event])) = event.living (aliveIds (earlier ++ before)) := by
  rw [← List.append_assoc, aliveIds_append]
  rfl

theorem PoolState.get?_of_get?_releaseContainer {p : PoolState} {id other : String}
    {gpus : List UInt32} (h : (p.releaseContainer id).assignments.get? other = some gpus) :
    p.assignments.get? other = some gpus := by
  simp only [PoolState.releaseContainer] at h
  cases hget : p.assignments.get? id with
  | none =>
    rw [hget] at h
    exact h
  | some held =>
    rw [hget] at h
    exact Dict.get?_of_get?_erase h

/-! ## What the pool knows -/

/-- What holds since the last start of a daemon, with the events of earlier
    starts apart: the pool accounts for the containers that hold GPUs and
    knows the GPUs of their launches; and of the containers that were
    created since, all that are on record and alive hold GPUs. -/
structure Exclusive (earlier : List EngineEvent) (pool : PoolState) (w : PoolWorld) : Prop where
  accounts : pool.Accounts (heldIds w.events)
  launched : ∀ {id gpus launch}, pool.assignments.get? id = some gpus →
    .created launch (.ok id) ∈ w.events → launch.gpuIds = gpus.map gpuText
  created : ∀ id ∈ heldIds w.events, id ∈ createdIds w.events
  known : ∀ task, ∀ id ∈ w.store.idsOf task, id ∈ createdIds (earlier ++ w.events)
  held : ∀ task, ∀ id ∈ w.store.idsOf task, id ∈ createdIds w.events →
    id ∈ aliveIds (earlier ++ w.events) → id ∈ heldIds w.events

namespace Exclusive

variable {earlier : List EngineEvent} {pool : PoolState} {w : PoolWorld}

/-- A start knows no container. -/
theorem ofIndices (indices : List UInt32) {store : Store}
    (hknown : ∀ task, ∀ id ∈ store.idsOf task, id ∈ createdIds earlier) :
    Exclusive earlier (.ofIndices indices) ⟨store, []⟩ where
  accounts := PoolState.accounts_ofIndices indices
  launched := fun _ hmem => absurd hmem List.not_mem_nil
  created := fun _ hid => absurd hid List.not_mem_nil
  known := by
    intro task id hid
    rw [List.append_nil]
    exact hknown task id hid
  held := fun _ _ _ hid => absurd hid List.not_mem_nil

/-- What is on record was created, whatever happens next. -/
theorem known_after (h : Exclusive earlier pool w) (event : EngineEvent) (task : String) :
    ∀ id ∈ w.store.idsOf task, id ∈ createdIds (earlier ++ (w.after [event]).events) := by
  intro id hid
  show id ∈ createdIds (earlier ++ (w.events ++ [event]))
  rw [← List.append_assoc]
  exact mem_createdIds_concat.mpr (.inl (h.known task id hid))

/-- An event that leaves the holders alone, and may create one more container. -/
theorem unheld (h : Exclusive earlier pool w) (event : EngineEvent)
    (hheld : event.holding (heldIds w.events) = heldIds w.events)
    (hnew : ∀ id, event.createdId? = some id → id ∉ createdIds (earlier ++ w.events)) :
    Exclusive earlier pool (w.after [event]) where
  accounts := by
    show pool.Accounts (heldIds (w.events ++ [event]))
    rw [heldIds_concat, hheld]
    exact h.accounts
  launched := by
    intro id gpus launch hget hmem
    rcases List.mem_append.mp hmem with hmem | hmem
    · exact h.launched hget hmem
    · -- a container that is new holds no GPUs yet
      obtain rfl := List.mem_singleton.mp hmem
      have hkey := (h.accounts.keys id).mp (Dict.mem_keys_iff.mpr ⟨gpus, hget⟩)
      refine absurd (h.created id hkey) fun hid => hnew id rfl ?_
      exact createdIds_append .. ▸ List.mem_append_right _ hid
  created := by
    intro id hid
    replace hid : id ∈ heldIds (w.events ++ [event]) := hid
    rw [heldIds_concat, hheld] at hid
    exact mem_createdIds_concat.mpr (.inl (h.created id hid))
  known := h.known_after event
  held := by
    intro task id hid hmem hlive
    show id ∈ heldIds (w.events ++ [event])
    replace hlive : id ∈ aliveIds (earlier ++ (w.events ++ [event])) := hlive
    rw [aliveIds_concat] at hlive
    have hold : event.createdId? ≠ some id := fun heq => hnew id heq (h.known task id hid)
    rw [heldIds_concat, hheld]
    exact h.held task id hid ((mem_createdIds_concat.mp hmem).resolve_right hold)
      ((EngineEvent.mem_living hlive).resolve_right hold)

/-- A container is created, and holds no GPUs yet. -/
theorem newContainer (h : Exclusive earlier pool w) (launch : ContainerLaunch) {id : String}
    (hnew : id ∉ createdIds (earlier ++ w.events)) :
    Exclusive earlier pool (w.after [.created launch (.ok id)]) := by
  refine h.unheld _ rfl ?_
  rintro _ ⟨⟩
  exact hnew

/-- A container is stopped, and gives its GPUs back. -/
theorem stopped (h : Exclusive earlier pool w) (id : String) :
    Exclusive earlier (pool.releaseContainer id) (w.after [.stopped id (.ok ())]) where
  accounts := by
    show (pool.releaseContainer id).Accounts (heldIds (w.events ++ [.stopped id (.ok ())]))
    rw [heldIds_concat]
    exact h.accounts.releaseContainer id
  launched := by
    intro other gpus launch hget hmem
    rcases List.mem_append.mp hmem with hmem | hmem
    · exact h.launched (PoolState.get?_of_get?_releaseContainer hget) hmem
    · cases List.mem_singleton.mp hmem
  created := by
    intro other hother
    replace hother : other ∈ heldIds (w.events ++ [.stopped id (.ok ())]) := hother
    rw [heldIds_concat] at hother
    exact mem_createdIds_concat.mpr (.inl (h.created other (List.mem_filter.mp hother).1))
  known := h.known_after (.stopped id (.ok ()))
  held := by
    intro task other hother hmem hlive
    show other ∈ heldIds (w.events ++ [.stopped id (.ok ())])
    replace hlive : other ∈ aliveIds (earlier ++ (w.events ++ [.stopped id (.ok ())])) := hlive
    rw [aliveIds_concat] at hlive
    obtain ⟨hlive, hne⟩ := List.mem_filter.mp hlive
    have hold := (mem_createdIds_concat.mp hmem).resolve_right fun heq => by cases heq
    rw [heldIds_concat]
    exact List.mem_filter.mpr ⟨h.held task other hother hold hlive, hne⟩

/-- A container is started on the GPUs of its launch. -/
theorem started (h : Exclusive earlier pool w) {id : String} (want : Nat)
    (hcreated : id ∈ createdIds w.events) (hfree : id ∉ heldIds w.events)
    (hgpus : ∀ launch, .created launch (.ok id) ∈ w.events →
      launch.gpuIds = (pool.gpus.allocate want).1.map gpuText) :
    Exclusive earlier
      ⟨(pool.gpus.allocate want).2, pool.assignments.insert id (pool.gpus.allocate want).1⟩
      (w.after [.started id (.ok ())]) where
  accounts := by
    show PoolState.Accounts _ (heldIds (w.events ++ [.started id (.ok ())]))
    rw [heldIds_concat]
    exact h.accounts.take hfree want
  launched := by
    intro other gpus launch hget hmem
    replace hmem : .created launch (.ok other) ∈ w.events :=
      (List.mem_append.mp hmem).resolve_right fun hlast => by cases List.mem_singleton.mp hlast
    replace hget :
        (pool.assignments.insert id (pool.gpus.allocate want).1).get? other = some gpus := hget
    rw [Dict.get?_insert] at hget
    by_cases hother : other = id
    -- the GPUs that are assigned are those the launch was written for
    · rw [if_pos hother] at hget
      obtain rfl := Option.some.inj hget
      exact hgpus launch (hother ▸ hmem)
    · rw [if_neg hother] at hget
      exact h.launched hget hmem
  created := by
    intro other hother
    replace hother : other ∈ heldIds (w.events ++ [.started id (.ok ())]) := hother
    rw [heldIds_concat] at hother
    refine mem_createdIds_concat.mpr (.inl ?_)
    rcases List.mem_cons.mp hother with rfl | hother
    · exact hcreated
    · exact h.created other hother
  known := h.known_after (.started id (.ok ()))
  held := by
    intro task other hother hmem hlive
    show other ∈ heldIds (w.events ++ [.started id (.ok ())])
    replace hlive : other ∈ aliveIds (earlier ++ (w.events ++ [.started id (.ok ())])) := hlive
    rw [aliveIds_concat] at hlive
    have hold := (mem_createdIds_concat.mp hmem).resolve_right fun heq => by cases heq
    rw [heldIds_concat]
    exact List.mem_cons_of_mem _ (h.held task other hother hold hlive)

/-- Every holder was created. -/
theorem given (h : Exclusive earlier pool w) {id : String} (hheld : id ∈ heldIds w.events) :
    id ∈ createdIds (earlier ++ w.events) := by
  rw [createdIds_append]
  exact List.mem_append_right _ (h.created id hheld)

/-- New records name ids that were on record, or that hold GPUs now. -/
theorem record (h : Exclusive earlier pool w) {store : Store}
    (hids : ∀ task, ∀ id ∈ store.idsOf task,
      (∃ other, id ∈ w.store.idsOf other) ∨ id ∈ heldIds w.events) :
    Exclusive earlier pool ⟨store, w.events⟩ where
  accounts := h.accounts
  launched := h.launched
  created := h.created
  known := by
    intro task id hid
    rcases hids task id hid with ⟨other, hother⟩ | hheld
    · exact h.known other id hother
    · exact h.given hheld
  held := by
    intro task id hid hmem hlive
    rcases hids task id hid with ⟨other, hother⟩ | hheld
    · exact h.held other id hother hmem hlive
    · exact hheld

theorem put (h : Exclusive earlier pool w) (task : String) {ids : List String}
    (hids : ∀ id ∈ ids, id ∈ w.store.idsOf task ∨ id ∈ heldIds w.events) :
    Exclusive earlier pool ⟨w.store.putContainerIds task ids, w.events⟩ := by
  refine h.record fun other id hid => ?_
  rw [Store.idsOf_put] at hid
  by_cases hother : other = task
  · rw [if_pos hother] at hid
    exact (hids id hid).imp_left fun hold => ⟨task, hold⟩
  · rw [if_neg hother] at hid
    exact .inl ⟨other, hid⟩

theorem forget (h : Exclusive earlier pool w) (task : String) :
    Exclusive earlier pool ⟨(w.store.deleteContainerIds task).2, w.events⟩ := by
  refine h.record fun other id hid => .inl ⟨other, ?_⟩
  rw [Store.idsOf_delete] at hid
  by_cases hother : other = task
  · rw [if_pos hother] at hid
    exact absurd hid List.not_mem_nil
  · rw [if_neg hother] at hid
    exact hid

end Exclusive

namespace ContainerPool

variable {serving : ServingSettings} {spec : TaskSpec} {pool : PoolState} {w w' : PoolWorld}
  {earlier events : List EngineEvent}

/-- However a launch ends, the pool knows its containers. -/
theorem LaunchEnd.exclusive {r : Pooled (Except BackendError String)}
    (hend : LaunchEnd serving spec pool r events) (h : Exclusive earlier pool w)
    (hids : DistinctIds (earlier ++ (w.events ++ events))) :
    Exclusive earlier r.pool (w.after events) := by
  rw [← List.append_assoc] at hids
  cases hend with
  | refused suffix e => exact h.unheld _ rfl fun _ hc => by cases hc
  | unstarted suffix id e cleanup =>
    have hnew := hids.not_mem
    have hcreated := h.newContainer (spec.containerLaunch serving suffix (take spec pool).1) hnew
    have hstarted := hcreated.unheld (.started id (.error e)) rfl fun _ hc => by cases hc
    have hheld : heldIds ((w.after [.created (spec.containerLaunch serving suffix
        (take spec pool).1) (.ok id)]).after [.started id (.error e)]).events
          = heldIds w.events := (heldIds_concat ..).trans (heldIds_concat ..)
    have hstopped := hstarted.unheld (.stopped id cleanup) ?_ fun _ hc => by cases hc
    · rw [PoolWorld.after_after, PoolWorld.after_after] at hstopped
      exact hstopped
    -- it never held any GPUs, so removing it changes no holder
    · rw [hheld]
      cases cleanup with
      | error _ => rfl
      | ok _ =>
        refine List.filter_eq_self.mpr fun other hother => decide_eq_true ?_
        rintro rfl
        exact hnew (h.given hother)
  | running suffix id =>
    have hnew := hids.not_mem
    have hcreated := h.newContainer (spec.containerLaunch serving suffix (take spec pool).1) hnew
    have hstarted := hcreated.started spec.gpusPerReplica.toNat
      (mem_createdIds_concat.mpr (.inr rfl)) ?_ ?_
    · rw [PoolWorld.after_after] at hstarted
      exact hstarted
    · show id ∉ heldIds (w.events ++ [_])
      rw [heldIds_concat]
      exact fun hheld => hnew (h.given hheld)
    · intro launch hmem
      rcases List.mem_append.mp hmem with hmem | hmem
      · exact absurd (createdIds_append .. ▸ List.mem_append_right _ (mem_createdIds hmem)) hnew
      · cases List.mem_singleton.mp hmem
        rfl

variable {n : Nat} {launched : Pooled Launched}

theorem LaunchRound.exclusive (hround : LaunchRound serving spec n pool launched events)
    (h : Exclusive earlier pool w) (hids : DistinctIds (earlier ++ (w.events ++ events))) :
    Exclusive earlier launched.pool (w.after events) := by
  induction hround generalizing w with
  | finished pool =>
    rw [PoolWorld.after_nil]
    exact h
  | started hend _ ih =>
    rw [← PoolWorld.after_after]
    rw [← List.append_assoc w.events] at hids
    refine ih (hend.exclusive h ?_) hids
    exact (List.append_assoc earlier _ _ ▸ hids).of_append
  | failed hend _ ih =>
    rw [← PoolWorld.after_after]
    rw [← List.append_assoc w.events] at hids
    refine ih (hend.exclusive h ?_) hids
    exact (List.append_assoc earlier _ _ ▸ hids).of_append

theorem StopRound.exclusive {ids : List String} {left : Pooled (List String)}
    (hround : StopRound ids pool left events) (h : Exclusive earlier pool w) :
    Exclusive earlier left.pool (w.after events) := by
  induction hround generalizing w with
  | finished pool =>
    rw [PoolWorld.after_nil]
    exact h
  | @stopped id _ _ _ later _ ih =>
    show Exclusive earlier _ (w.after ([.stopped id (.ok ())] ++ later))
    rw [← PoolWorld.after_after]
    exact ih (h.stopped id)
  | @kept id _ _ _ later e _ ih =>
    show Exclusive earlier _ (w.after ([.stopped id (.error e)] ++ later))
    rw [← PoolWorld.after_after]
    exact ih (h.unheld _ rfl fun _ hc => by cases hc)

/-- A reconcile leaves a pool that knows its containers. -/
theorem Reconciliation.exclusive {r : Pooled (Except BackendError Unit)}
    (hrun : Reconciliation serving spec pool w r w') (h : Exclusive earlier pool w)
    (hids : DistinctIds (earlier ++ w'.events)) : Exclusive earlier r.pool w' := by
  cases hrun with
  | unreadable => exact h
  | settled => exact h
  | unfetched => exact h.unheld _ rfl fun _ hc => by cases hc
  | @grown record launched events hread hlength hround =>
    have hfetched := h.unheld (.fetched (spec.replicaImage serving) (.ok ())) rfl
      fun _ hc => by cases hc
    have hlaunched := hround.exclusive hfetched (List.append_assoc w.events _ _ ▸ hids)
    rw [PoolWorld.after_after] at hlaunched
    refine hlaunched.put spec.name fun id hid => ?_
    rcases List.mem_append.mp hid with hold | hstarted
    · exact .inl (Store.idsOf_eq hread ▸ hold)
    · exact .inr ((hlaunched.accounts.keys id).mp ((hround.mem_keys id).mpr (.inl hstarted)))
  | @shrunk ids left events hread hwanted hlength hround =>
    refine (hround.exclusive h).put spec.name fun id hid => .inl ?_
    have hsub : (left.result ++ ids.drop (ids.length - spec.replica.toNat)).Sublist ids := by
      conv => rhs; rw [← List.take_append_drop (ids.length - spec.replica.toNat) ids]
      exact hround.sublist.append_right _
    exact Store.idsOf_eq hread ▸ hsub.subset hid
  | @tornDown ids after events hread hwanted hround => exact (hround.exclusive h).forget spec.name
  | @stuck ids left events hread hwanted hround hleft =>
    refine (hround.exclusive h).put spec.name fun id hid => .inl ?_
    exact Store.idsOf_eq hread ▸ hround.sublist.subset hid

end ContainerPool

/-! ## Every call of a reconcile -/

/-- A launch shares no GPU with a container that some of the given events
    created, if that is on record and alive. -/
def Apart (store : Store) (alive : List String) (created : List EngineEvent)
    (launch : ContainerLaunch) : Prop :=
  ∀ task, ∀ id ∈ store.idsOf task, id ∈ alive →
    ∀ other, .created other (.ok id) ∈ created → ∀ gpu ∈ other.gpuIds, gpu ∉ launch.gpuIds

/-- GPUs that the pool has available are no GPUs of its containers. -/
theorem Exclusive.apart {earlier : List EngineEvent} {pool : PoolState} {w : PoolWorld}
    (h : Exclusive earlier pool w) {launch : ContainerLaunch} {want : Nat}
    (hgpus : launch.gpuIds = (pool.gpus.allocate want).1.map gpuText) :
    Apart w.store (aliveIds (earlier ++ w.events)) w.events launch := by
  intro task id hid halive other hcreated gpu hother hgpu
  have hheld := h.held task id hid (mem_createdIds hcreated) halive
  obtain ⟨gpus, hget⟩ := Dict.mem_keys_iff.mp ((h.accounts.keys id).mpr hheld)
  rw [h.launched hget hcreated] at hother
  rw [hgpus] at hgpu
  obtain ⟨taken, htaken, rfl⟩ := List.mem_map.mp hother
  obtain ⟨free, hfree, heq⟩ := List.mem_map.mp hgpu
  obtain rfl := gpuText_injective heq
  -- one GPU would be in use and available at once
  have hused := (h.accounts.status?_eq_inUse_iff free).mpr ⟨id, gpus, hget, htaken⟩
  cases (GpuPool.status?_of_mem_allocate hfree).symm.trans hused

/-- What a reconcile may ask for: launches on GPUs that no container of its
    own has, and records of containers that were created. -/
def Admissible (earlier : List EngineEvent) {β : Type} (w : PoolWorld) (call : PoolCall β) : Prop :=
  DistinctIds (earlier ++ w.events) →
    match call with
    | .inl (.create launch) => Apart w.store (aliveIds (earlier ++ w.events)) w.events launch
    | .inr (.recordIds _ ids) => ∀ id ∈ ids, id ∈ createdIds (earlier ++ w.events)
    | _ => True

namespace ContainerPool

open Program

variable {serving : ServingSettings} {spec : TaskSpec} {pool : PoolState} {w : PoolWorld}
  {earlier : List EngineEvent}

theorem guarded_launchOne (h : DistinctIds (earlier ++ w.events) → Exclusive earlier pool w) :
    (launchOne serving spec pool).Guarded PoolWorld.respond (Admissible earlier) w := by
  simp only [launchOne]
  refine guarded_bind.mpr ⟨guarded_ask.mpr fun _ => trivial, fun drawn u hs => ?_⟩
  obtain ⟨suffix, rfl, rfl⟩ := runs_askRecord.mp hs
  refine guarded_bind.mpr ⟨guarded_ask.mpr fun hids => (h hids).apart rfl, fun created u _ => ?_⟩
  cases created with
  | error e => trivial
  | ok id =>
    refine guarded_bind.mpr ⟨guarded_ask.mpr fun _ => trivial, fun started u _ => ?_⟩
    cases started with
    | error e => exact guarded_bind.mpr ⟨guarded_ask.mpr fun _ => trivial, fun _ _ _ => trivial⟩
    | ok => trivial

theorem guarded_launchEach {n : Nat}
    (h : DistinctIds (earlier ++ w.events) → Exclusive earlier pool w) :
    (launchEach serving spec n pool).Guarded PoolWorld.respond (Admissible earlier) w := by
  induction n generalizing pool w with
  | zero => trivial
  | succ n ih =>
    simp only [launchEach]
    refine guarded_bind.mpr ⟨guarded_launchOne h, fun one u hone => ?_⟩
    obtain ⟨events, hend, rfl⟩ := runs_launchOne.mp hone
    refine guarded_bind.mpr ⟨ih fun hids => ?_, fun rest v _ => ?_⟩
    · exact hend.exclusive (h (List.append_assoc earlier _ _ ▸ hids).of_append) hids
    · cases one.result with
      | ok id => trivial
      | error e => trivial

theorem guarded_stopMany {ids : List String} :
    (stopMany ids pool).Guarded PoolWorld.respond (Admissible earlier) w := by
  induction ids generalizing pool w with
  | nil => trivial
  | cons id rest ih =>
    simp only [stopMany]
    refine guarded_bind.mpr ⟨guarded_ask.mpr fun _ => trivial, fun answer u _ => ?_⟩
    cases answer with
    | ok => exact ih
    | error e => exact guarded_bind.mpr ⟨ih, fun _ _ _ => trivial⟩

theorem guarded_recordThen {task : String} {ids : List String} {result : Except BackendError Unit}
    (h : DistinctIds (earlier ++ w.events) → ∀ id ∈ ids, id ∈ createdIds (earlier ++ w.events)) :
    (recordThen task ids result).Guarded PoolWorld.respond (Admissible earlier) w := by
  simp only [recordThen]
  refine guarded_bind.mpr ⟨guarded_ask.mpr h, fun answer u _ => ?_⟩
  cases answer with
  | ok => trivial
  | error e => trivial

theorem guarded_grow {ids : List String} {missing : Nat}
    (h : DistinctIds (earlier ++ w.events) → Exclusive earlier pool w)
    (hrecord : ∀ id ∈ ids, id ∈ w.store.idsOf spec.name) :
    (grow serving spec ids missing pool).Guarded PoolWorld.respond (Admissible earlier) w := by
  have hfetched : DistinctIds (earlier ++
      (w.after [.fetched (spec.replicaImage serving) (.ok ())]).events) →
      Exclusive earlier pool (w.after [.fetched (spec.replicaImage serving) (.ok ())]) := by
    intro hids
    refine (h ?_).unheld _ rfl fun _ hc => by cases hc
    exact (List.append_assoc earlier _ _ ▸ hids).of_append
  simp only [grow, launchMany]
  refine guarded_bind.mpr ⟨?_, fun launched u hmany => ?_⟩
  · refine guarded_bind.mpr ⟨guarded_ask.mpr fun _ => trivial, fun answer v hfetch => ?_⟩
    obtain rfl := runs_askEngine.mp hfetch
    cases answer with
    | error e => trivial
    | ok => exact guarded_bind.mpr ⟨guarded_launchEach hfetched, fun _ _ _ => trivial⟩
  · obtain ⟨answer, v, hfetch, hmany⟩ := runs_bind.mp hmany
    obtain rfl := runs_askEngine.mp hfetch
    cases answer with
    | error e =>
      obtain ⟨rfl, rfl⟩ := hmany
      trivial
    | ok =>
      obtain ⟨round, v, hruns, rfl, rfl⟩ := runs_bind.mp hmany
      obtain ⟨events, hround, rfl⟩ := runs_launchEach.mp hruns
      refine guarded_bind.mpr ⟨guarded_recordThen fun hids => ?_, fun _ _ _ => trivial⟩
      have hlaunched := hround.exclusive
        (hfetched (List.append_assoc earlier _ _ ▸ hids).of_append) hids
      intro id hid
      rcases List.mem_append.mp hid with hold | hstarted
      · exact hlaunched.known spec.name id (hrecord id hold)
      · exact hlaunched.given ((hlaunched.accounts.keys id).mp ((hround.mem_keys id).mpr
          (.inl hstarted)))

/-- Stops leave on record what was there. -/
theorem StopRound.known {ids kept : List String} {left : Pooled (List String)}
    {events : List EngineEvent} (hround : StopRound ids pool left events)
    (h : DistinctIds (earlier ++ w.events) → Exclusive earlier pool w)
    (hrecord : ∀ id ∈ kept, id ∈ w.store.idsOf spec.name)
    (hids : DistinctIds (earlier ++ (w.after events).events)) :
    ∀ id ∈ kept, id ∈ createdIds (earlier ++ (w.after events).events) := by
  have hbefore := h (List.append_assoc earlier _ _ ▸ hids).of_append
  exact fun id hid => (hround.exclusive hbefore).known spec.name id (hrecord id hid)

theorem guarded_shrink {ids : List String} {excess : Nat}
    (h : DistinctIds (earlier ++ w.events) → Exclusive earlier pool w)
    (hrecord : ∀ id ∈ ids, id ∈ w.store.idsOf spec.name) :
    (shrink spec ids excess pool).Guarded PoolWorld.respond (Admissible earlier) w := by
  simp only [shrink]
  refine guarded_bind.mpr ⟨guarded_stopMany, fun left u hruns => ?_⟩
  obtain ⟨events, hround, rfl⟩ := runs_stopMany.mp hruns
  refine guarded_bind.mpr ⟨guarded_recordThen (hround.known h fun id hid => hrecord id ?_),
    fun _ _ _ => trivial⟩
  rcases List.mem_append.mp hid with hleft | hrest
  · exact List.mem_of_mem_take (hround.sublist.subset hleft)
  · exact List.mem_of_mem_drop hrest

theorem guarded_tearDown {ids : List String}
    (h : DistinctIds (earlier ++ w.events) → Exclusive earlier pool w)
    (hrecord : ∀ id ∈ ids, id ∈ w.store.idsOf spec.name) :
    (tearDown spec ids pool).Guarded PoolWorld.respond (Admissible earlier) w := by
  simp only [tearDown]
  refine guarded_bind.mpr ⟨guarded_stopMany, fun left u hruns => ?_⟩
  obtain ⟨events, hround, rfl⟩ := runs_stopMany.mp hruns
  by_cases hleft : left.result.isEmpty
  · rw [if_pos hleft]
    refine guarded_bind.mpr ⟨guarded_ask.mpr fun _ => trivial, fun answer v _ => ?_⟩
    cases answer with
    | ok => trivial
    | error e => trivial
  · rw [if_neg hleft]
    refine guarded_bind.mpr ⟨guarded_recordThen (hround.known h fun id hid => hrecord id ?_),
      fun _ _ _ => trivial⟩
    exact hround.sublist.subset hid

/-- Every call of a reconcile is admissible, whatever the engine answers. -/
theorem guarded_reconcile (h : DistinctIds (earlier ++ w.events) → Exclusive earlier pool w) :
    (reconcile serving spec pool).Guarded PoolWorld.respond (Admissible earlier) w := by
  simp only [reconcile]
  refine guarded_bind.mpr ⟨guarded_ask.mpr fun _ => trivial, fun record u hask => ?_⟩
  obtain ⟨suffix, rfl, hread⟩ := runs_askRecord.mp hask
  have hrecord : ∀ {ids}, record = .ok (some ids) → ∀ id ∈ ids, id ∈ w.store.idsOf spec.name := by
    rintro ids rfl id hid
    rw [Store.idsOf_eq hread.symm]
    exact hid
  rcases record with e | _ | ids
  · trivial
  · show Guarded _ _ (reconcileRecorded serving spec pool none) w
    rcases record_cases spec none with
      ⟨hlength, hsome⟩ | hlength | ⟨ids, hids, -⟩ | ⟨ids, hids, -⟩
    · rw [reconcileRecorded_settled hlength hsome]
      trivial
    · rw [reconcileRecorded_lt hlength]
      exact guarded_grow h fun id hid => absurd hid List.not_mem_nil
    · cases hids
    · cases hids
  · show Guarded _ _ (reconcileRecorded serving spec pool (some ids)) w
    rcases record_cases spec (some ids) with
      ⟨hlength, hsome⟩ | hlength | ⟨_, ⟨⟩, hwanted, hlength⟩ | ⟨_, ⟨⟩, hwanted⟩
    · rw [reconcileRecorded_settled hlength hsome]
      trivial
    · rw [reconcileRecorded_lt hlength]
      exact guarded_grow h (hrecord rfl)
    · rw [reconcileRecorded_gt hwanted hlength]
      exact guarded_shrink h (hrecord rfl)
    · rw [reconcileRecorded_zero hwanted]
      exact guarded_tearDown h (hrecord rfl)

end ContainerPool

end ServingPlane
