import ServingPlane.Proofs.Container.Assignment
import ServingPlane.Proofs.Store.Records

/-! # GPU accounting

    Whatever the engine answers, the books of the container pool balance
    after every order: the GPUs in use are those of the assigned
    containers, and the assigned containers are those on record, each
    recorded once and for one task.  A reconcile replaces the record of
    its own task by ids that were on it or are new, so one lemma on such a
    replacement covers growing, shrinking and tearing down, with all their
    failures. -/

namespace ServingPlane

namespace Store

/-- The container ids on record for a task. -/
def idsOf (s : Store) (task : String) : List String :=
  match s.containerIds task with
  | .ok record => record.getD []
  | .error _ => []

theorem idsOf_eq {s : Store} {task : String} {record : Option (List String)}
    (h : s.containerIds task = .ok record) : s.idsOf task = record.getD [] := by
  simp only [idsOf]
  rw [h]

theorem idsOf_put (s : Store) (task other : String) (ids : List String) :
    (s.putContainerIds task ids).idsOf other = if other = task then ids else s.idsOf other := by
  simp only [idsOf]
  rw [containerIds_put]
  by_cases h : other = task
  · rw [if_pos h, if_pos h]
    rfl
  · rw [if_neg h, if_neg h]

theorem idsOf_delete (s : Store) (task other : String) :
    (s.deleteContainerIds task).2.idsOf other = if other = task then [] else s.idsOf other := by
  simp only [idsOf]
  rw [containerIds_delete]
  by_cases h : other = task
  · rw [if_pos h, if_pos h]
    rfl
  · rw [if_neg h, if_neg h]

end Store

/-- The books balance: GPUs in use, assignments and records agree. -/
structure Accounted (pool : PoolState) (w : PoolWorld) : Prop where
  assigned : pool.Accounts (heldIds w.events)
  recorded : ∀ id, id ∈ pool.assignments.keys ↔ ∃ task, id ∈ w.store.idsOf task
  once : ∀ task, (w.store.idsOf task).Nodup
  apart : ∀ {task other id}, id ∈ w.store.idsOf task → id ∈ w.store.idsOf other → task = other
  legible : w.store.Legible

namespace Accounted

variable {pool after : PoolState} {w : PoolWorld} {events : List EngineEvent} {store : Store}
  {task : String} {ids : List String}

theorem ofIndices (indices : List UInt32) : Accounted (.ofIndices indices) ⟨.empty, []⟩ where
  assigned := PoolState.accounts_ofIndices indices
  recorded := fun _ =>
    ⟨fun h => absurd h List.not_mem_nil, fun ⟨_, h⟩ => absurd h List.not_mem_nil⟩
  once := fun _ => List.nodup_nil
  apart := fun h => absurd h List.not_mem_nil
  legible := Store.legible_empty

/-- The books still balance when a task's record is replaced by ids that
    were on it or are new, and the holders change with it. -/
theorem replace (h : Accounted pool w)
    (hassigned : after.Accounts (heldIds (w.events ++ events))) (hlegible : store.Legible)
    (hstore : ∀ other, store.idsOf other = if other = task then ids else w.store.idsOf other)
    (honce : ids.Nodup)
    (hnew : ∀ id ∈ ids, id ∈ w.store.idsOf task ∨ id ∉ pool.assignments.keys)
    (hkeys : ∀ id, id ∈ after.assignments.keys ↔
      id ∈ ids ∨ id ∈ pool.assignments.keys ∧ id ∉ w.store.idsOf task) :
    Accounted after ⟨store, w.events ++ events⟩ := by
  have hself : store.idsOf task = ids := (hstore task).trans (if_pos rfl)
  have hother : ∀ {other}, other ≠ task → store.idsOf other = w.store.idsOf other :=
    fun hne => (hstore _).trans (if_neg hne)
  -- a new id of this task is on no other record
  have hapart : ∀ {other id}, other ≠ task → id ∈ ids → id ∉ w.store.idsOf other := by
    intro other id hne hid hmem
    rcases hnew id hid with hold | hkey
    · exact hne (h.apart hmem hold)
    · exact hkey ((h.recorded id).mpr ⟨other, hmem⟩)
  refine ⟨hassigned, fun id => ?_, fun other => ?_, fun {one other id} hone hmem => ?_, hlegible⟩
  · rw [hkeys]
    constructor
    · rintro (hid | ⟨hkey, hout⟩)
      · exact ⟨task, hself ▸ hid⟩
      · obtain ⟨other, hmem⟩ := (h.recorded id).mp hkey
        have hne : other ≠ task := by
          rintro rfl
          exact hout hmem
        exact ⟨other, (hother hne).symm ▸ hmem⟩
    · rintro ⟨other, hmem⟩
      by_cases hne : other = task
      · subst hne
        exact .inl (hself ▸ hmem)
      · replace hmem : id ∈ w.store.idsOf other := hother hne ▸ hmem
        exact .inr ⟨(h.recorded id).mpr ⟨other, hmem⟩, fun hold => hne (h.apart hmem hold)⟩
  · show (store.idsOf other).Nodup
    rw [hstore]
    by_cases hne : other = task
    · rw [if_pos hne]
      exact honce
    · rw [if_neg hne]
      exact h.once other
  · replace hone : id ∈ if one = task then ids else w.store.idsOf one := hstore one ▸ hone
    replace hmem : id ∈ if other = task then ids else w.store.idsOf other := hstore other ▸ hmem
    by_cases h1 : one = task
    · rw [if_pos h1] at hone
      by_cases h2 : other = task
      · exact h1.trans h2.symm
      · rw [if_neg h2] at hmem
        exact absurd hmem (hapart h2 hone)
    · rw [if_neg h1] at hone
      by_cases h2 : other = task
      · rw [if_pos h2] at hmem
        exact absurd hone (hapart h1 hmem)
      · rw [if_neg h2] at hmem
        exact h.apart hone hmem

/-- Events that touch no container leave the books as they are. -/
theorem same (h : Accounted pool w) (hheld : heldIds (w.events ++ events) = heldIds w.events) :
    Accounted pool (w.after events) where
  assigned := by
    show pool.Accounts (heldIds (w.events ++ events))
    rw [hheld]
    exact h.assigned
  recorded := h.recorded
  once := h.once
  apart := h.apart
  legible := h.legible

end Accounted

namespace ContainerPool

variable {serving : ServingSettings} {spec : TaskSpec} {pool : PoolState} {w w' : PoolWorld}
  {events : List EngineEvent}

/-- Replicas that started join the record. -/
theorem LaunchRound.accounted {n : Nat} {launched : Pooled Launched} (image : String)
    (hround : LaunchRound serving spec n pool launched events) (h : Accounted pool w)
    (hfresh : FreshIds (w.events ++ .fetched image (.ok ()) :: events)) (task : String) :
    Accounted launched.pool (w.recorded (.fetched image (.ok ()) :: events) task
      (w.store.idsOf task ++ launched.result.started)) := by
  -- fetching the image starts and stops nothing
  have hfetched : heldIds (w.events ++ [.fetched image (.ok ())]) = heldIds w.events :=
    heldIds_append ..
  rw [List.append_cons] at hfresh
  have hassigned := hround.accounts (hfetched ▸ h.assigned) hfresh
  obtain ⟨hnodup, hnew⟩ := hround.started_new (hfetched ▸ h.assigned) hfresh
  have hkept : ∀ {id}, id ∈ w.store.idsOf task → id ∈ pool.assignments.keys :=
    fun hid => (h.recorded _).mpr ⟨task, hid⟩
  refine h.replace (by rw [List.append_cons]; exact hassigned) (h.legible.put _ _)
    (Store.idsOf_put w.store task · _) ?_ ?_ ?_
  · exact (h.once task).append hnodup fun id hid hstart => hnew id hstart (hkept hid)
  · intro id hid
    exact (List.mem_append.mp hid).imp_right (hnew id)
  · intro id
    rw [hround.mem_keys, List.mem_append]
    constructor
    · rintro (hstart | hkey)
      · exact .inl (.inr hstart)
      · by_cases hid : id ∈ w.store.idsOf task
        · exact .inl (.inl hid)
        · exact .inr ⟨hkey, hid⟩
    · rintro ((hid | hstart) | ⟨hkey, -⟩)
      · exact .inr (hkept hid)
      · exact .inl hstart
      · exact .inr hkey

/-- Replicas that stopped leave the record; those that did not, and those
    that were not asked to, stay on it. -/
theorem StopRound.accounted {out rest : List String} {left : Pooled (List String)} {store : Store}
    {task : String} (hround : StopRound out pool left events) (h : Accounted pool w)
    (hids : w.store.idsOf task = out ++ rest) (hlegible : store.Legible)
    (hstore : ∀ other, store.idsOf other
      = if other = task then left.result ++ rest else w.store.idsOf other) :
    Accounted left.pool ⟨store, w.events ++ events⟩ := by
  -- what is left on record is some of what was there, in the same order
  have honce : (out ++ rest).Nodup := hids ▸ h.once task
  have hsub : (left.result ++ rest).Sublist (out ++ rest) := hround.sublist.append_right rest
  have hkept : ∀ {id}, id ∈ out ++ rest → id ∈ pool.assignments.keys :=
    fun hid => (h.recorded _).mpr ⟨task, hids ▸ hid⟩
  refine h.replace (hround.accounts h.assigned) hlegible hstore (honce.sublist hsub) ?_ ?_
  · intro id hid
    exact .inl (hids ▸ hsub.subset hid)
  · intro id
    rw [hround.mem_keys (List.nodup_append.mp honce).1, hids]
    constructor
    · rintro ⟨hkey, hstay⟩
      by_cases hid : id ∈ out ++ rest
      · refine .inl (List.mem_append.mpr ?_)
        exact (List.mem_append.mp hid).imp_left hstay
      · exact .inr ⟨hkey, hid⟩
    · rintro (hid | ⟨hkey, hout⟩)
      · refine ⟨hkept (hsub.subset hid), fun hmem => ?_⟩
        rcases List.mem_append.mp hid with hleft | hrest
        · exact hleft
        · exact absurd hrest (List.disjoint_of_nodup_append honce hmem)
      · exact ⟨hkey, fun hmem => absurd (List.mem_append_left _ hmem) hout⟩

/-- The books balance after a reconcile if they did before. -/
theorem Reconciliation.accounted {r : Pooled (Except BackendError Unit)}
    (hrun : Reconciliation serving spec pool w r w') (h : Accounted pool w)
    (hfresh : FreshIds w'.events) : Accounted r.pool w' := by
  cases hrun with
  | unreadable hread => exact h
  | settled hread hlength hsome => exact h
  | unfetched hread hlength => exact h.same (heldIds_append ..)
  | grown hread hlength hround =>
    rw [← Store.idsOf_eq hread]
    exact hround.accounted _ h hfresh _
  | @shrunk ids left events hread hwanted hlength hround =>
    refine hround.accounted h ?_ (h.legible.put _ _) (Store.idsOf_put w.store spec.name · _)
    rw [Store.idsOf_eq hread, List.take_append_drop]
    rfl
  | @tornDown ids after events hread hwanted hround =>
    have hids : w.store.idsOf spec.name = ids ++ [] :=
      (Store.idsOf_eq hread).trans (List.append_nil ids).symm
    exact hround.accounted h hids (h.legible.delete _) (Store.idsOf_delete w.store _ ·)
  | @stuck ids left events hread hwanted hround hleft =>
    have hids : w.store.idsOf spec.name = ids ++ [] :=
      (Store.idsOf_eq hread).trans (List.append_nil ids).symm
    refine hround.accounted h hids (h.legible.put _ _) fun other => ?_
    rw [List.append_nil]
    exact Store.idsOf_put ..

theorem Reconciliation.events_append {r : Pooled (Except BackendError Unit)}
    (hrun : Reconciliation serving spec pool w r w') : ∃ later, w'.events = w.events ++ later := by
  cases hrun with
  | unreadable => exact ⟨[], (List.append_nil _).symm⟩
  | settled => exact ⟨[], (List.append_nil _).symm⟩
  | unfetched => exact ⟨_, rfl⟩
  | grown => exact ⟨_, rfl⟩
  | shrunk => exact ⟨_, rfl⟩
  | tornDown => exact ⟨_, rfl⟩
  | stuck => exact ⟨_, rfl⟩

/-! ## Any number of orders -/

/-- What the pool may be told to do. -/
inductive Order where
  | deploy (spec : TaskSpec)
  | delete (spec : TaskSpec)

/-- Serve an order. -/
def serveOrder (serving : ServingSettings) (pool : PoolState) :
    Order → Program PoolCall (Pooled (Except BackendError Unit))
  | .deploy spec => serve serving pool (.deploy spec)
  | .delete spec => serve serving pool (.delete spec)

/-- Serve orders one after the other, whatever becomes of each. -/
def serveOrders (serving : ServingSettings) : List Order → PoolState → Program PoolCall PoolState
  | [], pool => return pool
  | order :: orders, pool => do
    let served ← serveOrder serving pool order
    serveOrders serving orders served.pool

theorem runs_serveOrder {order : Order} {r : Pooled (Except BackendError Unit)}
    (hrun : (serveOrder serving pool order).Runs PoolWorld.respond w r w') :
    ∃ spec, Reconciliation serving spec pool w r w' := by
  cases order with
  | deploy spec => exact ⟨spec, runs_reconcile.mp hrun⟩
  | delete spec => exact ⟨spec.teardown, runs_reconcile.mp hrun⟩

/-- Nothing that was asked of the engine is forgotten. -/
theorem runs_serveOrders_events {orders : List Order} {after : PoolState}
    (hrun : (serveOrders serving orders pool).Runs PoolWorld.respond w after w') :
    ∃ later, w'.events = w.events ++ later := by
  induction orders generalizing pool w with
  | nil =>
    obtain ⟨-, rfl⟩ := hrun
    exact ⟨[], (List.append_nil _).symm⟩
  | cons order orders ih =>
    obtain ⟨served, u, hone, hrest⟩ := Program.runs_bind.mp hrun
    obtain ⟨spec, hone⟩ := runs_serveOrder hone
    obtain ⟨first, hfirst⟩ := hone.events_append
    obtain ⟨later, hlater⟩ := ih hrest
    exact ⟨first ++ later, by rw [hlater, hfirst, List.append_assoc]⟩

/-- The books balance after any number of orders. -/
theorem runs_serveOrders_accounted {orders : List Order} {after : PoolState}
    (hrun : (serveOrders serving orders pool).Runs PoolWorld.respond w after w')
    (h : Accounted pool w) (hfresh : FreshIds w'.events) : Accounted after w' := by
  induction orders generalizing pool w with
  | nil =>
    obtain ⟨rfl, rfl⟩ := hrun
    exact h
  | cons order orders ih =>
    obtain ⟨served, u, hone, hrest⟩ := Program.runs_bind.mp hrun
    obtain ⟨spec, hone⟩ := runs_serveOrder hone
    obtain ⟨later, hlater⟩ := runs_serveOrders_events hrest
    exact ih hrest (hone.accounted h (hlater ▸ hfresh).of_append)

/-- After any orders to a pool of any GPUs, with any outcome of each call of
    the engine, each GPU in use is held by one assigned container and no
    other GPU is in use; the assigned containers are those on record over
    all tasks, and none is on record twice. -/
theorem gpus_accounted (serving : ServingSettings) (indices : List UInt32) (orders : List Order)
    (pool : PoolState) (w : PoolWorld)
    (hrun : (serveOrders serving orders (.ofIndices indices)).Runs PoolWorld.respond
      ⟨.empty, []⟩ pool w)
    (hfresh : FreshIds w.events) :
    pool.assignments.values.flatten.Nodup ∧
    (∀ i, pool.gpus.status? i = some .inUse ↔
      ∃ id gpus, pool.assignments.get? id = some gpus ∧ i ∈ gpus) ∧
    pool.gpus.inUse = pool.assigned ∧
    (∀ id, id ∈ pool.assignments.keys ↔ ∃ task, id ∈ w.store.idsOf task) ∧
    (∀ task, (w.store.idsOf task).Nodup) ∧
    (∀ task other id, id ∈ w.store.idsOf task → id ∈ w.store.idsOf other → task = other) ∧
    w.store.Legible ∧
    ∀ id, id ∈ pool.assignments.keys ↔ id ∈ heldIds w.events := by
  have h := runs_serveOrders_accounted hrun (Accounted.ofIndices indices) hfresh
  exact ⟨h.assigned.flatten_nodup, h.assigned.status?_eq_inUse_iff, h.assigned.inUse_eq_assigned,
    h.recorded, h.once, fun _ _ _ => h.apart, h.legible, h.assigned.keys⟩

/-- Two replicas wanted, one of which does not start, and a stop that fails:
    the one that runs stays assigned and on record. -/
theorem gpus_accounted_of_failed_start_and_stop :
    ∃ pool w,
      (serveOrders default
        [.deploy { TaskSpec.blank with name := "chat", replica := 2 },
          .delete { TaskSpec.blank with name := "chat", replica := 2 }]
        (.ofIndices [0, 1])).Runs PoolWorld.respond ⟨.empty, []⟩ pool w ∧
      FreshIds w.events ∧ w.store.idsOf "chat" = ["c1"] ∧ "c1" ∈ pool.assignments.keys ∧
      pool.gpus.inUse = pool.assigned := by
  let spec : TaskSpec := { TaskSpec.blank with name := "chat", replica := 2 }
  let fault : BackendError := .engine "down"
  have hdeploy : ∃ r w, Reconciliation default spec (.ofIndices [0, 1]) ⟨.empty, []⟩ r w ∧
      FreshIds w.events ∧ heldIds w.events = ["c1"] ∧
      w.store.containerIds "chat" = .ok (some ["c1"]) := by
    refine ⟨_, _, .grown rfl (by decide)
      (.started (.running "0000" "c1") (.failed (.unstarted "1111" "c2" fault (.error fault))
        (.finished _))), ?_, rfl, Store.containerIds_put ..⟩
    refine ((((((freshIds_nil.concat ?_).concat ?_).concat ?_).concat ?_).concat ?_).concat ?_)
    · exact fun _ _ h => (nomatch h)
    · exact fun _ _ _ => List.not_mem_nil
    · exact fun _ _ h => (nomatch h)
    · rintro _ _ ⟨⟩
      exact List.not_mem_cons_of_ne_of_not_mem (by decide) List.not_mem_nil
    · exact fun _ _ h => (nomatch h)
    · exact fun _ _ h => (nomatch h)
  obtain ⟨r, w, hdeploy, hfresh, hheld, hread⟩ := hdeploy
  have hdelete : Reconciliation default spec.teardown r.pool w
      ⟨checkFailures "chat" .stop 1 1, r.pool⟩
      (w.recorded [.stopped "c1" (.error fault)] "chat" ["c1"]) :=
    .stuck hread rfl (.kept fault (.finished _)) (List.cons_ne_nil _ _)
  have hrun : (serveOrders default [.deploy spec, .delete spec] (.ofIndices [0, 1])).Runs
      PoolWorld.respond ⟨.empty, []⟩ r.pool
      (w.recorded [.stopped "c1" (.error fault)] "chat" ["c1"]) := by
    refine Program.runs_bind.mpr ⟨_, _, runs_reconcile.mpr hdeploy, ?_⟩
    exact Program.runs_bind.mpr ⟨_, _, runs_reconcile.mpr hdelete, rfl, rfl⟩
  have hfresh : FreshIds (w.recorded [.stopped "c1" (.error fault)] "chat" ["c1"]).events :=
    hfresh.concat fun _ _ h => (nomatch h)
  have hids : (w.recorded [.stopped "c1" (.error fault)] "chat" ["c1"]).store.idsOf "chat"
      = ["c1"] :=
    Store.idsOf_put ..
  obtain ⟨-, -, hcount, hkeys, -⟩ :=
    gpus_accounted default [0, 1] [.deploy spec, .delete spec] _ _ hrun hfresh
  refine ⟨_, _, hrun, hfresh, hids, (hkeys "c1").mpr ⟨"chat", ?_⟩, hcount⟩
  rw [hids]
  exact List.mem_singleton_self _

end ContainerPool

end ServingPlane
