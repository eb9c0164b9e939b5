import ServingPlane.Proofs.Container.Exclusion

/-! # What one reconcile makes of a record

    A reconcile may meet a failure at each of its calls and goes on past
    most of them, so that it can end with an error and a changed record
    at once.  Here its effect is told from the engine's answers: which
    stops it tries and which ids it keeps, which launches it tries and
    which ids it adds, and that it succeeds just when the record has the
    wanted length afterwards.  Nothing depends on what went wrong before,
    so one reconcile without failures repairs whatever others left. -/

namespace ServingPlane

/-! ## What the engine answered -/

/-- The engine did what it was asked. -/
def EngineEvent.Done : EngineEvent → Prop
  | .fetched _ answer => answer = .ok ()
  | .created _ answer => ∃ id, answer = .ok id
  | .started _ answer => answer = .ok ()
  | .stopped _ answer => answer = .ok ()
  | .inspected _ answer => ∃ found, answer = .ok found

/-- The engine was asked for a new container. -/
def EngineEvent.isCreation : EngineEvent → Bool
  | .created _ _ => true
  | _ => false

/-- The id of a container that started. -/
def EngineEvent.startedId? : EngineEvent → Option String
  | .started id (.ok _) => some id
  | _ => none

/-- The ids of the containers that started, in order. -/
def startedIds (events : List EngineEvent) : List String := events.filterMap EngineEvent.startedId?

/-- How many containers the engine was asked for. -/
def creations (events : List EngineEvent) : Nat := events.countP EngineEvent.isCreation

@[simp] theorem startedIds_append (first later : List EngineEvent) :
    startedIds (first ++ later) = startedIds first ++ startedIds later :=
  List.filterMap_append

@[simp] theorem creations_append (first later : List EngineEvent) :
    creations (first ++ later) = creations first + creations later :=
  List.countP_append

/-- The engine's stops of some ids with its answers. -/
def stopEvents (ids : List String) (answers : List (Except BackendError Unit)) :
    List EngineEvent :=
  List.zipWith .stopped ids answers

/-- The ids whose stops failed, in order. -/
def unstopped : List String → List (Except BackendError Unit) → List String
  | id :: ids, .error _ :: answers => id :: unstopped ids answers
  | _ :: ids, .ok _ :: answers => unstopped ids answers
  | _, _ => []

theorem startedIds_stopEvents (ids : List String) (answers : List (Except BackendError Unit)) :
    startedIds (stopEvents ids answers) = [] := by
  induction ids generalizing answers with
  | nil => rfl
  | cons id ids ih =>
    cases answers with
    | nil => rfl
    | cons answer answers => exact ih answers

namespace ContainerPool

variable {serving : ServingSettings} {spec : TaskSpec} {pool : PoolState} {w w' : PoolWorld}
  {events : List EngineEvent}

/-! ## Launches -/

/-- What some launches made, told from the engine's answers. -/
structure Launches (n : Nat) (pool : PoolState) (launched : Pooled Launched)
    (events : List EngineEvent) : Prop where
  /-- One container is asked for each time. -/
  asked : creations events = n
  /-- Those that started are listed in order, -/
  started : startedIds events = launched.result.started
  /-- and the others are counted. -/
  counted : launched.result.started.length + launched.result.failed = n
  /-- Containers start in the order in which they are created. -/
  ordered : launched.result.started.Sublist (createdIds events)
  /-- Other containers keep their GPUs, -/
  kept : ∀ id, id ∉ launched.result.started →
    launched.pool.assignments.get? id = pool.assignments.get? id
  /-- and no GPU gets free. -/
  used : ∀ gpu, pool.gpus.status? gpu = some .inUse →
    launched.pool.gpus.status? gpu = some .inUse

/-- A launch takes available GPUs only. -/
theorem status?_take {gpu : UInt32} (h : pool.gpus.status? gpu = some .inUse) :
    (take spec pool).2.status? gpu = some .inUse := by
  simp only [take]
  rw [GpuPool.status?_allocate]
  by_cases hmem : gpu ∈ (pool.gpus.allocate spec.gpusPerReplica.toNat).1
  · rw [if_pos hmem]
  · rw [if_neg hmem]
    exact h

theorem LaunchRound.launches {n : Nat} {launched : Pooled Launched}
    (hround : LaunchRound serving spec n pool launched events) :
    Launches n pool launched events := by
  induction hround with
  | finished pool =>
    constructor
    · rfl
    · rfl
    · rfl
    · exact List.Sublist.refl _
    · intro id _
      rfl
    · intro gpu h
      exact h
  | @started n pool next id rest first later hend _ ih =>
    cases hend with
    | running suffix =>
      constructor
      · simp only [creations_append, ih.asked, Nat.add_comm n 1]
        rfl
      · simp only [startedIds_append, ih.started]
        rfl
      · have hcount := ih.counted
        simp only [List.length_cons]
        omega
      · rw [createdIds_append]
        exact ih.ordered.cons_cons id
      · intro other hother
        obtain ⟨hne, hrest⟩ := not_or.mp (mt List.mem_cons.mpr hother)
        exact (ih.kept other hrest).trans (Dict.get?_insert_of_ne _ _ hne)
      · intro gpu h
        exact ih.used gpu (status?_take h)
  | @failed n pool next e rest first later hend _ ih =>
    obtain rfl := hend.pool_of_error
    -- a launch that failed is one creation and no start, and leaves the pool alone
    have hfirst : creations first = 1 ∧ startedIds first = [] := by
      cases hend with
      | refused => exact ⟨rfl, rfl⟩
      | unstarted => exact ⟨rfl, rfl⟩
    constructor
    · simp only [creations_append, ih.asked, hfirst.1, Nat.add_comm n 1]
    · simp only [startedIds_append, ih.started, hfirst.2, List.nil_append]
    · have hcount := ih.counted
      simp only
      omega
    · rw [createdIds_append]
      exact ih.ordered.trans (List.sublist_append_right _ _)
    · exact ih.kept
    · exact ih.used

/-- With an engine that does what it is asked, every launch starts a container. -/
theorem LaunchRound.failed_of_done {n : Nat} {launched : Pooled Launched}
    (hround : LaunchRound serving spec n pool launched events) (hdone : ∀ e ∈ events, e.Done) :
    launched.result.failed = 0 := by
  induction hround with
  | finished => rfl
  | started _ _ ih => exact ih fun e he => hdone e (List.mem_append_right _ he)
  | @failed _ _ _ _ _ first later hend _ _ =>
    have hfirst : ∀ e ∈ first, e.Done := fun e he => hdone e (List.mem_append_left _ he)
    cases hend with
    | refused =>
      obtain ⟨id, hid⟩ := hfirst _ List.mem_cons_self
      cases hid
    | unstarted => cases hfirst _ (List.mem_cons_of_mem _ List.mem_cons_self)

/-- The engine can do what it is asked. -/
theorem exists_launchRound (serving : ServingSettings) (spec : TaskSpec) (n : Nat)
    (pool : PoolState) : ∃ launched events,
      LaunchRound serving spec n pool launched events ∧ ∀ e ∈ events, e.Done := by
  induction n generalizing pool with
  | zero => exact ⟨_, [], .finished pool, fun e he => absurd he List.not_mem_nil⟩
  | succ n ih =>
    have hend : LaunchEnd serving spec pool _ _ := .running "0000" ""
    obtain ⟨launched, events, hround, hdone⟩ := ih _
    refine ⟨_, _, .started hend hround, ?_⟩
    simp only [List.cons_append, List.nil_append, List.mem_cons, forall_eq_or_imp]
    exact ⟨⟨"", rfl⟩, rfl, hdone⟩

/-! ## Stops -/

/-- What some stops made, told from the engine's answers. -/
structure Stops (ids : List String) (pool : PoolState) (left : Pooled (List String))
    (events : List EngineEvent) : Prop where
  /-- Each id is tried once, in order; those that failed are left. -/
  tried : ∃ answers, answers.length = ids.length ∧ events = stopEvents ids answers ∧
    left.result = unstopped ids answers
  /-- Other containers keep their GPUs, -/
  kept : ∀ id, id ∉ ids → left.pool.assignments.get? id = pool.assignments.get? id
  /-- and only the GPUs of these get free. -/
  used : ∀ gpu, pool.gpus.status? gpu = some .inUse →
    (∀ id ∈ ids, ∀ held, pool.assignments.get? id = some held → gpu ∉ held) →
    left.pool.gpus.status? gpu = some .inUse
  /-- Without an id there is nothing to do. -/
  idle : ids = [] → left.pool = pool

theorem status?_releaseContainer {id : String} {gpu : UInt32}
    (h : pool.gpus.status? gpu = some .inUse)
    (hfree : ∀ held, pool.assignments.get? id = some held → gpu ∉ held) :
    (pool.releaseContainer id).gpus.status? gpu = some .inUse := by
  simp only [PoolState.releaseContainer]
  cases hget : pool.assignments.get? id with
  | none => exact h
  | some held =>
    simp only
    rw [GpuPool.status?_release, if_neg (hfree held hget)]
    exact h

theorem get?_releaseContainer_of_ne {id other : String} (h : other ≠ id) :
    (pool.releaseContainer id).assignments.get? other = pool.assignments.get? other := by
  simp only [PoolState.releaseContainer]
  cases hget : pool.assignments.get? id with
  | none => rfl
  | some held => exact Dict.get?_erase_of_ne _ h

theorem StopRound.stops {ids : List String} {left : Pooled (List String)}
    (hround : StopRound ids pool left events) : Stops ids pool left events := by
  induction hround with
  | finished pool =>
    constructor
    · exact ⟨[], rfl, rfl, rfl⟩
    · intro id _
      rfl
    · intro gpu h _
      exact h
    · intro _
      rfl
  | @stopped id ids pool rest later _ ih =>
    obtain ⟨answers, hlength, hlater, hleft⟩ := ih.tried
    constructor
    · exact ⟨.ok () :: answers, congrArg (· + 1) hlength,
        congrArg (EngineEvent.stopped id (.ok ()) :: ·) hlater, hleft⟩
    · intro other hother
      obtain ⟨hne, hrest⟩ := not_or.mp (mt List.mem_cons.mpr hother)
      exact (ih.kept other hrest).trans (get?_releaseContainer_of_ne hne)
    · intro gpu h hfree
      refine ih.used gpu (status?_releaseContainer h (hfree id List.mem_cons_self)) ?_
      intro other hother held hget
      exact hfree other (List.mem_cons_of_mem _ hother) held
        (PoolState.get?_of_get?_releaseContainer hget)
    · intro h
      cases h
  | @kept id ids pool rest later e _ ih =>
    obtain ⟨answers, hlength, hlater, hleft⟩ := ih.tried
    constructor
    · exact ⟨.error e :: answers, congrArg (· + 1) hlength,
        congrArg (EngineEvent.stopped id (.error e) :: ·) hlater, congrArg (id :: ·) hleft⟩
    · intro other hother
      exact ih.kept other (mt (List.mem_cons_of_mem _) hother)
    · intro gpu h hfree
      exact ih.used gpu h fun other hother => hfree other (List.mem_cons_of_mem _ hother)
    · intro h
      cases h

/-- With an engine that does what it is asked, nothing is left. -/
theorem StopRound.left_of_done {ids : List String} {left : Pooled (List String)}
    (hround : StopRound ids pool left events) (hdone : ∀ e ∈ events, e.Done) :
    left.result = [] := by
  induction hround with
  | finished => rfl
  | stopped _ ih => exact ih fun e he => hdone e (List.mem_cons_of_mem _ he)
  | kept _ _ _ => cases hdone _ List.mem_cons_self

theorem exists_stopRound (ids : List String) (pool : PoolState) :
    ∃ after events, StopRound ids pool ⟨[], after⟩ events ∧ ∀ e ∈ events, e.Done := by
  induction ids generalizing pool with
  | nil => exact ⟨pool, [], .finished pool, fun e he => absurd he List.not_mem_nil⟩
  | cons id ids ih =>
    obtain ⟨after, events, hround, hdone⟩ := ih (pool.releaseContainer id)
    refine ⟨after, _, .stopped hround, ?_⟩
    simp only [List.mem_cons, forall_eq_or_imp]
    exact ⟨rfl, hdone⟩

/-! ## One reconcile -/

/-- What a reconcile of a task with `ids` on record makes of the record, of
    the pool and of its result, told from the engine's answers. -/
structure Rescaled (serving : ServingSettings) (spec : TaskSpec) (pool : PoolState) (w : PoolWorld)
    (ids : List String) (r : Pooled (Except BackendError Unit)) (w' : PoolWorld)
    (events : List EngineEvent) : Prop where
  /-- It succeeds just when the wanted number is on record. -/
  ok_iff : r.result = .ok () ↔ (w'.store.idsOf spec.name).length = spec.replica.toNat
  /-- If that was so before, the engine is asked nothing. -/
  settled : ids.length = spec.replica.toNat →
    events = [] ∧ r.pool = pool ∧ w'.store.idsOf spec.name = ids
  /-- If there are too many, stops of the oldest are tried in order; those
      that failed and those not tried stay on record. -/
  shrunk : spec.replica.toNat < ids.length →
    ∃ answers, answers.length = ids.length - spec.replica.toNat ∧
      events = stopEvents (ids.take (ids.length - spec.replica.toNat)) answers ∧
      w'.store.idsOf spec.name =
        unstopped (ids.take (ids.length - spec.replica.toNat)) answers ++
          ids.drop (ids.length - spec.replica.toNat) ∧
      r.result = checkFailures spec.name .stop
        (unstopped (ids.take (ids.length - spec.replica.toNat)) answers).length
        (ids.length - spec.replica.toNat)
  /-- If some are missing and their image cannot be had, nothing changes;
      if it can, so many launches are tried, and those that started come
      last on record. -/
  grown : ids.length < spec.replica.toNat →
    (∃ e, events = [.fetched (spec.replicaImage serving) (.error e)] ∧
      r = ⟨.error e, pool⟩ ∧ w'.store = w.store) ∨
    ∃ later, events = .fetched (spec.replicaImage serving) (.ok ()) :: later ∧
      creations later = spec.replica.toNat - ids.length ∧
      w'.store.idsOf spec.name = ids ++ startedIds later ∧
      r.result = checkFailures spec.name .start
        (spec.replica.toNat - ids.length - (startedIds later).length)
        (spec.replica.toNat - ids.length)
  /-- A record in the order of creation stays so. -/
  ordered : ∀ created, ids.Sublist created →
    (w'.store.idsOf spec.name).Sublist (created ++ createdIds events)
  /-- No record is kept of none. -/
  dropped : spec.replica.toNat = 0 → w'.store.idsOf spec.name = [] →
    w'.store.containerIds spec.name = .ok none
  /-- The record can be read, and the records of other tasks stay. -/
  readable : ∃ record, w'.store.containerIds spec.name = .ok record
  others : ∀ name, name ≠ spec.name → w'.store.containerIds name = w.store.containerIds name
  /-- Containers that were not on record and were not started keep their GPUs, -/
  kept : ∀ id, id ∉ ids → id ∉ startedIds events →
    r.pool.assignments.get? id = pool.assignments.get? id
  /-- and only GPUs of containers on record get free. -/
  used : ∀ gpu, pool.gpus.status? gpu = some .inUse →
    (∀ id ∈ ids, ∀ held, pool.assignments.get? id = some held → gpu ∉ held) →
    r.pool.gpus.status? gpu = some .inUse

theorem checkFailures_eq_ok_iff {task : String} {action : ReplicaAction} {failed attempted : Nat} :
    checkFailures task action failed attempted = .ok () ↔ failed = 0 := by
  simp only [checkFailures]
  by_cases h : failed = 0
  · simp [h]
  · simp [h]

variable {r : Pooled (Except BackendError Unit)} {record : Option (List String)}

theorem Rescaled.of_settled (hread : w.store.containerIds spec.name = .ok record)
    (hlength : (record.getD []).length = spec.replica.toNat)
    (hsome : record.isSome → spec.replica.toNat ≠ 0) :
    Rescaled serving spec pool w (record.getD []) ⟨.ok (), pool⟩ w [] := by
  have hids := Store.idsOf_eq hread
  constructor
  · rw [hids]
    exact ⟨fun _ => hlength, fun _ => rfl⟩
  · intro _
    exact ⟨rfl, rfl, hids⟩
  · intro hlt
    omega
  · intro hlt
    omega
  · intro created hcreated
    rw [hids]
    exact hcreated.trans (List.sublist_append_left _ _)
  · intro hzero _
    have hnone : record = none := Option.not_isSome_iff_eq_none.mp fun hc => hsome hc hzero
    rw [hread, hnone]
  · exact ⟨record, hread⟩
  · intro name _
    rfl
  · intro id _ _
    rfl
  · intro gpu h _
    exact h

theorem Rescaled.of_unfetched {e : BackendError}
    (hread : w.store.containerIds spec.name = .ok record)
    (hlength : (record.getD []).length < spec.replica.toNat) :
    Rescaled serving spec pool w (record.getD []) ⟨.error e, pool⟩
      (w.after [.fetched (spec.replicaImage serving) (.error e)])
      [.fetched (spec.replicaImage serving) (.error e)] := by
  have hids : (w.after [.fetched (spec.replicaImage serving) (.error e)]).store.idsOf spec.name
      = record.getD [] := Store.idsOf_eq hread
  constructor
  · rw [hids]
    constructor
    · intro h
      cases h
    · intro h
      omega
  · intro h
    omega
  · intro h
    omega
  · intro _
    exact .inl ⟨e, rfl, rfl, rfl⟩
  · intro created hcreated
    rw [hids]
    exact hcreated.trans (List.sublist_append_left _ _)
  · intro hzero
    omega
  · exact ⟨record, hread⟩
  · intro name _
    rfl
  · intro id _ _
    rfl
  · intro gpu h _
    exact h

theorem Rescaled.of_grown {launched : Pooled Launched} {image : String}
    (himage : image = spec.replicaImage serving)
    (hlength : (record.getD []).length < spec.replica.toNat)
    (h : Launches (spec.replica.toNat - (record.getD []).length) pool launched events) :
    Rescaled serving spec pool w (record.getD [])
      ⟨checkFailures spec.name .start launched.result.failed
        (spec.replica.toNat - (record.getD []).length), launched.pool⟩
      (w.recorded (.fetched image (.ok ()) :: events) spec.name
        (record.getD [] ++ launched.result.started))
      (.fetched image (.ok ()) :: events) := by
  subst himage
  have hids : (w.recorded (.fetched (spec.replicaImage serving) (.ok ()) :: events) spec.name
      (record.getD [] ++ launched.result.started)).store.idsOf spec.name
      = record.getD [] ++ launched.result.started := (Store.idsOf_put ..).trans (if_pos rfl)
  have hstarted : startedIds (.fetched (spec.replicaImage serving) (.ok ()) :: events)
      = launched.result.started := h.started
  have hcount := h.counted
  constructor
  · rw [checkFailures_eq_ok_iff, hids, List.length_append]
    omega
  · intro heq
    omega
  · intro hlt
    omega
  · intro _
    refine .inr ⟨events, rfl, h.asked, ?_, ?_⟩
    · rw [hids, h.started]
    · have hfailed : launched.result.failed
          = spec.replica.toNat - (record.getD []).length - launched.result.started.length := by
        omega
      rw [h.started, ← hfailed]
  · intro created hcreated
    rw [hids]
    exact hcreated.append h.ordered
  · intro hzero
    omega
  · exact ⟨_, (Store.containerIds_put ..).trans (if_pos rfl)⟩
  · intro name hname
    exact (Store.containerIds_put ..).trans (if_neg hname)
  · intro id _ hid
    rw [hstarted] at hid
    exact h.kept id hid
  · intro gpu hgpu _
    exact h.used gpu hgpu

/-- Those whose stops failed are some of those tried, in order. -/
theorem unstopped_sublist (ids : List String) (answers : List (Except BackendError Unit)) :
    (unstopped ids answers).Sublist ids := by
  induction ids generalizing answers with
  | nil =>
    cases answers with
    | nil => exact List.Sublist.refl _
    | cons answer answers => exact List.Sublist.refl _
  | cons id ids ih =>
    match answers with
    | [] => exact List.nil_sublist _
    | .ok _ :: answers => exact (ih answers).cons id
    | .error _ :: answers => exact (ih answers).cons_cons id

/-- Shrinking and tearing down are one effect: the oldest are stopped, and
    the record is replaced by the others, or dropped if there are none. -/
theorem Rescaled.of_stops {ids : List String} {left : Pooled (List String)}
    {result : Except BackendError Unit} {store : Store}
    (hlength : spec.replica.toNat ≤ ids.length)
    (h : Stops (ids.take (ids.length - spec.replica.toNat)) pool left events)
    (hresult : result = checkFailures spec.name .stop left.result.length
      (ids.length - spec.replica.toNat))
    (hstore : ∀ name, name ≠ spec.name → store.containerIds name = w.store.containerIds name)
    (hread : store.containerIds spec.name = .ok record)
    (hrecord : record.getD [] = left.result ++ ids.drop (ids.length - spec.replica.toNat))
    (hnone : record.getD [] = [] → record = none) :
    Rescaled serving spec pool w ids ⟨result, left.pool⟩ ⟨store, w.events ++ events⟩ events := by
  obtain ⟨answers, hanswers, rfl, hleft⟩ := h.tried
  have hids : store.idsOf spec.name
      = left.result ++ ids.drop (ids.length - spec.replica.toNat) :=
    (Store.idsOf_eq hread).trans hrecord
  have hsub : (store.idsOf spec.name).Sublist ids := by
    rw [hids, hleft]
    conv => rhs; rw [← List.take_append_drop (ids.length - spec.replica.toNat) ids]
    exact (unstopped_sublist ..).append_right _
  constructor
  · show result = .ok () ↔ (store.idsOf spec.name).length = _
    rw [hresult, checkFailures_eq_ok_iff, hids, List.length_append, List.length_drop]
    omega
  · intro heq
    have htake : ids.take (ids.length - spec.replica.toNat) = [] := by simp [heq]
    have hdrop : ids.drop (ids.length - spec.replica.toNat) = ids := by simp [heq]
    refine ⟨?_, h.idle htake, ?_⟩
    · rw [htake]
      rfl
    · show store.idsOf spec.name = ids
      rw [hids, hleft, htake, hdrop]
      rfl
  · intro _
    rw [List.length_take, Nat.min_eq_left (Nat.sub_le ..)] at hanswers
    exact ⟨answers, hanswers, rfl, hleft ▸ hids, hleft ▸ hresult⟩
  · intro hlt
    omega
  · intro created hcreated
    exact (hsub.trans hcreated).trans (List.sublist_append_left _ _)
  · intro _ hempty
    rw [hnone ((Store.idsOf_eq hread).symm.trans hempty)] at hread
    exact hread
  · exact ⟨record, hread⟩
  · exact hstore
  · intro id hid _
    exact h.kept id (mt List.mem_of_mem_take hid)
  · intro gpu hgpu hfree
    exact h.used gpu hgpu fun id hid => hfree id (List.mem_of_mem_take hid)

/-- What a reconcile does with a record that can be read. -/
theorem Reconciliation.rescaled (hrun : Reconciliation serving spec pool w r w')
    (hread : w.store.containerIds spec.name = .ok record) :
    ∃ events, w'.events = w.events ++ events ∧
      Rescaled serving spec pool w (record.getD []) r w' events := by
  cases hrun with
  | unreadable hunread => cases hread.symm.trans hunread
  | settled hown hlength hsome =>
    obtain rfl := Except.ok.inj (hread.symm.trans hown)
    exact ⟨[], (List.append_nil _).symm, .of_settled hread hlength hsome⟩
  | unfetched hown hlength =>
    obtain rfl := Except.ok.inj (hread.symm.trans hown)
    exact ⟨_, rfl, .of_unfetched hread hlength⟩
  | grown hown hlength hround =>
    obtain rfl := Except.ok.inj (hread.symm.trans hown)
    exact ⟨_, rfl, .of_grown rfl hlength hround.launches⟩
  | @shrunk ids left events hown hwanted hlength hround =>
    obtain rfl := Except.ok.inj (hread.symm.trans hown)
    refine ⟨events, rfl, .of_stops (Nat.le_of_lt hlength) hround.stops rfl ?_
      ((Store.containerIds_put ..).trans (if_pos rfl)) rfl ?_⟩
    · intro name hname
      exact (Store.containerIds_put ..).trans (if_neg hname)
    -- the replicas that are wanted are still there
    · intro hempty
      have hdrop := (List.append_eq_nil_iff.mp hempty).2
      rw [List.drop_eq_nil_iff] at hdrop
      omega
  | @tornDown ids after events hown hwanted hround =>
    obtain rfl := Except.ok.inj (hread.symm.trans hown)
    have hall : ids.length - spec.replica.toNat = ids.length := by omega
    have hstops := hround.stops
    rw [← List.take_length (l := ids), ← hall] at hstops
    refine ⟨events, rfl, .of_stops (by simp [hwanted]) hstops rfl ?_
      ((Store.containerIds_delete ..).trans (if_pos rfl)) ?_ fun _ => rfl⟩
    · intro name hname
      exact (Store.containerIds_delete ..).trans (if_neg hname)
    · simp [hall]
  | @stuck ids left events hown hwanted hround hleft =>
    obtain rfl := Except.ok.inj (hread.symm.trans hown)
    have hall : ids.length - spec.replica.toNat = ids.length := by omega
    have hstops := hround.stops
    rw [← List.take_length (l := ids), ← hall] at hstops
    refine ⟨events, rfl, .of_stops (by simp [hwanted]) hstops (by simp [hwanted]) ?_
      ((Store.containerIds_put ..).trans (if_pos rfl)) ?_ ?_⟩
    · intro name hname
      exact (Store.containerIds_put ..).trans (if_neg hname)
    · simp [hall]
    · intro hempty
      exact absurd hempty hleft

theorem StopRound.startedIds_eq {ids : List String} {left : Pooled (List String)}
    (hround : StopRound ids pool left events) : startedIds events = [] := by
  obtain ⟨answers, -, rfl, -⟩ := hround.stops.tried
  exact startedIds_stopEvents _ _

/-- Containers that start held no GPUs before, if no id was given twice. -/
theorem Reconciliation.started_new (hrun : Reconciliation serving spec pool w r w')
    (haccounted : Accounted pool w) (hfresh : FreshIds w'.events)
    (hevents : w'.events = w.events ++ events) :
    ∀ id ∈ startedIds events, id ∉ pool.assignments.keys := by
  have hnone : startedIds events = [] → ∀ id ∈ startedIds events, id ∉ pool.assignments.keys := by
    intro hnil id hid
    rw [hnil] at hid
    exact absurd hid List.not_mem_nil
  cases hrun with
  | unreadable =>
    obtain rfl := List.self_eq_append_right.mp hevents
    exact hnone rfl
  | settled =>
    obtain rfl := List.self_eq_append_right.mp hevents
    exact hnone rfl
  | unfetched =>
    obtain rfl := List.append_cancel_left hevents
    exact hnone rfl
  | @grown record launched later hread hlength hround =>
    obtain rfl := List.append_cancel_left hevents
    have hfetched : heldIds (w.events ++ [.fetched (spec.replicaImage serving) (.ok ())])
        = heldIds w.events := heldIds_append ..
    replace hfresh : FreshIds (w.events ++ _ :: later) := hfresh
    rw [List.append_cons] at hfresh
    have hnew := (hround.started_new (hfetched ▸ haccounted.assigned) hfresh).2
    rw [← hround.launches.started] at hnew
    exact hnew
  | shrunk _ _ _ hround =>
    obtain rfl := List.append_cancel_left hevents
    exact hnone hround.startedIds_eq
  | tornDown _ _ hround =>
    obtain rfl := List.append_cancel_left hevents
    exact hnone hround.startedIds_eq
  | stuck _ _ hround _ =>
    obtain rfl := List.append_cancel_left hevents
    exact hnone hround.startedIds_eq

/-- A container on the record of another task keeps its GPUs, if the books
    balanced and no id was given to two containers at a time. -/
theorem Rescaled.apart {ids : List String} (h : Rescaled serving spec pool w ids r w' events)
    (hrun : Reconciliation serving spec pool w r w') (haccounted : Accounted pool w)
    (hids : w.store.idsOf spec.name = ids) (hevents : w'.events = w.events ++ events)
    (hfresh : FreshIds w'.events) {name id : String} (hname : name ≠ spec.name)
    (hid : id ∈ w.store.idsOf name) :
    ∃ held, pool.assignments.get? id = some held ∧ r.pool.assignments.get? id = some held ∧
      ∀ gpu ∈ held,
        pool.gpus.status? gpu = some .inUse ∧ r.pool.gpus.status? gpu = some .inUse := by
  have hkey : id ∈ pool.assignments.keys := (haccounted.recorded id).mpr ⟨name, hid⟩
  have hother : id ∉ ids := fun hown => hname (haccounted.apart hid (hids.symm ▸ hown))
  have hnew : id ∉ startedIds events :=
    fun hstarted => hrun.started_new haccounted hfresh hevents id hstarted hkey
  obtain ⟨held, hget⟩ := Dict.mem_keys_iff.mp hkey
  have hafter : r.pool.assignments.get? id = some held := (h.kept id hother hnew).trans hget
  have hbooks := (hrun.accounted haccounted hfresh).assigned
  refine ⟨held, hget, hafter, fun gpu hgpu => ⟨?_, ?_⟩⟩
  · exact (haccounted.assigned.status?_eq_inUse_iff gpu).mpr ⟨id, held, hget, hgpu⟩
  · exact (hbooks.status?_eq_inUse_iff gpu).mpr ⟨id, held, hafter, hgpu⟩

/-! ## Any number of orders -/

/-- The record of a task can be read, and lists containers in the order of
    their creation, which `earlier` ones began. -/
structure RecordedInOrder (earlier : List String) (task : String) (w : PoolWorld) : Prop where
  readable : ∃ record, w.store.containerIds task = .ok record
  ordered : (w.store.idsOf task).Sublist (earlier ++ createdIds w.events)

/-- A reconcile of any task keeps the order. -/
theorem Reconciliation.recordedInOrder {earlier : List String} {task : String}
    (hrun : Reconciliation serving spec pool w r w') (h : RecordedInOrder earlier task w) :
    RecordedInOrder earlier task w' := by
  obtain ⟨later, hlater⟩ := hrun.events_append
  have hgrow : (earlier ++ createdIds w.events).Sublist (earlier ++ createdIds w'.events) := by
    rw [hlater, createdIds_append, ← List.append_assoc]
    exact List.sublist_append_left _ _
  match hread : w.store.containerIds spec.name with
  | .error e =>
    -- nothing is done to a task whose record cannot be read
    have hsame : w' = w := by
      cases hrun with
      | unreadable => rfl
      | settled hown => cases hread.symm.trans hown
      | unfetched hown => cases hread.symm.trans hown
      | grown hown => cases hread.symm.trans hown
      | shrunk hown => cases hread.symm.trans hown
      | tornDown hown => cases hread.symm.trans hown
      | stuck hown => cases hread.symm.trans hown
    exact hsame ▸ h
  | .ok record =>
    obtain ⟨events, hevents, hscaled⟩ := hrun.rescaled hread
    by_cases htask : task = spec.name
    · subst htask
      refine ⟨hscaled.readable, ?_⟩
      have hids := Store.idsOf_eq hread
      rw [hevents, createdIds_append, ← List.append_assoc]
      exact hscaled.ordered _ (hids ▸ h.ordered)
    · have hsame := hscaled.others task htask
      refine ⟨hsame ▸ h.readable, ?_⟩
      have hids : w'.store.idsOf task = w.store.idsOf task := by
        simp only [Store.idsOf]
        rw [hsame]
      exact hids ▸ h.ordered.trans hgrow

theorem runs_serveOrders_recordedInOrder {earlier : List String} {task : String}
    {orders : List Order} {after : PoolState}
    (hrun : (serveOrders serving orders pool).Runs PoolWorld.respond w after w')
    (h : RecordedInOrder earlier task w) : RecordedInOrder earlier task w' := by
  induction orders generalizing pool w with
  | nil =>
    obtain ⟨-, rfl⟩ := hrun
    exact h
  | cons order orders ih =>
    obtain ⟨served, u, hone, hrest⟩ := Program.runs_bind.mp hrun
    obtain ⟨spec, hone⟩ := runs_serveOrder hone
    exact ih hrest (hone.recordedInOrder h)

/-- With an engine that does what it is asked, a reconcile succeeds. -/
theorem Reconciliation.ok_of_done (hrun : Reconciliation serving spec pool w r w')
    (hread : w.store.containerIds spec.name = .ok record)
    (hevents : w'.events = w.events ++ events) (hdone : ∀ e ∈ events, e.Done) :
    r.result = .ok () := by
  cases hrun with
  | unreadable hown => cases hread.symm.trans hown
  | settled => rfl
  | unfetched =>
    obtain rfl := List.append_cancel_left hevents
    cases hdone _ List.mem_cons_self
  | grown _ _ hround =>
    obtain rfl := List.append_cancel_left hevents
    exact checkFailures_eq_ok_iff.mpr
      (hround.failed_of_done fun e he => hdone e (List.mem_cons_of_mem _ he))
  | shrunk _ _ _ hround =>
    obtain rfl := List.append_cancel_left hevents
    exact checkFailures_eq_ok_iff.mpr (by simp [hround.left_of_done hdone])
  | tornDown => rfl
  | stuck _ _ hround _ =>
    obtain rfl := List.append_cancel_left hevents
    exact checkFailures_eq_ok_iff.mpr (by simp [hround.left_of_done hdone])

/-- The engine can do all that a reconcile asks. -/
theorem exists_reconciliation (serving : ServingSettings) (pool : PoolState)
    (hread : w.store.containerIds spec.name = .ok record) :
    ∃ r w' events, Reconciliation serving spec pool w r w' ∧ w'.events = w.events ++ events ∧
      ∀ e ∈ events, e.Done := by
  rcases record_cases spec record with
    ⟨hlength, hsome⟩ | hlength | ⟨ids, rfl, hwanted, hlength⟩ | ⟨ids, rfl, hwanted⟩
  · refine ⟨_, _, [], .settled hread hlength hsome, (List.append_nil _).symm, ?_⟩
    intro e he
    exact absurd he List.not_mem_nil
  · obtain ⟨launched, events, hround, hdone⟩ := exists_launchRound serving spec
      (spec.replica.toNat - (record.getD []).length) pool
    refine ⟨_, _, _, .grown hread hlength hround, rfl, ?_⟩
    simp only [List.mem_cons, forall_eq_or_imp]
    exact ⟨rfl, hdone⟩
  · obtain ⟨after, events, hround, hdone⟩ :=
      exists_stopRound (ids.take (ids.length - spec.replica.toNat)) pool
    exact ⟨_, _, _, .shrunk hread hwanted hlength hround, rfl, hdone⟩
  · obtain ⟨after, events, hround, hdone⟩ := exists_stopRound ids pool
    exact ⟨_, _, _, .tornDown hread hwanted hround, rfl, hdone⟩

/-- Whatever the engine answers, a deployment of a task has the effect of
    one reconcile on its record, its result and the pool, and leaves the
    records and containers of other tasks alone.  After any orders, with
    any failures, the record is still in the order of creation; and then
    the engine can do all that one more deployment asks, and whenever it
    does, the wanted number of containers is on record. -/
theorem deploy_rescales (serving : ServingSettings) (spec : TaskSpec) (pool : PoolState)
    (w : PoolWorld) (record : Option (List String))
    (hread : w.store.containerIds spec.name = .ok record) :
    (∀ r w', (serve serving pool (.deploy spec)).Runs PoolWorld.respond w r w' →
      ∃ events, w'.events = w.events ++ events ∧
        Rescaled serving spec pool w (record.getD []) r w' events ∧
        (Accounted pool w → FreshIds w'.events →
          ∀ name, name ≠ spec.name → ∀ id ∈ w.store.idsOf name,
            ∃ held, pool.assignments.get? id = some held ∧
              r.pool.assignments.get? id = some held ∧
              ∀ gpu ∈ held, pool.gpus.status? gpu = some .inUse ∧
                r.pool.gpus.status? gpu = some .inUse)) ∧
    ∀ orders after u, (serveOrders serving orders pool).Runs PoolWorld.respond w after u →
      (∀ earlier, (record.getD []).Sublist (earlier ++ createdIds w.events) →
        (u.store.idsOf spec.name).Sublist (earlier ++ createdIds u.events)) ∧
      (∃ r u' later, (serve serving after (.deploy spec)).Runs PoolWorld.respond u r u' ∧
        u'.events = u.events ++ later ∧ ∀ e ∈ later, e.Done) ∧
      ∀ r u' later, (serve serving after (.deploy spec)).Runs PoolWorld.respond u r u' →
        u'.events = u.events ++ later → (∀ e ∈ later, e.Done) →
        r.result = .ok () ∧ (u'.store.idsOf spec.name).length = spec.replica.toNat := by
  have hids := Store.idsOf_eq hread
  constructor
  · intro r w' hruns
    have hrun := runs_reconcile.mp hruns
    obtain ⟨events, hevents, hscaled⟩ := hrun.rescaled hread
    refine ⟨events, hevents, hscaled, ?_⟩
    intro haccounted hfresh name hname id hid
    exact hscaled.apart hrun haccounted hids hevents hfresh hname hid
  · intro orders after u horders
    have hkept : ∀ {earlier}, (record.getD []).Sublist (earlier ++ createdIds w.events) →
        RecordedInOrder earlier spec.name u := by
      intro earlier hsub
      exact runs_serveOrders_recordedInOrder horders ⟨⟨record, hread⟩, hids.symm ▸ hsub⟩
    obtain ⟨now, hnow⟩ := (hkept (List.sublist_append_left _ _)).readable
    refine ⟨fun earlier hsub => (hkept hsub).ordered, ?_, ?_⟩
    · obtain ⟨r, u', later, hrun, hlater, hdone⟩ := exists_reconciliation serving after hnow
      exact ⟨r, u', later, runs_reconcile.mpr hrun, hlater, hdone⟩
    · intro r u' later hruns hlater hdone
      have hrun := runs_reconcile.mp hruns
      obtain ⟨events, -, hscaled⟩ := hrun.rescaled hnow
      have hok := hrun.ok_of_done hnow hlater hdone
      exact ⟨hok, hscaled.ok_iff.mp hok⟩

/-- Three containers of which one is wanted, and the oldest does not stop:
    the deployment fails with two on record, and one more repairs it. -/
theorem deploy_rescales_of_failed_stop :
    ∃ r w', (serve default (.ofIndices [0])
        (.deploy { TaskSpec.blank with name := "chat", replica := 1 })).Runs PoolWorld.respond
        ⟨Store.empty.putContainerIds "chat" ["c1", "c2", "c3"], []⟩ r w' ∧
      r.result ≠ .ok () ∧ w'.store.idsOf "chat" = ["c1", "c3"] ∧
      ∃ r' u, (serve default r.pool
          (.deploy { TaskSpec.blank with name := "chat", replica := 1 })).Runs
          PoolWorld.respond w' r' u ∧
        r'.result = .ok () ∧ (u.store.idsOf "chat").length = 1 := by
  let spec : TaskSpec := { TaskSpec.blank with name := "chat", replica := 1 }
  let w : PoolWorld := ⟨Store.empty.putContainerIds "chat" ["c1", "c2", "c3"], []⟩
  have hread : w.store.containerIds spec.name = .ok (some ["c1", "c2", "c3"]) :=
    Store.containerIds_put ..
  obtain ⟨hone, hmore⟩ := deploy_rescales default spec (.ofIndices [0]) w _ hread
  have hshrunk : Reconciliation default spec (.ofIndices [0]) w _ _ :=
    .shrunk hread (by decide) (by decide) (.kept (.engine "down") (.stopped (.finished _)))
  have hfirst := runs_reconcile.mpr hshrunk
  have hids : (w.recorded [.stopped "c1" (.error (.engine "down")), .stopped "c2" (.ok ())]
      "chat" ["c1", "c3"]).store.idsOf "chat" = ["c1", "c3"] := Store.idsOf_put ..
  obtain ⟨events, -, hscaled, -⟩ := hone _ _ hfirst
  refine ⟨_, _, hfirst, ?_, hids, ?_⟩
  · intro hok
    have hlength := hscaled.ok_iff.mp hok
    cases (congrArg List.length hids).symm.trans hlength
  · obtain ⟨-, ⟨r', u, later, hruns, hlater, hdone⟩, hall⟩ :=
      hmore [.deploy spec] _ _ (Program.runs_bind.mpr ⟨_, _, hfirst, rfl, rfl⟩)
    exact ⟨r', u, hruns, hall r' u later hruns hlater hdone⟩

end ContainerPool

end ServingPlane
