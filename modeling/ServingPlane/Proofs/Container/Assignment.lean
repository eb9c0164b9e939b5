import ServingPlane.Proofs.Container.Reconciliation

/-! # Which container holds which GPUs

    A container holds its GPUs from the moment it starts until it is
    stopped.  Told from the engine's answers alone, the containers that
    hold GPUs are those that started and have not been stopped since; the
    pool agrees with this throughout, and the GPUs in use are those that
    they hold, each held once. -/

namespace ServingPlane

/-- The ids that hold GPUs after one more event. -/
def EngineEvent.holding (held : List String) : EngineEvent → List String
  | .started id (.ok _) => id :: held
  | .stopped id (.ok _) => held.filter (· ≠ id)
  | _ => held

/-- The ids of the containers that started and have not been stopped since. -/
def heldIds (events : List EngineEvent) : List String := events.foldl EngineEvent.holding []

theorem heldIds_append (before events : List EngineEvent) :
    heldIds (before ++ events) = events.foldl EngineEvent.holding (heldIds before) :=
  List.foldl_append

/-- No container is created with an id that still holds GPUs. -/
def FreshIds (events : List EngineEvent) : Prop :=
  ∀ before launch id later, events = before ++ .created launch (.ok id) :: later →
    id ∉ heldIds before

theorem freshIds_nil : FreshIds [] := by
  intro before launch id later h
  exact absurd h.symm (List.append_ne_nil_of_right_ne_nil _ (List.cons_ne_nil _ _))

/-- What is fresh in a longer history was fresh before. -/
theorem FreshIds.of_append {events later : List EngineEvent} (h : FreshIds (events ++ later)) :
    FreshIds events := by
  rintro before launch id rest rfl
  exact h before launch id (rest ++ later) (List.append_assoc ..)

theorem FreshIds.concat {events : List EngineEvent} {event : EngineEvent} (h : FreshIds events)
    (hnew : ∀ launch id, event = .created launch (.ok id) → id ∉ heldIds events) :
    FreshIds (events ++ [event]) := by
  intro before launch id later heq
  rcases List.eq_nil_or_concat later with rfl | ⟨rest, last, rfl⟩
  · obtain ⟨rfl, hevent⟩ := List.append_inj' heq rfl
    exact hnew launch id (List.singleton_inj.mp hevent)
  · rw [List.concat_eq_append, ← List.cons_append, ← List.append_assoc] at heq
    obtain ⟨rfl, -⟩ := List.append_inj' heq rfl
    exact h before launch id rest rfl

namespace PoolState

/-- The GPUs in use are those that containers hold, each held once, and the
    containers that hold GPUs are the given ones. -/
structure Accounts (p : PoolState) (held : List String) : Prop where
  gpus : p.gpus.inUseIndices.Perm p.assignments.values.flatten
  keys : ∀ id, id ∈ p.assignments.keys ↔ id ∈ held

theorem accounts_ofIndices (indices : List UInt32) : (ofIndices indices).Accounts [] where
  gpus := by
    show (GpuPool.ofIndices indices).inUseIndices.Perm []
    rw [GpuPool.inUseIndices_ofIndices]
  keys := fun _ => Iff.rfl

/-- A new holder's GPUs come beside those held before. -/
theorem flatten_insert {d : Dict String (List UInt32)} {id : String} (h : d.get? id = none)
    (held : List UInt32) :
    (d.insert id held).values.flatten.Perm (held ++ d.values.flatten) := by
  have hperm := ((d.entries_insert_perm id held).map Prod.snd).flatten
  rw [Dict.erase_of_get?_eq_none h] at hperm
  exact hperm

/-- The GPUs held are those of one container and those of the others. -/
theorem flatten_erase {d : Dict String (List UInt32)} {id : String} {held : List UInt32}
    (h : d.get? id = some held) :
    d.values.flatten.Perm (held ++ (d.erase id).values.flatten) :=
  ((Dict.entries_perm_erase h).map Prod.snd).flatten

/-- A container's GPUs are given back when it is gone. -/
theorem Accounts.releaseContainer {p : PoolState} {held : List String} (h : p.Accounts held)
    (id : String) : (p.releaseContainer id).Accounts (held.filter (· ≠ id)) := by
  simp only [PoolState.releaseContainer]
  cases hget : p.assignments.get? id with
  | none =>
    have hheld : held.filter (· ≠ id) = held := by
      refine List.filter_eq_self.mpr fun other hother => decide_eq_true ?_
      rintro rfl
      exact Dict.get?_eq_none_iff.mp hget ((h.keys other).mpr hother)
    rw [hheld]
    exact h
  | some gpus =>
    refine ⟨GpuPool.inUseIndices_release (h.gpus.trans (flatten_erase hget)), fun other => ?_⟩
    show other ∈ (p.assignments.erase id).keys ↔ _
    rw [Dict.mem_keys_erase, List.mem_filter, h.keys, decide_eq_true_iff]
    exact and_comm

theorem mem_keys_releaseContainer {p : PoolState} {id other : String} :
    other ∈ (p.releaseContainer id).assignments.keys ↔ other ≠ id ∧ other ∈ p.assignments.keys := by
  simp only [releaseContainer]
  cases hget : p.assignments.get? id with
  | none =>
    refine ⟨fun h => ⟨?_, h⟩, fun h => h.2⟩
    rintro rfl
    exact Dict.get?_eq_none_iff.mp hget h
  | some gpus => exact Dict.mem_keys_erase

/-- A started container holds the GPUs that were taken for it. -/
theorem Accounts.take {p : PoolState} {held : List String} (h : p.Accounts held) {id : String}
    (hid : id ∉ held) (want : Nat) :
    (⟨(p.gpus.allocate want).2, p.assignments.insert id (p.gpus.allocate want).1⟩ :
      PoolState).Accounts (id :: held) where
  gpus := by
    have hget : p.assignments.get? id = none :=
      Dict.get?_eq_none_iff.mpr fun hkey => hid ((h.keys id).mp hkey)
    exact (p.gpus.inUseIndices_allocate want).trans
      ((h.gpus.append_left _).trans (flatten_insert hget _).symm)
  keys := by
    intro other
    show other ∈ (p.assignments.insert id _).keys ↔ _
    rw [Dict.mem_keys_insert, List.mem_cons, h.keys]

/-- As many GPUs are in use as are assigned. -/
theorem Accounts.inUse_eq_assigned {p : PoolState} {held : List String} (h : p.Accounts held) :
    p.gpus.inUse = p.assigned := by
  rw [GpuPool.inUse_eq_length]
  exact h.gpus.length_eq

/-- No GPU is held twice. -/
theorem Accounts.flatten_nodup {p : PoolState} {held : List String} (h : p.Accounts held) :
    p.assignments.values.flatten.Nodup :=
  h.gpus.nodup_iff.mp (p.gpus.withStatus_nodup _)

/-- A GPU is in use when some container holds it. -/
theorem Accounts.status?_eq_inUse_iff {p : PoolState} {held : List String} (h : p.Accounts held)
    (i : UInt32) :
    p.gpus.status? i = some .inUse ↔ ∃ id gpus, p.assignments.get? id = some gpus ∧ i ∈ gpus := by
  rw [← GpuPool.mem_withStatus]
  show i ∈ p.gpus.inUseIndices ↔ _
  rw [h.gpus.mem_iff, List.mem_flatten]
  constructor
  · rintro ⟨gpus, hgpus, hi⟩
    obtain ⟨⟨id, _⟩, hmem, rfl⟩ := List.mem_map.mp hgpus
    exact ⟨id, _, Dict.get?_eq_some_iff.mpr hmem, hi⟩
  · rintro ⟨id, gpus, hget, hi⟩
    exact ⟨gpus, List.mem_map.mpr ⟨(id, gpus), Dict.get?_eq_some_iff.mp hget, rfl⟩, hi⟩

end PoolState

namespace ContainerPool

variable {serving : ServingSettings} {spec : TaskSpec} {pool : PoolState}
  {before events : List EngineEvent}

/-! ## Launches -/

/-- However a launch ends, the pool accounts for the containers that hold GPUs. -/
theorem LaunchEnd.accounts {r : Pooled (Except BackendError String)}
    (hend : LaunchEnd serving spec pool r events) (h : pool.Accounts (heldIds before))
    (hfresh : FreshIds (before ++ events)) : r.pool.Accounts (heldIds (before ++ events)) := by
  rw [heldIds_append]
  cases hend with
  | refused suffix e => exact h
  | unstarted suffix id e cleanup =>
    -- it never started, so removing it takes nothing from the holders
    have hid : id ∉ heldIds before := hfresh before _ id _ rfl
    have hheld : (heldIds before).filter (· ≠ id) = heldIds before := by
      refine List.filter_eq_self.mpr fun other hother => decide_eq_true ?_
      rintro rfl
      exact hid hother
    cases cleanup with
    | error _ => exact h
    | ok _ =>
      show pool.Accounts ((heldIds before).filter (· ≠ id))
      rw [hheld]
      exact h
  | running suffix id => exact h.take (hfresh before _ id _ rfl) _

theorem LaunchEnd.pool_of_error {next : PoolState} {e : BackendError}
    (hend : LaunchEnd serving spec pool ⟨.error e, next⟩ events) : next = pool := by
  cases hend with
  | refused => rfl
  | unstarted => rfl

theorem LaunchEnd.mem_keys_of_ok {next : PoolState} {id other : String}
    (hend : LaunchEnd serving spec pool ⟨.ok id, next⟩ events) :
    other ∈ next.assignments.keys ↔ other = id ∨ other ∈ pool.assignments.keys := by
  cases hend with
  | running => exact Dict.mem_keys_insert

/-- The id of a container that started held no GPUs before. -/
theorem LaunchEnd.not_mem_keys {next : PoolState} {id : String}
    (hend : LaunchEnd serving spec pool ⟨.ok id, next⟩ events)
    (h : pool.Accounts (heldIds before)) (hfresh : FreshIds (before ++ events)) :
    id ∉ pool.assignments.keys := by
  cases hend with
  | running suffix => exact fun hkey => hfresh before _ id _ rfl ((h.keys id).mp hkey)

variable {n : Nat} {launched : Pooled Launched}

/-- Whatever becomes of the launches, the pool accounts for the containers
    that hold GPUs. -/
theorem LaunchRound.accounts (hround : LaunchRound serving spec n pool launched events)
    (h : pool.Accounts (heldIds before)) (hfresh : FreshIds (before ++ events)) :
    launched.pool.Accounts (heldIds (before ++ events)) := by
  induction hround generalizing before with
  | finished pool =>
    rw [List.append_nil]
    exact h
  | started hend _ ih =>
    rw [← List.append_assoc] at hfresh ⊢
    exact ih (hend.accounts h hfresh.of_append) hfresh
  | failed hend _ ih =>
    rw [← List.append_assoc] at hfresh ⊢
    exact ih (hend.accounts h hfresh.of_append) hfresh

/-- The holders after launches are those before and those that started. -/
theorem LaunchRound.mem_keys (hround : LaunchRound serving spec n pool launched events)
    (id : String) :
    id ∈ launched.pool.assignments.keys ↔
      id ∈ launched.result.started ∨ id ∈ pool.assignments.keys := by
  induction hround with
  | finished pool => exact (or_iff_right List.not_mem_nil).symm
  | started hend _ ih =>
    show id ∈ _ ↔ id ∈ _ :: _ ∨ _
    rw [ih, hend.mem_keys_of_ok, List.mem_cons, or_assoc, or_left_comm]
  | failed hend _ ih =>
    rw [hend.pool_of_error] at ih
    exact ih

/-- The ids that start are new, and different from each other. -/
theorem LaunchRound.started_new (hround : LaunchRound serving spec n pool launched events)
    (h : pool.Accounts (heldIds before)) (hfresh : FreshIds (before ++ events)) :
    launched.result.started.Nodup ∧ ∀ id ∈ launched.result.started, id ∉ pool.assignments.keys := by
  induction hround generalizing before with
  | finished pool => exact ⟨List.nodup_nil, fun id hid => absurd hid List.not_mem_nil⟩
  | @started _ _ _ first _ _ _ hend _ ih =>
    rw [← List.append_assoc] at hfresh
    obtain ⟨hnodup, hnew⟩ := ih (hend.accounts h hfresh.of_append) hfresh
    -- the first one holds GPUs by the time the others are created
    have hfirst : first ∉ _ := fun hmem => hnew first hmem (hend.mem_keys_of_ok.mpr (.inl rfl))
    refine ⟨List.nodup_cons.mpr ⟨hfirst, hnodup⟩, fun id hid => ?_⟩
    rcases List.mem_cons.mp hid with rfl | hid
    · exact hend.not_mem_keys h hfresh.of_append
    · exact fun hkey => hnew id hid (hend.mem_keys_of_ok.mpr (.inr hkey))
  | failed hend _ ih =>
    rw [← List.append_assoc] at hfresh
    obtain ⟨hnodup, hnew⟩ := ih (hend.accounts h hfresh.of_append) hfresh
    rw [hend.pool_of_error] at hnew
    exact ⟨hnodup, hnew⟩

/-! ## Stops -/

variable {ids : List String} {left : Pooled (List String)}

/-- Whatever becomes of the stops, the pool accounts for the containers
    that hold GPUs. -/
theorem StopRound.accounts (hround : StopRound ids pool left events)
    (h : pool.Accounts (heldIds before)) : left.pool.Accounts (heldIds (before ++ events)) := by
  induction hround generalizing before with
  | finished pool =>
    rw [List.append_nil]
    exact h
  | @stopped id _ _ _ later _ ih =>
    have hone : heldIds (before ++ [.stopped id (.ok ())]) = (heldIds before).filter (· ≠ id) :=
      heldIds_append ..
    rw [List.append_cons]
    refine ih ?_
    rw [hone]
    exact h.releaseContainer id
  | @kept id _ _ _ later e _ ih =>
    have hone : heldIds (before ++ [.stopped id (.error e)]) = heldIds before := heldIds_append ..
    rw [List.append_cons]
    refine ih ?_
    rw [hone]
    exact h

/-- Those that did not stop are some of those that should. -/
theorem StopRound.sublist (hround : StopRound ids pool left events) : left.result.Sublist ids := by
  induction hround with
  | finished => exact List.Sublist.refl _
  | stopped _ ih => exact ih.cons _
  | kept _ _ ih => exact ih.cons_cons _

/-- Those that stopped hold no GPUs any more, and the others still do. -/
theorem StopRound.mem_keys (hround : StopRound ids pool left events) (hnodup : ids.Nodup)
    (id : String) :
    id ∈ left.pool.assignments.keys ↔
      id ∈ pool.assignments.keys ∧ (id ∈ ids → id ∈ left.result) := by
  induction hround with
  | finished => exact ⟨fun h => ⟨h, fun hid => absurd hid List.not_mem_nil⟩, fun h => h.1⟩
  | @stopped first rest _ _ _ hround ih =>
    obtain ⟨hfirst, hrest⟩ := List.nodup_cons.mp hnodup
    rw [ih hrest, PoolState.mem_keys_releaseContainer]
    constructor
    · rintro ⟨⟨hne, hkey⟩, hkept⟩
      refine ⟨hkey, fun hid => ?_⟩
      rcases List.mem_cons.mp hid with rfl | hid
      · exact absurd rfl hne
      · exact hkept hid
    · rintro ⟨hkey, hkept⟩
      refine ⟨⟨?_, hkey⟩, fun hid => hkept (List.mem_cons_of_mem _ hid)⟩
      -- it is not among the rest, since no id is on record twice
      rintro rfl
      exact hfirst (hround.sublist.subset (hkept List.mem_cons_self))
  | @kept first rest _ _ _ _ _ ih =>
    obtain ⟨hfirst, hrest⟩ := List.nodup_cons.mp hnodup
    rw [ih hrest]
    constructor
    · rintro ⟨hkey, hkept⟩
      refine ⟨hkey, fun hid => ?_⟩
      rcases List.mem_cons.mp hid with rfl | hid
      · exact List.mem_cons_self
      · exact List.mem_cons_of_mem _ (hkept hid)
    · rintro ⟨hkey, hkept⟩
      refine ⟨hkey, fun hid => ?_⟩
      rcases List.mem_cons.mp (hkept (List.mem_cons_of_mem _ hid)) with rfl | hmem
      · exact absurd hid hfirst
      · exact hmem

end ContainerPool

end ServingPlane
