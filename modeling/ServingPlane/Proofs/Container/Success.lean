import ServingPlane.Proofs.Container.Accounting

/-! # Reconciles that succeed

    Where the engine does all that it is asked, and gives a new container
    no id that a live one has, a reconcile does what it is for: as many
    replicas are on record as the spec asks for, nothing is on record for
    none, and the containers that are alive are those that hold GPUs,
    which are those on record. -/

namespace ServingPlane

/-- The ids of the live containers after one more event. -/
def EngineEvent.living (alive : List String) : EngineEvent → List String
  | .created _ (.ok id) => id :: alive
  | .stopped id (.ok _) => alive.filter (· ≠ id)
  | _ => alive

/-- The ids of the containers that were created and have not been removed since. -/
def aliveIds (events : List EngineEvent) : List String := events.foldl EngineEvent.living []

/-- The engine did what it was asked, and gave no id that a live container has. -/
def EngineEvent.Succeeds (before : List EngineEvent) : EngineEvent → Prop
  | .fetched _ answer => answer = .ok ()
  | .created _ answer => ∃ id, answer = .ok id ∧ id ∉ aliveIds before
  | .started _ answer => answer = .ok ()
  | .stopped _ answer => answer = .ok ()
  | .inspected _ answer => ∃ found, answer = .ok found

/-- All later events succeed. -/
def Smooth : List EngineEvent → List EngineEvent → Prop
  | _, [] => True
  | before, event :: later => event.Succeeds before ∧ Smooth (before ++ [event]) later

theorem smooth_append {before first later : List EngineEvent} :
    Smooth before (first ++ later) ↔ Smooth before first ∧ Smooth (before ++ first) later := by
  induction first generalizing before with
  | nil =>
    rw [List.append_nil]
    exact ⟨fun h => ⟨trivial, h⟩, fun h => h.2⟩
  | cons event first ih =>
    show _ ∧ Smooth (before ++ [event]) (first ++ later)
      ↔ (_ ∧ Smooth (before ++ [event]) first) ∧ _
    rw [ih, and_assoc, ← List.append_cons]

/-- No id was ever given twice at a time, and the live containers are those
    that hold GPUs. -/
structure Balanced (events : List EngineEvent) : Prop where
  fresh : FreshIds events
  alive : ∀ id, id ∈ aliveIds events ↔ id ∈ heldIds events

theorem balanced_nil : Balanced [] := ⟨freshIds_nil, fun _ => Iff.rfl⟩

theorem aliveIds_append (before events : List EngineEvent) :
    aliveIds (before ++ events) = events.foldl EngineEvent.living (aliveIds before) :=
  List.foldl_append

namespace Balanced

variable {before : List EngineEvent}

theorem fetched (h : Balanced before) (image : String) (answer : Except BackendError Unit) :
    Balanced (before ++ [.fetched image answer]) where
  fresh := h.fresh.concat fun _ _ hc => (nomatch hc)
  alive := by
    intro id
    rw [aliveIds_append, heldIds_append]
    exact h.alive id

theorem stopped (h : Balanced before) (id : String) :
    Balanced (before ++ [.stopped id (.ok ())]) where
  fresh := h.fresh.concat fun _ _ hc => (nomatch hc)
  alive := by
    intro other
    rw [aliveIds_append, heldIds_append]
    show other ∈ (aliveIds before).filter _ ↔ other ∈ (heldIds before).filter _
    rw [List.mem_filter, List.mem_filter, h.alive]

/-- A container is created and started. -/
theorem launched (h : Balanced before) {id : String} (hid : id ∉ aliveIds before)
    (launch : ContainerLaunch) :
    Balanced (before ++ [.created launch (.ok id), .started id (.ok ())]) where
  fresh := by
    rw [List.append_cons]
    refine (h.fresh.concat ?_).concat fun _ _ hc => (nomatch hc)
    rintro _ _ ⟨⟩
    exact fun hheld => hid ((h.alive id).mpr hheld)
  alive := by
    intro other
    rw [aliveIds_append, heldIds_append]
    show other ∈ id :: aliveIds before ↔ other ∈ id :: heldIds before
    rw [List.mem_cons, List.mem_cons, h.alive]

end Balanced

/-- As many ids are on record for a task as given, and no record is kept of none. -/
def Store.Holds (s : Store) (task : String) (count : Nat) : Prop :=
  ∃ record, s.containerIds task = .ok record ∧ (record.getD []).length = count ∧
    (count = 0 → record = none)

/-- The books balance, and the live containers are those that hold GPUs. -/
structure Tidy (pool : PoolState) (w : PoolWorld) : Prop where
  accounted : Accounted pool w
  balanced : Balanced w.events

/-- The live containers are those on record. -/
theorem Tidy.mem_aliveIds {pool : PoolState} {w : PoolWorld} (h : Tidy pool w) (id : String) :
    id ∈ aliveIds w.events ↔ ∃ task, id ∈ w.store.idsOf task := by
  rw [h.balanced.alive, ← h.accounted.assigned.keys, h.accounted.recorded]

namespace ContainerPool

variable {serving : ServingSettings} {spec : TaskSpec} {pool : PoolState} {w w' : PoolWorld}
  {before events : List EngineEvent}

theorem LaunchEnd.of_smooth {r : Pooled (Except BackendError String)}
    (hend : LaunchEnd serving spec pool r events) (hsmooth : Smooth before events)
    (h : Balanced before) : (∃ id, r.result = .ok id) ∧ Balanced (before ++ events) := by
  cases hend with
  | refused suffix e =>
    obtain ⟨⟨id, hid, -⟩, -⟩ := hsmooth
    exact nomatch hid
  | unstarted suffix id e cleanup =>
    obtain ⟨-, hstart, -⟩ := hsmooth
    exact nomatch hstart
  | running suffix id =>
    obtain ⟨⟨other, heq, hid⟩, -⟩ := hsmooth
    obtain rfl : id = other := Except.ok.inj heq
    exact ⟨⟨id, rfl⟩, h.launched hid _⟩

/-- Every launch starts a container. -/
theorem LaunchRound.of_smooth {n : Nat} {launched : Pooled Launched}
    (hround : LaunchRound serving spec n pool launched events) (hsmooth : Smooth before events)
    (h : Balanced before) : launched.result.started.length = n ∧ Balanced (before ++ events) := by
  induction hround generalizing before with
  | finished pool =>
    rw [List.append_nil]
    exact ⟨rfl, h⟩
  | started hend _ ih =>
    obtain ⟨hfirst, hlater⟩ := smooth_append.mp hsmooth
    obtain ⟨hlength, hbalanced⟩ := ih hlater (hend.of_smooth hfirst h).2
    rw [← List.append_assoc]
    exact ⟨congrArg (· + 1) hlength, hbalanced⟩
  | failed hend _ _ =>
    obtain ⟨id, hid⟩ := (hend.of_smooth (smooth_append.mp hsmooth).1 h).1
    exact nomatch hid

/-- Every stop removes a container. -/
theorem StopRound.of_smooth {ids : List String} {left : Pooled (List String)}
    (hround : StopRound ids pool left events) (hsmooth : Smooth before events)
    (h : Balanced before) : left.result = [] ∧ Balanced (before ++ events) := by
  induction hround generalizing before with
  | finished pool =>
    rw [List.append_nil]
    exact ⟨rfl, h⟩
  | @stopped id _ _ _ _ _ ih =>
    rw [List.append_cons]
    exact ih hsmooth.2 (h.stopped id)
  | kept e _ _ => exact nomatch hsmooth.1

/-- A reconcile that succeeds brings the number of replicas on record to that
    of the spec, and leaves the records of other tasks alone. -/
theorem Reconciliation.of_smooth {r : Pooled (Except BackendError Unit)}
    (hrun : Reconciliation serving spec pool w r w') (hevents : w'.events = w.events ++ events)
    (hsmooth : Smooth w.events events) (h : Tidy pool w) :
    Tidy r.pool w' ∧ w'.store.Holds spec.name spec.replica.toNat ∧
      ∀ name, name ≠ spec.name → w'.store.containerIds name = w.store.containerIds name := by
  -- the books balance whatever happens, so only the events and the record are left
  suffices hmain : Balanced w'.events ∧ w'.store.Holds spec.name spec.replica.toNat ∧
      ∀ name, name ≠ spec.name → w'.store.containerIds name = w.store.containerIds name from
    ⟨⟨hrun.accounted h.accounted hmain.1.fresh, hmain.1⟩, hmain.2⟩
  cases hrun with
  | unreadable hread =>
    obtain ⟨record, hlegible⟩ := h.accounted.legible spec.name
    rw [hread] at hlegible
    exact nomatch hlegible
  | settled hread hlength hsome =>
    refine ⟨h.balanced, ⟨_, hread, hlength, fun hzero => ?_⟩, fun _ _ => rfl⟩
    exact Option.not_isSome_iff_eq_none.mp fun hc => hsome hc hzero
  | unfetched hread hlength =>
    obtain rfl := List.append_cancel_left hevents
    exact nomatch hsmooth.1
  | @grown record launched _ hread hlength hround =>
    obtain rfl := List.append_cancel_left hevents
    obtain ⟨hcount, hbalanced⟩ := hround.of_smooth hsmooth.2 (h.balanced.fetched _ _)
    refine ⟨?_, ⟨some _, (Store.containerIds_put ..).trans (if_pos rfl), ?_, fun hzero => ?_⟩,
      fun name hname => (Store.containerIds_put ..).trans (if_neg hname)⟩
    · show Balanced (w.events ++ _ :: _)
      rw [List.append_cons]
      exact hbalanced
    · show (record.getD [] ++ launched.result.started).length = _
      rw [List.length_append, hcount]
      omega
    · omega
  | @shrunk ids left _ hread hwanted hlength hround =>
    obtain rfl := List.append_cancel_left hevents
    obtain ⟨hleft, hbalanced⟩ := hround.of_smooth hsmooth h.balanced
    refine ⟨hbalanced, ⟨some _, (Store.containerIds_put ..).trans (if_pos rfl), ?_,
      fun hzero => absurd hzero hwanted⟩,
      fun name hname => (Store.containerIds_put ..).trans (if_neg hname)⟩
    show (left.result ++ ids.drop _).length = _
    rw [hleft, List.nil_append, List.length_drop]
    omega
  | tornDown hread hwanted hround =>
    obtain rfl := List.append_cancel_left hevents
    refine ⟨(hround.of_smooth hsmooth h.balanced).2,
      ⟨none, (Store.containerIds_delete ..).trans (if_pos rfl), hwanted.symm, fun _ => rfl⟩,
      fun name hname => (Store.containerIds_delete ..).trans (if_neg hname)⟩
  | stuck hread hwanted hround hleft =>
    obtain rfl := List.append_cancel_left hevents
    exact absurd (hround.of_smooth hsmooth h.balanced).1 hleft

end ContainerPool

/-- The engine succeeds; the store answers as it does. -/
def PoolWorld.succeed {β : Type} (w : PoolWorld) (call : PoolCall β) (answer : β)
    (w' : PoolWorld) : Prop :=
  w.respond call answer w' ∧
    match call with
    | .inl call => (EngineEvent.of call answer).Succeeds w.events
    | .inr _ => True

/-- What a program does with an engine that succeeds, it may do with any
    engine, and all events of it succeed. -/
theorem Program.runs_succeed {α : Type} {p : Program PoolCall α} {w w' : PoolWorld} {a : α}
    (h : p.Runs PoolWorld.succeed w a w') :
    p.Runs PoolWorld.respond w a w' ∧
      ∃ later, w'.events = w.events ++ later ∧ Smooth w.events later := by
  induction p generalizing w with
  | done b =>
    obtain ⟨rfl, rfl⟩ := h
    exact ⟨⟨rfl, rfl⟩, [], (List.append_nil _).symm, trivial⟩
  | call e k ih =>
    obtain ⟨answer, u, ⟨hrespond, hsucceeds⟩, h⟩ := h
    obtain ⟨hruns, later, hlater, hsmooth⟩ := ih answer h
    refine ⟨⟨answer, u, hrespond, hruns⟩, ?_⟩
    cases e with
    | inl e =>
      obtain rfl := hrespond
      refine ⟨.of e answer :: later, ?_, hsucceeds, hsmooth⟩
      rw [hlater]
      exact List.append_assoc ..
    | inr e =>
      obtain ⟨suffix, rfl, rfl⟩ := hrespond
      exact ⟨later, hlater, hsmooth⟩

end ServingPlane
