import ServingPlane.Proofs.Plane.Assembly

/-! # Convergence

    Whenever nothing is under way and nothing is queued, the containers
    are those that the registry asks for.  What carries this from the
    registry to the engine is one invariant: however the work of the
    scaler ends from here on, each task that does not wait in the queue
    has on record the replicas that were asked for last.  A step of the
    work only leaves fewer ends, and a spec taken from the queue is the
    last one of its task, so what it adds to the work makes up for its
    no longer waiting. -/

namespace ServingPlane

/-- The replicas that were asked for last. -/
def wanted (accepted : List TaskSpec) (name : String) : Nat :=
  ((lastOf accepted name).map (·.replica.toNat)).getD 0

theorem wanted_concat_of_ne {accepted : List TaskSpec} {spec : TaskSpec} {name : String}
    (h : name ≠ spec.name) : wanted (accepted ++ [spec]) name = wanted accepted name := by
  simp only [wanted]
  rw [lastOf_concat, if_neg h]

theorem wanted_eq_of_lastOf {accepted : List TaskSpec} {spec : TaskSpec} {name : String}
    (h : lastOf accepted name = some spec) : wanted accepted name = spec.replica.toNat := by
  simp only [wanted]
  rw [h]
  rfl

namespace Assembly

/-- The pool is in order, and each task that does not wait in the queue has
    on record the replicas that were asked for last. -/
structure Settled (s : Schedule) (pool : PoolState) (w : PoolWorld) : Prop where
  tidy : Tidy pool w
  holds : ∀ name, s.plane.queue.pending.get? name = none →
    w.store.Holds name (wanted s.accepted name)

/-- What every step keeps. -/
structure Sound (a : Assembly) : Prop where
  schedule : a.schedule.Sound
  newest : a.schedule.Newest
  ends : ∀ pool w, a.work.Runs PoolWorld.succeed a.world pool w → Settled a.schedule pool w

variable {d : Detector} {serving : ServingSettings} {a : Assembly} {s : Schedule}
  {pool : PoolState} {w w' : PoolWorld}

theorem sound_start (capacity : Nat) (indices : List UInt32) : (start capacity indices).Sound where
  schedule := Schedule.sound_start capacity
  newest := Schedule.newest_start capacity
  ends := by
    rintro pool w ⟨rfl, rfl⟩
    exact ⟨⟨Accounted.ofIndices indices, balanced_nil⟩, fun _ _ => ⟨none, rfl, rfl, fun _ => rfl⟩⟩

/-- What is queued anew waits. -/
theorem Settled.of_effect (h : Settled a.schedule pool w) (heffect : Schedule.Effect a.schedule s) :
    Settled s pool w := by
  refine ⟨h.tidy, fun name hname => ?_⟩
  rcases heffect.queued with ⟨hpending, haccepted⟩ | ⟨spec, hpending, haccepted⟩
  · rw [hpending] at hname
    rw [haccepted]
    exact h.holds name hname
  · rw [hpending, Dict.get?_insert] at hname
    by_cases hspec : name = spec.name
    · rw [if_pos hspec] at hname
      exact nomatch hname
    · rw [if_neg hspec] at hname
      rw [haccepted, wanted_concat_of_ne hspec]
      exact h.holds name hname

theorem Sound.of_effect (h : a.Sound) (hsound : s.Sound) (heffect : Schedule.Effect a.schedule s) :
    ({ a with schedule := s } : Assembly).Sound where
  schedule := hsound
  newest := h.newest.of_effect heffect
  ends := by
    intro pool w hruns
    have hworld : ({ a with schedule := s } : Assembly).world = a.world := by
      simp only [world, Store.records]
      rw [heffect.containers]
    rw [hworld] at hruns
    exact (h.ends pool w hruns).of_effect heffect

/-- To scale to the last spec of a task settles the task, and unsettles no other. -/
theorem Settled.scale {taken : Schedule} {after : PoolState} {spec : TaskSpec}
    (h : Settled s pool w) (hlast : lastOf s.accepted spec.name = some spec)
    (hpending : taken.plane.queue.pending = s.plane.queue.pending.erase spec.name)
    (haccepted : taken.accepted = s.accepted)
    (hruns : (ContainerPool.scale serving spec pool).Runs PoolWorld.succeed w after w') :
    Settled taken after w' := by
  obtain ⟨hruns, later, hevents, hsmooth⟩ := Program.runs_succeed hruns
  obtain ⟨r, hrun, rfl⟩ := ContainerPool.runs_scale.mp hruns
  obtain ⟨htidy, hholds, hothers⟩ := hrun.of_smooth hevents hsmooth h.tidy
  refine ⟨htidy, fun name hname => ?_⟩
  rw [haccepted]
  by_cases hspec : name = spec.name
  · rw [hspec, wanted_eq_of_lastOf hlast]
    exact hholds
  · rw [hpending, Dict.get?_erase, if_neg hspec] at hname
    simp only [Store.Holds]
    rw [hothers name hspec]
    exact h.holds name hname

theorem Sound.consume (h : a.Sound) (serving : ServingSettings) : (a.consume serving).Sound := by
  have hsound : a.schedule.consume.2.Sound :=
    h.schedule.beside a.schedule.plane.store _ (h.schedule.tracks.consume a.schedule.consumer)
  simp only [Assembly.consume]
  rcases hconsume : a.schedule.consume with ⟨result, s⟩
  rw [hconsume] at hsound
  rcases Schedule.consume_cases a.schedule with
    ⟨heffect, hnone⟩ | ⟨name, spec, hspec, hresult, hpending⟩
  · rw [hconsume] at heffect hnone
    have hkept : ({ a with schedule := s } : Assembly).Sound := h.of_effect hsound heffect
    cases result with
    | none => exact hkept
    | some result =>
      cases result with
      | spec spec => exact absurd rfl (hnone spec)
      | drained => exact hkept
      | nothingYet => exact hkept
  · rw [hconsume] at hresult hpending
    obtain rfl : result = some (.spec spec) := hresult
    obtain ⟨rfl, hlast⟩ := h.newest name spec hspec
    obtain rfl : a.schedule.consume.2 = s := congrArg Prod.snd hconsume
    refine ⟨hsound, h.newest.of_erase hpending rfl, fun pool w hruns => ?_⟩
    -- the work ends as it would have, and then the taken spec is scaled to
    obtain ⟨before, u, hbefore, hscale⟩ := Program.runs_bind.mp hruns
    exact (h.ends before u hbefore).scale hlast hpending rfl hscale

/-- A step of the scaler leaves no end that was not there before. -/
theorem Sound.proceed (h : a.Sound) (suffix id : String) : (a.proceed suffix id).Sound := by
  simp only [Assembly.proceed]
  cases hwork : a.work with
  | done pool => exact h
  | call e k =>
    cases e with
    | inl e =>
      dsimp only
      cases hreuses : e.reuses a.events id with
      | true => exact h
      | false =>
        refine ⟨h.schedule, h.newest, fun pool w hruns => h.ends pool w ?_⟩
        rw [hwork]
        exact ⟨_, _, ⟨rfl, EngineEvent.succeeds_success hreuses⟩, hruns⟩
    | inr e =>
      let s := a.schedule
      have hsound : ({ s with plane := { s.plane with
          store := (ContainerPool.record s.plane.store suffix e).2 } } : Schedule).Sound :=
        h.schedule.beside _ s.consumer h.schedule.tracks
      refine ⟨hsound, h.newest, fun pool w hruns => ?_⟩
      have hset : Settled s pool w := by
        refine h.ends pool w ?_
        rw [hwork]
        -- the store answers alike with and without its histories
        refine ⟨_, ⟨_, _⟩, ⟨⟨suffix, rfl, rfl⟩, trivial⟩, ?_⟩
        simp only [world]
        rw [ContainerPool.record_records]
        exact hruns
      exact ⟨hset.tidy, hset.holds⟩

/-- Every step keeps the invariant. -/
theorem Sound.step (h : a.Sound) (d : Detector) (serving : ServingSettings) (action : Action) :
    (a.step d serving action).Sound := by
  have hcontrol : ∀ action : Schedule.Action, action ≠ .consume → (∀ store, action ≠ .write store) →
      ({ a with schedule := a.schedule.step d action } : Assembly).Sound :=
    fun action hconsume hwrite =>
      h.of_effect (h.schedule.step d action) (a.schedule.effect_step d hconsume hwrite)
  cases action with
  | work suffix id => exact h.proceed suffix id
  | control action =>
    cases action with
    | consume => exact h.consume serving
    | write store => exact h
    | _ => exact hcontrol _ (fun hc => (nomatch hc)) fun _ hc => (nomatch hc)

/-- Every run keeps the invariant. -/
theorem sound_run (d : Detector) (serving : ServingSettings) (capacity : Nat)
    (indices : List UInt32) (actions : List Action) :
    (run d serving capacity indices actions).Sound :=
  List.foldlRecOn actions (Assembly.step d serving) (sound_start capacity indices)
    fun _ h action _ => h.step d serving action

/-- While nothing is under way and nothing waits, each task has on record
    the replicas that were asked for last, and the pool is in order. -/
theorem Sound.settled (h : a.Sound) (hquiet : a.Quiet) :
    ∃ pool, Tidy pool a.world ∧
      ∀ name, a.world.store.Holds name (wanted a.schedule.accepted name) := by
  obtain ⟨pool, hwork⟩ := hquiet.work
  have hset : Settled a.schedule pool a.world := by
    refine h.ends pool a.world ?_
    rw [hwork]
    exact ⟨rfl, rfl⟩
  exact ⟨pool, hset.tidy, fun name => hset.holds name (Dict.get?_of_size_eq_zero hquiet.queue name)⟩

/-- The registry is free while no request is under way. -/
theorem Sound.agree (h : a.Sound) (hquiet : a.Quiet) :
    Agree a.schedule.plane.registry a.schedule.accepted := by
  refine h.schedule.agree (Bool.eq_false_iff.mpr fun hlocked => ?_)
  obtain ⟨i, b, hb, -⟩ := h.schedule.holder hlocked
  rw [hquiet.requests] at hb
  exact nomatch hb

/-- However deploys, deletes, recoveries, the consumer and the scaler are
    interleaved, and wherever a request is given up: once nothing is under
    way and nothing is queued, as many containers are on record for each
    registered task as its spec has replicas, none for any other task, and
    the containers alive are exactly those on record. -/
theorem quiet_converged (d : Detector) (serving : ServingSettings) (capacity : Nat)
    (indices : List UInt32) (actions : List Action)
    (hquiet : (run d serving capacity indices actions).Quiet) :
    let a := run d serving capacity indices actions
    (∀ name task, a.schedule.plane.registry.get? name = some task →
      a.schedule.plane.store.Holds name task.spec.replica.toNat) ∧
    (∀ name, a.schedule.plane.registry.get? name = none →
      a.schedule.plane.store.containerIds name = .ok none) ∧
    ∀ id, id ∈ aliveIds a.events ↔ ∃ name, id ∈ a.schedule.plane.store.idsOf name := by
  intro a
  have h : a.Sound := sound_run d serving capacity indices actions
  have hagree := h.agree hquiet
  obtain ⟨pool, htidy, hholds⟩ := h.settled hquiet
  refine ⟨fun name task htask => ?_, fun name hnone => ?_, htidy.mem_aliveIds⟩
  · rw [← wanted_eq_of_lastOf (hagree.registered name task htask)]
    exact hholds name
  -- what is not registered was queued without replicas last, if at all
  · have hzero : wanted a.schedule.accepted name = 0 := by
      simp only [wanted]
      cases hlast : lastOf a.schedule.accepted name with
      | none => rfl
      | some spec =>
        show spec.replica.toNat = 0
        rw [hagree.gone name spec hnone hlast]
        rfl
    obtain ⟨record, hread, -, hrecord⟩ := hholds name
    rw [← hrecord hzero]
    exact hread

/-- An outside that knows of nothing. -/
def silent : {β : Type} → OutsideCall β → β
  | _, .isRunning _ => .ok false
  | _, .instances _ => .ok []
  | _, .now => ⟨0, 0⟩
  | _, .gather _ => []
  | _, .advise _ => .error "unreachable"
  | _, .report .. => .ok ()

/-- A task is deployed with two replicas, and deployed again with one while
    the first of them is being started. -/
def redeploy : List Action :=
  let spec : TaskSpec := { TaskSpec.blank with name := "chat", model := "model" }
  let request (replica : UInt32) : List Action :=
    .control (.begin 0 (.deploy { spec with replica }))
      :: List.replicate 7 (.control (.advance 0 silent))
  let pop : List Action := [.control (.take true), .control .consume, .control .consume]
  let launch (id : String) : List Action := List.replicate 3 (.work "0000" id)
  request 2 ++ pop ++ [.work "" "", .work "" ""] ++ launch "c1" ++ request 1 ++ pop ++ launch "c2"
    ++ List.replicate 4 (.work "" "")

def redeployed : Assembly :=
  run ⟨⟨⟨"metrics"⟩, ⟨0, 0⟩, "1m"⟩, ⟨"advisor"⟩, false⟩ default 1 [0, 1] redeploy

/-- Both replicas start, and the first of them is stopped. -/
theorem quiet_converged_of_redeploy :
    redeployed.Quiet ∧
    (∃ task, redeployed.schedule.plane.registry.get? "chat" = some task ∧ task.spec.replica = 1) ∧
    redeployed.schedule.plane.store.Holds "chat" 1 ∧
    ∃ name, "c2" ∈ redeployed.schedule.plane.store.idsOf name := by
  have hquiet : redeployed.Quiet := by
    refine ⟨fun i => ?_, ⟨_, rfl⟩, rfl⟩
    cases i with
    | zero => rfl
    | succ i => rfl
  have hregistered : ∃ task, redeployed.schedule.plane.registry.get? "chat" = some task ∧
      task.spec.replica = 1 := ⟨_, rfl, rfl⟩
  have halive : "c2" ∈ aliveIds redeployed.events := .head _
  have hconverged := quiet_converged _ _ _ _ redeploy hquiet
  obtain ⟨task, htask, hreplica⟩ := hregistered
  have hholds := hconverged.1 "chat" task htask
  rw [hreplica] at hholds
  exact ⟨hquiet, ⟨task, htask, hreplica⟩, hholds, (hconverged.2.2 "c2").mp halive⟩

end Assembly

end ServingPlane
