import ServingPlane.Proofs.Detector.Discipline
import ServingPlane.Proofs.Metrics.Gathering
import ServingPlane.Proofs.Plane.Exchange

/-! # The order of visits

    A visit is confined to the task it looks after: it observes the task,
    asks for a verdict, and exchanges the task's own spec.  So the visits of
    one cycle do not get into each other's way, and whichever of two orders
    a cycle follows, it leaves the same registry, the same specs that wait
    and the same histories, and has asked and reported the same.  Only the
    names in the channel of the queue stand in the order of the visits. -/

namespace ServingPlane

/-! ## The calls of a visit -/

/-- The clock does show something, and how the metrics turn out does not
    depend on the window that it leads to. -/
structure Outside.Steady (o : Outside) (c : MetricsCollection) : Prop where
  clock : ∃ now, o.clock now
  window : ∀ now later, o.clock now → o.clock later →
    (QueryWindow.endingAt now c.lookback c.step).isSome
      = (QueryWindow.endingAt later c.lookback c.step).isSome
  metrics : ∀ query window other,
    o.metrics (c.server.rangeRequest query window) = o.metrics (c.server.rangeRequest query other)

theorem Outside.Steady.collected_eq {o : Outside} {c : MetricsCollection} (h : o.Steady c)
    {now later : Instant} (hnow : o.clock now) (hlater : o.clock later) (spec : TaskSpec)
    (settings : VllmSettings) :
    c.collected spec settings o.metrics now = c.collected spec settings o.metrics later := by
  have hsome := h.window now later hnow hlater
  simp only [MetricsCollection.collected]
  cases hwindow : QueryWindow.endingAt now c.lookback c.step with
  | none =>
    rw [hwindow, Option.isSome_none] at hsome
    rw [Option.not_isSome_iff_eq_none.mp (Bool.eq_false_iff.mp hsome.symm)]
  | some window =>
    rw [hwindow, Option.isSome_some] at hsome
    obtain ⟨other, hother⟩ := Option.isSome_iff_exists.mp hsome.symm
    have houtcomes : c.outcomes spec window o.metrics = c.outcomes spec other o.metrics :=
      funext fun metric => congrArg MetricsServer.readRange (h.metrics _ window other)
    rw [hother]
    dsimp only
    rw [houtcomes]

namespace Detector

open Program

variable {o : Outside} {d : Detector} {spec : TaskSpec} {name : String} {α β : Type}

/-- A program that settles by the share on a plane where only that share is another. -/
theorem confined_of_settled {p : Detection α} (effect : Share → Bool → α × Share)
    (h : ∀ plane : Plane, plane.Ready [name] → ∃ q : Plane,
      p.settled plane = some ((effect (plane.share name) plane.queue.closed).1, q) ∧
      q.share name = (effect (plane.share name) plane.queue.closed).2 ∧
      plane.Touches [name] q) : p.Confined o name := by
  refine ⟨fun share closed => ⟨(effect share closed).1, (effect share closed).2, [], []⟩,
    fun w hready => ?_⟩
  obtain ⟨q, hsettled, hshare, htouches⟩ := h w.plane hready
  have hruns : ∀ a t, p.Runs o.answering w a t ↔
      a = (effect (w.plane.share name) w.plane.queue.closed).1 ∧ t = { w with plane := q } :=
    fun _ _ => runs_of_settled o.hosts hsettled
  refine ⟨⟨_, _, (hruns _ _).mpr ⟨rfl, rfl⟩⟩, fun a t hrun => ?_⟩
  obtain ⟨rfl, rfl⟩ := (hruns a t).mp hrun
  exact ⟨rfl, hshare, htouches, (List.append_nil _).symm, (List.append_nil _).symm⟩

theorem confined_setStatus (status : TaskStatus) :
    (ask (.updateRegistry (·.setStatus name status))).Confined o name := by
  refine confined_of_settled
    (fun share _ => ((), { share with entry := share.entry.map ({ · with status }) }))
    fun p hready => ⟨{ p with registry := p.registry.setStatus name status }, settled_ask ?_, ?_, ?_⟩
  · simp only [Plane.serve, Plane.whenFree]
    rw [hready.free, if_neg Bool.false_ne_true]
  · have hentry : (p.registry.setStatus name status).get? name
        = (p.registry.get? name).map ({ · with status }) := by
      rw [Registry.setStatus, Dict.get?_modify, if_pos rfl]
    simp only [Plane.share, hentry]
  · refine Plane.touches_of_queue_eq rfl rfl (fun other hother => ?_) (fun _ _ => rfl) rfl
    show (Dict.modify _ _ _).get? other = _
    rw [Dict.get?_modify, if_neg (List.mem_singleton.not.mp hother)]

theorem confined_advise (request : HttpRequest) :
    (askOutside (.advise request)).Confined o name := by
  refine ⟨fun share _ => ⟨o.advice request, share, [request], []⟩,
    fun w _ => ⟨⟨_, _, runs_ask.mpr ⟨rfl, rfl⟩⟩, fun a t hrun => ?_⟩⟩
  obtain ⟨rfl, rfl⟩ := runs_ask.mp hrun
  exact ⟨rfl, rfl, .refl _ _, rfl, (List.append_nil _).symm⟩

/-- Whatever comes of a report, it is made and not looked at any more. -/
theorem confined_report (task : String) (status : TaskStatus) (runtime : List RuntimeInstance) :
    (askOutside (.report task status runtime) >>= fun _ => pure ()).Confined o name := by
  refine ⟨fun share _ => ⟨(), share, [], [(task, status, runtime)]⟩,
    fun w _ => ⟨⟨(), _, runs_bind.mpr ⟨.ok (), _, runs_ask.mpr rfl, rfl, rfl⟩⟩, fun a t hrun => ?_⟩⟩
  obtain ⟨answer, u, hask, rfl, rfl⟩ := runs_bind.mp hrun
  obtain rfl := runs_ask.mp hask
  exact ⟨rfl, rfl, .refl _ _, (List.append_nil _).symm, rfl⟩

theorem confined_consult (e : Advisor.Endpoint α β) (input : α) :
    (d.consult e input).Confined o name :=
  (confined_advise (d.advisor.request e input)).bind fun reply =>
    confined_pure (Advisor.readResult e.result reply)

/-- A collection changes nothing, and comes to the same at any time. -/
theorem confined_collect (h : o.Steady d.metrics) : (d.collect spec).Confined o name := by
  obtain ⟨settings, hengine⟩ := spec.engine.exists_vllm?
  obtain ⟨now, hnow⟩ := h.clock
  refine @confined_of_runs_iff _ o name _ (d.metrics.collected spec settings o.metrics now)
    fun w a t => ?_
  have hruns : (d.collect spec).Runs o.answering w a t ↔ (d.metrics.collect spec).Runs
      (MetricsCollection.answering o.clock o.metrics) w a t :=
    runs_interpret fun {_ _ _ e _} => by
      cases e with
      | now => exact runs_ask
      | gather requests => exact runs_ask
  rw [hruns, MetricsCollection.runs_collect_iff hengine]
  constructor
  · rintro ⟨rfl, later, hlater, rfl⟩
    exact ⟨h.collected_eq hlater hnow spec settings, rfl⟩
  · rintro ⟨rfl, rfl⟩
    exact ⟨rfl, now, hnow, rfl⟩

/-! ## The exchange of a spec -/

/-- What an exchange answers, and what it makes of the share of the task. -/
def exchanged (spec updated : TaskSpec) (share : Share) (closed : Bool) :
    Except DetectorError Bool × Share :=
  if share.entry.any (·.spec.eqv spec) then
    if !share.waits.isSome && closed then (.error .queueClosed, share)
    else (.ok true,
      { share with entry := share.entry.map ({ · with spec := updated }), waits := some updated })
  else (.ok false, share)

theorem share_exchange {p : Plane} {updated : TaskSpec} (hname : updated.name = spec.name) :
    exchanged spec updated (p.share spec.name) p.queue.closed
      = ((p.exchange spec updated).1, (p.exchange spec updated).2.share spec.name) := by
  obtain ⟨hentry, hwaits⟩ := @Plane.get?_exchanged p spec.name updated hname
  have hmade : (p.exchanged (p.registry.setSpec spec.name updated) updated).share spec.name
      = { p.share spec.name with
          entry := (p.registry.get? spec.name).map ({ · with spec := updated })
          waits := some updated } := by
    simp only [Plane.share]
    rw [hentry, hwaits]
    rfl
  rcases p.exchange_cases spec updated with ⟨hthere, h⟩ | ⟨hthere, ⟨hclosed, h⟩ | ⟨hclosed, h⟩⟩
  · rw [h]
    exact if_neg hthere
  · rw [h]
    exact (if_pos hthere).trans (if_pos hclosed)
  · rw [h, hmade]
    exact (if_pos hthere).trans (if_neg hclosed)

/-- The exchange is decided by the task's entry and by whether it waits. -/
theorem confined_install {updated : TaskSpec} (hname : updated.name = spec.name) :
    (install spec updated).Confined o spec.name := by
  refine confined_of_settled (exchanged spec updated) fun p hready =>
    ⟨(p.exchange spec updated).2, ?_, ?_, Plane.touches_exchange hname⟩
  · rw [settled_install hready hname, share_exchange hname]
  · rw [share_exchange hname]

/-! ## The record of a recovery -/

/-- The clock is read, and a recovery put in front of the history of a task. -/
def filing (name : String) (recommended previous : Recommendation) :
    Detection (Except StoreError Unit) := do
  ask (.appendHistory name ⟨.ofInt (← askOutside .now).millis, true, recommended, previous⟩
    historyLimit)

/-- What filing a record answers, and what it makes of the share of the task. -/
def filed (record : RecoveryRecord) (share : Share) : Outcome (Except StoreError Unit) :=
  match share.history with
  | .error cause => ⟨.error cause, share, [], []⟩
  | .ok earlier =>
    ⟨.ok (), { share with history := Store.refiled record historyLimit earlier }, [], []⟩

theorem reached_appendHistory (w : World) (name : String) (record : RecoveryRecord) :
    ∃ a q, w.plane.serve (.appendHistory name record historyLimit) = some (a, q) ∧
      (filed record.untimed (w.plane.share name)).Reached name w a { w with plane := q } := by
  simp only [Plane.serve, filed, Plane.share, Store.untimedHistory]
  rcases w.plane.store.appendHistory_cases name record historyLimit with
    ⟨cause, hlist, happend⟩ | ⟨earlier, store, hlist, happend, hafter, hcontainers, hothers⟩
  · rw [happend, hlist]
    refine ⟨_, _, rfl, rfl, ?_, .refl _ _, (List.append_nil _).symm, (List.append_nil _).symm⟩
    simp only [Plane.share, Store.untimedHistory, hlist]
    rfl
  · rw [happend, hlist]
    refine ⟨_, _, rfl, rfl, ?_, ?_, (List.append_nil _).symm, (List.append_nil _).symm⟩
    · simp only [Plane.share, Store.untimedHistory, hafter]
      exact congrArg _ (Store.refiled_untimed record historyLimit earlier).symm
    · refine Plane.touches_of_queue_eq rfl rfl (fun _ _ => rfl) (fun other hother => ?_) hcontainers
      exact hothers other (List.mem_singleton.not.mp hother)

/-- Whatever time it shows, the record makes the same history, times aside. -/
theorem confined_filing (h : o.Steady d.metrics) (recommended previous : Recommendation) :
    (filing name recommended previous).Confined o name := by
  refine ⟨fun share _ => filed ⟨0, true, recommended, previous⟩ share, fun w _ => ⟨?_, ?_⟩⟩
  · obtain ⟨now, hnow⟩ := h.clock
    obtain ⟨a, q, hserve, -⟩ := reached_appendHistory w name
      ⟨.ofInt now.millis, true, recommended, previous⟩
    exact ⟨a, _, runs_bind.mpr ⟨now, w, runs_ask.mpr ⟨hnow, rfl⟩,
      (runs_of_settled o.hosts (settled_ask hserve)).mpr ⟨rfl, rfl⟩⟩⟩
  · intro a t hrun
    obtain ⟨now, u, hclock, hask⟩ := runs_bind.mp hrun
    obtain ⟨-, rfl⟩ := runs_ask.mp hclock
    obtain ⟨b, q, hserve, hreached⟩ := reached_appendHistory u name
      ⟨.ofInt now.millis, true, recommended, previous⟩
    obtain ⟨rfl, rfl⟩ := (runs_of_settled o.hosts (settled_ask hserve)).mp hask
    exact hreached

/-! ## A visit -/

theorem confined_observe : (observe spec).Confined o spec.name := by
  refine Confined.bind (confined_of_runs_iff fun _ _ _ => runs_ask) fun running => ?_
  cases running with
  | error cause => exact confined_pure _
  | ok running =>
    refine Confined.bind (confined_of_runs_iff fun _ _ _ => runs_ask) fun runtime => ?_
    cases runtime with
    | error cause => exact confined_pure _
    | ok runtime => exact (confined_setStatus _).bind fun _ => confined_pure _

theorem confined_isAnomalous (h : o.Steady d.metrics) : (d.isAnomalous spec).Confined o name := by
  refine Confined.bind ((confined_collect h).bind fun metrics => ?_) fun verdict => ?_
  · cases metrics with
    | error cause => exact confined_pure _
    | ok request => exact (confined_consult _ _).bind fun _ => confined_pure _
  · cases verdict with
    | error cause => exact confined_pure _
    | ok verdict => exact confined_pure _

theorem confined_recommendation (h : o.Steady d.metrics) :
    (d.recommendation spec).Confined o name := by
  refine (confined_collect h).bind fun metrics => ?_
  cases metrics with
  | error cause => exact confined_pure _
  | ok request => exact (confined_consult _ _).bind fun _ => confined_pure _

theorem confined_recover (h : o.Steady d.metrics) : (d.recover spec).Confined o spec.name := by
  simp only [recover]
  cases spec.currentConfig with
  | none => exact confined_pure _
  | some previous =>
    refine (confined_recommendation h).bind fun recommended => ?_
    cases recommended with
    | error cause => exact confined_pure _
    | ok recommended =>
      have hinstall : (install spec (spec.apply recommended)).Confined o spec.name :=
        confined_install rfl
      refine hinstall.bind fun installed => ?_
      cases installed with
      | error cause => exact confined_pure _
      | ok there =>
        cases there with
        | false => exact confined_pure _
        | true =>
          refine (confined_filing h recommended previous).bind fun filed => ?_
          cases filed with
          | error cause => exact confined_pure _
          | ok => exact confined_pure _

/-- A visit is confined to its task. -/
theorem confined_visit (h : o.Steady d.metrics) : (d.visit spec).Confined o spec.name := by
  refine confined_observe.bind fun seen => ?_
  cases seen with
  | error cause => exact confined_pure _
  | ok seen =>
    obtain ⟨status, runtime⟩ := seen
    -- what follows the report, made or not
    have htreat : (show Detection Unit from do
        if spec.isAutoScaled && status == .running then
          if ← d.isAnomalous spec then
            let _ ← d.recover spec).Confined o spec.name := by
      dsimp only
      by_cases hauto : (spec.isAutoScaled && status == .running) = true
      · rw [if_pos hauto]
        refine (confined_isAnomalous h).bind fun anomalous => ?_
        cases anomalous with
        | false => exact confined_pure _
        | true => exact (confined_recover h).bind fun _ => confined_pure _
      · rw [if_neg hauto]
        exact confined_pure _
    dsimp only
    by_cases hreports : d.reports = true
    · rw [if_pos hreports]
      exact (confined_report _ _ _).bind fun _ => htreat
    · rw [if_neg hreports]
      exact htreat

/-! ## A cycle -/

/-- After visits to these tasks each has become what came of its own visit,
    the other tasks are as they were, and the visits asked and reported one
    after the other. -/
structure Visited (outcome : TaskSpec → Outcome Unit) (specs : List TaskSpec) (w t : World) :
    Prop where
  share : ∀ spec ∈ specs, t.plane.share spec.name = (outcome spec).share
  touches : w.plane.Touches (specs.map (·.name)) t.plane
  advised : t.advised = w.advised ++ specs.flatMap fun spec => (outcome spec).advised
  reported : t.reported = w.reported ++ specs.flatMap fun spec => (outcome spec).reported

/-- A visit comes first, and what comes of the others does not depend on it. -/
theorem Visited.cons {outcome : TaskSpec → Outcome Unit} {specs : List TaskSpec} {w u t : World}
    (h : (outcome spec).Reached spec.name w () u) (h' : Visited outcome specs u t)
    (hname : spec.name ∉ specs.map (·.name)) : Visited outcome (spec :: specs) w t where
  share := by
    refine List.forall_mem_cons.mpr ⟨?_, h'.share⟩
    rw [h'.touches.share hname, h.share]
  touches := h.touches.cons h'.touches hname
  advised := by rw [h'.advised, h.advised, List.flatMap_cons, List.append_assoc]
  reported := by rw [h'.reported, h.reported, List.flatMap_cons, List.append_assoc]

/-- A cycle over different tasks goes through, and each visit makes of its
    task what it would make of it before the cycle. -/
theorem visited_cycle {effect : TaskSpec → Share → Bool → Outcome Unit}
    (heffect : ∀ spec, (d.visit spec).Comes o spec.name (effect spec)) {specs : List TaskSpec}
    (hnames : (specs.map (·.name)).Nodup) {w : World}
    (hready : w.plane.Ready (specs.map (·.name))) :
    (∃ t, (d.cycle specs).Runs o.answering w () t) ∧
    ∀ t, (d.cycle specs).Runs o.answering w () t →
      Visited (fun spec => effect spec (w.plane.share spec.name) w.plane.queue.closed) specs w t := by
  induction specs generalizing w with
  | nil =>
    refine ⟨⟨w, rfl, rfl⟩, ?_⟩
    rintro t ⟨-, rfl⟩
    exact ⟨fun _ h => absurd h List.not_mem_nil, .refl _ _, (List.append_nil _).symm,
      (List.append_nil _).symm⟩
  | cons spec specs ih =>
    obtain ⟨hname, hnames⟩ := List.nodup_cons.mp hnames
    obtain ⟨⟨⟨⟩, u, hvisit⟩, hreached⟩ := heffect spec w hready.head
    have hready' : ∀ {u}, (d.visit spec).Runs o.answering w () u →
        u.plane.Ready (specs.map (·.name)) := fun hrun =>
      (hreached () _ hrun).touches.ready_rest hready hname
    constructor
    · obtain ⟨t, hcycle⟩ := (ih hnames (hready' hvisit)).1
      exact ⟨t, runs_bind.mpr ⟨(), u, hvisit, hcycle⟩⟩
    · intro t hrun
      obtain ⟨⟨⟩, u, hvisit, hcycle⟩ := runs_bind.mp hrun
      have hfirst := hreached () u hvisit
      have hrest := (ih hnames (hready' hvisit)).2 t hcycle
      refine .cons hfirst ?_ hname
      have hsame : ∀ other ∈ specs, effect other (u.plane.share other.name) u.plane.queue.closed
          = effect other (w.plane.share other.name) w.plane.queue.closed := by
        intro other hother
        have hapart : other.name ∉ [spec.name] := fun hin =>
          hname (List.mem_map.mpr ⟨other, hother, List.mem_singleton.mp hin⟩)
        rw [hfirst.touches.closed, hfirst.touches.share hapart]
      refine ⟨fun other hother => ?_, hrest.touches, ?_, ?_⟩
      · rw [hrest.share other hother, hsame other hother]
      · rw [hrest.advised, List.flatMap_congr fun other hother => by rw [hsame other hother]]
      · rw [hrest.reported, List.flatMap_congr fun other hother => by rw [hsame other hother]]

/-! ## Two orders -/

theorem detectOnce_eq (d : Detector) : d.detectOnce = d.detectWalking Registry.specs := rfl

end Detector

theorem Registry.WellNamed.map_name_specs {r : Registry} (h : r.WellNamed) :
    r.specs.map (·.name) = Dict.keys r := by
  rw [specs, List.map_map, Dict.values, Dict.keys, List.map_map]
  refine List.map_congr_left fun p hp => ?_
  exact h p.1 p.2 (Dict.get?_eq_some_iff.mpr hp)

namespace Plane

theorem Ready.perm {p : Plane} {names others : List String} (h : p.Ready names)
    (hperm : others.Perm names) : p.Ready others where
  free := h.free
  room hopen := by
    rw [(hperm.filter _).length_eq]
    exact h.room hopen

end Plane

namespace World

variable {w t u : World} {specs others : List TaskSpec} {outcome : TaskSpec → Outcome Unit}

/-- Two worlds differ in the times of histories, and in the order of the
    names in the channel, of the requests to the advisor and of the reports. -/
structure Alike (t u : World) : Prop where
  registry : t.plane.registry = u.plane.registry
  locked : t.plane.locked = u.plane.locked
  queue : t.plane.queue = { u.plane.queue with channel := t.plane.queue.channel }
  channel : t.plane.queue.channel.Perm u.plane.queue.channel
  history : ∀ task, t.plane.store.untimedHistory task = u.plane.store.untimedHistory task
  containers : t.plane.store.containers = u.plane.store.containers
  advised : t.advised.Perm u.advised
  reported : t.reported.Perm u.reported

/-- The same visits in two orders. -/
theorem alike_of_visited (hperm : specs.Perm others) (ht : Detector.Visited outcome specs w t)
    (hu : Detector.Visited outcome others w u) : t.Alike u := by
  have hnames := hperm.map (·.name)
  have hshare : ∀ name, t.plane.share name = u.plane.share name := by
    intro name
    by_cases hname : name ∈ specs.map (·.name)
    · obtain ⟨spec, hspec, rfl⟩ := List.mem_map.mp hname
      rw [ht.share spec hspec, hu.share spec (hperm.mem_iff.mp hspec)]
    · rw [ht.touches.share hname, hu.touches.share (hnames.mem_iff.not.mp hname)]
  have hpending : t.plane.queue.pending = u.plane.queue.pending :=
    Dict.ext_get? fun name => congrArg Share.waits (hshare name)
  have hentered : w.plane.entered t.plane (specs.map (·.name))
      = w.plane.entered u.plane (specs.map (·.name)) := by
    rw [Plane.entered, Plane.entered, hpending]
  exact {
    registry := Dict.ext_get? fun name => congrArg Share.entry (hshare name)
    locked := ht.touches.locked.trans hu.touches.locked.symm
    queue := by
      rw [hu.touches.queue, ← hpending]
      conv_lhs => rw [ht.touches.queue]
      rw [ht.touches.queue]
    channel := by
      rw [ht.touches.queue, hu.touches.queue]
      dsimp only
      rw [hentered]
      exact (hnames.filter _).append_left _
    history := fun name => congrArg Share.history (hshare name)
    containers := ht.touches.containers.trans hu.touches.containers.symm
    advised := by
      rw [ht.advised, hu.advised]
      exact (hperm.flatMap_right _).append_left _
    reported := by
      rw [ht.reported, hu.reported]
      exact (hperm.flatMap_right _).append_left _ }

end World

namespace Detector

open Program

/-- While nobody else is at work, backends answer by the spec and servers by
    the request, and there is room in the queue, a cycle goes through in
    whatever order it visits the tasks, and any two orders lead to worlds
    that are alike. -/
theorem visits_in_any_order {d : Detector} {o : Outside} {w : World}
    {walk other : Registry → List TaskSpec} (hsteady : o.Steady d.metrics)
    (hnamed : w.plane.registry.WellNamed) (hready : w.plane.Ready (Dict.keys w.plane.registry))
    (hwalk : (walk w.plane.registry).Perm w.plane.registry.specs)
    (hother : (other w.plane.registry).Perm w.plane.registry.specs) :
    d.detectOnce = d.detectWalking Registry.specs ∧
    (∃ t, (d.detectWalking walk).Runs o.answering w () t) ∧
    ∀ t u, (d.detectWalking walk).Runs o.answering w () t →
      (d.detectWalking other).Runs o.answering w () u → t.Alike u := by
  choose effect heffect using fun spec : TaskSpec =>
    show (d.visit spec).Confined o spec.name from confined_visit hsteady
  have hread : w.plane.serve .readRegistry = some (w.plane.registry, w.plane) := by
    simp only [Plane.serve, Plane.whenFree]
    rw [hready.free, if_neg Bool.false_ne_true]
  have hcycle : ∀ {walk : Registry → List TaskSpec},
      (walk w.plane.registry).Perm w.plane.registry.specs →
      (∃ t, (d.detectWalking walk).Runs o.answering w () t) ∧
      ∀ t, (d.detectWalking walk).Runs o.answering w () t → Visited
        (fun spec => effect spec (w.plane.share spec.name) w.plane.queue.closed)
        (walk w.plane.registry) w t := by
    intro walk hwalk
    have hkeys : ((walk w.plane.registry).map (·.name)).Perm (Dict.keys w.plane.registry) := by
      rw [← hnamed.map_name_specs]
      exact hwalk.map _
    have hvisited := visited_cycle heffect (hkeys.nodup_iff.mpr (Dict.keys_nodup _))
      (hready.perm hkeys)
    have hruns : ∀ t, (d.detectWalking walk).Runs o.answering w () t ↔
        (d.cycle (walk w.plane.registry)).Runs o.answering w () t :=
      fun _ => runs_bind_of_settled o.hosts (settled_ask hread)
    simp only [hruns]
    exact hvisited
  refine ⟨d.detectOnce_eq, (hcycle hwalk).1, fun t u ht hu => ?_⟩
  exact World.alike_of_visited (hwalk.trans hother.symm) ((hcycle hwalk).2 t ht)
    ((hcycle hother).2 u hu)

/-- A detector that reports what it sees. -/
def attentive : Detector := ⟨⟨⟨"metrics"⟩, ⟨10800, 0⟩, "60s"⟩, ⟨"advisor"⟩, true⟩

/-- Everything runs, behaves anomalously, and would do better with two replicas. -/
def alarming : Outside where
  isRunning _ := .ok true
  instances _ := .ok []
  metrics _ := .error "refused"
  advice _ := .ok ⟨200, "\x7b\"result\": \x7b\"is_anomaly\": 1, \"replicas\": 2\x7d\x7d"⟩
  clock now := now = ⟨1700000000, 0⟩ ∨ now = ⟨1700000060, 0⟩

/-- Two tasks of which the advisor decides on the replica counts. -/
def twoTasks : World where
  plane :=
    { Plane.new 2 with
      registry := Registry.register
        (Registry.register .empty { TaskSpec.blank with name := "chat", strategy := .auto })
        { TaskSpec.blank with name := "code", strategy := .auto } }
  advised := []
  reported := []

/-- The two tasks one way and the other. -/
theorem visits_in_any_order_of_two_tasks :
    alarming.Steady attentive.metrics ∧ twoTasks.plane.registry.WellNamed ∧
    twoTasks.plane.Ready (Dict.keys twoTasks.plane.registry) ∧
    ∃ t u, attentive.detectOnce.Runs alarming.answering twoTasks () t ∧
      (attentive.detectWalking fun r => r.specs.reverse).Runs alarming.answering twoTasks () u ∧
      t.Alike u := by
  have hsteady : alarming.Steady attentive.metrics := by
    refine ⟨⟨_, .inl rfl⟩, ?_, fun _ _ _ => rfl⟩
    rintro now later (rfl | rfl) (rfl | rfl) <;> decide +kernel
  have hnamed : twoTasks.plane.registry.WellNamed :=
    (Registry.wellNamed_empty.of_reflects (Registry.reflects_register _ _)).of_reflects
      (Registry.reflects_register _ _)
  have hready : twoTasks.plane.Ready (Dict.keys twoTasks.plane.registry) :=
    ⟨rfl, fun _ => by decide⟩
  obtain ⟨hsame, ⟨t, ht⟩, halike⟩ := @visits_in_any_order attentive alarming twoTasks Registry.specs
    (fun r => r.specs.reverse) hsteady hnamed hready (List.Perm.refl _) (List.reverse_perm _)
  obtain ⟨-, ⟨u, hu⟩, -⟩ := @visits_in_any_order attentive alarming twoTasks
    (fun r => r.specs.reverse) Registry.specs hsteady hnamed hready (List.reverse_perm _)
    (List.Perm.refl _)
  exact ⟨hsteady, hnamed, hready, t, u, hsame ▸ ht, hu, halike t u ht hu⟩

end Detector

end ServingPlane
