import ServingPlane.Api
import ServingPlane.Proofs.Plane.Alone
import ServingPlane.Proofs.Plane.Lineage

/-! # Deploys and deletes are atomic

    A request to deploy or to delete a task is answered with success if
    registry and queue have both taken the change, and with a failure if
    neither has.  While nobody else acts, a failure leaves the plane
    exactly as it was; while others do, the request itself has changed
    nothing.  What counts for the queue is whether the task waits already:
    its spec is replaced then, even if nobody will take it any more. -/

namespace ServingPlane

/-- A task was registered as created and waits with its spec, and nothing
    else happened. -/
structure Plane.Enters (p : Plane) (spec : TaskSpec) (q : Plane) : Prop where
  registered : q.registry.get? spec.name = some ⟨spec, .created⟩
  waits : q.queue.pending.get? spec.name = some spec
  others : ∀ other, other ≠ spec.name → q.registry.get? other = p.registry.get? other ∧
    q.queue.pending.get? other = p.queue.pending.get? other
  store : q.store = p.store

/-- A task was taken out of the registry and waits without replicas, and
    nothing else happened. -/
structure Plane.Retires (p : Plane) (name : String) (spec : TaskSpec) (q : Plane) : Prop where
  gone : q.registry.get? name = none
  waits : q.queue.pending.get? spec.name = some { spec with replica := 0 }
  registered : ∀ other, other ≠ name → q.registry.get? other = p.registry.get? other
  pending : ∀ other, other ≠ spec.name → q.queue.pending.get? other = p.queue.pending.get? other
  store : q.store = p.store

namespace Plane

theorem enters_exchanged (p : Plane) (spec : TaskSpec) :
    p.Enters spec (p.exchanged (p.registry.register spec) spec) where
  registered := Dict.get?_insert_self ..
  waits := by
    rw [pending_exchanged]
    exact Dict.get?_insert_self ..
  others := by
    intro other hother
    rw [pending_exchanged]
    exact ⟨Dict.get?_insert_of_ne _ _ hother, Dict.get?_insert_of_ne _ _ hother⟩
  store := rfl

theorem retires_exchanged (p : Plane) (name : String) (spec : TaskSpec) :
    p.Retires name spec (p.exchanged (p.registry.unregister name) spec.teardown) where
  gone := Dict.get?_erase_self ..
  waits := by
    rw [pending_exchanged]
    exact Dict.get?_insert_self ..
  registered := fun _ hother => Dict.get?_erase_of_ne _ hother
  pending := by
    intro other hother
    rw [pending_exchanged]
    exact Dict.get?_insert_of_ne _ _ hother
  store := rfl

end Plane

/-! ## The interface -/

/-- A request has a spec for deployment: with the defaults filled in, it is valid. -/
def ApiRequest.Deploys (r : ApiRequest) (serving : ServingSettings) (spec : TaskSpec) : Prop :=
  ∃ given, r.readSpec = .ok given ∧ given.fillDefaults serving = spec ∧ spec.validate = .ok ()

/-- A request names a task in its query. -/
def ApiRequest.Names (r : ApiRequest) (name : String) : Prop :=
  ∃ given, ApiRequest.readTaskName r.parts.2 = .ok given ∧ Text.trim given = name ∧ name ≠ ""

namespace Api

variable {api : Api} {traceId : String} {r : ApiRequest} {ctx : EnvelopeContext}

/-- How the result of a deploy is answered. -/
def deployReply (ctx : EnvelopeContext) : Except DetectorError Unit → ApiReply
  | .ok () => .ok ctx success
  | .error cause => .ofError ctx cause

/-- How the result of a delete is answered. -/
def deleteReply (ctx : EnvelopeContext) (name : String) : Except DetectorError Bool → ApiReply
  | .ok true => .ok ctx success
  | .ok false => .notFound ctx name
  | .error cause => .ofError ctx cause

theorem status_deleteReply {name : String} {a : Except DetectorError Bool}
    (h : (deleteReply ctx name a).status = 200) : a = .ok true := by
  cases a with
  | error cause => cases cause <;> cases h
  | ok there =>
    cases there with
    | true => rfl
    | false => cases h

theorem deploy_of_deploys {spec : TaskSpec} (h : r.Deploys api.serving spec) :
    api.deploy ctx r = api.detector.deploy spec >>= fun a => pure (deployReply ctx a) := by
  obtain ⟨given, hread, rfl, -⟩ := h
  simp only [deploy, hread]
  congr 1
  funext a
  cases a <;> rfl

/-- Anything else is refused at once. -/
theorem deploy_of_not_deploys (h : ∀ spec, ¬ r.Deploys api.serving spec) :
    ∃ reply : ApiReply, reply.status = 400 ∧ api.deploy ctx r = .done reply := by
  simp only [deploy]
  cases hread : r.readSpec with
  | error cause => exact ⟨_, rfl, rfl⟩
  | ok given =>
    cases hvalid : (given.fillDefaults api.serving).validate with
    | ok => exact absurd ⟨given, hread, rfl, hvalid⟩ (h _)
    | error cause =>
      dsimp only
      rw [Detector.deploy_of_invalid api.detector hvalid]
      exact ⟨_, rfl, rfl⟩

theorem delete_eq (name : String) :
    delete ctx name = Detector.delete name >>= fun a => pure (deleteReply ctx name a) := by
  simp only [delete]
  congr 1
  funext a
  cases a with
  | error cause => rfl
  | ok there => cases there <;> rfl

theorem withTaskName_of_names {act : String → Detection ApiReply} {name : String}
    (h : r.Names name) : withTaskName ctx r.parts.2 act = act name := by
  obtain ⟨given, hread, rfl, hname⟩ := h
  simp only [withTaskName, hread]

theorem withTaskName_of_not_names {act : String → Detection ApiReply}
    (h : ∀ name, ¬ r.Names name) :
    ∃ reply : ApiReply, reply.status = 400 ∧ withTaskName ctx r.parts.2 act = .done reply := by
  simp only [withTaskName]
  cases hread : ApiRequest.readTaskName r.parts.2 with
  | error fault => exact ⟨_, rfl, rfl⟩
  | ok given =>
    dsimp only
    split
    · exact ⟨_, rfl, rfl⟩
    · rename_i hname
      exact absurd ⟨given, hread, rfl, hname⟩ (h _)

/-- What a place understands is served there. -/
theorem handle_of_route {route : Route} (hroute : Route.at? api.root r.parts.1 = some route)
    (hmethod : route.methods.contains r.method = true) (hhead : r.method ≠ .head) :
    api.handle traceId r = api.serve ⟨traceId, api.version⟩ r r.parts.2 r.method route := by
  simp only [handle, hroute, hmethod]
  rw [if_neg (by decide), if_neg hhead]

theorem handle_post (hroute : Route.at? api.root r.parts.1 = some .tasks)
    (hmethod : r.method = .post) :
    api.handle traceId r = api.deploy ⟨traceId, api.version⟩ r := by
  rw [handle_of_route hroute (by rw [hmethod]; rfl) (by rw [hmethod]; decide), hmethod]
  rfl

theorem handle_delete (hroute : Route.at? api.root r.parts.1 = some .tasks)
    (hmethod : r.method = .delete) :
    api.handle traceId r
      = withTaskName ⟨traceId, api.version⟩ r.parts.2 (delete ⟨traceId, api.version⟩) := by
  rw [handle_of_route hroute (by rw [hmethod]; rfl) (by rw [hmethod]; decide), hmethod]
  rfl

end Api

/-! ## Atomic answers -/

namespace Detector

variable {d : Detector} {spec : TaskSpec} {w t : Watch} {turns : List Turn}

/-- A deploy of a valid spec was answered with a status, while nobody else
    acted: with success if the seeded spec is registered and waits, and
    with an error if nothing has changed. -/
structure AtomicDeploy (d : Detector) (spec : TaskSpec) (w : Watch) (status : Nat) (t : Watch) :
    Prop where
  answered : status = 200 ∨ status = 500
  nothing : status ≠ 200 → t.plane = w.plane
  all : status = 200 → ∃ asking seeded, Seeds d spec asking (.ok seeded) ∧
    t.heard = (heardMore w asking).heard ∧ w.plane.Enters seeded t.plane
  unadvised : ∀ asking cause, Seeds d spec asking (.error cause) →
    t.heard = (heardMore w asking).heard → status = 500
  closed : w.plane.queue.closed = true → w.plane.queue.pending.contains spec.name = false →
    status = 500

theorem DeployEnds.atomic {a : Except DetectorError Unit} (h : DeployEnds d spec w a t)
    (ctx : EnvelopeContext) : AtomicDeploy d spec w (Api.deployReply ctx a).status t := by
  cases h with
  | unadvised seeds =>
    exact ⟨.inr rfl, fun _ => rfl, by rintro ⟨⟩, fun _ _ _ _ => rfl, fun _ _ => rfl⟩
  | refused seeds free refuses =>
    exact ⟨.inr rfl, fun _ => rfl, by rintro ⟨⟩, fun _ _ _ _ => rfl, fun _ _ => rfl⟩
  | entered seeds free takes =>
    rename_i asking seeded
    refine ⟨.inl rfl, fun hne => absurd rfl hne,
      fun _ => ⟨asking, seeded, seeds, rfl, w.plane.enters_exchanged seeded⟩,
      fun asking' cause hseeds hheard => ?_, fun hclosed hwaits => ?_⟩
    · cases seeds.unique hseeds hheard
    · rw [seeds.name_eq] at takes
      obtain hpending | ⟨hopen, -⟩ := takes
      · cases hwaits.symm.trans hpending
      · cases hclosed.symm.trans hopen

/-- A delete was answered with a status, while nobody else acted: with
    success if the task was registered, is so no longer, and waits to be
    torn down, and with a failure if nothing has changed. -/
structure AtomicDelete (name : String) (w : Watch) (status : Nat) (t : Watch) : Prop where
  answered : status = 200 ∨ status = 404 ∨ status = 500
  heard : t.heard = w.heard
  nothing : status ≠ 200 → t.plane = w.plane
  all : status = 200 → ∃ task, w.plane.registry.get? name = some task ∧
    w.plane.Retires name task.spec t.plane
  /-- The registry is well named in every run, by `Schedule.Sound.named`. -/
  tornDown : status = 200 → w.plane.registry.WellNamed →
    ∃ spec, t.plane.queue.pending.get? name = some spec ∧ spec.replica = 0
  unknown : status = 404 ↔ w.plane.registry.get? name = none
  closed : ∀ task, w.plane.registry.get? name = some task → w.plane.queue.closed = true →
    w.plane.queue.pending.contains task.spec.name = false → status = 500

theorem atomicDelete_of_runs {name : String} {a : Except DetectorError Bool}
    (h : (delete name).Runs watching w a t) (ctx : EnvelopeContext) :
    AtomicDelete name w (Api.deleteReply ctx name a).status t := by
  obtain ⟨hfree, ⟨htask, rfl, rfl⟩ | ⟨task, htask, ⟨hrefuses, rfl, rfl⟩ | ⟨htakes, rfl, rfl⟩⟩⟩ :=
    runs_delete.mp h
  · refine ⟨.inr (.inl rfl), rfl, fun _ => rfl, by rintro ⟨⟩, by rintro ⟨⟩,
      iff_of_true rfl htask, fun task hsome => ?_⟩
    cases htask.symm.trans hsome
  · refine ⟨.inr (.inr rfl), rfl, fun _ => rfl, by rintro ⟨⟩, by rintro ⟨⟩,
      ⟨by rintro ⟨⟩, fun hnone => ?_⟩, fun _ _ _ _ => rfl⟩
    cases htask.symm.trans hnone
  · have hretires := w.plane.retires_exchanged name task.spec
    refine ⟨.inl rfl, rfl, fun hne => absurd rfl hne, fun _ => ⟨task, htask, hretires⟩,
      fun _ hnamed => ?_, ⟨by rintro ⟨⟩, fun hnone => ?_⟩, fun found hfound hclosed hwaits => ?_⟩
    · obtain rfl := hnamed name task htask
      exact ⟨_, hretires.waits, rfl⟩
    · cases htask.symm.trans hnone
    · cases htask.symm.trans hfound
      obtain hpending | ⟨hopen, -⟩ := htakes
      · cases hwaits.symm.trans hpending
      · cases hclosed.symm.trans hopen

end Detector

namespace Api

open Program Detector Turn

variable {d : Detector} {spec : TaskSpec} {w t : Watch} {turns : List Turn}

/-- An answer to a deploy of a valid spec is there as soon as the advisor
    has answered, the registry is free, and the queue takes the spec or
    turns it away; and it is atomic. -/
structure DeploysAtomically (d : Detector) (spec : TaskSpec) (p : Detection ApiReply) : Prop where
  /-- While nobody else acts. -/
  alone : ∀ w reply t, p.Runs watching w reply t → AtomicDeploy d spec w reply.status t
  unadvised : ∀ w asking cause, Seeds d spec asking (.error cause) →
    ∃ reply, reply.status = 500 ∧ p.Runs watching w reply (heardMore w asking)
  refused : ∀ w asking seeded, Seeds d spec asking (.ok seeded) → w.plane.locked = false →
    w.plane.queue.Refuses spec.name →
    ∃ reply, reply.status = 500 ∧ p.Runs watching w reply (heardMore w asking)
  entered : ∀ w asking seeded, Seeds d spec asking (.ok seeded) → w.plane.locked = false →
    w.plane.queue.Takes spec.name →
    ∃ reply t, reply.status = 200 ∧ p.Runs watching w reply t
  /-- Whatever others do meanwhile. -/
  shared : ∀ turns reply, p.Makes turns reply → AllFit none turns →
    (reply.status ≠ 200 → ∀ turn ∈ turns, turn.Quiet) ∧
    (reply.status = 200 → ∃ asking rest registry seeded, turns = asking ++ rest ∧
      Seeds d spec asking (.ok seeded) ∧
      HandsOver registry (registry.register seeded) seeded rest)

theorem runs_deployReply (hvalid : spec.validate = .ok ()) (ctx : EnvelopeContext)
    {a : Except DetectorError Unit} (h : DeployEnds d spec w a t) :
    (d.deploy spec >>= fun a => pure (deployReply ctx a)).Runs watching w (deployReply ctx a) t :=
  runs_map.mpr ⟨_, (runs_deploy hvalid).mpr h, rfl⟩

theorem deploysAtomically (d : Detector) (hvalid : spec.validate = .ok ()) (ctx : EnvelopeContext) :
    DeploysAtomically d spec (d.deploy spec >>= fun a => pure (deployReply ctx a)) := by
  refine ⟨fun w reply t h => ?_,
    fun w asking cause hseeds => ⟨_, rfl, runs_deployReply hvalid ctx (.unadvised hseeds)⟩,
    fun w asking seeded hseeds hfree hrefuses =>
      ⟨_, rfl, runs_deployReply hvalid ctx (.refused hseeds hfree ?_)⟩,
    fun w asking seeded hseeds hfree htakes =>
      ⟨_, _, rfl, runs_deployReply hvalid ctx (.entered hseeds hfree ?_)⟩,
    fun turns reply h hfit => ?_⟩
  · obtain ⟨a, hdeploy, rfl⟩ := runs_map.mp h
    exact ((runs_deploy hvalid).mp hdeploy).atomic ctx
  · rwa [hseeds.name_eq]
  · rwa [hseeds.name_eq]
  · obtain ⟨a, hdeploy, rfl⟩ := makes_map.mp h
    obtain ⟨cause, hinvalid, -⟩ | ⟨-, ⟨cause, hseeds, rfl⟩ |
      ⟨asking, rest, seeded, rfl, hseeds, henter⟩⟩ := makes_deploy hdeploy
    · cases hvalid.symm.trans hinvalid
    · exact ⟨fun _ turn hturn => quiet_of_isHeard (hseeds.isHeard turn hturn), by rintro ⟨⟩⟩
    · obtain ⟨rfl, hquiet⟩ | ⟨registry, rfl, hhands⟩ :=
        makes_enter henter (allFit_append.mp hfit).2
      · refine ⟨fun _ => List.forall_mem_append.mpr ⟨fun turn hturn => ?_, hquiet⟩, by rintro ⟨⟩⟩
        exact quiet_of_isHeard (hseeds.isHeard turn hturn)
      · exact ⟨fun hne => absurd rfl hne, fun _ => ⟨_, _, _, _, rfl, hseeds, hhands⟩⟩

/-- An answer to a delete of a task is there as soon as the registry is
    free, and the queue takes the task's teardown or turns it away; and it
    is atomic. -/
structure DeletesAtomically (name : String) (p : Detection ApiReply) : Prop where
  /-- While nobody else acts. -/
  alone : ∀ w reply t, p.Runs watching w reply t → AtomicDelete name w reply.status t
  unknown : ∀ w, w.plane.locked = false → w.plane.registry.get? name = none →
    ∃ reply, reply.status = 404 ∧ p.Runs watching w reply w
  refused : ∀ w task, w.plane.locked = false → w.plane.registry.get? name = some task →
    w.plane.queue.Refuses task.spec.name → ∃ reply, reply.status = 500 ∧ p.Runs watching w reply w
  taken : ∀ w task, w.plane.locked = false → w.plane.registry.get? name = some task →
    w.plane.queue.Takes task.spec.name → ∃ reply t, reply.status = 200 ∧ p.Runs watching w reply t
  /-- Whatever others do meanwhile. -/
  shared : ∀ turns reply, p.Makes turns reply → AllFit none turns →
    (reply.status ≠ 200 → ∀ turn ∈ turns, turn.Quiet) ∧
    (reply.status = 200 → ∃ (registry : Registry) (task : RegisteredTask),
      registry.get? name = some task ∧
      HandsOver registry (registry.unregister name) { task.spec with replica := 0 } turns)

theorem deletesAtomically (name : String) (ctx : EnvelopeContext) :
    DeletesAtomically name (delete ctx name) := by
  rw [delete_eq]
  have hruns : ∀ {w a t}, (Detector.delete name).Runs watching w a t →
      (Detector.delete name >>= fun a => pure (deleteReply ctx name a)).Runs watching w
        (deleteReply ctx name a) t :=
    fun h => runs_map.mpr ⟨_, h, rfl⟩
  refine ⟨fun w reply t h => ?_,
    fun w hfree htask => ⟨_, rfl, hruns (runs_delete.mpr ⟨hfree, .inl ⟨htask, rfl, rfl⟩⟩)⟩,
    fun w task hfree htask hrefuses => ⟨_, rfl,
      hruns (runs_delete.mpr ⟨hfree, .inr ⟨task, htask, .inl ⟨hrefuses, rfl, rfl⟩⟩⟩)⟩,
    fun w task hfree htask htakes => ⟨_, _, rfl,
      hruns (runs_delete.mpr ⟨hfree, .inr ⟨task, htask, .inr ⟨htakes, rfl, rfl⟩⟩⟩)⟩,
    fun turns reply h hfit => ?_⟩
  · obtain ⟨a, hdelete, rfl⟩ := runs_map.mp h
    exact atomicDelete_of_runs hdelete ctx
  · obtain ⟨a, hdelete, rfl⟩ := makes_map.mp h
    obtain ⟨hfailed, hquiet⟩ | ⟨registry, task, htask, rfl, hhands⟩ := makes_delete hdelete hfit
    · exact ⟨fun _ => hquiet, fun hsuccess => absurd (status_deleteReply hsuccess) hfailed⟩
    · exact ⟨fun hne => absurd rfl hne, fun _ => ⟨registry, task, htask, hhands⟩⟩

/-- Deploys and deletes are all or nothing.  A request without a valid spec,
    or without a name, is refused at once; any other is answered with
    success if queue and registry have taken the change, and with a
    failure if neither has, among them every failure of the advisor and a
    closed queue in which the task does not wait. -/
theorem deploy_and_delete_atomic (api : Api) (traceId : String) (r : ApiRequest)
    (hroute : Route.at? api.root r.parts.1 = some .tasks) :
    (r.method = .post →
      ((∀ spec, ¬ r.Deploys api.serving spec) →
        ∃ reply : ApiReply, reply.status = 400 ∧ api.handle traceId r = .done reply) ∧
      ∀ spec, r.Deploys api.serving spec →
        DeploysAtomically api.detector spec (api.handle traceId r)) ∧
    (r.method = .delete →
      ((∀ name, ¬ r.Names name) →
        ∃ reply : ApiReply, reply.status = 400 ∧ api.handle traceId r = .done reply) ∧
      ∀ name, r.Names name → DeletesAtomically name (api.handle traceId r)) := by
  constructor
  · intro hmethod
    rw [handle_post hroute hmethod]
    refine ⟨deploy_of_not_deploys, fun spec hdeploys => ?_⟩
    rw [deploy_of_deploys hdeploys]
    obtain ⟨-, -, -, hvalid⟩ := hdeploys
    exact deploysAtomically api.detector hvalid _
  · intro hmethod
    rw [handle_delete hroute hmethod]
    refine ⟨withTaskName_of_not_names, fun name hnames => ?_⟩
    rw [withTaskName_of_names hnames]
    exact deletesAtomically name _

/-- An interface below no path. -/
def rootless : Api := ⟨Schedule.watchful, default, "", "v1"⟩

/-- A request to delete a task. -/
def dropping : ApiRequest := ⟨.delete, "/deploy?task_name=chat", none, ""⟩

/-- A task is deployed by one request and deleted by another. -/
theorem deploy_and_delete_atomic_of_naming :
    Route.at? rootless.root Schedule.naming.parts.1 = some .tasks ∧
    Route.at? rootless.root dropping.parts.1 = some .tasks ∧
    DeploysAtomically rootless.detector (Schedule.named.fillDefaults default)
      (rootless.handle "trace" Schedule.naming) ∧
    DeletesAtomically "chat" (rootless.handle "trace" dropping) := by
  have hdeploy : Route.at? rootless.root Schedule.naming.parts.1 = some .tasks := by decide +kernel
  have hdelete : Route.at? rootless.root dropping.parts.1 = some .tasks := by decide +kernel
  have hdeploys : Schedule.naming.Deploys rootless.serving (Schedule.named.fillDefaults default) :=
    ⟨_, Schedule.readSpec_naming, rfl, by decide +kernel⟩
  have hnames : dropping.Names "chat" :=
    ⟨"chat", by decide +kernel, by decide +kernel, by decide⟩
  exact ⟨hdeploy, hdelete,
    ((deploy_and_delete_atomic rootless "trace" Schedule.naming hdeploy).1 rfl).2 _ hdeploys,
    ((deploy_and_delete_atomic rootless "trace" dropping hdelete).2 rfl).2 _ hnames⟩

/-- Nobody takes specs any more, and one of the task still waits. -/
def stranded : Plane :=
  { Plane.new 1 with queue := ((TaskQueue.new 1).record { Schedule.named with replica := 1 }).close }

/-- A deploy of a task that waits in a closed queue is answered with
    success, and registers it: its spec is replaced, and nobody takes it. -/
theorem replaced_in_closed_queue :
    stranded.queue.closed = true ∧ ∃ reply t,
      (rootless.handle "trace" Schedule.naming).Runs watching ⟨stranded, []⟩ reply t ∧
      reply.status = 200 ∧ (t.plane.registry.get? "chat").isSome = true := by
  have hdeploys : Schedule.naming.Deploys rootless.serving (Schedule.named.fillDefaults default) :=
    ⟨_, Schedule.readSpec_naming, rfl, by decide +kernel⟩
  have hroute : Route.at? rootless.root Schedule.naming.parts.1 = some .tasks := by decide +kernel
  let after : Watch := ⟨stranded.exchanged (stranded.registry.register
    (Schedule.named.fillDefaults default)) (Schedule.named.fillDefaults default), []⟩
  have hends : DeployEnds rootless.detector (Schedule.named.fillDefaults default) ⟨stranded, []⟩
      (.ok ()) after := .entered (.given rfl) rfl (.inl (by decide +kernel))
  refine ⟨rfl, deployReply ⟨"trace", "v1"⟩ (.ok ()), after, ?_, rfl, ?_⟩
  · rw [handle_post hroute rfl, deploy_of_deploys hdeploys]
    exact runs_deployReply (by decide +kernel) _ hends
  · decide +kernel

end Api

end ServingPlane
