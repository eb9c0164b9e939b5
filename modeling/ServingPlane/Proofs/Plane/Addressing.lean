import ServingPlane.Proofs.Plane.Addressable
import ServingPlane.Proofs.Plane.Lookups

/-! # Every accepted task stays addressable

    Requests of the interface do to registry and queue what requests to
    the detector do, or nothing; so whatever requests, cycles and scalers
    do, a registered task stands under a name without white space.  Such a
    name is found in a query just where it stands between blanks, and to
    describe the task, to list its history and to delete it all reach what
    the registry has under that name, and nothing else.  A name that is
    not registered and a blank one are turned away without a trace. -/

namespace ServingPlane

/-! ## Names between blanks -/

/-- The name of a task stands in a query between blanks, and nothing else does. -/
def ApiRequest.States (r : ApiRequest) (name : String) : Prop :=
  ∃ given before after, ApiRequest.readTaskName r.parts.2 = .ok given ∧ Text.Blank before ∧
    Text.Blank after ∧ given.toList = before ++ name.toList ++ after

/-- A request names a task that can be named just if its query states the name. -/
theorem TaskSpec.Addressable.names_iff {spec : TaskSpec} (h : spec.Addressable) (r : ApiRequest) :
    r.Names spec.name ↔ r.States spec.name := by
  constructor
  · rintro ⟨given, hread, htrim, -⟩
    obtain ⟨before, after, hbefore, hafter, hgiven⟩ :=
      (Text.trimBlanks_eq_iff h.solid).mp (Text.trim_eq_iff.mp htrim)
    exact ⟨given, before, after, hread, hbefore, hafter, hgiven⟩
  · rintro ⟨given, before, after, hread, hbefore, hafter, hgiven⟩
    refine ⟨given, hread, Text.trim_eq_iff.mpr ?_, h.named⟩
    exact (Text.trimBlanks_eq_iff h.solid).mpr ⟨before, after, hbefore, hafter, hgiven⟩

/-! ## What requests do -/

/-- A call of the plane that leaves it as it is, and any call of the outside. -/
def DetectorCall.Inert : {β : Type} → DetectorCall β → Prop
  | _, .inl e => ∀ (p q : Plane) answer, p.serve e = some (answer, q) → q = p
  | _, .inr _ => True

namespace Api

open Program Detector

variable {api : Api} {traceId : String} {r : ApiRequest} {ctx : EnvelopeContext} {name : String}

/-- A program does what a request to the detector does, its result aside,
    or leaves any plane as it is. -/
def Joins {α : Type} (d : Detector) (p : Detection α) : Prop :=
  (∃ request : Request, (p >>= fun _ => pure ()) = request.program d) ∨
    p.EveryCall DetectorCall.Inert

theorem joins_done {α : Type} {d : Detector} (a : α) : Joins d (.done a : Detection α) :=
  .inr trivial

/-- What is made of the result does not count. -/
theorem Joins.map {α β : Type} {d : Detector} {p : Detection α} (h : Joins d p) (f : α → β) :
    Joins d (p >>= fun a => (pure (f a) : Detection β)) := by
  obtain ⟨request, hrequest⟩ | hinert := h
  · refine .inl ⟨request, ?_⟩
    rw [Program.bind_bind]
    exact hrequest
  · exact .inr (everyCall_bind hinert fun _ => trivial)

theorem joins_withTaskName {act : String → Detection ApiReply}
    (h : ∀ name, Joins api.detector (act name)) :
    Joins api.detector (withTaskName ctx r.parts.2 act) := by
  by_cases hnames : ∃ name, r.Names name
  · obtain ⟨name, hname⟩ := hnames
    rw [withTaskName_of_names hname]
    exact h name
  · have hrefused : ∃ reply : ApiReply, reply.status = 400 ∧
        withTaskName ctx r.parts.2 act = .done reply :=
      withTaskName_of_not_names (not_exists.mp hnames)
    obtain ⟨reply, -, hdone⟩ := hrefused
    rw [hdone]
    exact joins_done reply

theorem joins_history (d : Detector) (name : String) : Joins d (history ctx name) := by
  rw [history_eq]
  refine Joins.map (.inr ?_) _
  -- it reads the registry, and the store only if the task is there
  refine ⟨fun p q answer hserve => (Plane.serve_readRegistry hserve).2, fun registry => ?_⟩
  dsimp only [Program.bind]
  split
  · refine ⟨fun p q answer hserve => ?_, fun records => ?_⟩
    · cases hserve
      rfl
    · cases records with
      | _ => trivial
  · trivial

theorem joins_health (d : Detector) : Joins d (health ctx) := by
  refine .inr ⟨fun p q answer hserve => (Plane.serve_readRegistry hserve).2, fun registry => ?_⟩
  refine ⟨fun p q answer hserve => ?_, fun _ => trivial⟩
  cases hserve
  rfl

theorem joins_deploy (r : ApiRequest) : Joins api.detector (api.deploy ctx r) := by
  simp only [deploy]
  cases r.readSpec with
  | error cause => exact joins_done _
  | ok given =>
    -- the request deploys what was given, with the defaults of the interface
    refine .inl ⟨.deploy (given.fillDefaults api.serving), ?_⟩
    refine (Program.bind_bind ..).trans (congrArg _ (funext fun result => ?_))
    cases result with
    | _ => rfl

theorem joins_serve (method : HttpMethod) (route : Route) :
    Joins api.detector (api.serve ctx r r.parts.2 method route) := by
  have hdescribe : ∀ name, Joins api.detector (describe ctx name) := by
    intro name
    rw [describe_eq]
    exact Joins.map (.inl ⟨.describe name, rfl⟩) _
  have hdelete : ∀ name, Joins api.detector (delete ctx name) := by
    intro name
    rw [delete_eq]
    exact Joins.map (.inl ⟨.delete name, rfl⟩) _
  cases route with
  | tasks =>
    cases method with
    | post =>
      dsimp only [serve]
      exact joins_deploy r
    | delete =>
      dsimp only [serve]
      exact joins_withTaskName hdelete
    | _ =>
      dsimp only [serve]
      exact joins_withTaskName hdescribe
  | history =>
    dsimp only [serve]
    exact joins_withTaskName (joins_history api.detector)
  | health =>
    dsimp only [serve]
    exact joins_health api.detector

/-- Every request to the interface takes part in the runs of the detector,
    or leaves any plane as it is. -/
theorem joins_handle (api : Api) (traceId : String) (r : ApiRequest) :
    Joins api.detector (api.handle traceId r) := by
  simp only [handle]
  split
  · exact joins_done _
  · split
    · exact joins_done _
    · split
      · exact (joins_serve .get _).map _
      · exact joins_serve r.method _

end Api

/-! ## What is done to the task that a request names -/

/-- What can be done to a task by its name. -/
inductive TaskAct where
  | describe
  | history
  | delete

namespace TaskAct

open Program Detector

variable {act : TaskAct} {api : Api} {traceId : String} {r : ApiRequest} {ctx : EnvelopeContext}
  {name : String} {task : RegisteredTask} {w t : Watch} {reply : ApiReply} {turns : List Turn}

/-- The place where a request asks for it. -/
def route : TaskAct → Route
  | history => .history
  | _ => .tasks

/-- The method by which a request asks for it. -/
def method : TaskAct → HttpMethod
  | delete => .delete
  | _ => .get

/-- A request asks for it. -/
structure Asked (act : TaskAct) (api : Api) (r : ApiRequest) : Prop where
  route : Route.at? api.root r.parts.1 = some act.route
  method : r.method = act.method

/-- How it is served. -/
def program (ctx : EnvelopeContext) : TaskAct → String → Detection ApiReply
  | describe => Api.describe ctx
  | history => Api.history ctx
  | delete => Api.delete ctx

theorem Asked.handle_eq (h : act.Asked api r) :
    api.handle traceId r
      = Api.withTaskName ⟨traceId, api.version⟩ r.parts.2 (act.program ⟨traceId, api.version⟩) := by
  obtain ⟨hroute, hmethod⟩ := h
  have hunderstood : act.route.methods.contains r.method = true := by
    rw [hmethod]
    cases act with
    | _ => rfl
  have hhead : r.method ≠ .head := by
    rw [hmethod]
    cases act with
    | _ => decide
  rw [Api.handle_of_route hroute hunderstood hhead, hmethod]
  cases act with
  | _ => rfl

/-- How it is answered for a task that is not registered. -/
def unknownReply (ctx : EnvelopeContext) (name : String) : TaskAct → ApiReply
  | describe => .ofError ctx (.unknownTask name)
  | history => .notFound ctx name
  | delete => .notFound ctx name

/-- How it may end for a registered task, while nobody else acts: the reply,
    and the plane then with what was heard. -/
inductive Ends (ctx : EnvelopeContext) (name : String) (task : RegisteredTask) (w : Watch) :
    TaskAct → ApiReply → Watch → Prop
  /-- The backend is asked about the spec of the task, and a running replica is noted. -/
  | described (answer : Except BackendError (List RuntimeInstance)) :
    Ends ctx name task w describe (Api.describeReply ctx (task.shownBy answer))
      ⟨w.plane.noting name answer, w.heard ++ [.askedInstances task.spec answer]⟩
  /-- The recoveries on record under the name are listed. -/
  | listed :
    Ends ctx name task w history
      (Api.historyReply ctx name (((w.plane.store.listHistory name).map some).mapError .store)) w
  | refused (refuses : w.plane.queue.Refuses task.spec.name) :
    Ends ctx name task w delete (Api.deleteReply ctx name (.error .queueClosed)) w
  | deleted (takes : w.plane.queue.Takes task.spec.name) :
    Ends ctx name task w delete (Api.deleteReply ctx name (.ok true))
      ⟨w.plane.exchanged (w.plane.registry.unregister name) task.spec.teardown, w.heard⟩

/-- It is served by what the registry has under the name. -/
theorem runs_program : (act.program ctx name).Runs watching w reply t ↔
    w.plane.locked = false ∧
      ((w.plane.registry.get? name = none ∧ reply = act.unknownReply ctx name ∧ t = w) ∨
        ∃ task, w.plane.registry.get? name = some task ∧ Ends ctx name task w act reply t) := by
  cases act with
  | describe =>
    rw [program, Api.describe_eq, runs_map]
    constructor
    · rintro ⟨result, hrun, rfl⟩
      obtain ⟨hfree, ⟨hnone, rfl, rfl⟩ | ⟨task, answer, htask, rfl, rfl⟩⟩ := runs_describe.mp hrun
      · exact ⟨hfree, .inl ⟨hnone, rfl, rfl⟩⟩
      · exact ⟨hfree, .inr ⟨task, htask, .described answer⟩⟩
    · rintro ⟨hfree, ⟨hnone, rfl, rfl⟩ | ⟨task, htask, ⟨answer⟩⟩⟩
      · exact ⟨_, runs_describe.mpr ⟨hfree, .inl ⟨hnone, rfl, rfl⟩⟩, rfl⟩
      · exact ⟨_, runs_describe.mpr ⟨hfree, .inr ⟨task, answer, htask, rfl, rfl⟩⟩, rfl⟩
  | history =>
    rw [program, Api.history_eq, runs_map]
    constructor
    · rintro ⟨result, hrun, rfl⟩
      obtain ⟨hfree, ⟨hnone, rfl, rfl⟩ | ⟨task, htask, rfl, rfl⟩⟩ := runs_history.mp hrun
      · exact ⟨hfree, .inl ⟨hnone, rfl, rfl⟩⟩
      · exact ⟨hfree, .inr ⟨task, htask, .listed⟩⟩
    · rintro ⟨hfree, ⟨hnone, rfl, rfl⟩ | ⟨task, htask, ⟨⟩⟩⟩
      · exact ⟨_, runs_history.mpr ⟨hfree, .inl ⟨hnone, rfl, rfl⟩⟩, rfl⟩
      · exact ⟨_, runs_history.mpr ⟨hfree, .inr ⟨task, htask, rfl, rfl⟩⟩, rfl⟩
  | delete =>
    rw [program, Api.delete_eq, runs_map]
    constructor
    · rintro ⟨result, hrun, rfl⟩
      obtain ⟨hfree, ⟨hnone, rfl, rfl⟩ | ⟨task, htask, ⟨hrefuses, rfl, rfl⟩ | ⟨htakes, rfl, rfl⟩⟩⟩ :=
        runs_delete.mp hrun
      · exact ⟨hfree, .inl ⟨hnone, rfl, rfl⟩⟩
      · exact ⟨hfree, .inr ⟨task, htask, .refused hrefuses⟩⟩
      · exact ⟨hfree, .inr ⟨task, htask, .deleted htakes⟩⟩
    · rintro ⟨hfree, ⟨hnone, rfl, rfl⟩ | ⟨task, htask, hends⟩⟩
      · exact ⟨_, runs_delete.mpr ⟨hfree, .inl ⟨hnone, rfl, rfl⟩⟩, rfl⟩
      · cases hends with
        | refused hrefuses =>
          exact ⟨_, runs_delete.mpr ⟨hfree, .inr ⟨task, htask, .inl ⟨hrefuses, rfl, rfl⟩⟩⟩, rfl⟩
        | deleted htakes =>
          exact ⟨_, runs_delete.mpr ⟨hfree, .inr ⟨task, htask, .inr ⟨htakes, rfl, rfl⟩⟩⟩, rfl⟩

/-- A registered task is never answered for as unknown. -/
theorem Ends.status_ne (h : Ends ctx name task w act reply t) : reply.status ≠ 404 := by
  cases h with
  | described answer =>
    cases answer with
    | _ => rintro ⟨⟩
  | listed =>
    cases w.plane.store.listHistory name with
    | _ => rintro ⟨⟩
  | refused => rintro ⟨⟩
  | deleted => rintro ⟨⟩

/-- What belongs to other tasks stays as it is. -/
theorem Ends.others (h : Ends ctx name task w act reply t) (hname : task.spec.name = name)
    {other : String} (hother : other ≠ name) : t.plane.holding other = w.plane.holding other := by
  cases h with
  | described answer => exact Plane.holding_noting hother answer
  | listed => rfl
  | refused => rfl
  | deleted => exact Plane.holding_exchanged hname hother

/-- Whatever others do meanwhile, it is done by looking the name up. -/
theorem looksUp_program (h : (act.program ctx name).Makes turns reply)
    (hfit : Turn.AllFit none turns) : LooksUp name turns (reply.status = 404) := by
  cases act with
  | describe =>
    rw [program, Api.describe_eq] at h
    obtain ⟨result, hmakes, rfl⟩ := makes_map.mp h
    exact looksUp_describe ctx hmakes hfit
  | history =>
    rw [program, Api.history_eq] at h
    obtain ⟨result, hmakes, rfl⟩ := makes_map.mp h
    exact looksUp_history ctx hmakes hfit
  | delete =>
    rw [program, Api.delete_eq] at h
    obtain ⟨result, hmakes, rfl⟩ := makes_map.mp h
    exact looksUp_delete ctx hmakes hfit

/-- A program does to the task of one name what it is to do, and to no other. -/
structure Reaches (act : TaskAct) (ctx : EnvelopeContext) (name : String)
    (p : Detection ApiReply) : Prop where
  /-- While nobody else acts. -/
  unknown : ∃ missing : ApiReply, missing.status = 404 ∧ ∀ w reply t,
    w.plane.registry.get? name = none →
      (p.Runs watching w reply t ↔ w.plane.locked = false ∧ reply = missing ∧ t = w)
  known : ∀ w task reply t, w.plane.registry.get? name = some task →
    (p.Runs watching w reply t ↔ w.plane.locked = false ∧ Ends ctx name task w act reply t)
  others : ∀ w task reply t, w.plane.registry.get? name = some task → task.spec.name = name →
    p.Runs watching w reply t → reply.status ≠ 404 ∧
      ∀ other, other ≠ name → t.plane.holding other = w.plane.holding other
  /-- Whatever others do meanwhile. -/
  shared : ∀ turns reply, p.Makes turns reply → Turn.AllFit none turns →
    LooksUp name turns (reply.status = 404)

theorem reaches_program (act : TaskAct) (ctx : EnvelopeContext) (name : String) :
    act.Reaches ctx name (act.program ctx name) := by
  have hknown : ∀ w task reply t, w.plane.registry.get? name = some task →
      ((act.program ctx name).Runs watching w reply t ↔
        w.plane.locked = false ∧ Ends ctx name task w act reply t) := by
    intro w task reply t htask
    rw [runs_program]
    refine and_congr_right fun _ => ⟨?_, fun hends => .inr ⟨task, htask, hends⟩⟩
    rintro (⟨hnone, -⟩ | ⟨found, hfound, hends⟩)
    · cases hnone.symm.trans htask
    · cases hfound.symm.trans htask
      exact hends
  refine ⟨⟨act.unknownReply ctx name, ?_, fun w reply t hnone => ?_⟩, hknown,
    fun w task reply t htask hname hrun => ?_, fun turns reply => looksUp_program⟩
  · cases act with
    | _ => rfl
  · rw [runs_program]
    refine and_congr_right fun _ => ⟨?_, fun hends => .inl ⟨hnone, hends⟩⟩
    rintro (⟨-, hends⟩ | ⟨task, htask, -⟩)
    · exact hends
    · cases hnone.symm.trans htask
  -- what is found is one task, so the run ends as it may for that one
  · obtain ⟨-, hends⟩ := (hknown w task reply t htask).mp hrun
    exact ⟨hends.status_ne, fun other => hends.others hname⟩

end TaskAct

namespace Api

/-- A blank name is no name. -/
theorem not_names_of_blank {r : ApiRequest} {given : String}
    (hread : ApiRequest.readTaskName r.parts.2 = .ok given) (hblank : Text.Blank given.toList)
    (name : String) : ¬ r.Names name := by
  rintro ⟨found, hfound, rfl, hne⟩
  cases hread.symm.trans hfound
  exact hne (Text.trim_eq_iff.mpr (Text.trimBlanks_of_blank hblank))

/-- Every accepted task stays addressable.  However requests, cycles and
    the scaler take turns, each registered task stands under its own name,
    which is not empty and free of white space and slashes, and its model
    is not blank; a query names it just where the name stands between
    blanks; and what a request does to a task by its name it does to what
    is registered under that name, or answers that nothing is and leaves
    no trace.  Blank names are refused at once. -/
theorem accepted_stay_addressable (api : Api) (capacity : Nat) (actions : List Schedule.Action) :
    let registry := (Schedule.run api.detector capacity actions).plane.registry
    registry.Addressable ∧
    (∀ traceId r, Joins api.detector (api.handle traceId r)) ∧
    ∀ (act : TaskAct) traceId r, act.Asked api r →
      (∀ name, r.Names name →
        act.Reaches ⟨traceId, api.version⟩ name (api.handle traceId r)) ∧
      (∀ name task, registry.get? name = some task → (r.Names name ↔ r.States name)) ∧
      ∀ given, ApiRequest.readTaskName r.parts.2 = .ok given → Text.Blank given.toList →
        ∃ reply : ApiReply, reply.status = 400 ∧ api.handle traceId r = .done reply := by
  intro registry
  have haddressable := Schedule.addressable_run api.detector capacity actions
  refine ⟨haddressable, joins_handle api, fun act traceId r hasked => ⟨fun name hname => ?_,
    fun name task htask => ?_, fun given hread hblank => ?_⟩⟩
  · rw [hasked.handle_eq, withTaskName_of_names hname]
    exact TaskAct.reaches_program act _ name
  -- the name is that of its spec, so trimming leaves it whole
  · obtain ⟨rfl, hnamed⟩ := haddressable name task htask
    exact hnamed.names_iff r
  · rw [hasked.handle_eq]
    exact withTaskName_of_not_names (not_names_of_blank hread hblank)

/-- A request to describe a task whose name stands between a space and a tab. -/
def padded : ApiRequest := ⟨.get, "/deploy?task_name=+chat%09", none, ""⟩

/-- A request to list the recoveries of a task that has a blank for its name. -/
def nameless : ApiRequest := ⟨.get, "/task/detect/history?task_name=+%C2%A0", none, ""⟩

/-- A task that was recovered is described and deleted by its name, and a
    blank name is refused. -/
theorem accepted_stay_addressable_of_tuned :
    let registry := (Schedule.run rootless.detector 1 Schedule.tuned).plane.registry
    registry.spec? "chat" = some Schedule.settled ∧ registry.Addressable ∧
    padded.States "chat" ∧ TaskAct.describe.Asked rootless padded ∧
    TaskAct.describe.Reaches ⟨"trace", "v1"⟩ "chat" (rootless.handle "trace" padded) ∧
    TaskAct.delete.Reaches ⟨"trace", "v1"⟩ "chat" (rootless.handle "trace" dropping) ∧
    ∃ reply : ApiReply, reply.status = 400 ∧ rootless.handle "trace" nameless = .done reply := by
  intro registry
  obtain ⟨haddressable, -, hacts⟩ := accepted_stay_addressable rootless 1 Schedule.tuned
  have htuned : Schedule.tuned.take 23 = Schedule.tuned := List.take_of_length_le (by decide)
  have hdetector : rootless.detector = Schedule.watchful := rfl
  have hsettled : registry.spec? "chat" = some Schedule.settled := by
    simp only [registry]
    rw [hdetector, ← Schedule.specAfter_tuned, Schedule.specAfter, htuned]
  obtain ⟨task, htask, -⟩ := Option.map_eq_some_iff.mp hsettled
  have hdescribe : TaskAct.describe.Asked rootless padded := ⟨by decide +kernel, rfl⟩
  have hdelete : TaskAct.delete.Asked rootless dropping := ⟨by decide +kernel, rfl⟩
  have hhistory : TaskAct.history.Asked rootless nameless := ⟨by decide +kernel, rfl⟩
  have hstates : padded.States "chat" :=
    ⟨" chat\t", [' '], ['\t'], by decide +kernel, by decide, by decide, by decide +kernel⟩
  obtain ⟨hreaches, hnames, -⟩ := hacts .describe "trace" padded hdescribe
  obtain ⟨hreaches', -, -⟩ := hacts .delete "trace" dropping hdelete
  obtain ⟨-, -, hblank⟩ := hacts .history "trace" nameless hhistory
  refine ⟨hsettled, haddressable, hstates, hdescribe, ?_, ?_, ?_⟩
  · exact hreaches "chat" ((hnames "chat" task htask).mpr hstates)
  · exact hreaches' "chat" ⟨"chat", by decide +kernel, by decide +kernel, by decide⟩
  · exact hblank " \u00a0" (by decide +kernel) (by decide)

end Api

end ServingPlane
