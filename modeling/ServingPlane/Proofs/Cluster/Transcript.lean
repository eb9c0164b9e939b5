import ServingPlane.Proofs.Cluster.Isolation

/-! # What a reconcile asked and heard

    The calls of a reconcile with their answers, whatever these are.  A
    write comes right after the read of the same object, is the whole
    manifest, and carries the version that was read; and a reconcile that
    ends names every kind about which it heard an error. -/

namespace ServingPlane

open ClusterReconcile

/-! ## Transcripts -/

/-- A call of the cluster with its answer. -/
inductive Answered where
  | get (kind : ObjectKind) (space name : String) (answer : Except BackendError (Option Json))
  | create (kind : ObjectKind) (space : String) (object : Json)
    (answer : Except BackendError Unit)
  | replace (kind : ObjectKind) (space name : String) (object : Json)
    (answer : Except BackendError Unit)
  | delete (kind : ObjectKind) (space name : String) (answer : Except BackendError Bool)
  | listPods (space selector : String) (answer : Except BackendError (List RuntimeInstance))

/-- A call put down with its answer. -/
def ClusterCall.answered : {α : Type} → ClusterCall α → α → Answered
  | _, .get kind space name, answer => .get kind space name answer
  | _, .create kind space object, answer => .create kind space object answer
  | _, .replace kind space name object, answer => .replace kind space name object answer
  | _, .delete kind space name, answer => .delete kind space name answer
  | _, .listPods space selector, answer => .listPods space selector answer

namespace Answered

/-- Whether an object was to be created or replaced. -/
def isWrite : Answered → Bool
  | create .. | replace .. => true
  | _ => false

/-- The kind about which an error was heard, if one was. -/
def failedKind? : Answered → Option ObjectKind
  | get kind _ _ (.error _) => some kind
  | create kind _ _ (.error _) => some kind
  | replace kind _ _ _ (.error _) => some kind
  | delete kind _ _ (.error _) => some kind
  | _ => none

end Answered

/-- A read of the task's object of a kind. -/
def TaskSpec.readAs (spec : TaskSpec) (kind : ObjectKind)
    (answer : Except BackendError (Option Json)) : Answered :=
  .get kind spec.clusterNamespace (spec.objectName kind) answer

/-- Every call may be answered in any way; what was said is put down. -/
def Recording : Environment (List Answered) ClusterCall :=
  fun said call answer said' => said' = said ++ [call.answered answer]

/-- The call writes a manifest of the spec over what the last call read. -/
def ClusterCall.FollowsRead (ctx : ClusterContext) (spec : TaskSpec) (said : List Answered)
    {α : Type} (call : ClusterCall α) : Prop :=
  ∀ answer, (call.answered answer).isWrite = true →
    ∃ desired m earlier seen outcome, spec.desiredObjects ctx = .ok desired ∧ m ∈ desired ∧
      said = earlier ++ [spec.readAs m.kind (.ok seen)] ∧
      call.answered answer = (m.writeCall spec seen).answered outcome

/-- What was said went on, and every kind with an error in it is on a list. -/
def Reports (failed : List ObjectKind) (said said' : List Answered) : Prop :=
  ∃ heard, said' = said ++ heard ∧
    ∀ entry ∈ heard, ∀ kind, entry.failedKind? = some kind → kind ∈ failed

namespace ClusterReconcile

variable {ctx : ClusterContext} {spec : TaskSpec} {said : List Answered}

/-- Every write of a reconcile comes right after the read of its object. -/
theorem followsRead_createOrUpdate :
    (createOrUpdate ctx spec).Guarded Recording
      (fun said call => call.FollowsRead ctx spec said) said := by
  refine guarded_createOrUpdate (fun _ kind answer h => nomatch h)
    (fun _ kind answer h => nomatch h) ?_
  intro desired hdesired m hm said seen _ hread outcome _
  exact ⟨desired, m, said, seen, outcome, hdesired, hm, hread, rfl⟩

end ClusterReconcile

/-! ## Errors are reported -/

namespace Reports

variable {first rest failed : List ObjectKind} {said middle said' : List Answered}

theorem trans (h : Reports first said middle) (h' : Reports rest middle said') :
    Reports (first ++ rest) said said' := by
  obtain ⟨heard, rfl, hheard⟩ := h
  obtain ⟨more, rfl, hmore⟩ := h'
  refine ⟨heard ++ more, List.append_assoc .., fun entry hentry kind hkind => ?_⟩
  rcases List.mem_append.mp hentry with hfirst | hrest
  · exact List.mem_append_left _ (hheard entry hfirst kind hkind)
  · exact List.mem_append_right _ (hmore entry hrest kind hkind)

/-- One answer is reported if it is no error, or its kind is on the list. -/
theorem concat {entry : Answered} (h : ∀ kind, entry.failedKind? = some kind → kind ∈ failed) :
    Reports failed said (said ++ [entry]) :=
  ⟨[entry], rfl, List.forall_mem_singleton.mpr h⟩

end Reports

namespace ClusterReconcile

variable {ctx : ClusterContext} {spec : TaskSpec} {said said' : List Answered}
  {failed : List ObjectKind}

theorem reports_deleteKind {kind : ObjectKind} {refused : Bool}
    (h : (deleteKind spec kind).Runs Recording said refused said') :
    Reports (if refused then [kind] else []) said said' := by
  obtain ⟨answer, u, hask, hrest⟩ := Program.runs_bind.mp h
  obtain rfl : u = _ := Program.runs_ask.mp hask
  cases answer with
  | ok found =>
    obtain ⟨rfl, rfl⟩ := hrest
    exact .concat fun kind hkind => nomatch hkind
  | error e =>
    obtain ⟨rfl, rfl⟩ := hrest
    refine .concat fun other hother => ?_
    obtain rfl := Option.some.inj hother
    exact List.mem_singleton_self _

theorem reports_deleteKinds {kinds : List ObjectKind}
    (h : (deleteKinds spec kinds).Runs Recording said failed said') :
    Reports failed said said' := by
  induction kinds generalizing said failed with
  | nil =>
    obtain ⟨rfl, rfl⟩ := h
    exact ⟨[], (List.append_nil said').symm, fun _ h => absurd h List.not_mem_nil⟩
  | cons kind rest ih =>
    obtain ⟨refused, middle, hkind, hrest⟩ := Program.runs_bind.mp h
    obtain ⟨others, last, hothers, rfl, rfl⟩ := Program.runs_bind.mp hrest
    have htold := (reports_deleteKind hkind).trans (ih hothers)
    cases refused with
    | true => exact htold
    | false => exact htold

/-- The kinds that an outcome puts on the list. -/
def failedBy (kind : ObjectKind) : Except BackendError Unit → List ObjectKind
  | .ok _ => []
  | .error _ => [kind]

theorem mem_failedBy_of_write {m : Manifest} {seen : Option Json}
    {outcome : Except BackendError Unit} {kind : ObjectKind}
    (h : ((m.writeCall spec seen).answered outcome).failedKind? = some kind) :
    kind ∈ failedBy m.kind outcome := by
  cases outcome with
  | ok done =>
    cases seen with
    | none => cases h
    | some live => cases h
  | error e =>
    cases seen with
    | none => exact List.mem_singleton.mpr (Option.some.inj h).symm
    | some live => exact List.mem_singleton.mpr (Option.some.inj h).symm

theorem reports_apply {m : Manifest} {outcome : Except BackendError Unit}
    (h : (apply spec m.kind m.document).Runs Recording said outcome said') :
    Reports (failedBy m.kind outcome) said said' := by
  rw [apply_eq] at h
  obtain ⟨answer, u, hask, hrest⟩ := Program.runs_bind.mp h
  obtain rfl : u = _ := Program.runs_ask.mp hask
  cases answer with
  | error e =>
    obtain ⟨rfl, rfl⟩ := hrest
    refine .concat fun other hother => ?_
    exact List.mem_singleton.mpr (Option.some.inj hother).symm
  | ok seen =>
    obtain rfl : said' = _ := Program.runs_ask.mp hrest
    have hread : Reports [] said (said ++ [spec.readAs m.kind (.ok seen)]) :=
      .concat fun kind hkind => nomatch hkind
    exact hread.trans (.concat fun kind hkind => mem_failedBy_of_write hkind)

theorem reports_applyAll {ms : List Manifest}
    (h : (applyAll spec ms).Runs Recording said failed said') : Reports failed said said' := by
  induction ms generalizing said failed with
  | nil =>
    obtain ⟨rfl, rfl⟩ := h
    exact ⟨[], (List.append_nil said').symm, fun _ h => absurd h List.not_mem_nil⟩
  | cons m rest ih =>
    obtain ⟨outcome, middle, hm, hrest⟩ := Program.runs_bind.mp h
    obtain ⟨others, last, hothers, hend⟩ := Program.runs_bind.mp hrest
    cases outcome with
    | ok done =>
      obtain ⟨rfl, rfl⟩ := hend
      exact (reports_apply hm).trans (ih hothers)
    | error e =>
      obtain ⟨rfl, rfl⟩ := hend
      exact (reports_apply hm).trans (ih hothers)

/-- A reconcile that ends names every kind about which it heard an error. -/
theorem named_of_failed {result : Except BackendError Unit}
    (h : (createOrUpdate ctx spec).Runs Recording [] result said) {entry : Answered}
    (hentry : entry ∈ said) {kind : ObjectKind} (hkind : entry.failedKind? = some kind) :
    ∃ failed : List ObjectKind, kind ∈ failed ∧
      result = .error (.reconcile spec.name (", ".intercalate (failed.map ObjectKind.name))) := by
  simp only [createOrUpdate] at h
  cases hdesired : spec.desiredObjects ctx with
  | error e =>
    rw [hdesired] at h
    obtain ⟨-, rfl⟩ := h
    cases hentry
  | ok desired =>
    rw [hdesired] at h
    obtain ⟨pruned, middle, hprune, hrest⟩ := Program.runs_bind.mp h
    obtain ⟨applied, last, happly, rfl, rfl⟩ := Program.runs_bind.mp hrest
    obtain ⟨heard, rfl, hheard⟩ := (reports_deleteKinds hprune).trans (reports_applyAll happly)
    have hfailed : kind ∈ pruned ++ applied := hheard entry hentry kind hkind
    exact ⟨pruned ++ applied, hfailed, settle_of_mem hfailed⟩

end ClusterReconcile

end ServingPlane
