import ServingPlane.Proofs.Cluster.Transcript
import ServingPlane.Proofs.Json.Number

/-! # Writers beside each other

    Any number of reconciles, call by call in any order, between the writes
    of other clients, on a server that may fail.  A version is never given
    twice to the objects at one key, so an object that still has the
    version that was read is the object that was read.  A reconcile that
    would write over another one is turned away, leaves the object to the
    other writer and tells so in the end.  An absent object has no version,
    so one that came and went in between is not noticed. -/

namespace ServingPlane

open ClusterReconcile
open ObjectStore (versionOf withVersion)

/-! ## What a step does to an object -/

/-- A version that was given at a key once is not given there after a write. -/
def Versioning.NeverRepeats (version : Versioning) : Prop :=
  ∀ (s t : ApiServer) (key : ObjectKey), version s key = version t key → s.revision = t.revision

/-- What is to be written takes the version that it is given. -/
def ClusterCall.TakesVersion : {α : Type} → ClusterCall α → Prop
  | _, .create _ _ object => ∀ v, versionOf (withVersion object v) = .string v
  | _, .replace _ _ _ object => ∀ v, versionOf (withVersion object v) = .string v
  | _, _ => True

theorem ClusterCall.FollowsRead.takesVersion {ctx : ClusterContext} {spec : TaskSpec}
    {said : List Answered} {α : Type} {call : ClusterCall α}
    (h : call.FollowsRead ctx spec said) : call.TakesVersion := by
  cases call with
  | get kind space name => trivial
  | delete kind space name => trivial
  | listPods space selector => trivial
  | create kind space object =>
    obtain ⟨desired, m, earlier, seen, outcome, -, -, -, heq⟩ := h (.ok ()) rfl
    cases seen with
    | none =>
      obtain ⟨-, -, rfl, -⟩ := Answered.create.inj heq
      exact fun v => rfl
    | some live => cases heq
  | replace kind space name object =>
    obtain ⟨desired, m, earlier, seen, outcome, -, -, -, heq⟩ := h (.ok ()) rfl
    cases seen with
    | none => cases heq
    | some live =>
      obtain ⟨-, -, -, rfl, -⟩ := Answered.replace.inj heq
      intro v
      rcases m.withLiveVersion_document live with ⟨hsame, -⟩ | hsame
      · rw [hsame]
        rfl
      · rw [hsame]
        rfl

namespace ApiServer

variable {version : Versioning} {s t : ApiServer} {key : ObjectKey}

/-- Every object has a version that was given at its key before. -/
def Stamped (version : Versioning) (s : ApiServer) : Prop :=
  ∀ key object, s.objects key = some object →
    ∃ u : ApiServer, u.revision < s.revision ∧ versionOf object = .string (version u key)

/-- What becomes of the object at a key in one step: it stays, it goes, or
    there is one with a version of this moment. -/
inductive Fate (version : Versioning) (key : ObjectKey) (s t : ApiServer) : Prop where
  | kept (hrevision : s.revision ≤ t.revision) (hobject : t.objects key = s.objects key)
  | gone (hrevision : s.revision ≤ t.revision) (hobject : t.objects key = none)
  | renewed (object : Json) (hrevision : s.revision < t.revision)
    (hobject : t.objects key = some object) (hversion : versionOf object = .string (version s key))

theorem Fate.revision_le (h : Fate version key s t) : s.revision ≤ t.revision := by
  cases h with
  | kept hrevision _ => exact hrevision
  | gone hrevision _ => exact hrevision
  | renewed object hrevision _ _ => exact Nat.le_of_lt hrevision

theorem Fate.refl : Fate version key s s := .kept (Nat.le_refl _) rfl

theorem Stamped.step (h : s.Stamped version) (hfate : ∀ key, Fate version key s t) :
    t.Stamped version := by
  intro key object hobject
  cases hfate key with
  | kept hrevision hkept =>
    obtain ⟨u, hu, hversion⟩ := h key object (hkept.symm.trans hobject)
    exact ⟨u, Nat.lt_of_lt_of_le hu hrevision, hversion⟩
  | gone _ hgone => exact nomatch hgone.symm.trans hobject
  | renewed new hrevision hnew hversion =>
    obtain rfl := Option.some.inj (hnew.symm.trans hobject)
    exact ⟨s, hrevision, hversion⟩

theorem fate_store {target : ObjectKey} {object : Json}
    (hversion : versionOf object = .string (version s target)) :
    Fate version key s ⟨Function.update s.objects target (some object), s.revision + 1⟩ := by
  by_cases heq : key = target
  · subst heq
    exact .renewed object (Nat.lt_succ_self _) (Function.update_self ..) hversion
  · exact .kept (Nat.le_succ _) (Function.update_of_ne heq _ _)

theorem fate_remove {target : ObjectKey} : Fate version key s (s.remove target) := by
  simp only [remove]
  split
  · by_cases heq : key = target
    · subst heq
      exact .gone (Nat.le_succ _) (Function.update_self ..)
    · exact .kept (Nat.le_succ _) (Function.update_of_ne heq _ _)
  · exact .refl

theorem fate_serve {α : Type} {call : ClusterCall α} (h : call.TakesVersion) :
    Fate version key s (s.serve version call).2 := by
  cases call with
  | get kind space name => exact .refl
  | listPods space selector => exact .refl
  | delete kind space name => exact fate_remove
  | create kind space object =>
    simp only [serve]
    split
    · exact .refl
    · exact fate_store (h _)
  | replace kind space name object =>
    simp only [serve]
    split
    · exact .refl
    · split
      · exact .refl
      · split
        · exact .refl
        · exact fate_store (h _)

theorem fate_of_failing {α : Type} {call : ClusterCall α} {answer : α} (h : call.TakesVersion)
    (hcall : Failing version s call answer t) : Fate version key s t := by
  have hserved : Fate version key s (s.serve version call).2 := fate_serve h
  rcases hcall with hanswer | ⟨-, rfl | rfl⟩
  · rw [← hanswer] at hserved
    exact hserved
  · exact .refl
  · exact hserved

/-- Another client stores an object, with a new version, or removes one. -/
inductive Write (version : Versioning) (s : ApiServer) : ApiServer → Prop where
  | stored (key : ObjectKey) (object : Json)
    (hversion : versionOf object = .string (version s key)) :
    Write version s ⟨Function.update s.objects key (some object), s.revision + 1⟩
  | removed (key : ObjectKey) : Write version s (s.remove key)

theorem Write.fate (h : Write version s t) : Fate version key s t := by
  cases h with
  | stored target object hversion => exact fate_store hversion
  | removed target => exact fate_remove

end ApiServer

/-! ## Scenes -/

/-- What happens at a server: a call of a run is answered, or another client writes. -/
inductive ClusterEvent (ι : Type) where
  | asked (run : ι) (entry : Answered) (before after : ApiServer)
  | written (before after : ApiServer)

namespace ClusterEvent

variable {ι : Type}

/-- The server before an event. -/
def before : ClusterEvent ι → ApiServer
  | asked _ _ before _ => before
  | written before _ => before

/-- The server after an event. -/
def after : ClusterEvent ι → ApiServer
  | asked _ _ _ after => after
  | written _ after => after

/-- The event leaves another object, or none, at a key. -/
def Changes (key : ObjectKey) (event : ClusterEvent ι) : Prop :=
  event.after.objects key ≠ event.before.objects key

variable [DecidableEq ι]

/-- What a run asked and heard by an event. -/
def heardBy? (i : ι) : ClusterEvent ι → Option Answered
  | asked run entry _ _ => if run = i then some entry else none
  | written .. => none

/-- What a run asked and heard by events in a row. -/
def heardBy (i : ι) (events : List (ClusterEvent ι)) : List Answered :=
  events.filterMap (heardBy? i)

end ClusterEvent

/-- A server, and what is left to do of every run. -/
structure ClusterScene (ι : Type) where
  server : ApiServer
  left : ι → Program ClusterCall (Except BackendError Unit)

namespace ClusterScene

variable {ι : Type} [DecidableEq ι]

/-- Every run is to bring a task into the state of its spec. -/
def start (ctx : ι → ClusterContext) (specs : ι → TaskSpec) (s : ApiServer) : ClusterScene ι where
  server := s
  left i := createOrUpdate (ctx i) (specs i)

/-- A run makes its next call, which may fail, or another client writes. -/
inductive Happens (version : Versioning) (scene : ClusterScene ι) :
    ClusterEvent ι → ClusterScene ι → Prop where
  | asked {β : Type} (i : ι) (call : ClusterCall β)
    (next : β → Program ClusterCall (Except BackendError Unit)) (answer : β) (t : ApiServer)
    (hleft : scene.left i = .call call next)
    (hcall : ApiServer.Failing version scene.server call answer t) :
    Happens version scene (.asked i (call.answered answer) scene.server t)
      ⟨t, Function.update scene.left i (next answer)⟩
  | written (t : ApiServer) (hwrite : ApiServer.Write version scene.server t) :
    Happens version scene (.written scene.server t) ⟨t, scene.left⟩

/-- Events in a row lead from one scene to another. -/
def Trace (version : Versioning) : ClusterScene ι → List (ClusterEvent ι) → ClusterScene ι → Prop
  | scene, [], last => last = scene
  | scene, event :: events, last =>
    ∃ next, Happens version scene event next ∧ Trace version next events last

variable {version : Versioning} {scene next last : ClusterScene ι} {event : ClusterEvent ι}
  {events later : List (ClusterEvent ι)}

theorem trace_append : scene.Trace version (events ++ later) last ↔
    ∃ next, scene.Trace version events next ∧ next.Trace version later last := by
  induction events generalizing scene with
  | nil =>
    constructor
    · exact fun h => ⟨scene, rfl, h⟩
    · rintro ⟨_, rfl, h⟩
      exact h
  | cons event events ih =>
    constructor
    · rintro ⟨u, hevent, hrest⟩
      obtain ⟨v, hevents, hlater⟩ := ih.mp hrest
      exact ⟨v, ⟨u, hevent, hevents⟩, hlater⟩
    · rintro ⟨v, ⟨u, hevent, hevents⟩, hlater⟩
      exact ⟨u, hevent, ih.mpr ⟨v, hevents, hlater⟩⟩

theorem Happens.before_eq (h : scene.Happens version event next) : event.before = scene.server := by
  cases h with
  | asked => rfl
  | written => rfl

theorem Happens.after_eq (h : scene.Happens version event next) : event.after = next.server := by
  cases h with
  | asked => rfl
  | written => rfl

/-! ## What is true in every scene -/

/-- The objects have their versions, every run stands where its reconcile
    may stand after what it asked and heard, and writes only over what it
    read. -/
structure Sound (version : Versioning) (ctx : ι → ClusterContext) (specs : ι → TaskSpec)
    (said : ι → List Answered) (scene : ClusterScene ι) : Prop where
  stamped : scene.server.Stamped version
  follows : ∀ i, (scene.left i).Guarded Recording
    (fun said call => call.FollowsRead (ctx i) (specs i) said) (said i)
  resumes : ∀ i result heard, (scene.left i).Runs Recording (said i) result heard →
    (createOrUpdate (ctx i) (specs i)).Runs Recording [] result heard

variable {ctx : ι → ClusterContext} {specs : ι → TaskSpec} {said : ι → List Answered}
  {key : ObjectKey} {s : ApiServer}

omit [DecidableEq ι] in
theorem sound_start (hs : s.Stamped version) :
    (start ctx specs s).Sound version ctx specs fun _ => [] where
  stamped := hs
  follows _ := followsRead_createOrUpdate
  resumes _ _ _ h := h

theorem Sound.fate (hsound : scene.Sound version ctx specs said)
    (h : scene.Happens version event next) :
    ApiServer.Fate version key scene.server next.server := by
  cases h with
  | asked i call k answer t hleft hcall =>
    have hguarded := hsound.follows i
    rw [hleft] at hguarded
    exact ApiServer.fate_of_failing hguarded.1.takesVersion hcall
  | written t hwrite => exact hwrite.fate

theorem Sound.step (hsound : scene.Sound version ctx specs said)
    (h : scene.Happens version event next) :
    next.Sound version ctx specs fun i => said i ++ (event.heardBy? i).toList := by
  have hstamped : next.server.Stamped version := hsound.stamped.step fun key => hsound.fate h
  cases h with
  | asked i call k answer t hleft hcall =>
    have hguarded := hsound.follows i
    have hruns := hsound.resumes i
    rw [hleft] at hguarded hruns
    refine ⟨hstamped, fun j => ?_, fun j result heard => ?_⟩
    · by_cases hj : i = j
      · subst hj
        simp only [Function.update_self, ClusterEvent.heardBy?, if_true]
        exact hguarded.2 answer _ rfl
      · simp only [Function.update_of_ne (Ne.symm hj), ClusterEvent.heardBy?, if_neg hj]
        exact (List.append_nil _).symm ▸ hsound.follows j
    · by_cases hj : i = j
      · subst hj
        simp only [Function.update_self, ClusterEvent.heardBy?, if_true]
        exact fun hrest => hruns result heard ⟨answer, _, rfl, hrest⟩
      · simp only [Function.update_of_ne (Ne.symm hj), ClusterEvent.heardBy?, if_neg hj]
        exact (List.append_nil _).symm ▸ hsound.resumes j result heard
  | written t hwrite =>
    simp only [ClusterEvent.heardBy?, Option.toList_none, List.append_nil]
    exact ⟨hstamped, hsound.follows, hsound.resumes⟩

theorem Sound.run (hsound : scene.Sound version ctx specs said)
    (h : scene.Trace version events last) :
    last.Sound version ctx specs fun i => said i ++ ClusterEvent.heardBy i events := by
  induction events generalizing scene said with
  | nil =>
    obtain rfl := h
    simp only [ClusterEvent.heardBy, List.filterMap_nil, List.append_nil]
    exact hsound
  | cons event events ih =>
    obtain ⟨u, hevent, hrest⟩ := h
    have hlast := ih (hsound.step hevent) hrest
    have hsaid : ∀ i, said i ++ (event.heardBy? i).toList ++ ClusterEvent.heardBy i events
        = said i ++ ClusterEvent.heardBy i (event :: events) := by
      intro i
      rw [List.append_assoc]
      simp only [ClusterEvent.heardBy, List.filterMap_cons]
      cases event.heardBy? i with
      | none => rfl
      | some entry => rfl
    simp only [hsaid] at hlast
    exact hlast

/-- What is true in every scene that reconciles and other writers come to. -/
theorem sound_of_trace (hs : s.Stamped version)
    (h : (start ctx specs s).Trace version events last) :
    last.Sound version ctx specs fun i => ClusterEvent.heardBy i events := by
  have hsound := (sound_start hs).run h
  simp only [List.nil_append] at hsound
  exact hsound

/-- Whatever happens, an object stays or what is there in the end has a
    version that was not given before. -/
theorem Sound.kept_or_renewed (hsound : scene.Sound version ctx specs said)
    (h : scene.Trace version events last) :
    ((∀ event ∈ events, ¬ event.Changes key) ∧
      last.server.objects key = scene.server.objects key) ∨
    ∀ object, last.server.objects key = some object →
      ∃ u : ApiServer, scene.server.revision ≤ u.revision ∧
        versionOf object = .string (version u key) := by
  induction events generalizing scene said with
  | nil =>
    obtain rfl := h
    exact .inl ⟨fun _ h => absurd h List.not_mem_nil, rfl⟩
  | cons event events ih =>
    obtain ⟨u, hevent, hrest⟩ := h
    have hfate : ApiServer.Fate version key scene.server u.server := hsound.fate hevent
    rcases ih (hsound.step hevent) hrest with ⟨hquiet, hkept⟩ | hrenewed
    · by_cases hsame : u.server.objects key = scene.server.objects key
      · refine .inl ⟨?_, hkept.trans hsame⟩
        rw [List.forall_mem_cons]
        refine ⟨?_, hquiet⟩
        rw [ClusterEvent.Changes, hevent.before_eq, hevent.after_eq]
        exact not_not_intro hsame
      · refine .inr fun object hobject => ?_
        have hobject' : u.server.objects key = some object := hkept.symm.trans hobject
        cases hfate with
        | kept _ heq => exact absurd heq hsame
        | gone _ hgone => exact nomatch hgone.symm.trans hobject'
        | renewed new _ hnew hversion =>
          obtain rfl := Option.some.inj (hnew.symm.trans hobject')
          exact ⟨scene.server, Nat.le_refl _, hversion⟩
    · refine .inr fun object hobject => ?_
      obtain ⟨w, hw, hversion⟩ := hrenewed object hobject
      exact ⟨w, Nat.le_trans hfate.revision_le hw, hversion⟩

/-- An object with the version that it had is the object that was there,
    and nobody wrote it since. -/
theorem Sound.same_of_version (hnever : version.NeverRepeats)
    (hsound : scene.Sound version ctx specs said) (h : scene.Trace version events last)
    (hversion : (last.server.objects key).map versionOf
      = (scene.server.objects key).map versionOf) :
    last.server.objects key = scene.server.objects key ∧
      ((∀ event ∈ events, ¬ event.Changes key) ∨ last.server.objects key = none) := by
  rcases hsound.kept_or_renewed h with ⟨hquiet, hkept⟩ | hrenewed
  · exact ⟨hkept, .inl hquiet⟩
  cases hlast : last.server.objects key with
  | none =>
    rw [hlast, Option.map_none, eq_comm, Option.map_eq_none_iff] at hversion
    exact ⟨hversion.symm, .inr rfl⟩
  | some object =>
    -- its version is from after the start, and the version that was there from before
    obtain ⟨u, hu, hnew⟩ := hrenewed object hlast
    rw [hlast, Option.map_some, hnew, eq_comm, Option.map_eq_some_iff] at hversion
    obtain ⟨live, hlive, hsame⟩ := hversion
    obtain ⟨w, hw, hold⟩ := hsound.stamped key live hlive
    have hrevision := hnever w u key (Json.string.inj (hold.symm.trans hsame))
    omega

end ClusterScene

/-! ## Writes over what was read -/

namespace ApiServer

variable {version : Versioning} {s t : ApiServer} {spec : TaskSpec} {m : Manifest}
  {seen : Option Json} {outcome : Except BackendError Unit}

/-- Whether a call may be answered so is seen from what is put down. -/
theorem Failing.of_answered {α β : Type} {call : ClusterCall α} {other : ClusterCall β} {answer : α}
    {outcome : β} (hcall : Failing version s call answer t)
    (h : call.answered answer = other.answered outcome) : Failing version s other outcome t := by
  cases call <;> cases other <;> cases h <;> exact hcall

theorem get_of_failing {kind : ObjectKind} {space name : String}
    (h : Failing version s (.get kind space name) (.ok seen) t) :
    t = s ∧ s.objects ⟨kind, space, name⟩ = seen := by
  rcases h with hserved | ⟨⟨e, he⟩, -⟩
  · obtain ⟨hseen, rfl⟩ := Prod.mk.inj hserved
    exact ⟨rfl, (Except.ok.inj hseen).symm⟩
  · cases he

/-- What is written over an object that stands as it was read is installed. -/
theorem installed_of_failing (hname : m.metadata.name = spec.objectName m.kind)
    (hseen : s.objects (spec.objectKey m.kind) = seen)
    (h : Failing version s (m.writeCall spec seen) (.ok ()) t) :
    (t.objects (spec.objectKey m.kind)).map unversioned = some m.document := by
  rcases h with hserved | ⟨⟨e, he⟩, -⟩
  · rw [← hseen, serve_writeCall hname] at hserved
    obtain ⟨-, rfl⟩ := Prod.mk.inj hserved
    exact objects_install_self
  · cases seen with
    | none => cases he
    | some live => cases he

/-- A write over an object of another version is turned away. -/
theorem serve_writeCall_of_outdated (hname : m.metadata.name = spec.objectName m.kind)
    (hold : (s.objects (spec.objectKey m.kind)).map versionOf ≠ seen.map versionOf) :
    ∃ e, s.serve version (m.writeCall spec seen) = (.error e, s) := by
  cases seen with
  | none =>
    have hkey : (ObjectKey.mk m.kind spec.clusterNamespace (ObjectStore.nameOf m.document))
        = spec.objectKey m.kind := by
      rw [m.nameOf_document, hname]
      rfl
    obtain ⟨live, hlive⟩ : ∃ live, s.objects (spec.objectKey m.kind) = some live := by
      rw [Option.map_none] at hold
      exact Option.ne_none_iff_exists'.mp fun hnone => hold (by rw [hnone]; rfl)
    refine ⟨.cluster "already exists", ?_⟩
    simp only [Manifest.writeCall, serve]
    rw [hkey, hlive]
  | some live =>
    have hversion : versionOf (withLiveVersion live m.document) = versionOf live := by
      rcases m.withLiveVersion_document live with ⟨hsame, hnull⟩ | hsame
      · rw [hsame, hnull, m.versionOf_document]
      · rw [hsame, m.versionOf_documentAt]
    show ∃ e, s.serve version (.replace _ _ _ _) = _
    simp only [serve]
    cases hcurrent : s.objects ⟨m.kind, spec.clusterNamespace, spec.objectName m.kind⟩ with
    | none => exact ⟨.cluster "not found", rfl⟩
    | some current =>
      refine ⟨.cluster "conflict", if_pos ?_⟩
      rw [hversion]
      intro heq
      have hobject : s.objects (spec.objectKey m.kind) = some current := hcurrent
      rw [hobject, Option.map_some, Option.map_some, heq] at hold
      exact hold rfl

theorem refused_of_outdated (hname : m.metadata.name = spec.objectName m.kind)
    (hold : (s.objects (spec.objectKey m.kind)).map versionOf ≠ seen.map versionOf)
    (h : Failing version s (m.writeCall spec seen) outcome t) :
    (∃ e, outcome = .error e) ∧ t = s := by
  obtain ⟨e, hserve⟩ : ∃ e, s.serve version (m.writeCall spec seen) = (.error e, s) :=
    serve_writeCall_of_outdated hname hold
  rcases h with hserved | ⟨⟨e', rfl⟩, hleft⟩
  · obtain ⟨rfl, rfl⟩ := Prod.mk.inj (hserved.trans hserve)
    exact ⟨⟨e, rfl⟩, rfl⟩
  · rw [hserve, or_self] at hleft
    refine ⟨?_, hleft⟩
    cases seen with
    | none => exact ⟨e', rfl⟩
    | some live => exact ⟨e', rfl⟩

end ApiServer

namespace ClusterScene

variable {ι : Type} [DecidableEq ι] {version : Versioning} {scene next last : ClusterScene ι}
  {ctx : ι → ClusterContext} {specs : ι → TaskSpec} {s before after : ApiServer} {i : ι}
  {entry : Answered} {earlier later : List (ClusterEvent ι)}

theorem Happens.asked_inv (h : scene.Happens version (.asked i entry before after) next) :
    before = scene.server ∧ after = next.server ∧
      ∃ (β : Type) (call : ClusterCall β) (k : β → _) (answer : β),
        entry = call.answered answer ∧ scene.left i = .call call k ∧
          ApiServer.Failing version before call answer after := by
  cases h with
  | asked _ call k answer t hleft hcall =>
    exact ⟨rfl, rfl, _, call, k, answer, rfl, hleft, hcall⟩

theorem exists_of_heardBy {said : List Answered}
    (h : ClusterEvent.heardBy i earlier = said ++ [entry]) :
    ∃ first before after between, earlier = first ++ .asked i entry before after :: between ∧
      ClusterEvent.heardBy i between = [] := by
  obtain ⟨init, tail, rfl, -, htail⟩ := List.filterMap_eq_append_iff.mp h
  obtain ⟨quiet, event, between, rfl, -, hevent, hbetween⟩ := List.filterMap_eq_cons_iff.mp htail
  cases event with
  | written before after => cases hevent
  | asked run other before after =>
    simp only [ClusterEvent.heardBy?] at hevent
    split at hevent
    · next heq =>
      obtain rfl := Option.some.inj hevent
      subst heq
      exact ⟨init ++ quiet, before, after, between, (List.append_assoc ..).symm, hbetween⟩
    · cases hevent

/-- The last that a run did before was to read its object of a kind, as
    that then stood; what came in between is not the run's. -/
def ReadLast (i : ι) (spec : TaskSpec) (kind : ObjectKind) (seen : Option Json)
    (earlier between : List (ClusterEvent ι)) : Prop :=
  ∃ first server, earlier = first ++ .asked i (spec.readAs kind (.ok seen)) server server :: between
    ∧ server.objects (spec.objectKey kind) = seen ∧ ClusterEvent.heardBy i between = []

/-- The run, if it has ended, told that objects of a kind could not be brought into their state. -/
def Reported (scene : ClusterScene ι) (i : ι) (spec : TaskSpec) (kind : ObjectKind) : Prop :=
  ∀ result, scene.left i = .done result → ∃ failed : List ObjectKind, kind ∈ failed ∧
    result = .error (.reconcile spec.name (", ".intercalate (failed.map ObjectKind.name)))

omit [DecidableEq ι] in
theorem Sound.reported {said : ι → List Answered} {kind : ObjectKind}
    (hsound : scene.Sound version ctx specs said) (hentry : entry ∈ said i)
    (hkind : entry.failedKind? = some kind) : scene.Reported i (specs i) kind := by
  intro result hdone
  have hruns := hsound.resumes i result (said i)
  rw [hdone] at hruns
  exact named_of_failed (hruns ⟨rfl, rfl⟩) hentry hkind

/-- Where a run heard the answer to a read last, it had made that read. -/
theorem Sound.read_last {kind : ObjectKind} {seen : Option Json} {heard : List Answered}
    (hs : s.Stamped version) (h : (start ctx specs s).Trace version earlier last)
    (hheard : ClusterEvent.heardBy i earlier
      = heard ++ [(specs i).readAs kind (.ok seen)]) :
    ∃ between said scene, ReadLast i (specs i) kind seen earlier between ∧
      Sound version ctx specs said scene ∧ scene.Trace version between last ∧
      scene.server.objects ((specs i).objectKey kind) = seen := by
  obtain ⟨first, server, server', between, rfl, hquiet⟩ := exists_of_heardBy hheard
  obtain ⟨u, hfirst, v, hread, hbetween⟩ := trace_append.mp h
  obtain ⟨rfl, rfl, β, call, k, answer, hcall, -, hserved⟩ := hread.asked_inv
  have hget : ApiServer.Failing version u.server
      (.get kind (specs i).clusterNamespace ((specs i).objectName kind)) (.ok seen) v.server :=
    hserved.of_answered hcall.symm
  obtain ⟨hsame, hseen⟩ := ApiServer.get_of_failing hget
  refine ⟨between, _, v, ⟨first, v.server, ?_, ?_, hquiet⟩, (sound_of_trace hs hfirst).step hread,
    hbetween, ?_⟩
  · rw [hsame]
  · rw [hsame]
    exact hseen
  · rw [hsame]
    exact hseen

/-- What comes of a write over an object that was read a while ago. -/
theorem Sound.write {said : ι → List Answered} {m : Manifest} {seen : Option Json}
    {outcome : Except BackendError Unit} {t : ApiServer} {between : List (ClusterEvent ι)}
    (hnever : version.NeverRepeats) (hname : m.metadata.name = (specs i).objectName m.kind)
    (hsound : scene.Sound version ctx specs said) (hbetween : scene.Trace version between last)
    (hseen : scene.server.objects ((specs i).objectKey m.kind) = seen)
    (h : ApiServer.Failing version last.server (m.writeCall (specs i) seen) outcome t) :
    (outcome = .ok () → last.server.objects ((specs i).objectKey m.kind) = seen ∧
        (t.objects ((specs i).objectKey m.kind)).map unversioned = some m.document) ∧
      ((∃ event ∈ between, event.Changes ((specs i).objectKey m.kind)) →
        ¬ (seen = none ∧ last.server.objects ((specs i).objectKey m.kind) = none) →
          (∃ e, outcome = .error e) ∧ t = last.server) := by
  by_cases hversion : (last.server.objects ((specs i).objectKey m.kind)).map versionOf
      = seen.map versionOf
  · -- it has the version that was read, so it is what was read
    obtain ⟨hsame, hquiet⟩ := hsound.same_of_version hnever hbetween (hseen ▸ hversion)
    have hlast := hsame.trans hseen
    refine ⟨?_, ?_⟩
    · rintro rfl
      exact ⟨hlast, ApiServer.installed_of_failing hname hlast h⟩
    · rintro ⟨event, hevent, hchanges⟩ hthere
      rcases hquiet with hquiet | hnone
      · exact absurd hchanges (hquiet event hevent)
      · exact absurd ⟨hlast.symm.trans hnone, hnone⟩ hthere
  · obtain ⟨⟨e, rfl⟩, hkept⟩ := ApiServer.refused_of_outdated hname hversion h
    exact ⟨fun hok => (nomatch hok), fun _ _ => ⟨⟨e, rfl⟩, hkept⟩⟩

/-- Every write of a run is of a whole manifest, over what the run itself
    read of its object last.  One that succeeds finds the object as it was
    read and leaves the manifest there.  If the object was changed in
    between, the write fails, leaves it to the other writer, and the run
    tells so in its end, except for an object that was absent and is absent
    again, which is created. -/
theorem no_update_lost (hnever : version.NeverRepeats) (hs : s.Stamped version)
    (htrace : (start ctx specs s).Trace version (earlier ++ .asked i entry before after :: later)
      last)
    (hwrite : entry.isWrite = true) :
    ∃ desired m seen outcome between, (specs i).desiredObjects (ctx i) = .ok desired ∧
      m ∈ desired ∧ entry = (m.writeCall (specs i) seen).answered outcome ∧
      ReadLast i (specs i) m.kind seen earlier between ∧
      (outcome = .ok () → before.objects ((specs i).objectKey m.kind) = seen ∧
        (after.objects ((specs i).objectKey m.kind)).map unversioned = some m.document) ∧
      ((∃ event ∈ between, event.Changes ((specs i).objectKey m.kind)) →
        ¬ (seen = none ∧ before.objects ((specs i).objectKey m.kind) = none) →
          (∃ e, outcome = .error e) ∧ after = before ∧ last.Reported i (specs i) m.kind) := by
  obtain ⟨u, hearlier, v, hevent, -⟩ := trace_append.mp htrace
  obtain ⟨rfl, rfl, β, call, k, answer, rfl, hleft, hcall⟩ := hevent.asked_inv
  -- the run may only write over what it read last
  have hfollows := (sound_of_trace hs hearlier).follows i
  rw [hleft] at hfollows
  obtain ⟨desired, m, said, seen, outcome, hdesired, hm, hsaid, hanswered⟩ :=
    hfollows.1 answer hwrite
  have hname : m.metadata.name = (specs i).objectName m.kind :=
    congrArg ObjectMetadata.name (TaskSpec.metadata_of_mem_desiredObjects hdesired hm)
  obtain ⟨between, _, scene, hread, hsound, hbetween, hseen⟩ := Sound.read_last hs hearlier hsaid
  obtain ⟨hok, hchanged⟩ :=
    hsound.write hnever hname hbetween hseen (hcall.of_answered hanswered)
  refine ⟨desired, m, seen, outcome, between, hdesired, hm, hanswered, hread, hok,
    fun hchanges hthere => ?_⟩
  obtain ⟨⟨e, rfl⟩, hkept⟩ := hchanged hchanges hthere
  have hheard : call.answered answer ∈ ClusterEvent.heardBy i
      (earlier ++ .asked i (call.answered answer) u.server v.server :: later) :=
    List.mem_filterMap.mpr ⟨_, List.mem_append_right _ List.mem_cons_self, if_pos rfl⟩
  refine ⟨⟨e, rfl⟩, hkept, (sound_of_trace hs htrace).reported hheard ?_⟩
  rw [hanswered]
  cases seen with
  | none => rfl
  | some live => rfl

/-! ## Two runs -/

/-- What happens when runs make calls in an order and none of them fails,
    and where that leads. -/
def play (version : Versioning) :
    List ι → ClusterScene ι → List (ClusterEvent ι) × ClusterScene ι
  | [], scene => ([], scene)
  | i :: order, scene =>
    match scene.left i with
    | .done _ => play version order scene
    | .call request next =>
      let answer := (scene.server.serve version request).1
      let server := (scene.server.serve version request).2
      let rest := play version order ⟨server, Function.update scene.left i (next answer)⟩
      (.asked i (request.answered answer) scene.server server :: rest.1, rest.2)

theorem trace_play (order : List ι) (scene : ClusterScene ι) :
    scene.Trace version (scene.play version order).1 (scene.play version order).2 := by
  induction order generalizing scene with
  | nil => rfl
  | cons i order ih =>
    simp only [play]
    cases hleft : scene.left i with
    | done result => exact ih scene
    | call request next => exact ⟨_, .asked i request next _ _ hleft (.inl rfl), ih _⟩

open ApiServer (behindNginx withdrawn counted)
open Numeric (natText_injective)

/-- Two runs for a task that asks for a deployment only. -/
def twoRuns : ClusterScene Bool := start (fun _ => behindNginx) (fun _ => withdrawn) .empty

/-- The second run is through between the read and the write of the first. -/
def overtaken : List Bool := List.replicate 4 false ++ List.replicate 5 true ++ [false]

theorem neverRepeats_counted : counted.NeverRepeats := fun _ _ _ h =>
  Nat.succ.inj (natText_injective h)

/-- The first run, which read no deployment, does not create one over the
    other's, and ends with an error about it. -/
theorem no_update_lost_of_overtaken :
    counted.NeverRepeats ∧ ApiServer.empty.Stamped counted ∧
      ∃ earlier entry before after last,
        twoRuns.Trace counted (earlier ++ .asked false entry before after :: []) last ∧
        entry.isWrite = true ∧ after = before ∧
        (before.objects (withdrawn.objectKey .deployment)).isSome ∧
        ∃ failed : List ObjectKind, .deployment ∈ failed ∧ last.left false = .done
          (.error (.reconcile withdrawn.name (", ".intercalate (failed.map ObjectKind.name)))) := by
  have hstamped : ApiServer.empty.Stamped counted := fun _ _ h => nomatch h
  obtain ⟨d, hdesired⟩ : ∃ d, withdrawn.desiredObjects behindNginx = .ok [.deployment d] := ⟨_, rfl⟩
  obtain ⟨first, created, bare, entry, before, after, hplay, hwrite, hbare, hthere⟩ :
      ∃ first created bare entry before after, (twoRuns.play counted overtaken).1
          = (first ++ [.asked true created bare before]) ++ .asked false entry before after :: [] ∧
        entry.isWrite = true ∧ bare.objects (withdrawn.objectKey .deployment) = none ∧
        (before.objects (withdrawn.objectKey .deployment)).isSome :=
    ⟨[_, _, _, _, _, _, _, _], _, _, _, _, _, rfl, rfl, rfl, rfl⟩
  have htrace : twoRuns.Trace counted (twoRuns.play counted overtaken).1 _ := trace_play overtaken _
  rw [hplay] at htrace
  obtain ⟨desired, m, seen, outcome, between, heq, hm, -, ⟨early, server, hread, -, -⟩, -, hlost⟩ :=
    no_update_lost neverRepeats_counted hstamped htrace hwrite
  obtain rfl := Except.ok.inj (hdesired.symm.trans heq)
  obtain rfl := List.mem_singleton.mp hm
  -- what came last before the write was not the first run's own read
  have hlast := congrArg List.getLast? hread
  rw [List.getLast?_append, List.getLast?_append, List.getLast?_singleton, List.getLast?_cons,
    Option.some_or, Option.some_or] at hlast
  have hbetween : .asked true created bare before ∈ between := by
    cases hend : between.getLast? with
    | none =>
      rw [hend] at hlast
      cases hlast
    | some event =>
      rw [hend] at hlast
      obtain rfl := Option.some.inj hlast
      exact List.mem_of_getLast? hend
  have hchanges : (ClusterEvent.asked true created bare before).Changes
      (withdrawn.objectKey .deployment) := by
    show before.objects _ ≠ bare.objects _
    rw [hbare]
    exact Option.isSome_iff_ne_none.mp hthere
  obtain ⟨-, hkept, hreported⟩ := hlost ⟨_, hbetween, hchanges⟩ fun hnone =>
    Option.isSome_iff_ne_none.mp hthere hnone.2
  obtain ⟨failed, hfailed, hresult⟩ := hreported _ rfl
  exact ⟨neverRepeats_counted, hstamped, _, entry, before, after, _, htrace, hwrite, hkept, hthere,
    failed, hfailed, congrArg Program.done hresult⟩

/-! ## An object in passing -/

/-- The first run has found no deployment. -/
def vacant : ClusterScene Bool := (twoRuns.play counted (List.replicate 4 false)).2

/-- Then another client has one. -/
def seized : ClusterScene Bool where
  server :=
    { objects := Function.update vacant.server.objects (withdrawn.objectKey .deployment)
        (some (withVersion (.object [("metadata", .object [("name", .string "chat")])])
          (counted vacant.server (withdrawn.objectKey .deployment))))
      revision := vacant.server.revision + 1 }
  left := vacant.left

/-- And takes it away again. -/
def released : ClusterScene Bool where
  server := seized.server.remove (withdrawn.objectKey .deployment)
  left := vacant.left

theorem trace_released : vacant.Trace counted
    [.written vacant.server seized.server, .written seized.server released.server] released :=
  ⟨seized, .written _ (.stored _ _ rfl), released,
    .written _ (.removed (withdrawn.objectKey .deployment)), rfl⟩

/-- The run does not notice: it creates the deployment, which others wrote
    after its read, and ends without an error. -/
theorem unnoticed_in_passing :
    counted.NeverRepeats ∧ ApiServer.empty.Stamped counted ∧
      ∃ m earlier between entry before after last,
        withdrawn.desiredObjects behindNginx = .ok [m] ∧
        twoRuns.Trace counted (earlier ++ .asked false entry before after :: []) last ∧
        entry = (m.writeCall withdrawn none).answered (.ok ()) ∧
        ReadLast false withdrawn m.kind none earlier between ∧
        (∃ event ∈ between, event.Changes (withdrawn.objectKey m.kind)) ∧
        after.objects (withdrawn.objectKey m.kind) ≠ before.objects (withdrawn.objectKey m.kind) ∧
        last.left false = .done (.ok ()) := by
  have hstamped : ApiServer.empty.Stamped counted := fun _ _ h => nomatch h
  obtain ⟨first, hfirst⟩ : ∃ first, (twoRuns.play counted (List.replicate 4 false)).1
      = first ++ [.asked false (withdrawn.readAs .deployment (.ok none)) vacant.server
          vacant.server] := ⟨[_, _, _], rfl⟩
  obtain ⟨d, after, hdesired, hplay, hcreated⟩ :
      ∃ d after, withdrawn.desiredObjects behindNginx = .ok [.deployment d] ∧
        (released.play counted [false]).1
          = [.asked false (((Manifest.deployment d).writeCall withdrawn none).answered (.ok ()))
              released.server after] ∧
        (after.objects (withdrawn.objectKey .deployment)).isSome := ⟨_, _, rfl, rfl, rfl⟩
  have hread : twoRuns.Trace counted _ vacant := trace_play (List.replicate 4 false) twoRuns
  have hwrite : released.Trace counted _ _ := trace_play [false] released
  rw [hfirst] at hread
  rw [hplay] at hwrite
  have habsent : released.server.objects (withdrawn.objectKey .deployment) = none := rfl
  refine ⟨neverRepeats_counted, hstamped, .deployment d, _, _, _, released.server, after, _, hdesired,
    trace_append.mpr ⟨_, trace_append.mpr ⟨_, hread, trace_released⟩, hwrite⟩, rfl,
    ⟨first, vacant.server, List.append_assoc .., rfl, rfl⟩, ⟨_, List.mem_cons_self, ?_⟩, ?_, rfl⟩
  · exact fun hsame => nomatch hsame
  · exact fun hsame => Option.isSome_iff_ne_none.mp hcreated (hsame.trans habsent)

end ClusterScene

end ServingPlane
