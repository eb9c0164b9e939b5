import Mathlib.Data.List.Induction
import ServingPlane.Proofs.Cluster.Installation

/-! # Specs of one task in a row

    What a server holds after several specs were brought into it, one
    after another.  A reconcile is to delete the objects that its spec no
    longer asks for, and a deletion all that is left of the task.  Both
    look under the names that their own spec gives.  So the object at a
    key is the one that the last spec with this key asks for, and while
    the keys stay the same, the objects of a task are those of its last
    spec.  Once a spec gives an object another key, the old object is
    missed by the reconcile, and by the deletion too. -/

namespace ServingPlane

open ClusterReconcile

/-! ## Labels -/

/-- The object carries a task's label. -/
def CarriesLabel (task : String) (object : Json) : Prop :=
  object.at? ["metadata", "labels", TaskSpec.taskLabel] = some (.string task)

private theorem lookup_place_self (key : String) (v : Json) (members : List (String × Json)) :
    (Dict.place key v members).lookup key = some v := by
  induction members with
  | nil => exact List.lookup_cons_self
  | cons member rest ih =>
    obtain ⟨other, w⟩ := member
    simp only [Dict.place]
    by_cases hlt : key < other
    · rw [if_pos hlt]
      exact List.lookup_cons_self
    · rw [if_neg hlt]
      by_cases hgt : other < key
      · have hne : key ≠ other := fun heq => String.lt_irrefl _ (heq ▸ hgt)
        rw [if_pos hgt, List.lookup_cons, beq_false_of_ne hne]
        exact ih
      · rw [if_neg hgt]
        exact List.lookup_cons_self

theorem Json.get?_withMember {v w : Json} {key : String} (h : v.get? key = some w) (value : Json) :
    (v.withMember key value).get? key = some value := by
  cases v with
  | object members => exact lookup_place_self key value members
  | _ => cases h

theorem Json.get?_withoutMember {key dropped : String} (h : key ≠ dropped) (v : Json) :
    (v.withoutMember dropped).get? key = v.get? key := by
  cases v with
  | object members =>
    show (members.filter fun member => member.1 ≠ dropped).lookup key = members.lookup key
    induction members with
    | nil => rfl
    | cons member rest ih =>
      obtain ⟨other, v⟩ := member
      by_cases hother : other = dropped
      · subst hother
        rw [List.filter_cons_of_neg (by simp), List.lookup_cons, beq_false_of_ne h]
        exact ih
      · rw [List.filter_cons_of_pos (by simpa using hother), List.lookup_cons, List.lookup_cons, ih]
  | _ => rfl

/-- Labels are no part of the version. -/
theorem carriesLabel_unversioned {task : String} {object : Json} :
    CarriesLabel task (unversioned object) ↔ CarriesLabel task object := by
  simp only [CarriesLabel, unversioned]
  cases h : object.get? "metadata" with
  | none => exact Iff.rfl
  | some metadata =>
    simp only [Json.at?]
    rw [Json.get?_withMember h, h, Option.bind_some, Option.bind_some,
      Json.get?_withoutMember (by decide)]

theorem Manifest.carriesLabel_document {spec : TaskSpec} {m : Manifest}
    (h : m.metadata = spec.objectMetadata m.kind) : CarriesLabel spec.name m.document := by
  show (metadataDocument m.metadata).at? ["labels", TaskSpec.taskLabel] = some (.string spec.name)
  rw [h]
  rfl

/-! ## The object at a key -/

namespace TaskSpec

/-- The task's object of a kind, if the spec asks for one and can be met. -/
def documentOf? (spec : TaskSpec) (ctx : ClusterContext) (kind : ObjectKind) : Option Json :=
  match spec.desiredObjects ctx with
  | .ok desired => (desired.find? fun m => m.kind = kind).map Manifest.document
  | .error _ => none

/-- The spec can be met, and the object at a key is the task's of its kind. -/
def Owns (spec : TaskSpec) (ctx : ClusterContext) (key : ObjectKey) : Prop :=
  (spec.desiredObjects ctx).isOk ∧ spec.objectKey key.kind = key

instance (spec : TaskSpec) (ctx : ClusterContext) (key : ObjectKey) :
    Decidable (spec.Owns ctx key) := inferInstanceAs (Decidable (_ ∧ _))

/-- The last of several specs that owns a key. -/
def owner? (ctx : ClusterContext) (specs : List TaskSpec) (key : ObjectKey) : Option TaskSpec :=
  specs.reverse.find? fun spec => spec.Owns ctx key

variable {ctx : ClusterContext} {spec : TaskSpec} {specs : List TaskSpec} {key : ObjectKey}

theorem owner?_append :
    owner? ctx (specs ++ [spec]) key
      = if spec.Owns ctx key then some spec else owner? ctx specs key := by
  simp only [owner?]
  rw [List.reverse_append, List.reverse_singleton, List.singleton_append, List.find?_cons]
  by_cases h : spec.Owns ctx key
  · rw [if_pos h, decide_eq_true h]
  · rw [if_neg h, decide_eq_false h]

end TaskSpec

namespace ApiServer

/-- What a server holds after specs were brought into it one after another. -/
def applied (version : Versioning) (ctx : ClusterContext) (s : ApiServer) (specs : List TaskSpec) :
    ApiServer :=
  specs.foldl (fun t spec => (run version (createOrUpdate ctx spec) t).2) s

variable {version : Versioning} {ctx : ClusterContext} {s : ApiServer} {spec : TaskSpec}
  {key : ObjectKey}

theorem Installed.map_objects {desired : List Manifest} (h : s.Installed spec desired)
    (kind : ObjectKind) :
    (s.objects (spec.objectKey kind)).map unversioned
      = (desired.find? fun m => m.kind = kind).map Manifest.document := by
  cases hfind : desired.find? fun m => m.kind = kind with
  | none =>
    have hother : ∀ m ∈ desired, m.kind ≠ kind := by
      intro m hm
      simpa using List.find?_eq_none.mp hfind m hm
    rw [h.absent kind hother]
    rfl
  | some m =>
    have hkind := List.find?_some hfind
    obtain rfl : m.kind = kind := of_decide_eq_true hkind
    exact h.present m (List.mem_of_find?_eq_some hfind)

/-- A reconcile leaves the keys that its spec does not own as they are. -/
theorem objects_createOrUpdate_of_not_owns (h : ¬ spec.Owns ctx key) :
    (run version (createOrUpdate ctx spec) s).2.objects key = s.objects key := by
  cases hdesired : spec.desiredObjects ctx with
  | error e =>
    have hrun : (run version (createOrUpdate ctx spec) s).2 = s := by
      simp only [createOrUpdate]
      rw [hdesired]
      rfl
    rw [hrun]
  | ok desired =>
    rw [run_createOrUpdate hdesired]
    refine objects_reconciled_of_ne ?_
    rintro kind rfl
    exact h ⟨by rw [hdesired]; rfl, rfl⟩

/-- A reconcile gives the keys that a spec owns their object, and leaves the others alone. -/
theorem map_objects_createOrUpdate :
    ((run version (createOrUpdate ctx spec) s).2.objects key).map unversioned
      = if spec.Owns ctx key then spec.documentOf? ctx key.kind
        else (s.objects key).map unversioned := by
  by_cases howns : spec.Owns ctx key
  · obtain ⟨hok, hkey⟩ := howns
    obtain ⟨desired, hdesired⟩ : ∃ desired, spec.desiredObjects ctx = .ok desired := by
      cases hdesired : spec.desiredObjects ctx with
      | error e =>
        rw [hdesired] at hok
        cases hok
      | ok desired => exact ⟨desired, rfl⟩
    have hinstalled : (s.reconciled version spec desired).Installed spec desired :=
      installed_reconciled hdesired
    have hmap := hinstalled.map_objects key.kind
    rw [hkey] at hmap
    rw [if_pos ⟨hok, hkey⟩, run_createOrUpdate hdesired, TaskSpec.documentOf?, hdesired]
    exact hmap
  · rw [if_neg howns, objects_createOrUpdate_of_not_owns howns]

theorem applied_append (s : ApiServer) (specs : List TaskSpec) (last : TaskSpec) :
    applied version ctx s (specs ++ [last])
      = (run version (createOrUpdate ctx last) (applied version ctx s specs)).2 := by
  simp only [applied]
  rw [List.foldl_append, List.foldl_cons, List.foldl_nil]

/-- At each key is what the last owner asks for there. -/
theorem map_objects_applied (specs : List TaskSpec) (key : ObjectKey) :
    ((applied version ctx .empty specs).objects key).map unversioned
      = (TaskSpec.owner? ctx specs key).bind fun spec => spec.documentOf? ctx key.kind := by
  -- from the last spec backwards: it decides its own keys and leaves the others as they were
  induction specs using List.reverseRecOn with
  | nil => rfl
  | append_singleton specs spec ih =>
    rw [applied_append, map_objects_createOrUpdate, TaskSpec.owner?_append]
    by_cases h : spec.Owns ctx key
    · rw [if_pos h, if_pos h, Option.bind_some]
    · rw [if_neg h, if_neg h]
      exact ih

/-- Whatever stands on the server, one of the specs asked for it. -/
theorem asked_of_applied {specs : List TaskSpec} {object : Json}
    (h : (applied version ctx .empty specs).objects key = some object) :
    ∃ spec ∈ specs, ∃ desired, spec.desiredObjects ctx = .ok desired ∧
      ∃ m ∈ desired, spec.objectKey m.kind = key ∧ m.document = unversioned object := by
  have hmap : ((applied version ctx .empty specs).objects key).map unversioned = _ :=
    map_objects_applied specs key
  rw [h, Option.map_some] at hmap
  obtain ⟨spec, howner, hdocument⟩ := Option.bind_eq_some_iff.mp hmap.symm
  have hmem := List.mem_reverse.mp (List.mem_of_find?_eq_some howner)
  have howns := List.find?_some howner
  obtain ⟨-, hkey⟩ : spec.Owns ctx key := of_decide_eq_true howns
  rw [TaskSpec.documentOf?] at hdocument
  cases hdesired : spec.desiredObjects ctx with
  | error e =>
    rw [hdesired] at hdocument
    cases hdocument
  | ok desired =>
    rw [hdesired] at hdocument
    obtain ⟨m, hfind, hm⟩ := Option.map_eq_some_iff.mp hdocument
    have hkind := List.find?_some hfind
    have hsame : m.kind = key.kind := of_decide_eq_true hkind
    exact ⟨spec, hmem, desired, hdesired, m, List.mem_of_find?_eq_some hfind, hsame ▸ hkey, hm⟩

/-- Every object carries the label of the task that the specs are of. -/
theorem carriesLabel_of_applied {specs : List TaskSpec} {task : String} {object : Json}
    (hname : ∀ spec ∈ specs, spec.name = task)
    (h : (applied version ctx .empty specs).objects key = some object) :
    CarriesLabel task object := by
  obtain ⟨spec, hmem, desired, hdesired, m, hm, -, hdocument⟩ := asked_of_applied h
  have hlabel :=
    Manifest.carriesLabel_document (TaskSpec.metadata_of_mem_desiredObjects hdesired hm)
  rw [hname spec hmem, hdocument] at hlabel
  exact carriesLabel_unversioned.mp hlabel

/-! ## The objects of a task -/

/-- The objects that carry a spec's label are exactly those that the spec asks for. -/
def LabelledExactly (s : ApiServer) (ctx : ClusterContext) (spec : TaskSpec) : Prop :=
  ∃ desired, spec.desiredObjects ctx = .ok desired ∧ ∀ key document,
    (∃ object, s.objects key = some object ∧ CarriesLabel spec.name object ∧
      unversioned object = document) ↔
    ∃ m ∈ desired, spec.objectKey m.kind = key ∧ m.document = document

/-- What a server holds after a task was deleted from it. -/
def deleted (version : Versioning) (s : ApiServer) (spec : TaskSpec) : ApiServer :=
  (run version (delete spec) s).2

/-- A deletion empties the keys of its spec and no other. -/
theorem objects_deleted (s : ApiServer) (spec : TaskSpec) (key : ObjectKey) :
    (s.deleted version spec).objects key
      = if spec.objectKey key.kind = key then none else s.objects key := by
  simp only [deleted]
  rw [run_delete]
  by_cases hkey : spec.objectKey key.kind = key
  · rw [if_pos hkey, ← hkey]
    exact objects_removeAll_of_mem (ObjectKind.mem_all _)
  · rw [if_neg hkey]
    refine objects_removeAll_of_ne ?_
    rintro kind - rfl
    exact hkey rfl

/-! ## Objects that are missed -/

/-- After specs of one task, the object at a key is not among those that the
    last spec asks for, and it outlives the task.  Nobody is told: the
    reconcile reports success, and so does the deletion. -/
structure LeavesBehind (version : Versioning) (ctx : ClusterContext) (specs : List TaskSpec)
    (last : TaskSpec) (key : ObjectKey) : Prop where
  sameTask : ∀ spec ∈ specs, spec.name = last.name
  reconciled :
    (run version (createOrUpdate ctx last) (applied version ctx .empty specs)).1 = .ok ()
  inexact : ¬ (applied version ctx .empty (specs ++ [last])).LabelledExactly ctx last
  deleted : (run version (delete last) (applied version ctx .empty (specs ++ [last]))).1 = .ok ()
  outlives : ∃ object,
    ((applied version ctx .empty (specs ++ [last])).deleted version last).objects key = some object ∧
      CarriesLabel last.name object

/-- This is what comes of an object at a key that the last spec does not have. -/
theorem leavesBehind_of_asked {specs : List TaskSpec} {first last : TaskSpec} {desired : List Manifest}
    (hname : ∀ spec ∈ specs, spec.name = last.name) (hdesired : last.desiredObjects ctx = .ok desired)
    (howner : TaskSpec.owner? ctx specs key = some first)
    (hasked : (first.documentOf? ctx key.kind).isSome) (hkey : last.objectKey key.kind ≠ key) :
    LeavesBehind version ctx specs last key := by
  obtain ⟨document, hdocument⟩ := Option.isSome_iff_exists.mp hasked
  have hmap : ((applied version ctx .empty specs).objects key).map unversioned = _ :=
    map_objects_applied specs key
  rw [howner, Option.bind_some, hdocument] at hmap
  obtain ⟨object, hobject, -⟩ := Option.map_eq_some_iff.mp hmap
  have hleft : (applied version ctx .empty (specs ++ [last])).objects key = some object := by
    rw [applied_append, objects_createOrUpdate_of_not_owns fun howns => hkey howns.2]
    exact hobject
  have hlabel : CarriesLabel last.name object := carriesLabel_of_applied hname hobject
  refine ⟨hname, ?_, ?_, ?_, object, ?_, hlabel⟩
  · rw [run_createOrUpdate hdesired]
  · rintro ⟨_, -, hexact⟩
    obtain ⟨m, -, rfl, -⟩ := (hexact key _).mp ⟨object, hleft, hlabel, rfl⟩
    exact hkey rfl
  · rw [run_delete]
  · rw [objects_deleted, if_neg hkey]
    exact hleft

/-- A task behind a service. -/
def exposed : TaskSpec :=
  { TaskSpec.blank with name := "chat", service := ⟨"front", [8080]⟩ }

/-- The task behind a service of another name. -/
def moved : TaskSpec := { exposed with service := ⟨"back", [8080]⟩ }

/-- The task without a service. -/
def bare : TaskSpec := { TaskSpec.blank with name := "chat" }

/-- The task in a namespace of its own. -/
def secluded : TaskSpec := { bare with namespaceName := "chats" }

/-- The service stays when it is no longer asked for, or under another name,
    and the deployment stays in the namespace that the task has left. -/
theorem objects_left_behind :
    LeavesBehind counted behindNginx [exposed] bare (exposed.objectKey .service) ∧
      LeavesBehind counted behindNginx [exposed] moved (exposed.objectKey .service) ∧
      LeavesBehind counted behindNginx [bare] secluded (bare.objectKey .deployment) := by
  obtain ⟨_, hbare⟩ : ∃ desired, bare.desiredObjects behindNginx = .ok desired := ⟨_, rfl⟩
  obtain ⟨_, hmoved⟩ : ∃ desired, moved.desiredObjects behindNginx = .ok desired := ⟨_, rfl⟩
  obtain ⟨_, hsecluded⟩ : ∃ desired, secluded.desiredObjects behindNginx = .ok desired := ⟨_, rfl⟩
  refine ⟨leavesBehind_of_asked ?_ hbare rfl rfl (by decide),
    leavesBehind_of_asked ?_ hmoved rfl rfl (by decide),
    leavesBehind_of_asked ?_ hsecluded rfl rfl (by decide)⟩
  all_goals
    rw [List.forall_mem_singleton]
    rfl

section Unmoved

variable {specs : List TaskSpec} {last : TaskSpec} {desired : List Manifest}

theorem installed_applied (hdesired : last.desiredObjects ctx = .ok desired) :
    (applied version ctx s (specs ++ [last])).Installed last desired := by
  rw [applied_append, run_createOrUpdate hdesired]
  exact installed_reconciled hdesired

/-- If earlier specs asked for nothing elsewhere, only the keys of the last one are taken. -/
theorem objectKey_of_applied {object : Json}
    (hsame : ∀ spec ∈ specs, ∀ asked, spec.desiredObjects ctx = .ok asked →
      ∀ m ∈ asked, spec.objectKey m.kind = last.objectKey m.kind)
    (h : (applied version ctx .empty (specs ++ [last])).objects key = some object) :
    last.objectKey key.kind = key := by
  obtain ⟨spec, hmem, asked, hasked, m, hm, rfl, -⟩ := asked_of_applied h
  rcases List.mem_append.mp hmem with hearlier | hlast
  · exact (hsame spec hearlier asked hasked m hm).symm
  · rw [List.mem_singleton.mp hlast]
    rfl

/-- Then the objects of the task are those of the last spec. -/
theorem labelledExactly_applied (hdesired : last.desiredObjects ctx = .ok desired)
    (hname : ∀ spec ∈ specs ++ [last], spec.name = last.name)
    (hsame : ∀ spec ∈ specs, ∀ asked, spec.desiredObjects ctx = .ok asked →
      ∀ m ∈ asked, spec.objectKey m.kind = last.objectKey m.kind) :
    (applied version ctx .empty (specs ++ [last])).LabelledExactly ctx last := by
  have hinstalled : (applied version ctx .empty (specs ++ [last])).Installed last desired :=
    installed_applied hdesired
  refine ⟨desired, hdesired, fun key document => ⟨?_, ?_⟩⟩
  -- what is there at all stands at a key of the last spec, labelled or not
  · rintro ⟨object, hobject, -, rfl⟩
    have hkey := objectKey_of_applied hsame hobject
    have hmap := hinstalled.map_objects key.kind
    rw [hkey, hobject, Option.map_some] at hmap
    obtain ⟨m, hfind, hdocument⟩ := Option.map_eq_some_iff.mp hmap.symm
    have hkind := List.find?_some hfind
    have hsame : m.kind = key.kind := of_decide_eq_true hkind
    exact ⟨m, List.mem_of_find?_eq_some hfind, hsame ▸ hkey, hdocument⟩
  · rintro ⟨m, hm, rfl, rfl⟩
    obtain ⟨object, hobject, hdocument⟩ := Option.map_eq_some_iff.mp (hinstalled.present m hm)
    exact ⟨object, hobject, carriesLabel_of_applied hname hobject, hdocument⟩

/-- At each key stands what the last spec with that key asks for, and a
    deletion empties the keys of its own spec only.  So the objects of a
    task are those of its last spec, and a deletion leaves none, if no
    earlier spec asked for an object at another key. -/
theorem objects_follow_last_owner (hdesired : last.desiredObjects ctx = .ok desired)
    (hname : ∀ spec ∈ specs ++ [last], spec.name = last.name) :
    (∀ key, ((applied version ctx .empty (specs ++ [last])).objects key).map unversioned
      = (TaskSpec.owner? ctx (specs ++ [last]) key).bind fun spec =>
        spec.documentOf? ctx key.kind) ∧
    (∀ key, ((applied version ctx .empty (specs ++ [last])).deleted version last).objects key
      = if last.objectKey key.kind = key then none
        else (applied version ctx .empty (specs ++ [last])).objects key) ∧
    ((∀ spec ∈ specs, ∀ asked, spec.desiredObjects ctx = .ok asked →
        ∀ m ∈ asked, spec.objectKey m.kind = last.objectKey m.kind) →
      (applied version ctx .empty (specs ++ [last])).LabelledExactly ctx last ∧
      ∀ key object,
        ((applied version ctx .empty (specs ++ [last])).deleted version last).objects key
            = some object → ¬ CarriesLabel last.name object) := by
  refine ⟨map_objects_applied _, objects_deleted _ _, fun hsame => ⟨?_, ?_⟩⟩
  · exact labelledExactly_applied hdesired hname hsame
  · intro key object hobject
    rw [objects_deleted] at hobject
    by_cases hkey : last.objectKey key.kind = key
    · rw [if_pos hkey] at hobject
      cases hobject
    · rw [if_neg hkey] at hobject
      exact absurd (objectKey_of_applied hsame hobject) hkey

/-- The task with a name for a service that it does not have yet. -/
def unexposed : TaskSpec := { exposed with service := ⟨"back", []⟩ }

/-- The task without its service again. -/
def withdrawn : TaskSpec := { exposed with service := ⟨"front", []⟩ }

/-- A name for a service without ports moves nothing. -/
theorem objects_follow_last_owner_of_withdrawn :
    (applied counted behindNginx .empty ([unexposed, exposed] ++ [withdrawn])).LabelledExactly
        behindNginx withdrawn ∧
      ∀ key object, ((applied counted behindNginx .empty
        ([unexposed, exposed] ++ [withdrawn])).deleted counted withdrawn).objects key
          = some object → ¬ CarriesLabel withdrawn.name object := by
  obtain ⟨desired, hdesired⟩ : ∃ desired, withdrawn.desiredObjects behindNginx = .ok desired :=
    ⟨_, rfl⟩
  have hname : ∀ spec ∈ [unexposed, exposed] ++ [withdrawn], spec.name = withdrawn.name := by
    simp [unexposed, withdrawn]
  refine (objects_follow_last_owner hdesired hname).2.2 ?_
  rw [List.forall_mem_cons, List.forall_mem_singleton]
  refine ⟨fun asked hasked => ?_, fun asked hasked => ?_⟩
  · obtain ⟨d, hd⟩ : ∃ d, unexposed.desiredObjects behindNginx = .ok [.deployment d] := ⟨_, rfl⟩
    obtain rfl := Except.ok.inj (hd.symm.trans hasked)
    rw [List.forall_mem_singleton]
    rfl
  · obtain ⟨d, m, hd⟩ :
        ∃ d m, exposed.desiredObjects behindNginx = .ok [.deployment d, .service m] := ⟨_, _, rfl⟩
    obtain rfl := Except.ok.inj (hd.symm.trans hasked)
    rw [List.forall_mem_cons, List.forall_mem_singleton]
    exact ⟨rfl, rfl⟩

end Unmoved

end ApiServer

end ServingPlane
