import Mathlib.Data.List.Nodup
import ServingPlane.Proofs.Cluster.Isolation

/-! # Refused kinds

    A server that refuses every call about objects of some kinds.  Neither
    loop of a reconcile stops at a refusal: each kind is deleted or applied
    as if it were alone, and a refused one is put on a list.  Hence a run
    is known from the kinds that are refused, whatever the server holds and
    whatever the causes say, and its error names these kinds and no other. -/

namespace ServingPlane

open ClusterReconcile

/-! ## The kinds that are attempted -/

namespace ClusterReconcile

variable {spec : TaskSpec} {ctx : ClusterContext} {desired : List Manifest}

theorem undesired_nodup : (undesired desired).Nodup :=
  List.Nodup.filter _ (by decide : ObjectKind.all.Nodup)

/-- A reconcile attempts every kind once: those that are not wanted are
    deleted, the others applied. -/
theorem attempted_nodup (h : spec.desiredObjects ctx = .ok desired) :
    (undesired desired ++ desired.map Manifest.kind).Nodup := by
  refine List.Nodup.append undesired_nodup (TaskSpec.kinds_nodup h) ?_
  intro kind hpruned hwanted
  obtain ⟨m, hm, rfl⟩ := List.mem_map.mp hwanted
  exact mem_undesired.mp hpruned m hm rfl

theorem mem_attempted (kind : ObjectKind) :
    kind ∈ undesired desired ++ desired.map Manifest.kind := by
  rw [List.mem_append]
  by_cases h : ∀ m ∈ desired, m.kind ≠ kind
  · exact .inl (mem_undesired.mpr h)
  · push Not at h
    obtain ⟨m, hm, rfl⟩ := h
    exact .inr (List.mem_map_of_mem hm)

end ClusterReconcile

/-- A deployment holds as many replicas as four signed bytes count. -/
theorem TaskSpec.exists_desiredObjects {spec : TaskSpec}
    (h : (spec.replica.toNat : Int) ≤ Int32.maxValue.toInt) (ctx : ClusterContext) :
    ∃ desired, spec.desiredObjects ctx = .ok desired := by
  simp only [desiredObjects, deploymentManifest]
  rw [if_neg (Int.not_lt.mpr h)]
  exact ⟨_, rfl⟩

/-! ## Servers that refuse some kinds -/

/-- The call is about an object of one of these kinds. -/
def ClusterCall.IsRefused (refused : List ObjectKind) {α : Type} (call : ClusterCall α) : Prop :=
  ∃ key, call.key? = some key ∧ key.kind ∈ refused

namespace ApiServer

/-- A server that refuses every call about some kinds, for any cause, and
    serves all others. -/
def Refusing (version : Versioning) (refused : List ObjectKind) :
    Environment ApiServer ClusterCall :=
  fun s call answer t =>
    call.IsRefused refused ∧ (∃ e, answer = call.failure e) ∧ t = s ∨
      ¬ call.IsRefused refused ∧ (answer, t) = s.serve version call

section Runs

variable {version : Versioning} {refused : List ObjectKind} {s t : ApiServer} {spec : TaskSpec}
  {ctx : ClusterContext} {m : Manifest} {ms : List Manifest} {desired : List Manifest}
  {kind : ObjectKind} {kinds : List ObjectKind}

section Calls

variable {α : Type} {call : ClusterCall α} {answer : α} {key : ObjectKey}

theorem refusing_iff_of_mem (hkey : call.key? = some key) (h : key.kind ∈ refused) :
    Refusing version refused s call answer t ↔ (∃ e, answer = call.failure e) ∧ t = s := by
  have hrefused : call.IsRefused refused := ⟨key, hkey, h⟩
  constructor
  · rintro (⟨-, hanswer⟩ | ⟨hserved, -⟩)
    · exact hanswer
    · exact absurd hrefused hserved
  · exact fun hanswer => .inl ⟨hrefused, hanswer⟩

theorem refusing_iff_of_notMem (hkey : call.key? = some key) (h : key.kind ∉ refused) :
    Refusing version refused s call answer t ↔ (answer, t) = s.serve version call := by
  have hserved : ¬ call.IsRefused refused := by
    rintro ⟨other, hother, hmem⟩
    obtain rfl := Option.some.inj (hkey.symm.trans hother)
    exact h hmem
  constructor
  · rintro (⟨hrefused, -⟩ | ⟨-, hanswer⟩)
    · exact absurd hrefused hserved
    · exact hanswer
  · exact fun hanswer => .inr ⟨hserved, hanswer⟩

end Calls

theorem runs_deleteKind_of_mem (h : kind ∈ refused) {b : Bool} :
    (deleteKind spec kind).Runs (Refusing version refused) s b t ↔ b = true ∧ t = s := by
  refine Program.runs_bind.trans ⟨?_, ?_⟩
  · rintro ⟨answer, u, hask, hrest⟩
    obtain ⟨⟨e, rfl⟩, rfl⟩ := (refusing_iff_of_mem rfl h).mp (Program.runs_ask.mp hask)
    exact hrest
  · rintro ⟨rfl, rfl⟩
    exact ⟨_, _, Program.runs_ask.mpr
      ((refusing_iff_of_mem rfl h).mpr ⟨⟨.cluster "", rfl⟩, rfl⟩), rfl, rfl⟩

theorem runs_deleteKind_of_notMem (h : kind ∉ refused) {b : Bool} :
    (deleteKind spec kind).Runs (Refusing version refused) s b t ↔
      b = false ∧ t = s.remove (spec.objectKey kind) := by
  refine Program.runs_bind.trans ⟨?_, ?_⟩
  · rintro ⟨answer, u, hask, hrest⟩
    obtain ⟨rfl, rfl⟩ := Prod.mk.inj
      ((refusing_iff_of_notMem rfl h).mp (Program.runs_ask.mp hask))
    exact hrest
  · rintro ⟨rfl, rfl⟩
    exact ⟨_, _, Program.runs_ask.mpr ((refusing_iff_of_notMem rfl h).mpr rfl), rfl, rfl⟩

/-- Whatever is refused, the loop goes on, and ends with the refused kinds. -/
theorem runs_deleteKinds_iff {failed : List ObjectKind} :
    (deleteKinds spec kinds).Runs (Refusing version refused) s failed t ↔
      failed = kinds.filter (· ∈ refused) ∧ t = s.removeAll spec (kinds.filter (· ∉ refused)) := by
  induction kinds generalizing s failed with
  | nil => exact Iff.rfl
  | cons kind rest ih =>
    refine Program.runs_bind.trans ?_
    by_cases h : kind ∈ refused
    · rw [List.filter_cons_of_pos (by simpa using h), List.filter_cons_of_neg (by simpa using h)]
      constructor
      · rintro ⟨b, u, hkind, hrest⟩
        obtain ⟨rfl, rfl⟩ := (runs_deleteKind_of_mem h).mp hkind
        obtain ⟨others, v, hothers, rfl, rfl⟩ := Program.runs_bind.mp hrest
        obtain ⟨rfl, rfl⟩ := ih.mp hothers
        exact ⟨rfl, rfl⟩
      · rintro ⟨rfl, rfl⟩
        exact ⟨true, s, (runs_deleteKind_of_mem h).mpr ⟨rfl, rfl⟩,
          Program.runs_bind.mpr ⟨_, _, ih.mpr ⟨rfl, rfl⟩, rfl, rfl⟩⟩
    · rw [List.filter_cons_of_neg (by simpa using h), List.filter_cons_of_pos (by simpa using h)]
      constructor
      · rintro ⟨b, u, hkind, hrest⟩
        obtain ⟨rfl, rfl⟩ := (runs_deleteKind_of_notMem h).mp hkind
        obtain ⟨others, v, hothers, rfl, rfl⟩ := Program.runs_bind.mp hrest
        obtain ⟨rfl, rfl⟩ := ih.mp hothers
        exact ⟨rfl, rfl⟩
      · rintro ⟨rfl, rfl⟩
        exact ⟨false, _, (runs_deleteKind_of_notMem h).mpr ⟨rfl, rfl⟩,
          Program.runs_bind.mpr ⟨_, _, ih.mpr ⟨rfl, rfl⟩, rfl, rfl⟩⟩

theorem runs_apply_of_mem (h : m.kind ∈ refused) {outcome : Except BackendError Unit} :
    (apply spec m.kind m.document).Runs (Refusing version refused) s outcome t ↔
      (∃ e, outcome = .error e) ∧ t = s := by
  refine Program.runs_bind.trans ⟨?_, ?_⟩
  · rintro ⟨answer, u, hask, hrest⟩
    obtain ⟨⟨e, rfl⟩, rfl⟩ := (refusing_iff_of_mem rfl h).mp (Program.runs_ask.mp hask)
    exact ⟨⟨e, hrest.1⟩, hrest.2⟩
  · rintro ⟨⟨e, rfl⟩, rfl⟩
    exact ⟨_, _, Program.runs_ask.mpr
      ((refusing_iff_of_mem rfl h).mpr ⟨⟨e, rfl⟩, rfl⟩), rfl, rfl⟩

theorem runs_apply_of_notMem (hname : m.metadata.name = spec.objectName m.kind)
    (h : m.kind ∉ refused) {outcome : Except BackendError Unit} :
    (apply spec m.kind m.document).Runs (Refusing version refused) s outcome t ↔
      outcome = .ok () ∧ t = s.install version (spec.objectKey m.kind) m := by
  rw [apply_eq]
  refine Program.runs_bind.trans ⟨?_, ?_⟩
  · rintro ⟨answer, u, hask, hrest⟩
    -- the object is read as it stands, and the write that follows is served
    have hget : (answer, u) = (.ok (s.objects (spec.objectKey m.kind)), s) :=
      (refusing_iff_of_notMem rfl h).mp (Program.runs_ask.mp hask)
    obtain ⟨rfl, rfl⟩ := Prod.mk.inj hget
    have hwrite := (refusing_iff_of_notMem (m.key?_writeCall hname _) h).mp
      (Program.runs_ask.mp hrest)
    rw [serve_writeCall hname] at hwrite
    exact Prod.mk.inj hwrite
  · rintro ⟨rfl, rfl⟩
    refine ⟨_, _, Program.runs_ask.mpr ((refusing_iff_of_notMem rfl h).mpr rfl), ?_⟩
    refine Program.runs_ask.mpr ((refusing_iff_of_notMem (m.key?_writeCall hname _) h).mpr ?_)
    exact (serve_writeCall hname).symm

/-- Whatever is refused, the loop goes on, and ends with the refused kinds. -/
theorem runs_applyAll_iff (hname : ∀ m ∈ ms, m.metadata.name = spec.objectName m.kind)
    {failed : List ObjectKind} :
    (applyAll spec ms).Runs (Refusing version refused) s failed t ↔
      failed = (ms.map Manifest.kind).filter (· ∈ refused) ∧
        t = s.installAll version spec (ms.filter fun m => m.kind ∉ refused) := by
  induction ms generalizing s failed with
  | nil => exact Iff.rfl
  | cons m rest ih =>
    have hm : m.metadata.name = spec.objectName m.kind := hname m List.mem_cons_self
    have hih := fun {u : ApiServer} {others : List ObjectKind} =>
      @ih u (fun k hk => hname k (List.mem_cons_of_mem _ hk)) others
    refine Program.runs_bind.trans ?_
    rw [List.map_cons]
    by_cases h : m.kind ∈ refused
    · rw [List.filter_cons_of_pos (by simpa using h), List.filter_cons_of_neg (by simpa using h)]
      constructor
      · rintro ⟨outcome, u, happly, hrest⟩
        obtain ⟨⟨e, rfl⟩, rfl⟩ := (runs_apply_of_mem h).mp happly
        obtain ⟨others, v, hothers, rfl, rfl⟩ := Program.runs_bind.mp hrest
        obtain ⟨rfl, rfl⟩ := hih.mp hothers
        exact ⟨rfl, rfl⟩
      · rintro ⟨rfl, rfl⟩
        exact ⟨.error (.cluster ""), s, (runs_apply_of_mem h).mpr ⟨⟨_, rfl⟩, rfl⟩,
          Program.runs_bind.mpr ⟨_, _, hih.mpr ⟨rfl, rfl⟩, rfl, rfl⟩⟩
    · rw [List.filter_cons_of_neg (by simpa using h), List.filter_cons_of_pos (by simpa using h)]
      constructor
      · rintro ⟨outcome, u, happly, hrest⟩
        obtain ⟨rfl, rfl⟩ := (runs_apply_of_notMem hm h).mp happly
        obtain ⟨others, v, hothers, rfl, rfl⟩ := Program.runs_bind.mp hrest
        obtain ⟨rfl, rfl⟩ := hih.mp hothers
        exact ⟨rfl, rfl⟩
      · rintro ⟨rfl, rfl⟩
        exact ⟨.ok (), _, (runs_apply_of_notMem hm h).mpr ⟨rfl, rfl⟩,
          Program.runs_bind.mpr ⟨_, _, hih.mpr ⟨rfl, rfl⟩, rfl, rfl⟩⟩

/-- What a run of a reconcile ends with, and where. -/
theorem runs_createOrUpdate_iff (h : spec.desiredObjects ctx = .ok desired)
    {result : Except BackendError Unit} :
    (createOrUpdate ctx spec).Runs (Refusing version refused) s result t ↔
      result = settle spec ((undesired desired ++ desired.map Manifest.kind).filter (· ∈ refused)) ∧
        t = (s.removeAll spec ((undesired desired).filter (· ∉ refused))).installAll version spec
          (desired.filter fun m => m.kind ∉ refused) := by
  have hname : ∀ m ∈ desired, m.metadata.name = spec.objectName m.kind := fun m hm =>
    congrArg ObjectMetadata.name (TaskSpec.metadata_of_mem_desiredObjects h hm)
  rw [List.filter_append]
  simp only [createOrUpdate]
  rw [h]
  refine Program.runs_bind.trans ⟨?_, ?_⟩
  · rintro ⟨pruned, u, hprune, hrest⟩
    obtain ⟨applied, v, happly, rfl, rfl⟩ := Program.runs_bind.mp hrest
    obtain ⟨rfl, rfl⟩ := runs_deleteKinds_iff.mp hprune
    obtain ⟨rfl, rfl⟩ := (runs_applyAll_iff hname).mp happly
    exact ⟨rfl, rfl⟩
  · rintro ⟨rfl, rfl⟩
    exact ⟨_, _, runs_deleteKinds_iff.mpr ⟨rfl, rfl⟩,
      Program.runs_bind.mpr ⟨_, _, (runs_applyAll_iff hname).mpr ⟨rfl, rfl⟩, rfl, rfl⟩⟩

theorem runs_delete_iff {result : Except BackendError Unit} :
    (delete spec).Runs (Refusing version refused) s result t ↔
      result = settle spec (ObjectKind.all.filter (· ∈ refused)) ∧
        t = s.removeAll spec (ObjectKind.all.filter (· ∉ refused)) := by
  refine Program.runs_bind.trans ⟨?_, ?_⟩
  · rintro ⟨failed, u, hdelete, rfl, rfl⟩
    obtain ⟨rfl, rfl⟩ := runs_deleteKinds_iff.mp hdelete
    exact ⟨rfl, rfl⟩
  · rintro ⟨rfl, rfl⟩
    exact ⟨_, _, runs_deleteKinds_iff.mpr ⟨rfl, rfl⟩, rfl, rfl⟩

end Runs

/-! ## Kinds that fail apart -/

/-- An order for a task ended on a server that refuses some kinds: every
    other kind is in its final state, all else is as it was, and the result
    tells which kinds were refused. -/
structure FailedApart (refused : List ObjectKind) (spec : TaskSpec)
    (final : ObjectKind → Option Json) (s t : ApiServer) (result : Except BackendError Unit) :
    Prop where
  settled : ∀ kind ∉ refused, (t.objects (spec.objectKey kind)).map unversioned = final kind
  kept : ∀ key, key.kind ∈ refused ∨ (∀ kind, key ≠ spec.objectKey kind) →
    t.objects key = s.objects key
  ok_iff : result = .ok () ↔ ∀ kind, kind ∉ refused
  /-- Otherwise the error names the refused kinds, each of them once. -/
  named : (∃ kind, kind ∈ refused) → ∃ failed : List ObjectKind, failed.Nodup ∧
    (∀ kind, kind ∈ failed ↔ kind ∈ refused) ∧
    result = .error (.reconcile spec.name (", ".intercalate (failed.map ObjectKind.name)))

section Apart

variable {version : Versioning} {refused : List ObjectKind} {s t : ApiServer} {spec : TaskSpec}
  {ctx : ClusterContext} {desired : List Manifest} {kind : ObjectKind} {key : ObjectKey}

/-- What is reported when every kind was attempted once. -/
theorem settle_of_attempted {attempted : List ObjectKind} (hnodup : attempted.Nodup)
    (hall : ∀ kind, kind ∈ attempted) {result : Except BackendError Unit}
    (h : result = settle spec (attempted.filter (· ∈ refused))) :
    (result = .ok () ↔ ∀ kind, kind ∉ refused) ∧
      ((∃ kind, kind ∈ refused) → ∃ failed : List ObjectKind, failed.Nodup ∧
        (∀ kind, kind ∈ failed ↔ kind ∈ refused) ∧
        result = .error (.reconcile spec.name (", ".intercalate (failed.map ObjectKind.name)))) := by
  have hmem : ∀ kind, kind ∈ attempted.filter (· ∈ refused) ↔ kind ∈ refused := by
    intro kind
    rw [List.mem_filter, decide_eq_true_eq]
    exact and_iff_right (hall kind)
  refine ⟨?_, ?_⟩
  · rw [h, settle_eq_ok_iff, List.eq_nil_iff_forall_not_mem]
    exact forall_congr' fun kind => not_congr (hmem kind)
  · rintro ⟨kind, hkind⟩
    exact ⟨_, hnodup.filter _, hmem, h.trans (settle_of_mem ((hmem kind).mpr hkind))⟩

/-- A key that is kept is not the task's key of a kind that is served. -/
theorem ne_objectKey_of_kept (hkey : key.kind ∈ refused ∨ ∀ kind, key ≠ spec.objectKey kind)
    (hkind : kind ∉ refused) : key ≠ spec.objectKey kind := by
  rintro rfl
  rcases hkey with hmem | hforeign
  · exact hkind hmem
  · exact hforeign kind rfl

theorem failedApart_createOrUpdate (hdesired : spec.desiredObjects ctx = .ok desired)
    {result : Except BackendError Unit}
    (h : (createOrUpdate ctx spec).Runs (Refusing version refused) s result t) :
    FailedApart refused spec (spec.documentOf? ctx) s t result := by
  obtain ⟨hresult, rfl⟩ := (runs_createOrUpdate_iff hdesired).mp h
  obtain ⟨hok, hnamed⟩ := settle_of_attempted (attempted_nodup hdesired) mem_attempted hresult
  refine ⟨fun kind hkind => ?_, fun key hkey => ?_, hok, hnamed⟩
  · rw [TaskSpec.documentOf?, hdesired]
    dsimp only
    cases hfind : desired.find? fun m => m.kind = kind with
    | none =>
      have hother : ∀ m ∈ desired, m.kind ≠ kind := by
        intro m hm
        simpa using List.find?_eq_none.mp hfind m hm
      have hpruned : kind ∈ (undesired desired).filter (· ∉ refused) :=
        List.mem_filter.mpr ⟨mem_undesired.mpr hother, decide_eq_true hkind⟩
      have hne : ∀ m ∈ desired.filter fun m => m.kind ∉ refused,
          spec.objectKey kind ≠ spec.objectKey m.kind := fun m hm heq =>
        hother m (List.mem_filter.mp hm).1 (TaskSpec.objectKey_inj.mp heq).symm
      rw [objects_installAll_of_ne hne, objects_removeAll_of_mem hpruned]
      rfl
    | some m =>
      have hsome := List.find?_some hfind
      obtain rfl : m.kind = kind := of_decide_eq_true hsome
      have hwanted : m ∈ desired.filter fun m => m.kind ∉ refused :=
        List.mem_filter.mpr ⟨List.mem_of_find?_eq_some hfind, decide_eq_true hkind⟩
      have hnodup : ((desired.filter fun m => m.kind ∉ refused).map Manifest.kind).Nodup :=
        (TaskSpec.kinds_nodup hdesired).sublist (List.filter_sublist.map _)
      exact objects_installAll_of_mem hnodup hwanted
  · rw [objects_installAll_of_ne, objects_removeAll_of_ne]
    · intro kind hkind
      exact ne_objectKey_of_kept hkey (of_decide_eq_true (List.mem_filter.mp hkind).2)
    · intro m hm
      exact ne_objectKey_of_kept hkey (of_decide_eq_true (List.mem_filter.mp hm).2)

theorem failedApart_delete {result : Except BackendError Unit}
    (h : (delete spec).Runs (Refusing version refused) s result t) :
    FailedApart refused spec (fun _ => none) s t result := by
  obtain ⟨hresult, rfl⟩ := runs_delete_iff.mp h
  obtain ⟨hok, hnamed⟩ :=
    settle_of_attempted (by decide : ObjectKind.all.Nodup) ObjectKind.mem_all hresult
  refine ⟨fun kind hkind => ?_, fun key hkey => ?_, hok, hnamed⟩
  · have hattempted : kind ∈ ObjectKind.all.filter (· ∉ refused) :=
      List.mem_filter.mpr ⟨kind.mem_all, decide_eq_true hkind⟩
    rw [objects_removeAll_of_mem hattempted]
    rfl
  · refine objects_removeAll_of_ne fun kind hkind => ?_
    exact ne_objectKey_of_kept hkey (of_decide_eq_true (List.mem_filter.mp hkind).2)

/-- Kinds fail apart.  On a server that refuses some kinds, whatever it
    holds, a reconcile and a deletion run to their end, bring every other
    kind into its final state, leave all else as it was, succeed if nothing
    was refused, and else name exactly the refused kinds.  A replica count
    that no deployment holds is refused before the server is asked. -/
theorem kinds_fail_apart (version : Versioning) (refused : List ObjectKind) (ctx : ClusterContext)
    (spec : TaskSpec) (s : ApiServer) :
    ((spec.replica.toNat : Int) ≤ Int32.maxValue.toInt →
      (∃ desired, spec.desiredObjects ctx = .ok desired) ∧
      (∃ result t, (createOrUpdate ctx spec).Runs (Refusing version refused) s result t) ∧
      ∀ result t, (createOrUpdate ctx spec).Runs (Refusing version refused) s result t →
        FailedApart refused spec (spec.documentOf? ctx) s t result) ∧
    ((∃ result t, (delete spec).Runs (Refusing version refused) s result t) ∧
      ∀ result t, (delete spec).Runs (Refusing version refused) s result t →
        FailedApart refused spec (fun _ => none) s t result) ∧
    (Int32.maxValue.toInt < (spec.replica.toNat : Int) →
      createOrUpdate ctx spec = pure (.error (.invalidTask
        s!"task {spec.name} asks for {Numeric.natText spec.replica.toNat} replicas, more than a deployment holds"))) := by
  refine ⟨fun hreplica => ?_, ⟨?_, fun result t h => failedApart_delete h⟩, fun hreplica => ?_⟩
  · obtain ⟨desired, hdesired⟩ := TaskSpec.exists_desiredObjects hreplica ctx
    exact ⟨⟨desired, hdesired⟩, ⟨_, _, (runs_createOrUpdate_iff hdesired).mpr ⟨rfl, rfl⟩⟩,
      fun result t h => failedApart_createOrUpdate hdesired h⟩
  · exact ⟨_, _, runs_delete_iff.mpr ⟨rfl, rfl⟩⟩
  · simp only [createOrUpdate, TaskSpec.desiredObjects, TaskSpec.deploymentManifest]
    rw [if_pos hreplica]
    rfl

/-- Where services are refused, the old service stays and the ingress comes. -/
theorem kinds_fail_apart_of_refused_service :
    (portless.replica.toNat : Int) ≤ Int32.maxValue.toInt ∧
      ∃ t, (createOrUpdate behindNginx portless).Runs (Refusing counted [.service]) outdated
          (.error (.reconcile "chat" "Service")) t ∧
        t.objects (portless.objectKey .service) = some (.object [("kind", .string "Service")]) ∧
        (t.objects (portless.objectKey .ingress)).isSome := by
  have hreplica : (portless.replica.toNat : Int) ≤ Int32.maxValue.toInt := by decide
  obtain ⟨-, ⟨result, t, hrun⟩, hapart⟩ :=
    (kinds_fail_apart counted [.service] behindNginx portless outdated).1 hreplica
  obtain ⟨hsettled, hkept, -, hnamed⟩ := hapart result t hrun
  obtain ⟨failed, hnodup, hmem, rfl⟩ := hnamed ⟨.service, List.mem_singleton_self _⟩
  have hfailed : failed = [.service] := by
    refine (List.perm_singleton.mp ((List.perm_ext_iff_of_nodup hnodup
      (List.nodup_singleton _)).mpr hmem))
  subst hfailed
  refine ⟨hreplica, t, hrun, hkept _ (.inl (List.mem_singleton_self _)), ?_⟩
  obtain ⟨d, i, hdesired⟩ :
      ∃ d i, portless.desiredObjects behindNginx = .ok [.deployment d, .ingress i] := ⟨_, _, rfl⟩
  have hingress := hsettled .ingress (by decide)
  rw [TaskSpec.documentOf?, hdesired] at hingress
  obtain ⟨object, hobject, -⟩ := Option.map_eq_some_iff.mp hingress
  exact Option.isSome_iff_exists.mpr ⟨object, hobject⟩

end Apart

end ApiServer

end ServingPlane
