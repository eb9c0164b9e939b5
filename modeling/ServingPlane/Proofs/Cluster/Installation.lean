import ServingPlane.Proofs.Cluster.ApiServer

/-! # Installing the desired objects

    What a reconcile of one task does to a server.  Each of the task's
    four keys is either emptied or made to say what a manifest says, and
    both do nothing where that is already so.  A run that succeeds was
    served throughout, even on a server that may fail, hence one equation
    of states describes all successful runs, and applying the same spec
    twice is applying it once. -/

namespace ServingPlane

open ObjectStore (versionOf withVersion nameOf)

/-! ## The manifests of a spec -/

/-- Where the task's object of a kind is kept. -/
def TaskSpec.objectKey (s : TaskSpec) (kind : ObjectKind) : ObjectKey :=
  ⟨kind, s.clusterNamespace, s.objectName kind⟩

theorem ObjectKind.mem_all (kind : ObjectKind) : kind ∈ all := by
  cases kind <;> decide

namespace TaskSpec

variable {spec : TaskSpec} {ctx : ClusterContext} {desired : List Manifest}

theorem objectKey_inj {kind other : ObjectKind} :
    spec.objectKey kind = spec.objectKey other ↔ kind = other :=
  ⟨fun h => congrArg ObjectKey.kind h, fun h => h ▸ rfl⟩

/-- A spec asks for a deployment, and for at most one object of each other kind. -/
theorem desiredObjects_eq (h : spec.desiredObjects ctx = .ok desired) :
    ∃ deployment, spec.deploymentManifest ctx = .ok deployment ∧
      desired = .deployment deployment :: (spec.serviceManifest?.map Manifest.service).toList
        ++ ((spec.ingressManifest? ctx).map Manifest.ingress).toList
        ++ ((spec.collectorManifest? ctx).map Manifest.collector).toList := by
  simp only [desiredObjects] at h
  cases hd : spec.deploymentManifest ctx with
  | error e =>
    rw [hd] at h
    cases h
  | ok deployment =>
    rw [hd] at h
    cases h
    exact ⟨deployment, rfl, rfl⟩

theorem kinds_nodup (h : spec.desiredObjects ctx = .ok desired) :
    (desired.map Manifest.kind).Nodup := by
  obtain ⟨deployment, -, rfl⟩ := desiredObjects_eq h
  cases spec.serviceManifest? <;> cases spec.ingressManifest? ctx <;>
    cases spec.collectorManifest? ctx <;> simp [Manifest.kind]

theorem deployment_metadata {m : DeploymentManifest} (h : spec.deploymentManifest ctx = .ok m) :
    m.metadata = spec.objectMetadata .deployment := by
  simp only [deploymentManifest] at h
  split at h
  · cases h
  · cases h
    rfl

theorem service_metadata {m : ServiceManifest} (h : spec.serviceManifest? = some m) :
    m.metadata = spec.objectMetadata .service := by
  simp only [serviceManifest?] at h
  split at h
  · cases h
  · cases h
    rfl

theorem ingress_metadata {m : IngressManifest} (h : spec.ingressManifest? ctx = some m) :
    m.metadata = spec.objectMetadata .ingress := by
  simp only [ingressManifest?] at h
  split at h
  · cases h
  · cases h
    rfl

theorem collector_metadata {m : CollectorManifest} (h : spec.collectorManifest? ctx = some m) :
    m.metadata = spec.objectMetadata .collector := by
  simp only [collectorManifest?] at h
  split at h
  · cases h
    rfl
  · cases h

/-- Every object says that it is the task's object of its kind. -/
theorem metadata_of_mem_desiredObjects (h : spec.desiredObjects ctx = .ok desired) {m : Manifest}
    (hm : m ∈ desired) : m.metadata = spec.objectMetadata m.kind := by
  obtain ⟨deployment, hd, rfl⟩ := desiredObjects_eq h
  simp only [List.mem_append, List.mem_cons, Option.mem_toList,
    Option.map_eq_some_iff] at hm
  rcases hm with ((rfl | ⟨service, hs, rfl⟩) | ⟨ingress, hi, rfl⟩) | ⟨collector, hc, rfl⟩
  · exact deployment_metadata hd
  · exact service_metadata hs
  · exact ingress_metadata hi
  · exact collector_metadata hc

end TaskSpec

/-- The call that writes a manifest where an object was read, or none. -/
def Manifest.writeCall (m : Manifest) (spec : TaskSpec) :
    Option Json → ClusterCall (Except BackendError Unit)
  | none => .create m.kind spec.clusterNamespace m.document
  | some live =>
    .replace m.kind spec.clusterNamespace (spec.objectName m.kind) (withLiveVersion live m.document)

namespace ClusterReconcile

theorem mem_undesired {desired : List Manifest} {kind : ObjectKind} :
    kind ∈ undesired desired ↔ ∀ m ∈ desired, m.kind ≠ kind := by
  simp only [undesired, List.mem_filter, Bool.not_eq_true', List.any_eq_false, beq_iff_eq,
    kind.mem_all, true_and, ne_eq]

theorem settle_eq_ok_iff {spec : TaskSpec} {refused : List ObjectKind} :
    settle spec refused = .ok () ↔ refused = [] := by
  cases refused with
  | nil => exact ⟨fun _ => rfl, fun _ => rfl⟩
  | cons kind kinds => exact ⟨by rintro ⟨⟩, by rintro ⟨⟩⟩

/-- Refused kinds are named. -/
theorem settle_of_mem {spec : TaskSpec} {refused : List ObjectKind} {kind : ObjectKind}
    (h : kind ∈ refused) : settle spec refused
      = .error (.reconcile spec.name (", ".intercalate (refused.map ObjectKind.name))) := by
  rw [settle, if_neg]
  rw [List.isEmpty_iff]
  exact List.ne_nil_of_mem h

/-- How a manifest goes on after its object was read. -/
def afterRead (spec : TaskSpec) (m : Manifest) :
    Except BackendError (Option Json) → Program ClusterCall (Except BackendError Unit)
  | .error e => return .error e
  | .ok seen => .ask (m.writeCall spec seen)

/-- Applying a manifest is one read and at most one write. -/
theorem apply_eq (spec : TaskSpec) (m : Manifest) :
    apply spec m.kind m.document
      = .ask (.get m.kind spec.clusterNamespace (spec.objectName m.kind)) >>= afterRead spec m := by
  simp only [apply]
  congr 1
  funext answer
  match answer with
  | .error e => rfl
  | .ok none => rfl
  | .ok (some live) => rfl

/-! ## The calls of a reconcile -/

section Guarded

variable {σ : Type} {env : Environment σ ClusterCall}
  {allowed : ∀ {β : Type}, σ → ClusterCall β → Prop} {s : σ} {spec : TaskSpec}

theorem guarded_deleteKinds (hdelete : ∀ (s : σ) kind,
      allowed s (.delete kind spec.clusterNamespace (spec.objectName kind)))
    (kinds : List ObjectKind) : (deleteKinds spec kinds).Guarded env allowed s := by
  induction kinds generalizing s with
  | nil => trivial
  | cons kind kinds ih =>
    refine Program.guarded_bind.mpr ⟨Program.guarded_bind.mpr ⟨?_, fun answer u _ => ?_⟩,
      fun refused u _ => Program.guarded_bind.mpr ⟨ih, fun rest v _ => trivial⟩⟩
    · exact Program.guarded_ask.mpr (hdelete s kind)
    · cases answer with
      | ok found => trivial
      | error e => trivial

/-- The one write of a manifest comes right after the read of its object. -/
theorem guarded_apply {m : Manifest}
    (hget : allowed s (.get m.kind spec.clusterNamespace (spec.objectName m.kind)))
    (hwrite : ∀ seen t,
      env s (.get m.kind spec.clusterNamespace (spec.objectName m.kind)) (.ok seen) t →
        allowed t (m.writeCall spec seen)) :
    (apply spec m.kind m.document).Guarded env allowed s := by
  rw [apply_eq]
  refine Program.guarded_bind.mpr ⟨Program.guarded_ask.mpr hget, fun answer u hread => ?_⟩
  cases answer with
  | error e => trivial
  | ok seen => exact Program.guarded_ask.mpr (hwrite seen u (Program.runs_ask.mp hread))

theorem guarded_applyAll {ms : List Manifest}
    (hget : ∀ m ∈ ms, ∀ s : σ,
      allowed s (.get m.kind spec.clusterNamespace (spec.objectName m.kind)))
    (hwrite : ∀ m ∈ ms, ∀ (s : σ) seen t,
      env s (.get m.kind spec.clusterNamespace (spec.objectName m.kind)) (.ok seen) t →
        allowed t (m.writeCall spec seen)) :
    (applyAll spec ms).Guarded env allowed s := by
  induction ms generalizing s with
  | nil => trivial
  | cons m rest ih =>
    rw [List.forall_mem_cons] at hget hwrite
    refine Program.guarded_bind.mpr ⟨guarded_apply (hget.1 s) (hwrite.1 s),
      fun outcome u _ => Program.guarded_bind.mpr ⟨ih hget.2 hwrite.2, fun others v _ => ?_⟩⟩
    cases outcome with
    | ok done => trivial
    | error e => trivial

/-- A reconcile deletes, reads, and writes manifests of the spec over what it has just read. -/
theorem guarded_createOrUpdate {ctx : ClusterContext}
    (hdelete : ∀ (s : σ) kind,
      allowed s (.delete kind spec.clusterNamespace (spec.objectName kind)))
    (hget : ∀ (s : σ) kind, allowed s (.get kind spec.clusterNamespace (spec.objectName kind)))
    (hwrite : ∀ desired, spec.desiredObjects ctx = .ok desired → ∀ m ∈ desired,
      ∀ (s : σ) seen t,
        env s (.get m.kind spec.clusterNamespace (spec.objectName m.kind)) (.ok seen) t →
          allowed t (m.writeCall spec seen)) :
    (createOrUpdate ctx spec).Guarded env allowed s := by
  simp only [createOrUpdate]
  cases hdesired : spec.desiredObjects ctx with
  | error e => trivial
  | ok desired =>
    exact Program.guarded_bind.mpr ⟨guarded_deleteKinds hdelete _, fun pruned u _ =>
      Program.guarded_bind.mpr ⟨guarded_applyAll (fun m _ s => hget s m.kind)
        (hwrite desired hdesired), fun applied v _ => trivial⟩⟩

end Guarded

end ClusterReconcile

namespace ApiServer

/-! ## Emptying and installing -/

/-- Remove the task's objects of some kinds. -/
def removeAll (s : ApiServer) (spec : TaskSpec) (kinds : List ObjectKind) : ApiServer :=
  kinds.foldl (fun t kind => t.remove (spec.objectKey kind)) s

/-- Make the object at a key say what a manifest says. -/
def install (version : Versioning) (s : ApiServer) (key : ObjectKey) (m : Manifest) : ApiServer :=
  if (s.objects key).map unversioned = some m.document then s else s.put version key m.document

/-- Install manifests at the task's keys. -/
def installAll (version : Versioning) (s : ApiServer) (spec : TaskSpec) (ms : List Manifest) :
    ApiServer :=
  ms.foldl (fun t m => t.install version (spec.objectKey m.kind) m) s

section Objects

variable {version : Versioning} {s : ApiServer} {spec : TaskSpec} {key other : ObjectKey}
  {m : Manifest} {ms : List Manifest} {kinds : List ObjectKind}

theorem objects_install_self :
    ((s.install version key m).objects key).map unversioned = some m.document := by
  simp only [install]
  split
  · assumption
  · simp only [put, Function.update_self, Option.map_some, m.withVersion_document,
      m.unversioned_documentAt]

theorem objects_install_of_ne (h : other ≠ key) :
    (s.install version key m).objects other = s.objects other := by
  simp only [install]
  split
  · rfl
  · exact Function.update_of_ne h _ _

theorem install_of_installed (h : (s.objects key).map unversioned = some m.document) :
    s.install version key m = s := if_pos h

theorem objects_removeAll_of_mem {kind : ObjectKind} (h : kind ∈ kinds) :
    (s.removeAll spec kinds).objects (spec.objectKey kind) = none := by
  -- once emptied, a key stays empty
  have hkeep : ∀ (rest : List ObjectKind) {t : ApiServer},
      t.objects (spec.objectKey kind) = none →
        (t.removeAll spec rest).objects (spec.objectKey kind) = none := by
    intro rest
    induction rest with
    | nil => exact fun ht => ht
    | cons other rest ih =>
      intro t ht
      refine ih ?_
      rw [objects_remove, Function.update_apply]
      split
      · rfl
      · exact ht
  induction kinds generalizing s with
  | nil => cases h
  | cons other rest ih =>
    rcases List.mem_cons.mp h with rfl | hrest
    · refine hkeep rest ?_
      rw [objects_remove, Function.update_self]
    · exact ih hrest

theorem objects_removeAll_of_ne (h : ∀ kind ∈ kinds, key ≠ spec.objectKey kind) :
    (s.removeAll spec kinds).objects key = s.objects key := by
  induction kinds generalizing s with
  | nil => rfl
  | cons kind rest ih =>
    refine (ih fun k hk => h k (List.mem_cons_of_mem _ hk)).trans ?_
    rw [objects_remove, Function.update_of_ne (h kind List.mem_cons_self)]

theorem removeAll_of_absent (h : ∀ kind ∈ kinds, s.objects (spec.objectKey kind) = none) :
    s.removeAll spec kinds = s := by
  induction kinds with
  | nil => rfl
  | cons kind rest ih =>
    show (s.remove (spec.objectKey kind)).removeAll spec rest = s
    rw [remove_of_absent (h kind List.mem_cons_self)]
    exact ih fun k hk => h k (List.mem_cons_of_mem _ hk)

theorem objects_installAll_of_ne (h : ∀ m ∈ ms, key ≠ spec.objectKey m.kind) :
    (s.installAll version spec ms).objects key = s.objects key := by
  induction ms generalizing s with
  | nil => rfl
  | cons m rest ih =>
    refine (ih fun k hk => h k (List.mem_cons_of_mem _ hk)).trans ?_
    exact objects_install_of_ne (h m List.mem_cons_self)

/-- Of manifests of different kinds, none is overwritten. -/
theorem objects_installAll_of_mem (hnodup : (ms.map Manifest.kind).Nodup) (hm : m ∈ ms) :
    ((s.installAll version spec ms).objects (spec.objectKey m.kind)).map unversioned
      = some m.document := by
  induction ms generalizing s with
  | nil => cases hm
  | cons first rest ih =>
    rw [List.map_cons, List.nodup_cons] at hnodup
    rcases List.mem_cons.mp hm with rfl | hrest
    -- it is written first, and the others go to keys of other kinds
    · have hne : ∀ k ∈ rest, spec.objectKey m.kind ≠ spec.objectKey k.kind := by
        intro k hk heq
        exact hnodup.1 (List.mem_map.mpr ⟨k, hk, (TaskSpec.objectKey_inj.mp heq).symm⟩)
      exact (congrArg _ (objects_installAll_of_ne hne)).trans objects_install_self
    · exact ih hnodup.2 hrest

theorem installAll_of_installed
    (h : ∀ m ∈ ms, (s.objects (spec.objectKey m.kind)).map unversioned = some m.document) :
    s.installAll version spec ms = s := by
  induction ms with
  | nil => rfl
  | cons m rest ih =>
    show (s.install version (spec.objectKey m.kind) m).installAll version spec rest = s
    rw [install_of_installed (h m List.mem_cons_self)]
    exact ih fun k hk => h k (List.mem_cons_of_mem _ hk)

end Objects

/-! ## Runs on a reliable server -/

open ClusterReconcile

section Reliable

variable {version : Versioning} {s : ApiServer} {ctx : ClusterContext} {spec : TaskSpec}
  {m : Manifest} {ms : List Manifest}

theorem run_deleteKind (kind : ObjectKind) :
    run version (deleteKind spec kind) s = (false, s.remove (spec.objectKey kind)) := rfl

theorem run_deleteKinds (kinds : List ObjectKind) :
    run version (deleteKinds spec kinds) s = ([], s.removeAll spec kinds) := by
  induction kinds generalizing s with
  | nil => rfl
  | cons kind rest ih =>
    simp only [deleteKinds]
    rw [run_bind, run_deleteKind, run_bind, ih]
    rfl

/-- A replacement by the live version is never refused. -/
theorem serve_replace {kind : ObjectKind} {space name : String} {live : Json}
    (h : s.objects ⟨kind, space, name⟩ = some live) :
    s.serve version (.replace kind space name (withLiveVersion live m.document))
      = (.ok (), s.install version ⟨kind, space, name⟩ m) := by
  have hsame : versionOf (withLiveVersion live m.document) = versionOf live
      ∧ unversioned (withLiveVersion live m.document) = m.document
      ∧ ∀ v, withVersion (withLiveVersion live m.document) v = withVersion m.document v := by
    rcases m.withLiveVersion_document live with ⟨heq, hlive⟩ | heq
    · rw [heq, hlive]
      exact ⟨m.versionOf_document, m.unversioned_document, fun _ => rfl⟩
    · rw [heq]
      exact ⟨m.versionOf_documentAt _, m.unversioned_documentAt _, m.withVersion_documentAt _⟩
  have hput : ∀ key, s.put version key (withLiveVersion live m.document)
      = s.put version key m.document := by
    intro key
    simp only [put]
    rw [hsame.2.2]
  simp only [serve, install]
  rw [h, Option.map_some]
  simp only [Option.some.injEq, ne_eq]
  rw [if_neg (not_not_intro hsame.1), hsame.2.1, hput]
  by_cases heq : m.document = unversioned live
  · rw [if_pos heq, if_pos heq.symm]
  · rw [if_neg heq, if_neg fun hl => heq hl.symm]

theorem serve_create (hname : m.metadata.name = spec.objectName m.kind)
    (h : s.objects (spec.objectKey m.kind) = none) :
    s.serve version (.create m.kind spec.clusterNamespace m.document)
      = (.ok (), s.install version (spec.objectKey m.kind) m) := by
  have hkey : ObjectKey.mk m.kind spec.clusterNamespace (nameOf m.document)
      = spec.objectKey m.kind := by
    rw [m.nameOf_document, hname]
    rfl
  simp only [serve, install]
  rw [hkey, h]
  rfl

/-- What is written over an object as it stands is installed. -/
theorem serve_writeCall (hname : m.metadata.name = spec.objectName m.kind) :
    s.serve version (m.writeCall spec (s.objects (spec.objectKey m.kind)))
      = (.ok (), s.install version (spec.objectKey m.kind) m) := by
  cases hlive : s.objects (spec.objectKey m.kind) with
  | none => exact serve_create hname hlive
  | some live => exact serve_replace hlive

/-- A manifest is created where there is nothing, and replaces what is there. -/
theorem run_apply (hname : m.metadata.name = spec.objectName m.kind) :
    run version (apply spec m.kind m.document) s
      = (.ok (), s.install version (spec.objectKey m.kind) m) := by
  have hget : s.serve version (.get m.kind spec.clusterNamespace (spec.objectName m.kind))
      = (.ok (s.objects (spec.objectKey m.kind)), s) := rfl
  rw [apply_eq, run_bind, run_ask, hget]
  exact serve_writeCall hname

theorem run_applyAll (hname : ∀ m ∈ ms, m.metadata.name = spec.objectName m.kind) :
    run version (applyAll spec ms) s = ([], s.installAll version spec ms) := by
  induction ms generalizing s with
  | nil => rfl
  | cons m rest ih =>
    simp only [applyAll]
    rw [run_bind, run_apply (hname m List.mem_cons_self), run_bind,
      ih fun k hk => hname k (List.mem_cons_of_mem _ hk)]
    rfl

/-- What the server holds after the objects of a task were brought into a state. -/
def reconciled (version : Versioning) (s : ApiServer) (spec : TaskSpec) (desired : List Manifest) :
    ApiServer :=
  (s.removeAll spec (undesired desired)).installAll version spec desired

/-- A reliable server always lets a reconcile succeed. -/
theorem run_createOrUpdate (h : spec.desiredObjects ctx = .ok ms) :
    run version (createOrUpdate ctx spec) s = (.ok (), s.reconciled version spec ms) := by
  have hname : ∀ m ∈ ms, m.metadata.name = spec.objectName m.kind := fun m hm =>
    congrArg ObjectMetadata.name (TaskSpec.metadata_of_mem_desiredObjects h hm)
  simp only [createOrUpdate]
  rw [h]
  show run version (deleteKinds spec (undesired ms) >>= fun pruned =>
    applyAll spec ms >>= fun applied => pure (settle spec (pruned ++ applied))) s = _
  rw [run_bind, run_deleteKinds, run_bind, run_applyAll hname]
  rfl

theorem run_delete :
    run version (delete spec) s = (.ok (), s.removeAll spec ObjectKind.all) := by
  simp only [delete]
  rw [run_bind, run_deleteKinds]
  rfl

end Reliable

/-! ## Successful runs on a server that may fail -/

section Unreliable

variable {version : Versioning} {s t : ApiServer} {ctx : ClusterContext} {spec : TaskSpec}
  {m : Manifest} {ms : List Manifest}

theorem runs_deleteKind_false {kind : ObjectKind}
    (h : (deleteKind spec kind).Runs (Unreliable version) s false t) :
    t = s.remove (spec.objectKey kind) := by
  obtain ⟨answer, u, hask, hrest⟩ := Program.runs_bind.mp h
  rcases Program.runs_ask.mp hask with hserved | ⟨e, rfl⟩
  · obtain ⟨rfl, rfl⟩ := Prod.mk.inj hserved
    exact hrest.2
  · cases hrest.1

theorem runs_deleteKinds_nil {kinds : List ObjectKind}
    (h : (deleteKinds spec kinds).Runs (Unreliable version) s [] t) :
    t = s.removeAll spec kinds := by
  induction kinds generalizing s with
  | nil => exact h.2
  | cons kind rest ih =>
    obtain ⟨refused, u, hkind, hrest⟩ := Program.runs_bind.mp h
    obtain ⟨others, v, hothers, hresult, rfl⟩ := Program.runs_bind.mp hrest
    cases refused with
    | true => cases hresult
    | false =>
      rw [if_neg Bool.false_ne_true] at hresult
      rw [runs_deleteKind_false hkind] at hothers
      exact ih (hresult ▸ hothers)

theorem runs_apply_ok (hname : m.metadata.name = spec.objectName m.kind)
    (h : (apply spec m.kind m.document).Runs (Unreliable version) s (.ok ()) t) :
    t = s.install version (spec.objectKey m.kind) m := by
  obtain ⟨answer, u, hask, hrest⟩ := Program.runs_bind.mp h
  rcases Program.runs_ask.mp hask with hserved | ⟨e, rfl⟩
  -- one turn after the other was served: a refusal would have been the result
  · have hget : (answer, u) = (.ok (s.objects (spec.objectKey m.kind)), s) := hserved
    obtain ⟨rfl, rfl⟩ := Prod.mk.inj hget
    cases hlive : u.objects (spec.objectKey m.kind) with
    | none =>
      rw [hlive] at hrest
      rcases Program.runs_ask.mp hrest with hwrite | ⟨e, he⟩
      · rw [serve_create hname hlive] at hwrite
        exact (Prod.mk.inj hwrite).2
      · cases he
    | some live =>
      rw [hlive] at hrest
      rcases Program.runs_ask.mp hrest with hwrite | ⟨e, he⟩
      · rw [serve_replace hlive] at hwrite
        exact (Prod.mk.inj hwrite).2
      · cases he
  · cases hrest.1

theorem runs_applyAll_nil (hname : ∀ m ∈ ms, m.metadata.name = spec.objectName m.kind)
    (h : (applyAll spec ms).Runs (Unreliable version) s [] t) :
    t = s.installAll version spec ms := by
  induction ms generalizing s with
  | nil => exact h.2
  | cons m rest ih =>
    obtain ⟨outcome, u, hm, hrest⟩ := Program.runs_bind.mp h
    obtain ⟨others, v, hothers, hend⟩ := Program.runs_bind.mp hrest
    cases outcome with
    | error e => cases hend.1
    | ok _ =>
      obtain ⟨rfl, rfl⟩ := hend
      rw [runs_apply_ok (hname m List.mem_cons_self) hm] at hothers
      exact ih (fun k hk => hname k (List.mem_cons_of_mem _ hk)) hothers

/-- A reconcile that succeeds was served throughout. -/
theorem runs_createOrUpdate_ok
    (h : (createOrUpdate ctx spec).Runs (Unreliable version) s (.ok ()) t) :
    ∃ desired, spec.desiredObjects ctx = .ok desired ∧ t = s.reconciled version spec desired := by
  simp only [createOrUpdate] at h
  cases hdesired : spec.desiredObjects ctx with
  | error e =>
    rw [hdesired] at h
    cases h.1
  | ok desired =>
    rw [hdesired] at h
    obtain ⟨pruned, u, hprune, hrest⟩ := Program.runs_bind.mp h
    obtain ⟨applied, v, happly, hresult, rfl⟩ := Program.runs_bind.mp hrest
    obtain ⟨rfl, rfl⟩ := List.append_eq_nil_iff.mp (settle_eq_ok_iff.mp hresult.symm)
    have hname : ∀ m ∈ desired, m.metadata.name = spec.objectName m.kind := fun m hm =>
      congrArg ObjectMetadata.name (TaskSpec.metadata_of_mem_desiredObjects hdesired hm)
    rw [runs_deleteKinds_nil hprune] at happly
    exact ⟨desired, rfl, runs_applyAll_nil hname happly⟩

/-- What a reliable server does can happen wherever calls can be served. -/
theorem runs_run_of_served {env : Environment ApiServer ClusterCall}
    (hserved : ∀ {β : Type} (s : ApiServer) (call : ClusterCall β),
      env s call (s.serve version call).1 (s.serve version call).2)
    {α : Type} (p : Program ClusterCall α) :
    p.Runs env s (run version p s).1 (run version p s).2 := by
  induction p generalizing s with
  | done a => exact ⟨rfl, rfl⟩
  | call request next ih => exact ⟨_, _, hserved s request, ih _⟩

/-- What a reliable server does, one that may fail can do. -/
theorem runs_run {α : Type} (p : Program ClusterCall α) :
    p.Runs (Unreliable version) s (run version p s).1 (run version p s).2 :=
  runs_run_of_served (fun _ _ => .inl rfl) p

end Unreliable

/-! ## The task's keys after a reconcile -/

/-- At the task's keys, a server holds exactly these manifests. -/
structure Installed (s : ApiServer) (spec : TaskSpec) (desired : List Manifest) : Prop where
  present : ∀ m ∈ desired, (s.objects (spec.objectKey m.kind)).map unversioned = some m.document
  absent : ∀ kind, (∀ m ∈ desired, m.kind ≠ kind) → s.objects (spec.objectKey kind) = none

section Reconciled

variable {version : Versioning} {s : ApiServer} {ctx : ClusterContext} {spec : TaskSpec}
  {desired : List Manifest}

theorem installed_reconciled (h : spec.desiredObjects ctx = .ok desired) :
    (s.reconciled version spec desired).Installed spec desired where
  present := fun _ hm => objects_installAll_of_mem (TaskSpec.kinds_nodup h) hm
  absent := by
    intro kind hkind
    have hne : ∀ m ∈ desired, spec.objectKey kind ≠ spec.objectKey m.kind := fun m hm heq =>
      hkind m hm (TaskSpec.objectKey_inj.mp heq).symm
    exact (objects_installAll_of_ne hne).trans (objects_removeAll_of_mem (mem_undesired.mpr hkind))

theorem objects_reconciled_of_ne {key : ObjectKey} (h : ∀ kind, key ≠ spec.objectKey kind) :
    (s.reconciled version spec desired).objects key = s.objects key :=
  (objects_installAll_of_ne fun m _ => h m.kind).trans
    (objects_removeAll_of_ne fun kind _ => h kind)

/-- Where everything is installed, a reconcile does nothing. -/
theorem Installed.reconciled_eq (h : s.Installed spec desired) :
    s.reconciled version spec desired = s := by
  simp only [reconciled]
  rw [removeAll_of_absent fun kind hkind => h.absent kind (mem_undesired.mp hkind)]
  exact installAll_of_installed h.present

/-- A reconcile that succeeds leaves exactly the desired objects at the
    task's keys and touches no other key; a second one changes nothing, and
    a deletion empties those keys only, once and for all.  On a server that
    never fails, whatever it holds, the spec's reconcile succeeds. -/
theorem reconcile_installs_desired {t : ApiServer}
    (h : (createOrUpdate ctx spec).Runs (Unreliable version) s (.ok ()) t) :
    ∃ desired, spec.desiredObjects ctx = .ok desired ∧ t.Installed spec desired ∧
      (∀ key, (∀ kind, key ≠ spec.objectKey kind) → t.objects key = s.objects key) ∧
      run version (createOrUpdate ctx spec) t = (.ok (), t) ∧
      (∃ u, run version (delete spec) t = (.ok (), u) ∧
        (∀ kind, u.objects (spec.objectKey kind) = none) ∧
        (∀ key, (∀ kind, key ≠ spec.objectKey kind) → u.objects key = t.objects key) ∧
        run version (delete spec) u = (.ok (), u)) ∧
      ∀ other, (run version (createOrUpdate ctx spec) other).1 = .ok () := by
  obtain ⟨desired, hdesired, rfl⟩ := runs_createOrUpdate_ok h
  have hinstalled : (s.reconciled version spec desired).Installed spec desired :=
    installed_reconciled hdesired
  have hempty : ∀ kind, ((s.reconciled version spec desired).removeAll spec
      ObjectKind.all).objects (spec.objectKey kind) = none := fun kind =>
    objects_removeAll_of_mem kind.mem_all
  refine ⟨desired, hdesired, hinstalled, fun key hkey => objects_reconciled_of_ne hkey, ?_,
    ⟨_, run_delete, hempty, fun key hkey => objects_removeAll_of_ne fun kind _ => hkey kind, ?_⟩,
    fun other => ?_⟩
  · rw [run_createOrUpdate hdesired, hinstalled.reconciled_eq]
  · rw [run_delete, removeAll_of_absent fun kind _ => hempty kind]
  · rw [run_createOrUpdate hdesired]

/-- A task without ports, behind a front door of its own name. -/
def portless : TaskSpec :=
  { TaskSpec.blank with name := "chat", ingress := ⟨"front", [⟨"/", "chat", 80⟩]⟩ }

/-- A server with a deployment of the task as the cluster edited it, and a
    service from when the task had ports. -/
def outdated : ApiServer where
  objects key :=
    if key = portless.objectKey .deployment then
      some (.object [("kind", .string "Deployment"),
        ("metadata", .object [("resourceVersion", .string "7")]), ("status", .null)])
    else if key = portless.objectKey .service then some (.object [("kind", .string "Service")])
    else none
  revision := 8

/-- A cluster whose front doors are of one class. -/
def behindNginx : ClusterContext := ⟨"image", [], "gpu", "nginx", "collector"⟩

/-- Versions that count the writes. -/
def counted : Versioning := fun s _ => Numeric.natText (s.revision + 1)

/-- The outdated server after a reconcile. -/
def renewed : ApiServer := (run counted (createOrUpdate behindNginx portless) outdated).2

/-- The service goes, and the ingress is created. -/
theorem reconcile_installs_desired_of_outdated :
    (createOrUpdate behindNginx portless).Runs (Unreliable counted) outdated (.ok ()) renewed ∧
      renewed.objects (portless.objectKey .service) = none ∧
      (renewed.objects (portless.objectKey .ingress)).isSome ∧
      run counted (createOrUpdate behindNginx portless) renewed = (.ok (), renewed) := by
  obtain ⟨d, i, hdesired⟩ :
      ∃ d i, portless.desiredObjects behindNginx = .ok [.deployment d, .ingress i] := ⟨_, _, rfl⟩
  have hok : (run counted (createOrUpdate behindNginx portless) outdated).1 = .ok () :=
    congrArg Prod.fst (run_createOrUpdate hdesired)
  have hruns : (createOrUpdate behindNginx portless).Runs (Unreliable counted) outdated (.ok ())
    renewed := hok ▸ runs_run _
  obtain ⟨desired, heq, hinstalled, -, htwice, -⟩ := reconcile_installs_desired hruns
  obtain rfl := Except.ok.inj (hdesired.symm.trans heq)
  obtain ⟨object, hobject, -⟩ :=
    Option.map_eq_some_iff.mp (hinstalled.present (.ingress i) (.tail _ (.head _)))
  refine ⟨hruns, hinstalled.absent .service ?_, Option.isSome_iff_exists.mpr ⟨object, hobject⟩,
    htwice⟩
  simp [Manifest.kind]

end Reconciled

end ApiServer

end ServingPlane
