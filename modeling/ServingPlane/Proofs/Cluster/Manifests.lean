import Mathlib.Data.List.Nodup
import ServingPlane.Proofs.Cluster.Installation
import ServingPlane.Proofs.Json.Number
import ServingPlane.Proofs.Metrics.Exporter

/-! # Manifests that fit together

    What the documents of a task's objects say about each other.  The
    objects are built apart, from the spec alone; here it is read off
    their documents that they agree on names and labels, that the pod runs
    the words of the launch, and that each volume is mounted once. -/

namespace ServingPlane

open Numeric

/-! ## Reading documents -/

namespace Json

/-- The text at a path, if there is one. -/
def textAt? (path : List String) (v : Json) : Option String := (v.at? path).bind string?

/-- The items of the list at a path; none if there is no list. -/
def itemsAt (path : List String) (v : Json) : List Json :=
  match v.at? path with
  | some (.array items) => items
  | _ => []

/-- The texts in the list at a path. -/
def textsAt (path : List String) (v : Json) : List String := (v.itemsAt path).filterMap string?

theorem itemsAt_of_at? {path : List String} {v : Json} {items : List Json}
    (h : v.at? path = some (.array items)) : v.itemsAt path = items := by
  simp only [itemsAt]
  rw [h]

theorem textsAt_of_at? {path : List String} {v : Json} {texts : List String}
    (h : v.at? path = some (.strings texts)) : v.textsAt path = texts := by
  rw [textsAt, itemsAt_of_at? h, List.filterMap_map]
  exact List.filterMap_some

theorem textsAt_of_at?_eq_none {path : List String} {v : Json} (h : v.at? path = none) :
    v.textsAt path = [] := by
  simp only [textsAt, itemsAt]
  rw [h]
  rfl

end Json

/-! ## Kinds -/

namespace TaskSpec

variable {spec : TaskSpec} {ctx : ClusterContext} {desired : List Manifest}

/-- The objects of a task come in the order of their kinds, each of them once. -/
theorem kinds_sublist (h : spec.desiredObjects ctx = .ok desired) :
    (desired.map Manifest.kind).Sublist ObjectKind.all := by
  have hpart : ∀ {α : Type} (o : Option α) (f : α → Manifest) (kind : ObjectKind),
      (∀ a, (f a).kind = kind) → ((o.map f).toList.map Manifest.kind).Sublist [kind] := by
    intro α o f kind hkind
    cases o with
    | none => exact List.nil_sublist _
    | some a => exact (hkind a ▸ List.Sublist.refl _ : [(f a).kind].Sublist [kind])
  obtain ⟨deployment, -, rfl⟩ := desiredObjects_eq h
  have hservice := hpart spec.serviceManifest? Manifest.service .service fun _ => rfl
  have hingress := hpart (spec.ingressManifest? ctx) Manifest.ingress .ingress fun _ => rfl
  have hcollector := hpart (spec.collectorManifest? ctx) Manifest.collector .collector fun _ => rfl
  rw [List.map_append, List.map_append]
  exact ((hservice.cons_cons .deployment).append hingress).append hcollector

end TaskSpec

/-- The object is the one that a spec asks for of its kind. -/
def Manifest.IsOf (ctx : ClusterContext) (spec : TaskSpec) : Manifest → Prop
  | deployment m => spec.deploymentManifest ctx = .ok m
  | service m => spec.serviceManifest? = some m
  | ingress m => spec.ingressManifest? ctx = some m
  | collector m => spec.collectorManifest? ctx = some m

namespace TaskSpec

variable {spec : TaskSpec} {ctx : ClusterContext} {desired : List Manifest}

theorem mem_desiredObjects (h : spec.desiredObjects ctx = .ok desired) {m : Manifest} :
    m ∈ desired ↔ m.IsOf ctx spec := by
  obtain ⟨deployment, hd, rfl⟩ := desiredObjects_eq h
  simp only [List.mem_append, List.mem_cons, Option.mem_toList, Option.map_eq_some_iff]
  cases m with
  | deployment m => simp [Manifest.IsOf, hd, eq_comm]
  | service m => simp [Manifest.IsOf]
  | ingress m => simp [Manifest.IsOf]
  | collector m => simp [Manifest.IsOf]

/-! ## Labels -/

/-- The label of a task's objects, as a document. -/
def labelDocument (spec : TaskSpec) : Json := .object [(taskLabel, .string spec.name)]

/-- The label that a selector tests, and the value that it asks for.  Only
    selectors of one test for equality, `label=value`, are read. -/
def testedLabel (selector : String) : String × String :=
  (String.ofList (selector.toList.takeWhile (· ≠ '=')),
    String.ofList ((selector.toList.dropWhile (· ≠ '=')).drop 1))

theorem testedLabel_podSelector : testedLabel spec.podSelector = (taskLabel, spec.name) := by
  have hkey : ∀ c ∈ taskLabel.toList, (decide (c ≠ '=')) = true := List.all_eq_true.mp rfl
  have hselector : spec.podSelector.toList = taskLabel.toList ++ '=' :: spec.name.toList := by
    simp only [podSelector, String.toList_append]
    exact List.append_assoc ..
  rw [testedLabel, hselector, List.takeWhile_append_of_pos hkey, List.dropWhile_append_of_pos hkey]
  simp

/-! ## Volumes -/

theorem hostVolumeName_injective : Function.Injective hostVolumeName := fun _ _ h =>
  natText_injective ((String.append_right_inj _).mp h)

/-- The names of a pod's volumes: the one of shared memory, then those by number. -/
def volumeNames (n : Nat) : List String := sharedMemoryVolume :: (List.range n).map hostVolumeName

theorem volumeNames_nodup (n : Nat) : (volumeNames n).Nodup := by
  refine List.nodup_cons.mpr ⟨?_, List.nodup_range.map hostVolumeName_injective⟩
  rw [List.mem_map]
  rintro ⟨i, -, heq⟩
  have hlist := congrArg String.toList heq
  rw [hostVolumeName, String.toList_append] at hlist
  exact absurd (List.cons.inj hlist).1 (by decide)

section Indexed

variable {α β γ : Type} {f : Nat → α → β} {g : β → γ}

private theorem map_mapIdx_of_index {h : Nat → γ} (hg : ∀ i a, g (f i a) = h i) (l : List α) :
    (l.mapIdx f).map g = (List.range l.length).map h := by
  rw [List.mapIdx_eq_zipIdx_map, List.range_eq_range', ← List.zipIdx_map_snd, List.map_map,
    List.map_map]
  exact List.map_congr_left fun p _ => hg p.2 p.1

private theorem map_mapIdx_of_item {h : α → γ} (hg : ∀ i a, g (f i a) = h a) (l : List α) :
    (l.mapIdx f).map g = l.map h := by
  conv_rhs => rw [← List.zipIdx_map_fst 0 l, List.map_map]
  rw [List.mapIdx_eq_zipIdx_map, List.map_map]
  exact List.map_congr_left fun p _ => hg p.2 p.1

end Indexed

theorem name_podVolumes :
    spec.podVolumes.map PodVolume.name = volumeNames spec.volumes.length := by
  refine congrArg (sharedMemoryVolume :: ·) (map_mapIdx_of_index ?_ spec.volumes)
  exact fun _ _ => rfl

theorem volume_podMounts :
    spec.podMounts.map PodMount.volume = volumeNames spec.volumes.length := by
  refine congrArg (sharedMemoryVolume :: ·) (map_mapIdx_of_index ?_ spec.volumes)
  exact fun _ _ => rfl

theorem path_podMounts :
    spec.podMounts.map PodMount.path = "/dev/shm" :: spec.volumes.map VolumeMount.mountPath := by
  refine congrArg ("/dev/shm" :: ·) (map_mapIdx_of_item ?_ spec.volumes)
  exact fun _ _ => rfl

/-- The paths on the host that the volumes stand for; shared memory has none. -/
theorem hostPath_podVolumes :
    spec.podVolumes.map (fun v => (Manifest.volumeDocument v).textAt? ["hostPath", "path"])
      = none :: spec.volumes.map fun v => some v.hostPath := by
  refine congrArg (none :: ·) (map_mapIdx_of_item ?_ spec.volumes)
  exact fun _ _ => rfl

end TaskSpec

/-! ## The documents of a deployment -/

namespace Manifest

variable (m : DeploymentManifest)

theorem textsAt_command : (containerDocument m).textsAt ["command"] = m.command.getD [] := by
  simp only [containerDocument]
  cases m.command with
  | none => exact Json.textsAt_of_at?_eq_none rfl
  | some words => exact Json.textsAt_of_at? rfl

private theorem get?_of_second_ne {key other : String} (h : key ≠ other)
    (first : String × Json) (v : Json) (rest : List (String × Json)) :
    (Json.object (first :: (other, v) :: rest)).get? key
      = (Json.object (first :: rest)).get? key := by
  obtain ⟨k, w⟩ := first
  simp only [Json.get?]
  rw [List.lookup_cons, List.lookup_cons, List.lookup_cons, beq_false_of_ne h]

/-- Whether there is a command makes no difference to the rest of the container. -/
theorem at?_containerDocument {key : String} (h : key ≠ "command") (path : List String) :
    (containerDocument m).at? (key :: path)
      = (containerDocument { m with command := none }).at? (key :: path) := by
  have hget : (containerDocument m).get? key
      = (containerDocument { m with command := none }).get? key := by
    simp only [containerDocument]
    cases m.command with
    | none => rfl
    | some words => exact get?_of_second_ne h _ _ _
  simp only [Json.at?]
  rw [hget]

theorem textsAt_args : (containerDocument m).textsAt ["args"] = m.arguments :=
  Json.textsAt_of_at? ((at?_containerDocument m (by decide) []).trans rfl)

theorem itemsAt_volumeMounts : (containerDocument m).itemsAt ["volumeMounts"]
    = m.mounts.map fun v => .object [("mountPath", .string v.path), ("name", .string v.volume)] :=
  Json.itemsAt_of_at? ((at?_containerDocument m (by decide) []).trans rfl)

theorem itemsAt_volumes :
    (podDocument m).itemsAt ["volumes"] = m.volumes.map volumeDocument := by
  refine Json.itemsAt_of_at? ?_
  simp only [podDocument]
  split
  · rfl
  · rfl

theorem textAt?_volumeDocument (v : PodVolume) :
    (volumeDocument v).textAt? ["name"] = some v.name := by
  cases v with
  | sharedMemory name => rfl
  | hostPath name path => rfl

end Manifest

/-! ## Fitting together -/

/-- The pod of a task's deployment, and the one container in it. -/
structure PodFits (ctx : ClusterContext) (spec : TaskSpec) (pod container : Json) : Prop where
  only : pod.itemsAt ["containers"] = [container]
  /-- The command, if there is one, and the arguments after it are the launch. -/
  words : container.textsAt ["command"] ++ container.textsAt ["args"]
    = spec.launchCommand ctx.startCommand spec.exporterServiceName spec.collectorEndpoint
  /-- The mounts name the volumes one by one. -/
  names : ∃ names : List String, names.Nodup ∧
    (pod.itemsAt ["volumes"]).map (Json.textAt? ["name"]) = names.map some ∧
    (container.itemsAt ["volumeMounts"]).map (Json.textAt? ["name"]) = names.map some
  hostPaths : (pod.itemsAt ["volumes"]).map (Json.textAt? ["hostPath", "path"])
    = none :: spec.volumes.map fun v => some v.hostPath
  mountPaths : (container.itemsAt ["volumeMounts"]).map (Json.textAt? ["mountPath"])
    = some "/dev/shm" :: spec.volumes.map fun v => some v.mountPath
  gpus : ∃ quantity : String,
    container.at? ["resources", "requests"]
      = some (.object [(ctx.gpuResourceName, .string quantity)]) ∧
    container.at? ["resources", "limits"] = container.at? ["resources", "requests"]

/-- The document of a task's deployment. -/
structure DeploymentFits (ctx : ClusterContext) (spec : TaskSpec) (document : Json) : Prop where
  replicas : document.at? ["spec", "replicas"] = some (.ofNat spec.replica.toNat)
  matched : document.at? ["spec", "selector", "matchLabels"] = some spec.labelDocument
  labelled : document.at? ["spec", "template", "metadata", "labels"] = some spec.labelDocument
  pod : ∃ pod container, document.at? ["spec", "template", "spec"] = some pod ∧
    PodFits ctx spec pod container

/-- The objects of a task. -/
structure ManifestsFit (ctx : ClusterContext) (spec : TaskSpec) (desired : List Manifest) :
    Prop where
  once : (desired.map Manifest.kind).Nodup
  ordered : (desired.map Manifest.kind).Sublist ObjectKind.all
  deployed : .deployment ∈ desired.map Manifest.kind
  named : ∀ m ∈ desired, m.document.textAt? ["metadata", "name"] = some (spec.objectName m.kind) ∧
    m.document.textAt? ["metadata", "namespace"] = some spec.clusterNamespace ∧
    m.document.at? ["metadata", "labels"] = some spec.labelDocument
  deployment : ∀ m ∈ desired, m.kind = .deployment → DeploymentFits ctx spec m.document
  service : ∀ m ∈ desired, m.kind = .service →
    m.document.at? ["spec", "selector"] = some spec.labelDocument
  /-- The selector for pods tests the label that they carry. -/
  selected : ∃ label value, TaskSpec.testedLabel spec.podSelector = (label, value) ∧
    spec.labelDocument = .object [(label, .string value)]

namespace TaskSpec

variable {spec : TaskSpec} {ctx : ClusterContext} {desired : List Manifest}
  {m : DeploymentManifest}

theorem deploymentManifest_fields (h : spec.deploymentManifest ctx = .ok m) :
    m.replicas = spec.replica.toNat ∧ m.matchLabels = spec.labels ∧ m.podLabels = spec.labels ∧
      m.mounts = spec.podMounts ∧ m.volumes = spec.podVolumes ∧
      m.gpuRequests = spec.gpuQuantity ctx ∧ m.gpuLimits = spec.gpuQuantity ctx := by
  simp only [deploymentManifest] at h
  split at h
  · cases h
  · cases h
    exact ⟨rfl, rfl, rfl, rfl, rfl, rfl, rfl⟩

theorem podFits (h : spec.deploymentManifest ctx = .ok m) :
    PodFits ctx spec (Manifest.podDocument m) (Manifest.containerDocument m) where
  only := rfl
  words := by
    rw [Manifest.textsAt_command, Manifest.textsAt_args]
    exact words_of_deploymentManifest h
  names := by
    obtain ⟨-, -, -, hmounts, hvolumes, -, -⟩ := deploymentManifest_fields h
    refine ⟨_, volumeNames_nodup spec.volumes.length, ?_, ?_⟩
    · rw [Manifest.itemsAt_volumes, hvolumes, ← name_podVolumes, List.map_map, List.map_map]
      exact List.map_congr_left fun v _ => Manifest.textAt?_volumeDocument v
    · rw [Manifest.itemsAt_volumeMounts, hmounts, ← volume_podMounts, List.map_map, List.map_map]
      rfl
  hostPaths := by
    obtain ⟨-, -, -, -, hvolumes, -, -⟩ := deploymentManifest_fields h
    rw [Manifest.itemsAt_volumes, hvolumes, List.map_map]
    exact hostPath_podVolumes
  mountPaths := by
    obtain ⟨-, -, -, hmounts, -, -, -⟩ := deploymentManifest_fields h
    rw [Manifest.itemsAt_volumeMounts, hmounts, List.map_map]
    show spec.podMounts.map (some ∘ PodMount.path) = _
    rw [← List.map_map, path_podMounts, List.map_cons, List.map_map]
    rfl
  gpus := by
    obtain ⟨-, -, -, -, -, hrequests, hlimits⟩ := deploymentManifest_fields h
    have hresources : ∀ key, (Manifest.containerDocument m).at? ["resources", key] = _ :=
      fun key => Manifest.at?_containerDocument m (by decide) [key]
    refine ⟨(spec.gpuQuantity ctx).2, ?_, ?_⟩
    · rw [hresources]
      show some (Manifest.quantityDocument m.gpuRequests) = _
      rw [hrequests]
      rfl
    · rw [hresources, hresources]
      show some (Manifest.quantityDocument m.gpuLimits)
        = some (Manifest.quantityDocument m.gpuRequests)
      rw [hrequests, hlimits]

theorem deploymentFits (h : spec.deploymentManifest ctx = .ok m) :
    DeploymentFits ctx spec (Manifest.deployment m).document := by
  obtain ⟨hreplicas, hmatched, hlabelled, -, -, -, -⟩ := deploymentManifest_fields h
  refine ⟨?_, ?_, ?_, _, _, rfl, podFits h⟩
  · show some (Json.ofNat m.replicas) = _
    rw [hreplicas]
  · show some (Manifest.labelsDocument m.matchLabels) = _
    rw [hmatched]
    rfl
  · show some (Manifest.labelsDocument m.podLabels) = _
    rw [hlabelled]
    rfl

theorem selector_of_serviceManifest {m : ServiceManifest} (h : spec.serviceManifest? = some m) :
    m.selector = spec.labels := by
  simp only [serviceManifest?] at h
  split at h
  · cases h
  · cases h
    rfl

/-- The objects that a spec asks for fit together: each kind once and in
    order, names and labels that agree, the words of the launch in the one
    container, and a mount for every volume. -/
theorem manifests_fit (h : spec.desiredObjects ctx = .ok desired) :
    ManifestsFit ctx spec desired where
  once := kinds_nodup h
  ordered := kinds_sublist h
  deployed := by
    obtain ⟨m, hm, -⟩ := desiredObjects_eq h
    exact List.mem_map.mpr ⟨.deployment m, (mem_desiredObjects h).mpr hm, rfl⟩
  named := by
    intro m hm
    have hmetadata := metadata_of_mem_desiredObjects h hm
    refine ⟨?_, ?_, ?_⟩
    · show some m.metadata.name = _
      rw [hmetadata]
      rfl
    · show some m.metadata.namespaceName = _
      rw [hmetadata]
      rfl
    · show some (Manifest.labelsDocument m.metadata.labels) = _
      rw [hmetadata]
      rfl
  deployment := by
    intro m hm hkind
    cases m with
    | deployment m => exact deploymentFits ((mem_desiredObjects h).mp hm)
    | _ => cases hkind
  service := by
    intro m hm hkind
    cases m with
    | service m =>
      show some (Manifest.labelsDocument m.selector) = _
      rw [selector_of_serviceManifest ((mem_desiredObjects h).mp hm)]
      rfl
    | _ => cases hkind
  selected := ⟨_, _, testedLabel_podSelector, rfl⟩

/-- A task with volumes, a service, an ingress and telemetry. -/
def furnished : TaskSpec :=
  { TaskSpec.blank with
    name := "chat"
    replica := 2
    volumes := [⟨"/models", "/mnt/models"⟩, ⟨"/cache", "/mnt/cache"⟩]
    service := ⟨"front", [8080]⟩
    ingress := ⟨"", [⟨"/", "front", 8080⟩]⟩
    collector := { TaskSpec.blank.collector with enable := true } }

/-- A cluster whose replicas are started by a shell. -/
def shellStarted : ClusterContext := ⟨"image", ["sh", "run.sh"], "gpu", "nginx", "collector"⟩

/-- Four objects, and three volumes with three names. -/
theorem manifests_fit_of_furnished : ∃ desired,
    furnished.desiredObjects shellStarted = .ok desired ∧
      desired.map Manifest.kind = ObjectKind.all ∧ ManifestsFit shellStarted furnished desired := by
  obtain ⟨desired, hdesired, hkinds⟩ : ∃ desired,
      furnished.desiredObjects shellStarted = .ok desired ∧
        desired.map Manifest.kind = ObjectKind.all := ⟨_, rfl, rfl⟩
  exact ⟨desired, hdesired, hkinds, manifests_fit hdesired⟩

end TaskSpec

end ServingPlane
