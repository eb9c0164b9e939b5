import ServingPlane.Cluster.Manifest

/-! # Bringing a cluster into the desired state

    The backend of a cluster.  Kinds that a task no longer asks for are
    deleted first; then every desired object is created, or replaced by
    the version that was read.  Each kind is treated on its own: a
    refused one is remembered while the others go on. -/

namespace ServingPlane

/-- What a cluster is asked. -/
inductive ClusterCall : Type → Type where
  /-- An object; nothing if it is absent. -/
  | get (kind : ObjectKind) (space name : String) : ClusterCall (Except BackendError (Option Json))
  | create (kind : ObjectKind) (space : String) (object : Json) :
    ClusterCall (Except BackendError Unit)
  /-- Replace an object; its document carries the version that it replaces. -/
  | replace (kind : ObjectKind) (space name : String) (object : Json) :
    ClusterCall (Except BackendError Unit)
  /-- Delete an object; tells whether it was there. -/
  | delete (kind : ObjectKind) (space name : String) : ClusterCall (Except BackendError Bool)
  /-- The pods that match a label selector. -/
  | listPods (space selector : String) :
    ClusterCall (Except BackendError (List RuntimeInstance))

/-- Give a document the version of the live object, if both have their metadata. -/
def withLiveVersion (live desired : Json) : Json :=
  match live.at? ["metadata", "resourceVersion"], desired.get? "metadata" with
  | some version, some (.object fields) =>
    desired.withMember "metadata" ((Json.object fields).withMember "resourceVersion" version)
  | _, _ => desired

namespace ClusterReconcile

/-- Delete the object of a kind; tells whether that was refused. -/
def deleteKind (spec : TaskSpec) (kind : ObjectKind) : Program ClusterCall Bool := do
  match ← Program.ask (ClusterCall.delete kind spec.clusterNamespace (spec.objectName kind)) with
  | .ok _ => return false
  | .error _ => return true

/-- Delete the objects of kinds in order; the result lists the refused kinds. -/
def deleteKinds (spec : TaskSpec) : List ObjectKind → Program ClusterCall (List ObjectKind)
  | [] => return []
  | kind :: kinds => do
    let refused ← deleteKind spec kind
    let rest ← deleteKinds spec kinds
    return if refused then kind :: rest else rest

/-- Create an object, or replace the live one. -/
def apply (spec : TaskSpec) (kind : ObjectKind) (desired : Json) :
    Program ClusterCall (Except BackendError Unit) := do
  let space := spec.clusterNamespace
  let name := spec.objectName kind
  match ← Program.ask (ClusterCall.get kind space name) with
  | .error e => return .error e
  | .ok none => Program.ask (ClusterCall.create kind space desired)
  | .ok (some live) =>
    Program.ask (ClusterCall.replace kind space name (withLiveVersion live desired))

/-- Apply objects in order; the result lists the refused kinds. -/
def applyAll (spec : TaskSpec) : List Manifest → Program ClusterCall (List ObjectKind)
  | [] => return []
  | m :: ms => do
    let outcome ← apply spec m.kind m.document
    let rest ← applyAll spec ms
    match outcome with
    | .ok () => return rest
    | .error _ => return m.kind :: rest

/-- Success, unless some kinds were refused. -/
def settle (spec : TaskSpec) (refused : List ObjectKind) : Except BackendError Unit :=
  if refused.isEmpty then .ok ()
  else .error (.reconcile spec.name (", ".intercalate (refused.map ObjectKind.name)))

/-- The kinds that none of the objects has. -/
def undesired (desired : List Manifest) : List ObjectKind :=
  ObjectKind.all.filter fun kind => !desired.any fun m => m.kind == kind

/-- Bring the objects of a task into the state of the spec. -/
def createOrUpdate (ctx : ClusterContext) (spec : TaskSpec) :
    Program ClusterCall (Except BackendError Unit) :=
  match spec.desiredObjects ctx with
  | .error e => return .error e
  | .ok desired => do
    let pruned ← deleteKinds spec (undesired desired)
    let applied ← applyAll spec desired
    return settle spec (pruned ++ applied)

/-- Delete every object that a task could own. -/
def delete (spec : TaskSpec) : Program ClusterCall (Except BackendError Unit) := do
  return settle spec (← deleteKinds spec ObjectKind.all)

/-- The pods of a task. -/
def instances (spec : TaskSpec) : Program ClusterCall (Except BackendError (List RuntimeInstance)) :=
  .ask (.listPods spec.clusterNamespace spec.podSelector)

/-- Whether the first pod runs. -/
def firstRuns (pods : List RuntimeInstance) : Bool := pods.head?.any (·.status == "Running")

/-- Serve a call of the backend. -/
def serve (ctx : ClusterContext) : {α : Type} → BackendCall α → Program ClusterCall α
  | _, .deploy spec => createOrUpdate ctx spec
  | _, .delete spec => delete spec
  | _, .isRunning spec => do return (← instances spec).map firstRuns
  | _, .instances spec => instances spec

end ClusterReconcile

end ServingPlane
