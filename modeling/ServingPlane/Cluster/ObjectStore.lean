import ServingPlane.Cluster.Reconcile

/-! # A cluster's object store

    A cluster as a state: its objects by kind, namespace and name, each
    with a version that every write changes, and which calls it refuses.
    A replacement must carry the version that it replaces. -/

namespace ServingPlane

open Numeric

/-- Where an object is kept. -/
structure ObjectKey where
  kind : ObjectKind
  space : String
  name : String
  deriving DecidableEq, Repr

/-- What is done to an object. -/
inductive ObjectVerb where
  | get
  | create
  | replace
  | delete
  deriving DecidableEq, Repr

/-- The name of a verb. -/
def ObjectVerb.name : ObjectVerb → String
  | get => "get"
  | create => "create"
  | replace => "replace"
  | delete => "delete"

/-- All verbs. -/
def ObjectVerb.all : List ObjectVerb := [get, create, replace, delete]

/-- The state of a cluster. -/
structure ObjectStore where
  objects : List (ObjectKey × Json)
  /-- Calls that are refused. -/
  refused : List (ObjectVerb × ObjectKind)
  pods : List RuntimeInstance
  /-- Pods cannot be listed. -/
  podsRefused : Bool

namespace ObjectStore

/-- No objects and no pods. -/
def empty : ObjectStore := ⟨[], [], [], false⟩

/-- The object at a key. -/
def object? (s : ObjectStore) (key : ObjectKey) : Option Json := s.objects.lookup key

/-- Put an object at a key. -/
def put (s : ObjectStore) (key : ObjectKey) (object : Json) : ObjectStore :=
  { s with objects := (key, object) :: s.objects.filter (·.1 ≠ key) }

/-- The version of an object; null if it has none. -/
def versionOf (object : Json) : Json := (object.at? ["metadata", "resourceVersion"]).getD .null

/-- Give an object a version, if it has metadata. -/
def withVersion (object : Json) (version : String) : Json :=
  match object.get? "metadata" with
  | some (.object fields) =>
    object.withMember "metadata"
      ((Json.object fields).withMember "resourceVersion" (.string version))
  | _ => object

/-- The version after another: one more if it is a number. -/
def nextVersion : Json → String
  | .string s => ((readNatural? UInt64.size s.toList).map fun n => natText (n + 1)).getD "1"
  | _ => "1"

/-- The name inside an object. -/
def nameOf (object : Json) : String :=
  ((object.at? ["metadata", "name"]).bind Json.string?).getD ""

/-- Serve a call unless it is refused. -/
def unlessRefused {α : Type} (s : ObjectStore) (verb : ObjectVerb) (kind : ObjectKind)
    (next : Except BackendError α × ObjectStore) : Except BackendError α × ObjectStore :=
  if s.refused.contains (verb, kind) then
    (.error (.cluster s!"{verb.name} {kind.name} refused"), s)
  else next

/-- Serve a call of the cluster. -/
def serve (s : ObjectStore) : {α : Type} → ClusterCall α → α × ObjectStore
  | _, .get kind space name =>
    s.unlessRefused .get kind (.ok (s.object? ⟨kind, space, name⟩), s)
  | _, .create kind space object =>
    s.unlessRefused .create kind
      (.ok (), s.put ⟨kind, space, nameOf object⟩ (withVersion object "1"))
  | _, .replace kind space name object =>
    let key : ObjectKey := ⟨kind, space, name⟩
    let live := ((s.object? key).map versionOf).getD .null
    s.unlessRefused .replace kind
      (if versionOf object == live then
        (.ok (), s.put key (withVersion object (nextVersion live)))
      else (.error (.cluster "conflict"), s))
  | _, .delete kind space name =>
    let key : ObjectKey := ⟨kind, space, name⟩
    s.unlessRefused .delete kind
      (.ok (s.object? key).isSome, { s with objects := s.objects.filter (·.1 ≠ key) })
  | _, .listPods _ _ =>
    (if s.podsRefused then .error (.cluster "list_pods refused") else .ok s.pods, s)

end ObjectStore

end ServingPlane
