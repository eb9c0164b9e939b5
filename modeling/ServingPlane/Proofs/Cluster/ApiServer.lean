import Mathlib.Logic.Function.Basic
import ServingPlane.Cluster.ObjectStore
import ServingPlane.Proofs.Json.Equality
import ServingPlane.Proofs.Program

/-! # An API server with optimistic versions

    The server that a cluster's objects live on.  It gives every object
    that it writes a version; a replacement must carry the version that it
    replaces, and one that differs from the live object in nothing else
    writes nothing.  How versions are chosen is left open: a choice may
    look at all that the server holds and at how much it has written.

    A manifest has room for the version at the end of its metadata, so
    giving it one and taking it away again are exact inverses. -/

namespace ServingPlane

open ObjectStore (versionOf withVersion nameOf)

/-! ## Versions of documents -/

/-- A value without one of its members. -/
def Json.withoutMember (v : Json) (key : String) : Json :=
  match v with
  | .object members => .object (members.filter fun member => member.1 ≠ key)
  | other => other

/-- An object up to its version. -/
def unversioned (object : Json) : Json :=
  match object.get? "metadata" with
  | some metadata => object.withMember "metadata" (metadata.withoutMember "resourceVersion")
  | none => object

namespace Manifest

/-- A manifest as a server holds it, with a version. -/
def documentAt (m : Manifest) (version : Json) : Json :=
  .object [("apiVersion", .string m.kind.apiVersion), ("kind", .string m.kind.name),
    ("metadata", .object [("labels", labelsDocument m.metadata.labels),
      ("name", .string m.metadata.name), ("namespace", .string m.metadata.namespaceName),
      ("resourceVersion", version)]),
    ("spec", m.desiredDocument)]

variable (m : Manifest)

theorem withVersion_document (version : String) :
    withVersion m.document version = m.documentAt (.string version) := rfl

theorem withVersion_documentAt (old : Json) (version : String) :
    withVersion (m.documentAt old) version = m.documentAt (.string version) := rfl

theorem versionOf_document : versionOf m.document = .null := rfl

theorem versionOf_documentAt (version : Json) : versionOf (m.documentAt version) = version := rfl

theorem nameOf_document : nameOf m.document = m.metadata.name := rfl

theorem unversioned_document : unversioned m.document = m.document := rfl

theorem unversioned_documentAt (version : Json) :
    unversioned (m.documentAt version) = m.document := rfl

/-- A manifest takes the version of the live object, if that has one. -/
theorem withLiveVersion_document (live : Json) :
    withLiveVersion live m.document = m.document ∧ versionOf live = .null ∨
      withLiveVersion live m.document = m.documentAt (versionOf live) := by
  simp only [withLiveVersion, versionOf]
  cases live.at? ["metadata", "resourceVersion"] with
  | none => exact .inl ⟨rfl, rfl⟩
  | some version => exact .inr rfl

end Manifest

/-! ## The server -/

/-- What an API server holds. -/
structure ApiServer where
  objects : ObjectKey → Option Json
  /-- How many writes changed something. -/
  revision : Nat

/-- How a server chooses the version of an object that it writes. -/
abbrev Versioning : Type := ApiServer → ObjectKey → String

/-- The answer to a call that fails. -/
def ClusterCall.failure (e : BackendError) : {α : Type} → ClusterCall α → α
  | _, .get .. => .error e
  | _, .create .. => .error e
  | _, .replace .. => .error e
  | _, .delete .. => .error e
  | _, .listPods .. => .error e

namespace ApiServer

/-- A server without objects. -/
def empty : ApiServer := ⟨fun _ => none, 0⟩

/-- Write an object, with a new version. -/
def put (version : Versioning) (s : ApiServer) (key : ObjectKey) (object : Json) : ApiServer :=
  ⟨Function.update s.objects key (some (withVersion object (version s key))), s.revision + 1⟩

/-- Remove the object at a key, if there is one. -/
def remove (s : ApiServer) (key : ObjectKey) : ApiServer :=
  match s.objects key with
  | some _ => ⟨Function.update s.objects key none, s.revision + 1⟩
  | none => s

/-- Serve a call. -/
def serve (version : Versioning) (s : ApiServer) : {α : Type} → ClusterCall α → α × ApiServer
  | _, .get kind space name => (.ok (s.objects ⟨kind, space, name⟩), s)
  | _, .create kind space object =>
    match s.objects ⟨kind, space, nameOf object⟩ with
    | some _ => (.error (.cluster "already exists"), s)
    | none => (.ok (), s.put version ⟨kind, space, nameOf object⟩ object)
  | _, .replace kind space name object =>
    match s.objects ⟨kind, space, name⟩ with
    | none => (.error (.cluster "not found"), s)
    | some live =>
      if versionOf object ≠ versionOf live then (.error (.cluster "conflict"), s)
      else if unversioned object = unversioned live then (.ok (), s)
      else (.ok (), s.put version ⟨kind, space, name⟩ object)
  | _, .delete kind space name =>
    (.ok (s.objects ⟨kind, space, name⟩).isSome, s.remove ⟨kind, space, name⟩)
  | _, .listPods _ _ => (.ok [], s)

/-- What a program ends with, and what the server then holds. -/
def run {α : Type} (version : Versioning) (p : Program ClusterCall α) (s : ApiServer) :
    α × ApiServer :=
  p.run (m := StateM ApiServer) (fun call t => t.serve version call) s

/-- A server that may fail any call, with or without an effect. -/
def Unreliable (version : Versioning) : Environment ApiServer ClusterCall :=
  fun s call answer t => (answer, t) = s.serve version call ∨ ∃ e, answer = call.failure e

section Running

variable {version : Versioning} {s : ApiServer} {α β : Type}

theorem run_ask (call : ClusterCall α) : run version (.ask call) s = s.serve version call := rfl

/-- A run of two programs in a row is a run of the second from where the first ended. -/
theorem run_bind (p : Program ClusterCall α) (f : α → Program ClusterCall β) :
    run version (p >>= f) s = run version (f (run version p s).1) (run version p s).2 := by
  show run version (p.bind f) s = _
  induction p generalizing s with
  | done a => rfl
  | call request next ih => exact ih _

end Running

/-! ## Effects on the objects -/

section Effects

variable (version : Versioning) (s : ApiServer) (key other : ObjectKey)

theorem objects_remove : (s.remove key).objects = Function.update s.objects key none := by
  simp only [remove]
  cases h : s.objects key with
  | some live => rfl
  | none => exact (Function.update_eq_self_iff.mpr h.symm).symm

/-- Removing what is not there changes nothing at all. -/
theorem remove_of_absent {s : ApiServer} {key : ObjectKey} (h : s.objects key = none) :
    s.remove key = s := by
  simp only [remove]
  rw [h]

end Effects

end ApiServer

end ServingPlane
