import ServingPlane.Cluster.Reconcile
import ServingPlane.Http

/-! # The cluster's server

    The cluster as a server of documents: where each kind of object is
    kept, which documents can be sent, and what replies mean.  A document
    has a kind, metadata with fixed fields, and anything beside them. -/

namespace ServingPlane

open Numeric

namespace ClusterServer

/-! ## Objects -/

/-- Fields of the metadata that hold texts. -/
def textFields : List String :=
  ["generateName", "name", "namespace", "resourceVersion", "selfLink", "uid"]

/-- A point in time, sent to the second. -/
def timeCodec : Codec Instant where
  write t := .string t.text
  read
    | .string (some s) => (Instant.ofText s).mapError .invalidTime
    | d => .error (d.mismatch "an RFC 3339 formatted date and time string")

/-- A metadata field that stays out of the document when it is absent or null. -/
def kept {α : Type} (name : String) (c : Codec α) : Field (Dict String Json) where
  name := name
  otherName := none
  presence := .optional
  write m := (m.get? name).getD .null
  read d m := do
    match ← (Codec.option c).read d with
    | some a => return m.insert name (c.write a)
    | none => return m

/-- Who owns an object; four of the texts are always there. -/
def ownerShape : RecordShape (Dict String Json) where
  name := "OwnerReference"
  initial := .ofList (["apiVersion", "kind", "name", "uid"].map fun name => (name, .string ""))
  fields := [kept "apiVersion" .string, kept "blockOwnerDeletion" .bool, kept "controller" .bool,
    kept "kind" .string, kept "name" .string, kept "uid" .string]

/-- Which fields of an object somebody manages. -/
def managerShape : RecordShape (Dict String Json) where
  name := "ManagedFieldsEntry"
  initial := .empty
  fields := [kept "apiVersion" .string, kept "fieldsType" .string, kept "fieldsV1" .json,
    kept "manager" .string, kept "operation" .string, kept "subresource" .string,
    kept "time" timeCodec]

/-- A record as the members that are there. -/
def presentMembers (shape : RecordShape (Dict String Json)) : Codec (Dict String Json) where
  write m := .object m.entries
  read
    | .object members ending => shape.readMap members ending
    | d => .error (d.mismatch shape.name)

/-- The metadata of an object: known fields that are not null. -/
def metadataShape : RecordShape (Dict String Json) where
  name := "ObjectMeta"
  initial := .empty
  fields := [kept "annotations" (.dict .string), kept "creationTimestamp" timeCodec,
    kept "deletionGracePeriodSeconds" .int64, kept "deletionTimestamp" timeCodec,
    kept "finalizers" (.list .string), kept "generation" .int64, kept "labels" (.dict .string),
    kept "managedFields" (.list (presentMembers managerShape)),
    kept "ownerReferences" (.list (presentMembers ownerShape))]
    ++ textFields.map fun name => kept name .string

/-- An object, of which only the metadata has a fixed form. -/
def objectShape : RecordShape (Dict String Json) where
  name := "DynamicObject"
  initial := .empty
  fields := [.optional "metadata" (presentMembers metadataShape) id (fun v _ => v)]

/-- Drop a kind without a version, and a version without a kind. -/
def dropHalfType (others : Dict String Json) : Dict String Json :=
  match others.get? "apiVersion", others.get? "kind" with
  | some (.string _), some (.string _) => others
  | some (.string _), _ | none, _ => (others.erase "apiVersion").erase "kind"
  | some _, _ => others.erase "apiVersion"

/-- Keep a member beside the parts with fixed names. -/
def keepMember (key : String) (d : Document) (others : Dict String Json) :
    Except Fault (Dict String Json) := do
  return others.insert key (← liftBreakage d.toJson)

/-- An object as it is sent: a map whose metadata has known fields only, and
    whose kind and version are texts that stand together. -/
def objectCodec : Codec Json where
  write := id
  read
    | .object members ending => do
      let (_, metadata, others) ← objectShape.readMembers keepMember members []
        objectShape.initial Dict.empty
      Codec.settleMembers ending
      return .object ((dropHalfType others).insert "metadata" (.object metadata.entries)).entries
    | d => .error (d.mismatch ("struct " ++ objectShape.name))

/-! ## Requests -/

/-- Where objects of a kind are kept. -/
def collectionAddress (kind : ObjectKind) (space : String) : String :=
  let root := if kind.group.isEmpty then "/api/" else "/apis/" ++ kind.group ++ "/"
  Text.pathEncode s!"{root}{kind.version}/namespaces/{space}/{kind.plural}"

/-- Where one object is kept. -/
def objectAddress (kind : ObjectKind) (space name : String) : String :=
  collectionAddress kind space ++ "/" ++ Text.pathEncode name

/-- The status document of an error. -/
def statusShape : RecordShape (String × Nat) where
  name := "ErrorResponse"
  initial := ("", 0)
  fields := [
    .needed "status" .string (fun _ => "") (fun _ s => s),
    .optional "message" .string (·.1) (fun v s => (v, s.2)),
    .optional "reason" .string (fun _ => "") (fun _ s => s),
    .needed "code" .uint16 (fun s => .ofNat s.2) (fun v s => (s.1, v.toNat))]

/-- Why a request to the server fails. -/
inductive Refusal where
  /-- The server's own answer. -/
  | answered (message : String) (code : Nat)
  /-- No answer, or one that cannot be read. -/
  | unreadable (reason : String)

/-- The cause as a backend names it. -/
def Refusal.error : Refusal → BackendError
  | answered message _ => .apiServer message
  | unreadable reason => .apiServer reason

/-- Whether the object is not there. -/
def Refusal.isAbsence : Refusal → Bool
  | answered _ code => code == 404
  | unreadable _ => false

/-- The body of a reply that is no error. -/
def accepted : HttpOutcome → Except Refusal String
  | .error reason => .error (.unreadable reason)
  | .ok reply =>
    if reply.status < 400 then .ok reply.body
    else match statusShape.codec.ofText reply.body with
      | .ok (message, code) => .error (.answered message code)
      | .error _ => .error (.answered (Text.quoted reply.body) reply.status)

/-- The typed body of a reply that is no error. -/
def decoded {α : Type} (c : Codec α) (o : HttpOutcome) : Except Refusal α := do
  match c.ofText (← accepted o) with
  | .ok a => .ok a
  | .error fault => .error (.unreadable fault.message)

/-- The reply to a deletion: a status or the object, of which only the form counts. -/
def deletedCodec : Codec Unit where
  write _ := .null
  read d := do
    match ← Codec.json.read d with
    | .object _ => return ()
    | other => .error (Document.mismatch "a map" (.ofJson other))

/-- A pod: what tells replicas apart, and its phase. -/
structure Pod where
  uid : Option String
  name : Option String
  phase : Option String
  deriving DecidableEq, Repr

/-- The metadata of a pod. -/
def podMetadataShape : RecordShape Pod where
  name := "ObjectMeta"
  initial := ⟨none, none, none⟩
  fields := [
    .optional "name" (.option .string) (·.name) (fun v p => { p with name := v }),
    .optional "uid" (.option .string) (·.uid) (fun v p => { p with uid := v })]

/-- The status of a pod. -/
def podStatusShape : RecordShape (Option String) where
  name := "PodStatus"
  initial := none
  fields := [.optional "phase" (.option .string) id (fun v _ => v)]

/-- A pod document. -/
def podShape : RecordShape Pod where
  name := "Pod"
  initial := ⟨none, none, none⟩
  fields := [
    .optional "metadata" (.option podMetadataShape.codec) (fun p => some p)
      (fun v p => { v.getD podMetadataShape.initial with phase := p.phase }),
    .optional "status" (.option podStatusShape.codec) (fun p => some p.phase)
      (fun v p => { p with phase := v.join })]

/-- A list of pods. -/
def podListShape : RecordShape (List Pod) where
  name := "List"
  initial := []
  fields := [.optional "items" (.list podShape.codec) id (fun v _ => v)]

/-- A pod as a replica. -/
def Pod.replica (p : Pod) : RuntimeInstance :=
  ⟨p.uid.getD "", p.name.getD "", p.phase.getD "Unknown"⟩

/-- Send a request about a named object; a name must not be empty. -/
def sendNamed (name : String) (request : HttpRequest) : Program HttpCall HttpOutcome :=
  if name.isEmpty then return .error "A resource name cannot be empty" else request.send

/-- A request without a query. -/
def plainRequest (method : HttpMethod) (address : String) (body : Option Json) : HttpRequest where
  method := method
  address := address
  query := none
  body := body

/-- Serve a call of the cluster. -/
def serve : {α : Type} → ClusterCall α → Program HttpCall α
  | _, .get kind space name => do
    match decoded objectCodec
        (← sendNamed name (plainRequest .get (objectAddress kind space name) none)) with
    | .ok object => return .ok (some object)
    | .error refusal => return if refusal.isAbsence then .ok none else .error refusal.error
  | _, .create kind space object => do
    match objectCodec.ofJson object with
    | .error fault => return .error (.unencodable fault)
    | .ok object =>
      let outcome ← (plainRequest .post (collectionAddress kind space) (some object)).send
      return (decoded objectCodec outcome).map (fun _ => ()) |>.mapError Refusal.error
  | _, .replace kind space name object => do
    match objectCodec.ofJson object with
    | .error fault => return .error (.unencodable fault)
    | .ok object =>
      let outcome ← sendNamed name
        (plainRequest .put (objectAddress kind space name) (some object))
      return (decoded objectCodec outcome).map (fun _ => ()) |>.mapError Refusal.error
  | _, .delete kind space name => do
    match decoded deletedCodec (← sendNamed name
        (plainRequest .delete (objectAddress kind space name) (some (.object [])))) with
    | .ok () => return .ok true
    | .error refusal => return if refusal.isAbsence then .ok false else .error refusal.error
  | _, .listPods space selector => do
    let request : HttpRequest :=
      { method := .get, address := Text.pathEncode s!"/api/v1/namespaces/{space}/pods",
        query := some (Text.queryText [("labelSelector", selector)]), body := none }
    return (decoded podListShape.codec (← request.send)).map (·.map Pod.replica)
      |>.mapError Refusal.error

end ClusterServer

end ServingPlane
