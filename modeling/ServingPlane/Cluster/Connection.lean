import ServingPlane.Json.Codec
import ServingPlane.Yaml.Reader

/-! # Connecting to a cluster

    A connection file names servers, users and contexts that join one of
    each, and says which context counts.  A connection can be set up only
    if that context, its server and its user are all there. -/

namespace ServingPlane

/-- A named part of a connection file; the part itself may be missing. -/
structure NamedPart (α : Type) where
  name : String
  content : Option α

/-- Named parts on the wire, under the key that the parts of a kind have. -/
def NamedPart.shape {α : Type} (key : String) (c : Codec α) : RecordShape (NamedPart α) where
  name := "Named"
  initial := ⟨"", none⟩
  fields := [.needed "name" .string (·.name) (fun v p => { p with name := v }),
    .positional key c (·.content) (fun v p => { p with content := v })]

/-- The part of a name. -/
def NamedPart.find? {α : Type} (name : String) (parts : List (NamedPart α)) : Option α :=
  (parts.find? (·.name == name)).bind (·.content)

/-- A context: its server and, where it has one, its user. -/
structure ConnectionContext where
  cluster : String
  user : Option String

/-- A connection file. -/
structure ConnectionFile where
  /-- The servers by name; one may lack its address. -/
  servers : List (NamedPart (Option String))
  users : List (NamedPart Unit)
  contexts : List (NamedPart ConnectionContext)
  current : Option String

namespace ConnectionFile

/-- Fields that are only checked. -/
def checkedTexts {σ : Type} (names : List String) : List (Field σ) :=
  names.map fun name => .positional name .string (fun _ => none) (fun _ s => s)

/-- A server on the wire. -/
def serverShape : RecordShape (Option String) where
  name := "Cluster"
  initial := none
  fields := .positional "server" .string id (fun v _ => v)
    :: .positional "insecure-skip-tls-verify" .bool (fun _ => none) (fun _ s => s)
    :: checkedTexts ["certificate-authority", "certificate-authority-data", "proxy-url",
      "tls-server-name"]

/-- A user on the wire. -/
def userShape : RecordShape Unit where
  name := "AuthInfo"
  initial := ()
  fields := checkedTexts ["username", "password", "token", "tokenFile", "client-certificate",
    "client-certificate-data", "client-key", "client-key-data", "as"]

/-- A context on the wire. -/
def contextShape : RecordShape ConnectionContext where
  name := "Context"
  initial := ⟨"", none⟩
  fields := [.needed "cluster" .string (·.cluster) (fun v c => { c with cluster := v }),
    .positional "user" .string (·.user) (fun v c => { c with user := v }),
    .positional "namespace" .string (fun _ => none) (fun _ c => c)]

/-- A list that may also be null. -/
def parts {α : Type} (c : Codec α) : Codec (List α) where
  write := (Codec.list c).write
  read d := ((Codec.option (.list c)).read d).map (·.getD [])

/-- A connection file on the wire. -/
def shape : RecordShape ConnectionFile where
  name := "Kubeconfig"
  initial := ⟨[], [], [], none⟩
  fields := [
    .optional "clusters" (parts (NamedPart.shape "cluster" serverShape.codec).codec) (·.servers)
      (fun v f => { f with servers := v }),
    .optional "users" (parts (NamedPart.shape "user" userShape.codec).codec) (·.users)
      (fun v f => { f with users := v }),
    .optional "contexts" (parts (NamedPart.shape "context" contextShape.codec).codec) (·.contexts)
      (fun v f => { f with contexts := v }),
    .positional "current-context" .string (·.current) (fun v f => { f with current := v })]
    ++ checkedTexts ["kind", "apiVersion"]

/-- Read a connection file. -/
def ofText (text : String) : Option ConnectionFile := do
  let v ← Yaml.parse? text
  (shape.codec.ofJson v).toOption

/-- Whether a text can be the address of a server. -/
def isAddress (s : String) : Bool :=
  !s.isEmpty && !s.endsWith "://"
    && s.toList.all fun c => 0x20 < c.toNat && c.toNat < 0x7f && !"<>\"\\^\x60\x7b\x7d|".contains c

/-- The address of the server that the current context leads to. -/
def serverAddress? (f : ConnectionFile) : Option String := do
  let context ← NamedPart.find? (← f.current) f.contexts
  let address ← (← NamedPart.find? context.cluster f.servers)
  match context.user with
  | none => pure ()
  | some user => NamedPart.find? user f.users
  if isAddress address then return address else none

end ConnectionFile

end ServingPlane
