import ServingPlane.Container.Description
import ServingPlane.Container.Engine
import ServingPlane.Http
import ServingPlane.Text.Address

/-! # The container daemon

    The container engine as a daemon on this machine: which requests a
    call becomes, and what their replies mean.  A reply with an error
    status carries a message; for some calls the status itself is an
    answer. -/

namespace ServingPlane

open Numeric

namespace ContainerDaemon

/-! ## Reading replies -/

/-- An error reply. -/
def messageShape : RecordShape String where
  name := "DockerServerErrorMessage"
  initial := ""
  fields := [.needed "message" .string id (fun v _ => v)]

/-- The fault of an error reply.  A body that is no error document is the
    message itself, unless it merely breaks off. -/
def errorFault (reply : HttpReply) : DaemonFault :=
  if reply.body.isEmpty then .status reply.status ""
  else match messageShape.codec.ofText reply.body with
    | .ok message => .status reply.status message
    | .error fault =>
      match fault.kind with
      | .truncated => .malformed fault.message
      | .malformed | .content => .status reply.status reply.body

/-- The body of a reply that is no error; a reply that nothing changed is none. -/
def accepted : HttpOutcome → Except DaemonFault String
  | .error reason => .error (.unreachable reason)
  | .ok reply =>
    if reply.isSuccess || reply.status == 304 || reply.status == 101 then .ok reply.body
    else .error (errorFault reply)

/-- The typed body of a reply that is no error. -/
def decoded {α : Type} (c : Codec α) (o : HttpOutcome) : Except DaemonFault α := do
  match c.ofText (← accepted o) with
  | .ok a => .ok a
  | .error fault => .error (.malformed fault.message)

/-- Whether a fault is an error reply with one of the given statuses. -/
def hasStatus (codes : List Nat) : DaemonFault → Bool
  | .status code _ => codes.contains code
  | _ => false

/-! ## Images -/

/-- What the front of a buffer of reports holds. -/
inductive Report where
  /-- A report, with its error, and the rest of the buffer. -/
  | complete (error : Option String) (rest : List Char)
  /-- Nothing complete; the buffer without the line break that cut it short. -/
  | incomplete (buffer : List Char)
  | malformed (reason : String)

/-- Read a report; a text that breaks off, or is null, is none yet. -/
def readReport (line : List Char) : Except String (Option (Option String)) :=
  match (Codec.option progressShape.codec).ofText (String.ofList line) with
  | .ok report => .ok report
  | .error fault =>
    match fault.kind with
    | .truncated => .ok none
    | .malformed | .content => .error fault.message

/-- Take a report from the front of a buffer. -/
def nextReport (buffer : List Char) : Report :=
  if buffer.isEmpty then .incomplete []
  else match Text.cutAt (· == '\n') buffer with
    | (line, some rest) =>
      match readReport line with
      | .ok (some error) => .complete error rest
      | .ok none => .incomplete (line ++ rest)
      | .error reason => .malformed reason
    | (line, none) =>
      match readReport line with
      | .ok (some error) => .complete error []
      | .ok none => .incomplete buffer
      | .error reason => .malformed reason

/-- Read the reports of a fetch.  While `more` holds, the buffer may still
    grow, so that an incomplete report is no fault; after that nothing may
    be left over.  Each round drops a character or ends, so the length of
    the text bounds their number. -/
def readReports : Nat → Bool → List Char → Except DaemonFault Unit
  | 0, _, _ => .ok ()
  | fuel + 1, more, buffer =>
    match nextReport buffer with
    | .malformed reason => .error (.malformed reason)
    | .complete (some error) _ => .error (.malformed error)
    | .complete none rest => readReports fuel more rest
    | .incomplete rest =>
      if more then readReports fuel false rest
      else if rest.isEmpty then .ok ()
      else .error (.malformed "bytes remaining on stream")

/-- What the reply to a fetch means. -/
def readFetch (o : HttpOutcome) : Except DaemonFault Unit := do
  let body ← accepted o
  readReports (body.length + 2) true body.toList

/-- A request without a body.  The address is taken as it is written;
    parameters replace a query in it. -/
def requestAt (method : HttpMethod) (address : String)
    (parameters : List (String × String)) : HttpRequest :=
  let place := Text.Address.ofText address
  { method
    address := place.path
    query := if parameters.isEmpty then place.query else some (Text.queryText parameters)
    body := none }

/-- Ask for the description of an image. -/
def imageRequest (image : String) : HttpRequest := requestAt .get s!"/images/{image}/json" []

/-- Ask to fetch an image. -/
def fetchRequest (image : String) : HttpRequest :=
  requestAt .post "/images/create"
    [("fromImage", image), ("fromSrc", ""), ("platform", ""), ("repo", ""), ("tag", "")]

/-- Fetch an image if the daemon does not know it. -/
def ensureImage (image : String) : Program HttpCall (Except DaemonFault Unit) := do
  match decoded imageDescription (← (imageRequest image).send) with
  | .ok () => return .ok ()
  | .error fault =>
    if hasStatus [404] fault then return readFetch (← (fetchRequest image).send)
    else return .error fault

/-! ## Containers -/

/-- Members that are there. -/
def members (l : List (String × Option Json)) : Json :=
  .object (l.filterMap fun (name, v) => v.map (name, ·))

/-- The configuration of a new container. -/
def containerDocument (l : ContainerLaunch) : Json :=
  let port := natText l.port.toNat ++ "/tcp"
  let devices := .object [("Driver", .string "nvidia"), ("DeviceIDs", .strings l.gpuIds),
    ("Capabilities", .array [.strings ["gpu"]])]
  let network := if l.network.isEmpty then none else some l.network
  let aliases := if l.networkAlias.isEmpty then none else some (.strings [l.networkAlias])
  members [
    ("ExposedPorts", some (.object [(port, .object [])])),
    ("Tty", some (.bool true)),
    ("Env", some (.strings l.env)),
    ("Cmd", some (.strings l.command)),
    ("Image", some (.string l.image)),
    ("HostConfig", some (members [
      ("Binds", some (.strings l.binds)),
      ("NetworkMode", network.map .string),
      ("PortBindings", some (.object [(port,
        .array [.object [("HostIp", .string "0.0.0.0")]])])),
      ("DeviceRequests", if l.gpuIds.isEmpty then none else some (.array [devices])),
      ("IpcMode", some (.string "host"))])),
    ("NetworkingConfig", network.map fun name =>
      .object [("EndpointsConfig", .object [(name, members [("Aliases", aliases)])])])]

/-- Ask for a new container. -/
def createRequest (l : ContainerLaunch) : HttpRequest :=
  { requestAt .post "/containers/create" [("name", l.name)] with
    body := some (containerDocument l) }

/-- Create a container; the result is its id. -/
def create (l : ContainerLaunch) : Program HttpCall (Except DaemonFault String) := do
  return decoded createdShape.codec (← (createRequest l).send)

/-- A request about one container. -/
def containerRequest (method : HttpMethod) (id action : String)
    (parameters : List (String × String)) : HttpRequest :=
  requestAt method s!"/containers/{id}{action}" parameters

/-- Start a container. -/
def start (id : String) : Program HttpCall (Except DaemonFault Unit) := do
  return (accepted (← (containerRequest .post id "/start" []).send)).map fun _ => ()

/-- An answer with one of the given statuses is as good as success. -/
def tolerating (codes : List Nat) (o : HttpOutcome) : Except DaemonFault Unit :=
  match accepted o with
  | .ok _ => .ok ()
  | .error fault => if hasStatus codes fault then .ok () else .error fault

/-- Stop a container, waiting `timeout` seconds before it is killed, and
    remove it.  One that has stopped already or is gone is no fault. -/
def stopAndRemove (timeout : Int64) (id : String) : Program HttpCall (Except DaemonFault Unit) := do
  match tolerating [304, 404]
      (← (containerRequest .post id "/stop" [("t", intText timeout.toInt)]).send) with
  | .error fault => return .error fault
  | .ok () =>
    return tolerating [404] (← (containerRequest .delete id ""
      [("force", "true"), ("link", "false"), ("v", "false")]).send)

/-- A container as a replica: without slashes in front of its name, and
    under the id that was asked for if it names none. -/
def Inspection.replica (asked : String) (i : Inspection) : RuntimeInstance where
  id := i.id.getD asked
  name := String.ofList ((i.name.getD "").toList.dropWhile (· == '/'))
  status := i.state.join.getD ""

/-- Look at a container; nothing if it is gone. -/
def inspect (id : String) : Program HttpCall (Except DaemonFault (Option RuntimeInstance)) := do
  match decoded inspectionShape.codec (← (containerRequest .get id "/json" []).send) with
  | .ok i => return .ok (some (i.replica id))
  | .error fault => if hasStatus [404] fault then return .ok none else return .error fault

/-- Serve a call of the container engine. -/
def serve (timeout : Int64) : {α : Type} → EngineCall α → Program HttpCall α
  | _, .ensureImage image => do return (← ensureImage image).mapError .daemon
  | _, .create launch => do return (← create launch).mapError .daemon
  | _, .start id => do return (← start id).mapError .daemon
  | _, .stopAndRemove id => do return (← stopAndRemove timeout id).mapError .daemon
  | _, .inspect id => do return (← inspect id).mapError .daemon

end ContainerDaemon

end ServingPlane
