import ServingPlane.Api.MediaType
import ServingPlane.Http
import ServingPlane.Task.Wire

/-! # Requests to the interface

    A request names one of three places under the interface's root, and
    carries a task's name in its query or a task's spec in its body. -/

namespace ServingPlane

/-- A request to the interface. -/
structure ApiRequest where
  method : HttpMethod
  /-- The path and query that were asked for. -/
  uri : String
  /-- The label of the body. -/
  contentType : Option String
  /-- The body, if it is text.  Bytes that are none cannot be said here;
      they are no document either, and are refused like other texts that
      are none. -/
  body : String

/-- An element of a path pattern. -/
inductive PathElement where
  | fixed (c : Char)
  /-- Anything up to the next slash or the end, but not nothing. -/
  | parameter
  deriving DecidableEq, Repr

/-- A path with parameters. -/
abbrev PathPattern := List PathElement

namespace PathPattern

/-- The pattern of a path as it stands. -/
def literal (path : String) : PathPattern := path.toList.map .fixed

/-- The pattern that a text writes: a name in braces is a parameter, and a
    brace that is doubled stands for itself.  While `inName` holds, the
    text is inside a name. -/
def read (inName : Bool) : List Char → PathPattern
  | [] => []
  | '\x7b' :: '\x7b' :: r => if inName then read inName r else .fixed '\x7b' :: read inName r
  | '\x7d' :: '\x7d' :: r => if inName then read inName r else .fixed '\x7d' :: read inName r
  | '\x7b' :: r => .parameter :: read true r
  | '\x7d' :: r => read false r
  | c :: r => if inName then read inName r else .fixed c :: read inName r

/-- The pattern that a text writes. -/
def ofChars (cs : List Char) : PathPattern := read false cs

/-- Whether a path fits a pattern. -/
def admits : PathPattern → List Char → Bool
  | [], cs => cs.isEmpty
  | .fixed _ :: _, [] => false
  | .fixed p :: ps, c :: cs => p == c && admits ps cs
  | .parameter :: ps, cs =>
    match cs.span (· != '/') with
    | ([], _) => false
    | (_ :: _, rest) => admits ps rest

end PathPattern

/-- A place of the interface. -/
inductive Route where
  | tasks
  | history
  | health
  deriving DecidableEq, Repr

namespace Route

/-- The path of a place below the root. -/
def path : Route → String
  | tasks => "/deploy"
  | history => "/task/detect/history"
  | health => "/healthz"

/-- All places. -/
def all : List Route := [tasks, history, health]

/-- The methods that a place understands. -/
def methods : Route → List HttpMethod
  | tasks => [.get, .head, .post, .delete]
  | history | health => [.get, .head]

/-- The root of the interface as it stands in front of every path. -/
def rootPath (root : String) : PathPattern :=
  match Text.trimChar '/' root with
  | "" => []
  | trimmed => .fixed '/' :: PathPattern.ofChars trimmed.toList

/-- The place at a path. -/
def at? (root path : String) : Option Route :=
  all.find? fun r => (rootPath root ++ PathPattern.literal r.path).admits path.toList

end Route

namespace ApiRequest

/-- An address without the name of the server; one that starts with a
    slash names none. -/
def withoutServer (cs : List Char) : List Char :=
  match cs.span fun c => c != ':' && c != '/' with
  | (_ :: _, ':' :: '/' :: '/' :: rest) =>
    match rest.dropWhile fun c => c != '/' && c != '?' && c != '#' with
    | '/' :: r => '/' :: r
    | r => '/' :: r
  | _ => cs

/-- Path and query; what follows a number sign does not count. -/
def parts (r : ApiRequest) : String × String :=
  let (whole, _) := Text.cutAt (· == '#') (withoutServer r.uri.toList)
  let (path, query) := Text.cutAt (· == '?') whole
  (String.ofList path, String.ofList (query.getD []))

/-- The task name in a query; a name that occurs twice is refused. -/
def readTaskName (query : String) : Except Fault String :=
  match (Text.queryPairs query).filter (·.1 == "task_name") with
  | [] => .ok ""
  | [(_, name)] => .ok name
  | _ => .error (.duplicateField "task_name")

/-- Why a body is not a task spec. -/
inductive BodyError where
  /-- The body is not labelled as a document. -/
  | mislabelled
  /-- The body is longer than any that is taken in. -/
  | oversized
  /-- The body is no document. -/
  | unparsable (fault : Fault)
  /-- The document is no spec. -/
  | mistyped (fault : Fault)
  deriving DecidableEq, Repr

/-- The message of a cause. -/
def BodyError.message : BodyError → String
  | mislabelled => "Expected request with `Content-Type: application/json`"
  | oversized => "Failed to buffer the request body: length limit exceeded"
  | unparsable fault => s!"Failed to parse the request body as JSON: {fault.message}"
  | mistyped fault =>
    s!"Failed to deserialize the JSON body into the target type: {fault.message}"

/-- How many bytes of a body are taken in: two mebibytes. -/
def bodyLimit : Nat := 2097152

/-- The spec in a body. -/
def readSpec (r : ApiRequest) : Except BodyError TaskSpec :=
  if (r.contentType.map MediaType.isJson).getD false then
    if bodyLimit < r.body.utf8ByteSize then .error .oversized
    else
      match TaskSpec.codec.ofText r.body with
      | .ok spec => .ok spec
      | .error fault =>
        match fault.kind with
        | .malformed | .truncated => .error (.unparsable fault)
        | .content => .error (.mistyped fault)
  else .error .mislabelled

end ApiRequest

end ServingPlane
