import ServingPlane.Api.Reply
import ServingPlane.Api.Request
import ServingPlane.Detector

/-! # The interface

    What each request does, in terms of the detector, and how the outcome
    is answered. -/

namespace ServingPlane

open Numeric

/-- The interface: the detector behind it, the defaults of a deployed spec,
    the path below which it answers, and its version. -/
structure Api where
  detector : Detector
  serving : ServingSettings
  root : String
  version : String

namespace Api

/-- The text that stands for success. -/
def success : Json := .string "Success"

/-- Deploy the spec in a body. -/
def deploy (api : Api) (ctx : EnvelopeContext) (r : ApiRequest) : Detection ApiReply :=
  match r.readSpec with
  | .error cause => return .failure ctx 400 s!"invalid deploy request: {cause.message}"
  | .ok spec => do
    match ← api.detector.deploy (spec.fillDefaults api.serving) with
    | .ok () => return .ok ctx success
    | .error cause => return .ofError ctx cause

/-- Describe a task. -/
def describe (ctx : EnvelopeContext) (name : String) : Detection ApiReply := do
  match ← Detector.describe name with
  | .ok view => return .ok ctx view.document
  | .error cause => return .ofError ctx cause

/-- Delete a task. -/
def delete (ctx : EnvelopeContext) (name : String) : Detection ApiReply := do
  match ← Detector.delete name with
  | .ok true => return .ok ctx success
  | .ok false => return .notFound ctx name
  | .error cause => return .ofError ctx cause

/-- List the recoveries of a task. -/
def history (ctx : EnvelopeContext) (name : String) : Detection ApiReply := do
  match ← Detector.history name with
  | .ok (some records) =>
    return .ok ctx (.object [("data", .array (records.map RecoveryRecord.shape.codec.write))])
  | .ok none => return .notFound ctx name
  | .error cause => return .ofError ctx cause

/-- Report the number of tasks. -/
def health (ctx : EnvelopeContext) : Detection ApiReply := do
  let tasks ← Detector.taskCount
  let queued ← Detector.queuedTasks
  return .ok ctx (.object [("queued", .ofNat queued), ("status", .string "ok"),
    ("tasks", .ofNat tasks)])

/-- Act on the task that a query names; blanks around the name do not count. -/
def withTaskName (ctx : EnvelopeContext) (query : String)
    (act : String → Detection ApiReply) : Detection ApiReply :=
  match ApiRequest.readTaskName query with
  | .error fault => return ⟨400, .text s!"Failed to deserialize query string: {fault.message}"⟩
  | .ok given =>
    match Text.trim given with
    | "" => return .failure ctx 400 "task_name is required"
    | name => act name

/-- Serve a method that a place understands. -/
def serve (api : Api) (ctx : EnvelopeContext) (r : ApiRequest) (query : String)
    (method : HttpMethod) : Route → Detection ApiReply
  | .tasks =>
    match method with
    | .post => api.deploy ctx r
    | .delete => withTaskName ctx query (delete ctx)
    | _ => withTaskName ctx query (describe ctx)
  | .history => withTaskName ctx query (history ctx)
  | .health => health ctx

/-- Answer a request.  A request for the head alone is served in full and
    answered without content. -/
def handle (api : Api) (traceId : String) (r : ApiRequest) : Detection ApiReply :=
  let ctx : EnvelopeContext := ⟨traceId, api.version⟩
  let (path, query) := r.parts
  match Route.at? api.root path with
  | none => return .bare 404
  | some route =>
    if !route.methods.contains r.method then return .bare 405
    else if r.method = .head then do
      return (← api.serve ctx r query .get route).headOnly
    else api.serve ctx r query r.method route

end Api

end ServingPlane
