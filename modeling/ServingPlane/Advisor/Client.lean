import ServingPlane.Advisor.Payload
import ServingPlane.Http
import ServingPlane.Settings.Basic

/-! # The advisor's endpoints

    Each endpoint takes one typed request and answers inside an envelope
    of which only the result counts. -/

namespace ServingPlane

open Numeric

/-- Why the advisor gave no advice. -/
inductive AdvisorError where
  /-- No reply, or one that is no envelope. -/
  | http (reason : String)
  | status (code : Nat) (body : String)
  | missingResult
  /-- The result does not have the expected type. -/
  | undecodable (fault : Fault)
  deriving DecidableEq, Repr

/-- The message of a cause. -/
def AdvisorError.message : AdvisorError → String
  | http reason => s!"http error: {reason}"
  | status code body => s!"advisor returned status {natText code}: {body}"
  | missingResult => "advisor response has no result"
  | undecodable fault => s!"malformed advisor result: {fault.message}"

/-- The advisor. -/
structure Advisor where
  /-- Its address with the path that all endpoints share, without slashes at the end. -/
  base : String
  deriving DecidableEq, Repr

/-- The part of a reply around its result; null counts as no result. -/
def adviceEnvelope : RecordShape (Option Json) where
  name := "Envelope"
  initial := none
  fields := [
    { Field.optional "result" (.option .json) id (fun v _ => v) with otherName := some "Result" }]

namespace Advisor

/-- The advisor that settings name. -/
def ofSettings (s : AdvisorSettings) : Advisor :=
  ⟨Text.trimCharEnd '/' (Text.trimCharEnd '/' s.url ++ "/" ++ Text.trimChar '/' s.path)⟩

/-- An endpoint: its name and the types it takes and answers. -/
structure Endpoint (α β : Type) where
  name : String
  request : Codec α
  result : Codec β

/-- A first configuration for a model on a card. -/
def sizing : Endpoint SizingRequest Recommendation :=
  ⟨"config_recommend", SizingRequest.shape.codec, Recommendation.codec⟩

/-- A verdict on a task's metrics. -/
def detection : Endpoint DetectionRequest Verdict :=
  ⟨"anomaly_detect", DetectionRequest.shape.codec, Verdict.shape.codec⟩

/-- A configuration that ends an anomaly. -/
def recovery : Endpoint RecoveryRequest Recommendation :=
  ⟨"anomaly_recover", RecoveryRequest.shape.codec, Recommendation.codec⟩

/-- The request to an endpoint. -/
def request {α β : Type} (a : Advisor) (e : Endpoint α β) (input : α) : HttpRequest where
  method := .post
  address := a.base ++ "/" ++ e.name
  query := none
  body := some (e.request.write input)

/-- What the outcome of a request means. -/
def readResult {β : Type} (result : Codec β) : HttpOutcome → Except AdvisorError β
  | .error reason => .error (.http reason)
  | .ok reply =>
    if reply.isSuccess then
      match adviceEnvelope.codec.ofText reply.body with
      | .error fault => .error (.http fault.message)
      | .ok none => .error .missingResult
      | .ok (some v) => (result.ofJson v).mapError .undecodable
    else .error (.status reply.status reply.body)

/-- Ask at an endpoint. -/
def ask {α β : Type} (a : Advisor) (e : Endpoint α β) (input : α) :
    Program HttpCall (Except AdvisorError β) := do
  return readResult e.result (← (a.request e input).send)

end Advisor

end ServingPlane
