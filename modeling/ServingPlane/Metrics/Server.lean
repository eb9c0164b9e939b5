import ServingPlane.Http
import ServingPlane.Metrics.Series
import ServingPlane.Metrics.Window

/-! # The metrics server

    One range query is one request; its reply is a list of series, or
    tells why there is none. -/

namespace ServingPlane

open Numeric

/-- Why metrics are missing. -/
inductive MetricsError where
  /-- No series are known for this engine. -/
  | unsupportedEngine (kind : String)
  /-- No reply, or one that is no range answer. -/
  | http (reason : String)
  | status (code : Nat) (body : String)
  /-- The server refused the query. -/
  | query (reason : String)
  /-- The window would start before the calendar does.  No caller sees
      this cause: it stands for the panic of whoever works out the window. -/
  | window
  deriving DecidableEq, Repr

/-- The message of a cause. -/
def MetricsError.message : MetricsError → String
  | unsupportedEngine kind => s!"metrics are not collected for backend {kind}"
  | http reason => s!"http error: {reason}"
  | status code body => s!"prometheus returned status {natText code}: {body}"
  | query reason => s!"query failed: {reason}"
  | window => "query window out of range"

/-- A metrics server. -/
structure MetricsServer where
  /-- Its address, without slashes at the end. -/
  base : String
  deriving DecidableEq, Repr

namespace MetricsServer

/-- The server at an address. -/
def ofAddress (address : String) : MetricsServer := ⟨Text.trimCharEnd '/' address⟩

/-- The request of a range query. -/
def rangeRequest (server : MetricsServer) (query : String) (window : QueryWindow) : HttpRequest where
  method := .get
  address := server.base ++ "/api/v1/query_range"
  query := some (Text.queryText [("query", query), ("start", window.start.text),
    ("end", window.finish.text), ("step", window.step)])
  body := none

/-- The series of an answer. -/
def seriesOf (a : RangeAnswer) : Except MetricsError (List RangeSeries) :=
  if a.status = "success" then .ok ((a.data.map (·.result)).getD [])
  else .error (.query (a.error.getD s!"status {a.status}"))

/-- What the outcome of a range query means. -/
def readRange : HttpOutcome → Except MetricsError (List RangeSeries)
  | .error reason => .error (.http reason)
  | .ok reply =>
    if reply.isSuccess then
      match RangeAnswer.shape.codec.ofText reply.body with
      | .ok a => seriesOf a
      | .error fault => .error (.http fault.message)
    else .error (.status reply.status reply.body)

/-- Ask for the series of one query. -/
def queryRange (server : MetricsServer) (query : String) (window : QueryWindow) :
    Program HttpCall (Except MetricsError (List RangeSeries)) := do
  return readRange (← (server.rangeRequest query window).send)

end MetricsServer

end ServingPlane
