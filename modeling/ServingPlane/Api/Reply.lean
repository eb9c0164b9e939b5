import ServingPlane.Detector.Error

/-! # Replies of the interface

    Every answer about tasks has one envelope: a code that is zero on
    success and the status otherwise, a message, the result if there is
    one, the id of the trace, and the version of the interface. -/

namespace ServingPlane

open Numeric

/-- What a reply holds. -/
inductive ReplyContent where
  | document (v : Json)
  | text (s : String)
  deriving Repr

/-- A reply of the interface. -/
structure ApiReply where
  status : Nat
  content : ReplyContent
  deriving Repr

/-- What goes into every envelope. -/
structure EnvelopeContext where
  traceId : String
  version : String

namespace ApiReply

/-- A reply in the envelope. -/
def envelope (ctx : EnvelopeContext) (status : Nat) (message : String) (result : Json) :
    ApiReply where
  status := status
  content := .document (.object [
    ("code", .ofNat (if 200 ≤ status && status < 300 then 0 else status)),
    ("message", .string message),
    ("result", result),
    ("trace_id", .string ctx.traceId),
    ("version", .string ctx.version)])

/-- Success with a result. -/
def ok (ctx : EnvelopeContext) (result : Json) : ApiReply := envelope ctx 200 "ok" result

/-- Failure with a message. -/
def failure (ctx : EnvelopeContext) (status : Nat) (message : String) : ApiReply :=
  envelope ctx status message .null

/-- The status that a cause of failure is answered with. -/
def statusOf : DetectorError → Nat
  | .unknownTask _ => 404
  | .invalidTask _ | .unsupportedEngine _ => 400
  | .advisor _ | .metrics _ | .backend _ | .store _ | .queueClosed => 500

/-- Failure of the detector. -/
def ofError (ctx : EnvelopeContext) (cause : DetectorError) : ApiReply :=
  failure ctx (statusOf cause) cause.message

/-- The named task does not exist. -/
def notFound (ctx : EnvelopeContext) (name : String) : ApiReply :=
  failure ctx 404 s!"task {name} not found"

/-- A bare status. -/
def bare (status : Nat) : ApiReply := ⟨status, .text ""⟩

/-- The same reply without its content. -/
def headOnly (r : ApiReply) : ApiReply := bare r.status

end ApiReply

end ServingPlane
