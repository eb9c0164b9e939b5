import ServingPlane.Json.Codec
import ServingPlane.Json.Printer
import ServingPlane.Program
import ServingPlane.Text.Percent

/-! # Requests over HTTP

    What is sent to another program and what comes back.  A request
    either gets a reply or fails on the way; what a reply means is for
    the one who asked. -/

namespace ServingPlane

open Numeric

/-- What a request asks to be done. -/
inductive HttpMethod where
  | get
  | head
  | post
  | put
  | delete
  | other
  deriving DecidableEq, Repr, Inhabited

namespace HttpMethod

/-- Methods by name. -/
def named : List (String × HttpMethod) :=
  [("GET", get), ("HEAD", head), ("POST", post), ("PUT", put), ("DELETE", delete)]

/-- The method of a name. -/
def ofName (name : String) : HttpMethod := (named.lookup name).getD other

/-- The name of a method. -/
def name : HttpMethod → String
  | get => "GET"
  | head => "HEAD"
  | post => "POST"
  | put => "PUT"
  | delete => "DELETE"
  | other => ""

end HttpMethod

/-- A request to another program. -/
structure HttpRequest where
  method : HttpMethod
  /-- Where it goes, percent-encoded, without the query. -/
  address : String
  /-- The query, percent-encoded. -/
  query : Option String
  body : Option Json

/-- A reply. -/
structure HttpReply where
  status : Nat
  body : String
  deriving DecidableEq, Repr, Inhabited

/-- The request was served. -/
def HttpReply.isSuccess (r : HttpReply) : Bool := 200 ≤ r.status && r.status < 300

/-- A reply, or why there is none. -/
abbrev HttpOutcome := Except String HttpReply

/-- The one call of a program that talks to another. -/
inductive HttpCall : Type → Type where
  | send (request : HttpRequest) : HttpCall HttpOutcome

/-- Send a request. -/
def HttpRequest.send (r : HttpRequest) : Program HttpCall HttpOutcome := .ask (.send r)

end ServingPlane
