import ServingPlane.Json.Document
import ServingPlane.Text.Quoted
import ServingPlane.Time.Timestamp

/-! # Why a document does not describe a value

    Every typed reading fails with one of these causes.  A cause has a
    message, and, where the document came from a text, a class that says
    whether the text or its content is at fault. -/

namespace ServingPlane

open Numeric

/-- What stands in the document where something else was expected. -/
inductive Found where
  | null
  | bool (b : Bool)
  | number (n : Number)
  | string (s : String)
  | sequence
  | map
  deriving DecidableEq, Repr

/-- How a message names what was found. -/
def Found.text : Found → String
  | null => "null"
  | bool b => s!"boolean `{b}`"
  | number (.int n) => s!"integer `{intText n}`"
  | number (.float x) => "floating point `" ++ (x.compactText?).getD "null" ++ "`"
  | string s => "string " ++ Text.quoted s
  | sequence => "sequence"
  | map => "map"

/-- A cause of failure. -/
inductive Fault where
  /-- The text itself is wrong. -/
  | broken (cause : Breakage)
  | wrongType (found : Found) (expected : String)
  | wrongValue (found : Found) (expected : String)
  | missingField (name : String)
  | duplicateField (name : String)
  | unknownVariant (name : String) (known : List String)
  /-- A sequence is too short. -/
  | wrongLength (length : Nat) (expected : String)
  /-- A sequence of this length is too long. -/
  | leftover (length : Nat)
  /-- Neither a string nor a map stands where a variant is expected. -/
  | notVariant (found : Found)
  /-- A variant is a map whose first member has no name.  A text reader
      meets a fault of the given class. -/
  | noVariantKey (met : FaultClass)
  /-- A variant is a map of several members.  A text reader meets a fault
      of the first one, of the given class, before it meets the second. -/
  | manyVariantKeys (met : FaultClass)
  | unsupportedEngine (kind : String)
  | invalidEngineSettings (kind : String) (reason : Fault)
  | invalidAddress
  | invalidTime (cause : TimeFault)
  deriving DecidableEq, Repr

/-- The names of the known variants, as a message lists them. -/
def variantList : List String → String
  | [] => "there are no variants"
  | [a] => "expected `" ++ a ++ "`"
  | [a, b] => "expected `" ++ a ++ "` or `" ++ b ++ "`"
  | names => "expected one of " ++ ", ".intercalate (names.map fun n => "`" ++ n ++ "`")

namespace Fault

/-- The message of a cause. -/
def message : Fault → String
  | broken .malformed => "malformed text"
  | broken .truncated => "text ends early"
  | wrongType found expected => s!"invalid type: {found.text}, expected {expected}"
  | wrongValue found expected => s!"invalid value: {found.text}, expected {expected}"
  | missingField name => "missing field `" ++ name ++ "`"
  | duplicateField name => "duplicate field `" ++ name ++ "`"
  | unknownVariant name known => "unknown variant `" ++ name ++ "`, " ++ variantList known
  | wrongLength length expected => s!"invalid length {natText length}, expected {expected}"
  | leftover length => s!"invalid length {natText length}, expected fewer elements in array"
  | notVariant found => s!"invalid type: {found.text}, expected string or map"
  | noVariantKey _ | manyVariantKeys _ => "invalid value: map, expected map with a single key"
  | unsupportedEngine kind => s!"unsupported backend: {kind}"
  | invalidEngineSettings kind reason => s!"invalid backend config for {kind}: {reason.message}"
  | invalidAddress => "invalid socket address syntax"
  | invalidTime cause => cause.message

/-- The class of a cause.  A text reader meets the surplus of a sequence,
    and anything but a variant where a variant must stand, as a character
    in the wrong place. -/
def kind : Fault → FaultClass
  | broken cause => cause.faultClass
  | leftover _ => .malformed
  | notVariant _ => .malformed
  | noVariantKey met => met
  | manyVariantKeys met => met
  | _ => .content

end Fault

/-- The cause of a failure where a document of another type was expected. -/
def Document.mismatch (expected : String) : Document → Fault
  | .null => .wrongType .null expected
  | .bool b => .wrongType (.bool b) expected
  | .number (some n) => .wrongType (.number n) expected
  | .number none => .broken .malformed
  | .string (some s) => .wrongType (.string s) expected
  | .string none => .broken .malformed
  | .array .. => .wrongType .sequence expected
  | .object .. => .wrongType .map expected
  | .deep _ => .broken .malformed
  | .broken b => .broken b.read

/-- The cause of a failure where a variant was expected. -/
def Document.notVariant (d : Document) : Fault :=
  match d with
  | .broken b => if b.variant = .truncated then .broken .truncated else .broken .malformed
  | d => match d.mismatch "" with
    | .wrongType found _ => .notVariant found
    | other => other

/-- Turn the fault of a text into a cause. -/
def liftBreakage {α : Type} : Except Breakage α → Except Fault α
  | .ok a => .ok a
  | .error b => .error (.broken b)

end ServingPlane
