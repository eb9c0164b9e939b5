import ServingPlane.Json.Value

/-! # Documents

    What a reader sees of a text, up to the point where the text goes
    wrong.  A document keeps members in text order and repeated keys
    apart, and marks the place at which the text breaks off, so that a
    typed reading meets the faults of the text and those of the content
    in the order of the text. -/

namespace ServingPlane

open Numeric

/-- How a text goes wrong. -/
inductive Breakage where
  /-- Some character cannot stand where it stands. -/
  | malformed
  /-- The text ends too early. -/
  | truncated
  deriving DecidableEq, Repr

/-- Whether a text or its content is at fault. -/
inductive FaultClass where
  | malformed
  | truncated
  | content
  deriving DecidableEq, Repr

/-- The class of a text that goes wrong. -/
def Breakage.faultClass : Breakage → FaultClass
  | malformed => .malformed
  | truncated => .truncated

/-- A place where a text goes wrong.  What counts as the fault depends on
    how much a reader looks at before it gives up. -/
structure Damage where
  /-- For one who reads the token that stands there. -/
  read : Breakage
  /-- For one who passes over it. -/
  skimmed : Breakage
  /-- For one who wants a variant, or its name, and looks at nothing else. -/
  variant : FaultClass
  deriving DecidableEq, Repr

/-- Damage that is the same for every reader. -/
def Damage.plain (b : Breakage) : Damage := ⟨b, b, b.faultClass⟩

/-- A text as read, possibly broken off.  The last field of a sequence
    or map says how its end went wrong, if it did. -/
inductive Document where
  | null
  | bool (b : Bool)
  /-- Without a number where the digits exceed every format. -/
  | number (n : Option Number)
  /-- Without a string where the escapes leave half a character. -/
  | string (s : Option String)
  | array (items : List Document) (ending : Option Breakage)
  | object (members : List (Option String × Document)) (ending : Option Damage)
  /-- Nested too deeply to be read, though not to be passed over. -/
  | deep (document : Document)
  | broken (cause : Damage)
  deriving Repr, Inhabited

namespace Document

mutual

/-- A value as a document without faults. -/
def ofJson : Json → Document
  | .null => null
  | .bool b => bool b
  | .number n => number (some n)
  | .string s => string (some s)
  | .array items => array (ofItems items) none
  | .object members => object (ofMembers members) none

/-- `ofJson` on every item. -/
def ofItems : List Json → List Document
  | [] => []
  | v :: r => ofJson v :: ofItems r

/-- `ofJson` on every member. -/
def ofMembers : List (String × Json) → List (Option String × Document)
  | [] => []
  | (k, v) :: r => (some k, ofJson v) :: ofMembers r

end

/-- No fault, or the given one. -/
def settle : Option Breakage → Except Breakage Unit
  | none => .ok ()
  | some b => .error b

mutual

/-- Pass over a document that nobody reads: only its shape must hold. -/
def skim : Document → Except Breakage Unit
  | array items ending => do skimItems items; settle ending
  | object members ending => do skimMembers members; settle (ending.map (·.skimmed))
  | deep d => skim d
  | broken b => .error b.skimmed
  | _ => .ok ()

/-- `skim` on every item. -/
def skimItems : List Document → Except Breakage Unit
  | [] => .ok ()
  | d :: r => do skim d; skimItems r

/-- `skim` on every member. -/
def skimMembers : List (Option String × Document) → Except Breakage Unit
  | [] => .ok ()
  | (_, d) :: r => do skim d; skimMembers r

end

mutual

/-- The untyped value of a document: members in key order, of equal keys the last. -/
def toJson : Document → Except Breakage Json
  | null => .ok .null
  | bool b => .ok (.bool b)
  | number (some n) => .ok (.number n)
  | number none => .error .malformed
  | string (some s) => .ok (.string s)
  | string none => .error .malformed
  | array items ending => do
    let vs ← itemsToJson items
    settle ending
    return .array vs
  | object members ending => do
    let ms ← membersToJson members []
    settle (ending.map (·.read))
    return .object ms
  | deep _ => .error .malformed
  | broken b => .error b.read

/-- `toJson` on every item. -/
def itemsToJson : List Document → Except Breakage (List Json)
  | [] => .ok []
  | d :: r => do
    let v ← toJson d
    let vs ← itemsToJson r
    return v :: vs

/-- `toJson` on every member, placed into the members so far. -/
def membersToJson :
    List (Option String × Document) → List (String × Json) → Except Breakage (List (String × Json))
  | [], acc => .ok acc
  | (none, _) :: _, _ => .error .malformed
  | (some k, d) :: r, acc => do
    let v ← toJson d
    membersToJson r (Dict.place k v acc)

end

end Document

end ServingPlane
