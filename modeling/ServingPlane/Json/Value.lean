import ServingPlane.Dict
import ServingPlane.Numeric.Notation

/-! # Structured values

    The untyped value that documents describe and typed values are
    written as.  Members of an object keep the order in which they are
    listed; values read from a document have them in key order. -/

namespace ServingPlane

open Numeric

/-- A number: a whole one, or one in the eight-byte format. -/
inductive Number where
  | int (n : Int)
  | float (x : Double)
  deriving DecidableEq, Repr, Inhabited

/-- An untyped structured value. -/
inductive Json where
  | null
  | bool (b : Bool)
  | number (n : Number)
  | string (s : String)
  | array (items : List Json)
  | object (members : List (String × Json))
  deriving Repr, Inhabited

namespace Json

mutual

/-- Equality, members compared in order. -/
def beq : Json → Json → Bool
  | null, null => true
  | bool a, bool b => a == b
  | number a, number b => a == b
  | string a, string b => a == b
  | array a, array b => beqItems a b
  | object a, object b => beqMembers a b
  | _, _ => false

/-- Equality of item lists. -/
def beqItems : List Json → List Json → Bool
  | [], [] => true
  | a :: r, b :: s => beq a b && beqItems r s
  | _, _ => false

/-- Equality of member lists. -/
def beqMembers : List (String × Json) → List (String × Json) → Bool
  | [], [] => true
  | (k, a) :: r, (l, b) :: s => k == l && beq a b && beqMembers r s
  | _, _ => false

end

instance : BEq Json := ⟨beq⟩

/-- A whole number. -/
def ofInt (n : Int) : Json := number (.int n)

/-- A natural number. -/
def ofNat (n : Nat) : Json := number (.int n)

/-- A list of strings. -/
def strings (l : List String) : Json := array (l.map string)

/-- A string map, in key order. -/
def dictionary (d : Dict String String) : Json :=
  object (d.entries.map fun p => (p.1, string p.2))

/-- The member under a key; nothing for values other than objects. -/
def get? (key : String) : Json → Option Json
  | object members => members.lookup key
  | _ => none

/-- The string, if the value is one. -/
def string? : Json → Option String
  | string s => some s
  | _ => none

/-- The member list, empty for values other than objects. -/
def members : Json → List (String × Json)
  | object ms => ms
  | _ => []

/-- Put a member at its place in key order, replacing an equal key. -/
def withMember (v : Json) (key : String) (value : Json) : Json :=
  match v with
  | object ms => object (Dict.place key value ms)
  | other => other

/-- Follow a path of keys. -/
def at? : List String → Json → Option Json
  | [], v => some v
  | key :: path, v => (v.get? key).bind (at? path)

mutual

/-- The same value with all members in key order; of equal keys the last stays. -/
def canonical : Json → Json
  | array items => array (canonicalItems items)
  | object ms => object (canonicalMembers ms [])
  | other => other

/-- `canonical` on every item. -/
def canonicalItems : List Json → List Json
  | [] => []
  | v :: r => canonical v :: canonicalItems r

/-- `canonical` on every member, placed into the members so far. -/
def canonicalMembers : List (String × Json) → List (String × Json) → List (String × Json)
  | [], acc => acc
  | (k, v) :: r, acc => canonicalMembers r (Dict.place k (canonical v) acc)

end

end Json

end ServingPlane
