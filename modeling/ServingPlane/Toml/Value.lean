import ServingPlane.Json.Document

/-! # TOML values

    What a settings file holds.  A date or time is seen by readers as a
    table of one reserved key, so it never passes for any other value. -/

namespace ServingPlane.Toml

open Numeric

/-- A value of a settings file; tables keep the order of the file. -/
inductive Value where
  | string (s : String)
  | integer (n : Int)
  | float (x : Double)
  | bool (b : Bool)
  | datetime (text : String)
  | array (items : List Value)
  | table (entries : List (String × Value))
  deriving Repr, Inhabited

namespace Value

/-- The key under which readers see a date or time. -/
def datetimeKey : String := "$__toml_private_datetime"

mutual

/-- The value as a document. -/
def document : Value → Document
  | string s => .string (some s)
  | integer n => .number (some (.int n))
  | float x => .number (some (.float x))
  | bool b => .bool b
  | datetime text => .object [(some datetimeKey, .string (some text))] none
  | array items => .array (itemDocuments items) none
  | table entries => .object (entryDocuments entries) none

/-- `document` on every item. -/
def itemDocuments : List Value → List Document
  | [] => []
  | v :: r => document v :: itemDocuments r

/-- `document` on every entry. -/
def entryDocuments : List (String × Value) → List (Option String × Document)
  | [] => []
  | (k, v) :: r => (some k, document v) :: entryDocuments r

end

end Value

end ServingPlane.Toml
