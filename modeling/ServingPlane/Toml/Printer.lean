import ServingPlane.Json.Value
import ServingPlane.Text.Quoted

/-! # Writing settings files

    The text of a settings file in sections: a header, then one line for
    each value, with a blank line between sections.  A string is written
    in the plainest of the four forms that can hold it; arrays of two or
    more values stand over several lines. -/

namespace ServingPlane.Toml

open Numeric

/-- What decides the form of a string. -/
structure StringTraits where
  /-- The longest run of single quotes. -/
  singleQuotes : Nat
  /-- The longest run of double quotes. -/
  doubleQuotes : Nat
  /-- A control character that only an escape can write. -/
  controls : Bool
  backslash : Bool
  break_ : Bool
  deriving DecidableEq, Repr

/-- Controls other than the tab and the line feed. -/
def isControl (c : Char) : Bool :=
  (c.toNat < 0x20 && c != '\t' && c != '\n') || c.toNat == 0x7f

/-- The longest run of a character. -/
def longestRun (c : Char) : List Char → Nat → Nat
  | [], current => current
  | d :: r, current =>
    if d = c then longestRun c r (current + 1) else max current (longestRun c r 0)

/-- The traits of a string. -/
def traits (cs : List Char) : StringTraits where
  singleQuotes := longestRun '\'' cs 0
  doubleQuotes := longestRun '"' cs 0
  controls := cs.any isControl
  backslash := cs.contains '\\'
  break_ := cs.contains '\n'

/-- The four forms of a string. -/
inductive StringForm where
  | basic
  | literal
  | basicLines
  | literalLines
  deriving DecidableEq, Repr

/-- The plainest form that can hold a string. -/
def StringTraits.form (t : StringTraits) : StringForm :=
  if !t.controls && !t.backslash && t.doubleQuotes = 0 && !t.break_ then .basic
  else if !t.controls && t.singleQuotes = 0 && !t.break_ then .literal
  else if !t.controls && !t.backslash && t.doubleQuotes ≤ 2 then .basicLines
  else if !t.controls && t.singleQuotes ≤ 2 then .literalLines
  else if t.break_ then .basicLines
  else .basic

/-- Four upper-case hexadecimal digits. -/
def hex4 (n : Nat) : List Char :=
  let ds := (Text.hexDigits n).map Char.toUpper
  List.replicate (4 - ds.length) '0' ++ ds

/-- A character in a basic string; over several lines only the third double
    quote in a row needs its backslash.  `run` counts the quotes before. -/
def escapedChars (lines : Bool) : List Char → Nat → List Char
  | [], _ => []
  | c :: r, run =>
    if c = '"' then
      if lines && run < 2 then '"' :: escapedChars lines r (run + 1)
      else '\\' :: '"' :: escapedChars lines r 0
    else if c = '\\' then '\\' :: '\\' :: escapedChars lines r 0
    else if c = '\x08' then '\\' :: 'b' :: escapedChars lines r 0
    else if c = '\t' then '\\' :: 't' :: escapedChars lines r 0
    else if c = '\n' then
      if lines then '\n' :: escapedChars lines r 0 else '\\' :: 'n' :: escapedChars lines r 0
    else if c = '\x0c' then '\\' :: 'f' :: escapedChars lines r 0
    else if c = '\r' then '\\' :: 'r' :: escapedChars lines r 0
    else if isControl c then '\\' :: 'u' :: (hex4 c.toNat ++ escapedChars lines r 0)
    else c :: escapedChars lines r 0

/-- The opening delimiter over several lines: a break follows if the text has one. -/
def opening (quote : Char) (t : StringTraits) : List Char :=
  List.replicate 3 quote ++ if t.break_ then ['\n'] else []

/-- A string in its form. -/
def stringText (s : String) : String :=
  let cs := s.toList
  let t := traits cs
  String.ofList (match t.form with
    | .basic => '"' :: (escapedChars false cs 0 ++ ['"'])
    | .literal => '\'' :: (cs ++ ['\''])
    | .basicLines => opening '"' t ++ escapedChars true cs 0 ++ List.replicate 3 '"'
    | .literalLines => opening '\'' t ++ cs ++ List.replicate 3 '\'')

/-- A value that fits on one line.  Whole numbers have to fit in eight
    signed bytes; settings hold no fractions and no nested tables. -/
def scalarText? : Json → Option String
  | .string s => some (stringText s)
  | .bool true => some "true"
  | .bool false => some "false"
  | .number (.int n) => if fitsInt64 n then some (intText n) else none
  | _ => none

/-- The texts of all items. -/
def itemTexts? : List Json → Option (List String)
  | [] => some []
  | v :: r => do
    let t ← scalarText? v
    let ts ← itemTexts? r
    return t :: ts

/-- A value: an array of two or more items has one item a line. -/
def valueText? : Json → Option String
  | .array items => do
    let texts ← itemTexts? items
    match texts with
    | [] => return "[]"
    | [t] => return "[" ++ t ++ "]"
    | ts => return "[\n" ++ String.join (ts.map fun t => "    " ++ t ++ ",\n") ++ "]"
  | v => scalarText? v

/-- The lines of a section; absent values are left out. -/
def entryLines? : List (String × Json) → Option String
  | [] => some ""
  | (_, .null) :: r => entryLines? r
  | (k, v) :: r => do
    let t ← valueText? v
    let rest ← entryLines? r
    return k ++ " = " ++ t ++ "\n" ++ rest

/-- One section. -/
def sectionText? (name : String) : Json → Option String
  | .object entries => do return "[" ++ name ++ "]\n" ++ (← entryLines? entries)
  | _ => none

/-- The texts of all sections. -/
def sectionTexts? : List (String × Json) → Option (List String)
  | [] => some []
  | (name, v) :: r => do
    let t ← sectionText? name v
    let ts ← sectionTexts? r
    return t :: ts

/-- A document of sections; there is no text if a value has none. -/
def print? : Json → Option String
  | .object sections => do return "\n".intercalate (← sectionTexts? sections)
  | _ => none

end ServingPlane.Toml
