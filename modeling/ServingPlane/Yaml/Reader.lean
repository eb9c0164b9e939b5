import ServingPlane.Json.Reader

/-! # Indented documents

    The part of YAML that connection files are written in: maps and
    sequences by indentation, scalars on one line, comments, and JSON
    wherever a value may stand.  Everything else of the format, such as
    anchors, tags, folded texts and several documents, is refused. -/

namespace ServingPlane.Yaml

open Numeric

/-- A line that holds something: its depth, and what follows. -/
structure Line where
  indent : Nat
  content : List Char
  deriving Repr

/-- A line without its comment.  Quotes hide a number sign, and so does
    any character before it that is no blank. -/
def stripComment (quote : Option Char) (afterBlank : Bool) : List Char → List Char
  | [] => []
  | c :: r =>
    match quote with
    | some q => c :: stripComment (if c = q then none else quote) false r
    | none =>
      if c = '#' ∧ afterBlank then []
      else
        let opens := afterBlank && (c == '"' || c == '\x27')
        c :: stripComment (if opens then some c else none) (c == ' ' || c == '\t' || c == '[') r

/-- The lines of a text that hold something. -/
def linesOf (text : String) : List Line :=
  (text.splitOn "\n").filterMap fun l =>
    let cs := (stripComment none true l.toList).reverse.dropWhile fun c =>
      c == ' ' || c == '\t' || c == '\r'
    let (blanks, content) := cs.reverse.span (· == ' ')
    if content.isEmpty then none else some ⟨blanks.length, content⟩

/-- The value of a word: nothing, a truth value, a number or itself. -/
def wordValue (cs : List Char) : Json :=
  let s := String.ofList cs
  if ["~", "null", "Null", "NULL"].contains s then .null
  else if ["true", "True", "TRUE"].contains s then .bool true
  else if ["false", "False", "FALSE"].contains s then .bool false
  else match s.toInt?, readDouble? s with
    | some n, _ => .ofInt n
    | none, some x => if (cs.any Char.isDigit) then .number (.float x) else .string s
    | none, none => .string s

/-- A text in single quotes, up to the closing one; two of them stand for one. -/
def readSingleQuoted : List Char → Option (List Char × List Char)
  | [] => none
  | '\x27' :: '\x27' :: r => (readSingleQuoted r).map fun (s, rest) => ('\x27' :: s, rest)
  | '\x27' :: r => some ([], r)
  | c :: r => (readSingleQuoted r).map fun (s, rest) => (c :: s, rest)

/-- A text in quotes of either kind, and what follows it. -/
def readQuoted : List Char → Option (String × List Char)
  | '"' :: r =>
    match Document.readString r with
    | .ok (some s, rest) => some (s, rest)
    | _ => none
  | '\x27' :: r => (readSingleQuoted r).map fun (s, rest) => (String.ofList s, rest)
  | _ => none

/-- Signs that no plain word starts with. -/
def reserved : List Char := "[]\x7b\x7d,#&*!|>%@\x60".toList

/-- A colon that ends a key: a blank or the end of the line follows. -/
def endsKey : List Char → Bool
  | ':' :: ' ' :: _ | [':'] => true
  | _ => false

/-- Split a plain key from its value. -/
def splitPlain : List Char → Option (List Char × List Char)
  | [] => none
  | c :: r =>
    if endsKey (c :: r) then some ([], r.dropWhile (· == ' '))
    else (splitPlain r).map fun (key, value) => (c :: key, value)

/-- The key of a line and its value, if the line has a key. -/
def splitKey (cs : List Char) : Option (String × List Char) :=
  match readQuoted cs with
  | some (key, rest) => if endsKey rest then some (key, (rest.drop 1).dropWhile (· == ' ')) else none
  | none => (splitPlain cs).map fun (key, value) => (String.ofList key, value)

/-- The value that a line ends with. -/
def inlineValue (cs : List Char) : Option Json :=
  match cs.head? with
  | none => some .null
  | some c =>
    if c = '"' ∨ c = '\x27' then
      match readQuoted cs with
      | some (s, []) => some (.string s)
      | _ => none
    else if c = '[' ∨ c = '\x7b' then (Json.parse (String.ofList cs)).toOption
    else if reserved.contains c ∨ (splitKey cs).isSome then none
    else some (wordValue cs)

/-- What follows the dash of an item, and how far in it stands. -/
def itemContent? : List Char → Option (Nat × List Char)
  | ['-'] => some (1, [])
  | '-' :: ' ' :: r =>
    let content := r.dropWhile (· == ' ')
    some (2 + (r.length - content.length), content)
  | _ => none

mutual

/-- The value that starts at the first line, and the lines after it. -/
def readNode : Nat → List Line → Option (Json × List Line)
  | 0, _ | _, [] => none
  | fuel + 1, l :: rest =>
    if (itemContent? l.content).isSome then readItems fuel l.indent (l :: rest) []
    else if (splitKey l.content).isSome then readMembers fuel l.indent (l :: rest) []
    else (inlineValue l.content).map (·, rest)

/-- What stands below a line of the given depth; `dashes` says whether
    items may start at that depth itself. -/
def readBelow : Nat → Nat → Bool → List Line → Option (Json × List Line)
  | 0, _, _, _ => none
  | _, _, _, [] => some (.null, [])
  | fuel + 1, indent, dashes, l :: rest =>
    if indent < l.indent ∨ (dashes ∧ l.indent = indent ∧ (itemContent? l.content).isSome) then
      readNode fuel (l :: rest)
    else some (.null, l :: rest)

/-- Items of one depth. -/
def readItems : Nat → Nat → List Line → List Json → Option (Json × List Line)
  | 0, _, _, _ => none
  | _, _, [], acc => some (.array acc.reverse, [])
  | fuel + 1, indent, l :: rest, acc =>
    if l.indent ≠ indent then
      if l.indent < indent then some (.array acc.reverse, l :: rest) else none
    else match itemContent? l.content with
      | none => some (.array acc.reverse, l :: rest)
      | some (shift, content) => do
        let (v, rest) ← if content.isEmpty then readBelow fuel indent false rest
          else readNode fuel (⟨indent + shift, content⟩ :: rest)
        readItems fuel indent rest (v :: acc)

/-- Members of one depth; no key occurs twice. -/
def readMembers : Nat → Nat → List Line → List (String × Json) → Option (Json × List Line)
  | 0, _, _, _ => none
  | _, _, [], acc => some (.object acc.reverse, [])
  | fuel + 1, indent, l :: rest, acc =>
    if l.indent ≠ indent then
      if l.indent < indent then some (.object acc.reverse, l :: rest) else none
    else do
      let (key, value) ← splitKey l.content
      if (acc.lookup key).isSome then none
      else
        let (v, rest) ← if value.isEmpty then readBelow fuel indent true rest
          else (inlineValue value).map (·, rest)
        readMembers fuel indent rest ((key, v) :: acc)

end

/-- A whole text.  Every step takes a line apart or moves on to the next,
    so that a few steps for each character are enough. -/
def parse? (text : String) : Option Json :=
  match Json.parse text with
  | .ok v => some v
  | .error _ =>
    let lines := linesOf text
    let lines := match lines with
      | ⟨0, ['-', '-', '-']⟩ :: rest => rest
      | _ => lines
    if lines.isEmpty then some .null
    else match readNode (4 * text.length + 4) lines with
      | some (v, []) => some v
      | _ => none

end ServingPlane.Yaml
