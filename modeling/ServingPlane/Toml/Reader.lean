import ServingPlane.Json.Reader
import ServingPlane.Toml.Tree

/-! # Reading settings files

    The grammar of TOML 1.0.  A reader takes a text and gives a value with
    the text after it, or nothing where the grammar is broken.  Fewer than
    80 brackets may be open at once and a key has fewer than 80 parts. -/

namespace ServingPlane.Toml

open Numeric

/-- Blanks inside a line. -/
def isSpace (c : Char) : Bool := c == ' ' || c == '\t'

/-- Drop blanks inside a line. -/
def skipSpace (cs : List Char) : List Char := cs.dropWhile isSpace

/-- Characters that may stand for themselves: no controls but the tab. -/
def isPlain (c : Char) : Bool := c == '\t' || (0x20 ≤ c.toNat && c.toNat != 0x7f)

/-- A given character. -/
def readChar (c : Char) : List Char → Option (List Char)
  | d :: r => if d = c then some r else none
  | [] => none

/-- A given word. -/
def readWord : List Char → List Char → Option (List Char)
  | [], r => some r
  | w :: ws, c :: r => if c = w then readWord ws r else none
  | _ :: _, [] => none

/-- A line break. -/
def readBreak : List Char → Option (List Char)
  | '\n' :: r => some r
  | '\r' :: '\n' :: r => some r
  | _ => none

/-- Drop a comment up to the end of its line. -/
def skipComment : List Char → List Char
  | '#' :: r => r.dropWhile isPlain
  | r => r

/-- The end of a line after blanks and a comment; the text may end there too. -/
def readLineEnd (cs : List Char) : Option (List Char) :=
  match skipComment (skipSpace cs) with
  | [] => some []
  | r => readBreak r

/-- Drop blanks, line breaks and whole comments. -/
def skipTrivia : Nat → List Char → List Char
  | 0, cs => cs
  | fuel + 1, cs =>
    match skipSpace cs with
    | '#' :: r =>
      match readBreak (r.dropWhile isPlain) with
      | some r => skipTrivia fuel r
      | none => '#' :: r
    | r =>
      match readBreak r with
      | some r => skipTrivia fuel r
      | none => r

/-- Hexadecimal digits of a fixed count. -/
def readHex : Nat → Nat → List Char → Option (Nat × List Char)
  | 0, n, r => some (n, r)
  | _ + 1, _, [] => none
  | k + 1, n, c :: r =>
    match Document.hexValue? c with
    | some d => readHex k (n * 16 + d) r
    | none => none

/-- The character with a code, if it is one. -/
def charOfCode? (n : Nat) : Option Char :=
  if n < 0xd800 ∨ (0xdfff < n ∧ n < 0x110000) then some (Char.ofNat n) else none

/-- What follows a backslash. -/
def readEscape : List Char → Option (Char × List Char)
  | 'b' :: r => some ('\x08', r)
  | 't' :: r => some ('\t', r)
  | 'n' :: r => some ('\n', r)
  | 'f' :: r => some ('\x0c', r)
  | 'r' :: r => some ('\r', r)
  | '"' :: r => some ('"', r)
  | '\\' :: r => some ('\\', r)
  | 'u' :: r => do
    let (n, r) ← readHex 4 0 r
    return (← charOfCode? n, r)
  | 'U' :: r => do
    let (n, r) ← readHex 8 0 r
    return (← charOfCode? n, r)
  | _ => none

/-- The rest of a basic string on one line. -/
def readBasic : Nat → List Char → List Char → Option (String × List Char)
  | 0, _, _ => none
  | _ + 1, [], _ => none
  | fuel + 1, c :: r, acc =>
    if c = '"' then some (String.ofList acc.reverse, r)
    else if c = '\\' then do
      let (d, r) ← readEscape r
      readBasic fuel r (d :: acc)
    else if isPlain c then readBasic fuel r (c :: acc)
    else none

/-- The rest of a literal string on one line. -/
def readLiteral (cs : List Char) : Option (String × List Char) :=
  let body := cs.takeWhile fun c => isPlain c && c != '\''
  (readChar '\'' (cs.drop body.length)).map fun r => (String.ofList body, r)

/-- A quote run inside a string over several lines: how many of the quotes
    belong to the text, and whether the string ends. -/
def quoteRun (n : Nat) : Nat × Bool := if n < 3 then (n, false) else (min (n - 3) 2, true)

/-- A backslash at the end of a line drops the break and all blanks and breaks after it. -/
def skipEscapedBreak (cs : List Char) : Option (List Char) := do
  let r ← readBreak (skipSpace cs)
  let rec skip : Nat → List Char → List Char
    | 0, cs => cs
    | fuel + 1, cs =>
      match readBreak (skipSpace cs) with
      | some r => skip fuel r
      | none => skipSpace cs
  return skip r.length r

/-- The rest of a string over several lines. -/
def readMultiline (quote : Char) (escapes : Bool) : Nat → List Char → List Char → Option (String × List Char)
  | 0, _, _ => none
  | _ + 1, [], _ => none
  | fuel + 1, c :: r, acc =>
    if c = quote then
      let run := 1 + (r.takeWhile (· == quote)).length
      let (kept, ends) := quoteRun run
      let acc := List.replicate kept quote ++ acc
      if ends then some (String.ofList acc.reverse, (c :: r).drop (kept + 3))
      else readMultiline quote escapes fuel ((c :: r).drop kept) acc
    else if escapes && c == '\\' then
      match skipEscapedBreak r with
      | some r => readMultiline quote escapes fuel r acc
      | none => do
        let (d, r) ← readEscape r
        readMultiline quote escapes fuel r (d :: acc)
    else match readBreak (c :: r) with
      | some r => readMultiline quote escapes fuel r ('\n' :: acc)
      | none => if isPlain c then readMultiline quote escapes fuel r (c :: acc) else none

/-- Drop the line break right after an opening delimiter. -/
def skipFirstBreak (cs : List Char) : List Char := (readBreak cs).getD cs

/-- A string of any of the four forms. -/
def readString (cs : List Char) : Option (String × List Char) :=
  match cs with
  | '"' :: '"' :: '"' :: r =>
    let body := skipFirstBreak r
    readMultiline '"' true (body.length + 1) body []
  | '\'' :: '\'' :: '\'' :: r =>
    let body := skipFirstBreak r
    readMultiline '\'' false (body.length + 1) body []
  | '"' :: r => readBasic (r.length + 1) r []
  | '\'' :: r => readLiteral r
  | _ => none

/-- Characters of a key that needs no quotes. -/
def isBare (c : Char) : Bool := c.isAlphanum || c == '_' || c == '-'

/-- One part of a key. -/
def readKeyPart (cs : List Char) : Option (String × List Char) :=
  match cs with
  | '"' :: r => readBasic (r.length + 1) r []
  | '\'' :: r => readLiteral r
  | _ =>
    let body := cs.takeWhile isBare
    if body.isEmpty then none else some (String.ofList body, cs.drop body.length)

/-- A key: parts with points between them, blanks around each. -/
def readKeyParts : Nat → List Char → Option (List String × List Char)
  | 0, _ => none
  | fuel + 1, cs => do
    let (part, r) ← readKeyPart (skipSpace cs)
    match skipSpace r with
    | '.' :: r =>
      let (parts, r) ← readKeyParts fuel r
      return (part :: parts, r)
    | r => return ([part], r)

/-- Bound on the parts of a key and on open brackets. -/
def depthBound : Nat := 80

/-- A key, as the path to its table and its last part. -/
def readKey (cs : List Char) : Option ((List String × String) × List Char) := do
  let (parts, r) ← readKeyParts (cs.length + 1) cs
  if depthBound ≤ parts.length then none
  else match parts.reverse with
    | last :: path => some ((path.reverse, last), r)
    | [] => none

/-- Digits of a kind, single underscores between them allowed. -/
def readDigits (ok : Char → Bool) : List Char → Option (List Char × List Char)
  | [] => none
  | c :: r => if ok c then some (more c r) else none
where
  /-- The digits after a first one. -/
  more (c : Char) : List Char → List Char × List Char
    | '_' :: d :: r =>
      if ok d then
        let (ds, rest) := more d r
        (c :: ds, rest)
      else ([c], '_' :: d :: r)
    | d :: r =>
      if ok d then
        let (ds, rest) := more d r
        (c :: ds, rest)
      else ([c], d :: r)
    | [] => ([c], [])

/-- An optional sign; true for minus. -/
def readSign : List Char → Bool × List Char
  | '-' :: r => (true, r)
  | '+' :: r => (false, r)
  | r => (false, r)

/-- Digits of a decimal whole number: a zero stands alone. -/
def readWhole : List Char → Option (List Char × List Char)
  | '0' :: r => some (['0'], r)
  | r => readDigits Char.isDigit r

/-- A fraction, empty if there is none. -/
def readFraction : List Char → Option (List Char × List Char)
  | '.' :: r => readDigits Char.isDigit r
  | r => some ([], r)

/-- An exponent, if there is one. -/
def readExponent (cs : List Char) : Option (Option Int × List Char) :=
  match cs with
  | c :: r =>
    if c = 'e' ∨ c = 'E' then do
      let (negative, r) := readSign r
      let (ds, r) ← readDigits Char.isDigit r
      let n : Int := valueOfDigits ds
      return (some (if negative then -n else n), r)
    else some (none, cs)
  | [] => some (none, [])

/-- Value of digits in a base. -/
def valueInBase (base : Nat) (ds : List Char) : Nat :=
  ds.foldl (fun n c => n * base + (Document.hexValue? c).getD 0) 0

/-- A whole number in a base marked by two characters. -/
def readBased (base : Nat) (cs : List Char) : Option (Value × List Char) := do
  let digit (c : Char) : Bool := match Document.hexValue? c with
    | some n => n < base
    | none => false
  let (ds, r) ← readDigits digit cs
  let n := valueInBase base ds
  if fitsInt64 n then some (.integer n, r) else none

/-- A decimal number. -/
def readDecimal (cs : List Char) : Option (Value × List Char) := do
  let (negative, r) := readSign cs
  match r with
  | 'i' :: 'n' :: 'f' :: r => some (.float (if negative then .negInfinity else .infinity), r)
  | 'n' :: 'a' :: 'n' :: r => some (.float .nan, r)
  | _ =>
    let (whole, r) ← readWhole r
    let (fraction, r) ← readFraction r
    let (exponent, r) ← readExponent r
    if fraction.isEmpty && exponent.isNone then
      let n : Int := if negative then -(valueOfDigits whole : Int) else valueOfDigits whole
      if fitsInt64 n then some (.integer n, r) else none
    else
      let x := nearestDouble negative (valueOfDigits (whole ++ fraction))
        (exponent.getD 0 - fraction.length)
      if x = .infinity then none else some (.float x, r)

/-- Digits of a fixed count, with a value in a range. -/
def readField (count low high : Nat) (cs : List Char) : Option (Nat × List Char) :=
  let ds := cs.take count
  let n := valueOfDigits ds
  if ds.length = count ∧ ds.all Char.isDigit ∧ low ≤ n ∧ n ≤ high then some (n, cs.drop count)
  else none

/-- Days of a month. -/
def daysOfMonth (year month : Nat) : Nat :=
  if month = 2 then
    if year % 4 = 0 ∧ (year % 100 ≠ 0 ∨ year % 400 = 0) then 29 else 28
  else if month = 4 ∨ month = 6 ∨ month = 9 ∨ month = 11 then 30 else 31

/-- A date. -/
def readDate (cs : List Char) : Option (List Char) := do
  let (year, r) ← readField 4 0 9999 cs
  let (month, r) ← readField 2 1 12 (← readChar '-' r)
  let (_, r) ← readField 2 1 (daysOfMonth year month) (← readChar '-' r)
  return r

/-- A time of day. -/
def readTime (cs : List Char) : Option (List Char) := do
  let (_, r) ← readField 2 0 23 cs
  let (_, r) ← readField 2 0 59 (← readChar ':' r)
  let (_, r) ← readField 2 0 60 (← readChar ':' r)
  match r with
  | '.' :: r =>
    let ds := r.takeWhile Char.isDigit
    if ds.isEmpty then none else some (r.drop ds.length)
  | r => some r

/-- A distance from universal time, if one is given. -/
def readOffset (cs : List Char) : Option (List Char) :=
  match cs with
  | c :: r =>
    if c = 'Z' ∨ c = 'z' then some r
    else if c = '+' ∨ c = '-' then do
      let (_, r) ← readField 2 0 23 r
      let (_, r) ← readField 2 0 59 (← readChar ':' r)
      return r
    else some cs
  | [] => some []

/-- Whether a date starts here. -/
def startsDate (cs : List Char) : Bool := (cs.take 4).all Char.isDigit && cs[4]? == some '-'

/-- Whether a time of day starts here. -/
def startsTime (cs : List Char) : Bool := (cs.take 2).all Char.isDigit && cs[2]? == some ':'

/-- A date, a time, or both with an optional offset. -/
def readDatetime (cs : List Char) : Option (Value × List Char) := do
  let rest ←
    if startsDate cs then
      match readDate cs with
      | none => none
      | some r =>
        match r with
        | c :: t =>
          if (c = 'T' ∨ c = 't' ∨ c = ' ') ∧ startsTime t then (readTime t).bind readOffset
          else some r
        | [] => some []
    else readTime cs
  return (.datetime (String.ofList (cs.take (cs.length - rest.length))), rest)

/-- A number, a date or a time. -/
def readNumeric (cs : List Char) : Option (Value × List Char) :=
  if startsDate cs || startsTime cs then readDatetime cs
  else match cs with
    | '0' :: 'x' :: r => readBased 16 r
    | '0' :: 'o' :: r => readBased 8 r
    | '0' :: 'b' :: r => readBased 2 r
    | _ => readDecimal cs

/-- The table of the entries between braces. -/
def tableOfPairs : List ((List String × String) × Value) → Option (List (String × Node))
  | pairs => do
    let (_, entries) ← pairs.foldlM (fun (o, es) ((path, key), v) => Node.insert path key v o es)
      (Origin.header, [])
    return entries

mutual

/-- A value; `depth` more brackets may be opened. -/
def readValue : Nat → Nat → List Char → Option (Value × List Char)
  | 0, _, _ => none
  | fuel + 1, depth, cs =>
    match cs with
    | '[' :: r =>
      match depth with
      | 0 => none
      | depth + 1 => (readItems fuel depth r).map fun (vs, r) => (.array vs, r)
    | '\x7b' :: r =>
      match depth with
      | 0 => none
      | depth + 1 =>
        match skipSpace r with
        | '\x7d' :: r => some (.table [], r)
        | r => do
          let (pairs, r) ← readPairs fuel depth r
          let entries ← tableOfPairs pairs
          return (.table (Node.entryValues entries), r)
    | 't' :: r => (readWord ['r', 'u', 'e'] r).map fun r => (.bool true, r)
    | 'f' :: r => (readWord ['a', 'l', 's', 'e'] r).map fun r => (.bool false, r)
    | '"' :: _ => (readString cs).map fun (s, r) => (.string s, r)
    | '\'' :: _ => (readString cs).map fun (s, r) => (.string s, r)
    | _ => readNumeric cs

/-- The items of an array and its closing bracket; a comma may stand after the last. -/
def readItems : Nat → Nat → List Char → Option (List Value × List Char)
  | 0, _, _ => none
  | fuel + 1, depth, cs =>
    match skipTrivia cs.length cs with
    | ']' :: r => some ([], r)
    | cs => do
      let (v, r) ← readValue fuel depth cs
      match skipTrivia r.length r with
      | ']' :: r => return ([v], r)
      | ',' :: r =>
        let (vs, r) ← readItems fuel depth r
        return (v :: vs, r)
      | _ => none

/-- The entries of a table on one line and its closing brace. -/
def readPairs : Nat → Nat → List Char → Option ((List ((List String × String) × Value)) × List Char)
  | 0, _, _ => none
  | fuel + 1, depth, cs => do
    let (key, r) ← readKey cs
    let r ← readChar '=' r
    let (v, r) ← readValue fuel depth (skipSpace r)
    match skipSpace r with
    | '\x7d' :: r => return ([(key, v)], r)
    | ',' :: r =>
      let (pairs, r) ← readPairs fuel depth r
      return ((key, v) :: pairs, r)
    | _ => none

end

/-- A file while it is read: its tree and the path of the open table. -/
structure File where
  entries : List (String × Node)
  current : List String

namespace File

/-- Change the tree. -/
def update (f : File) (g : Origin → List (String × Node) → Option (Origin × List (String × Node)))
    (path : List String) : Option File := do
  let (_, entries) ← Node.change .implied g path .header f.entries
  return { f with entries }

/-- Go on in the table of a header. -/
def openHeader (f : File) (isElement : Bool) (path : List String) (key : String) : Option File := do
  let f ← f.update (if isElement then Node.openElement key else Node.openTable key) path
  return { f with current := path ++ [key] }

/-- Put a value into the open table. -/
def put (f : File) (path : List String) (key : String) (v : Value) : Option File :=
  f.update (Node.insert path key v) f.current

end File

/-- A header up to its closing brackets. -/
def readHeader (cs : List Char) : Option ((Bool × List String × String) × List Char) := do
  match cs with
  | '[' :: r =>
    let ((path, key), r) ← readKey r
    let r ← readWord [']', ']'] r
    return ((true, path, key), r)
  | _ =>
    let ((path, key), r) ← readKey cs
    let r ← readChar ']' r
    return ((false, path, key), r)

/-- One line. -/
def readLine (f : File) (cs : List Char) : Option (File × List Char) :=
  match skipSpace cs with
  | '[' :: r => do
    let ((isElement, path, key), r) ← readHeader r
    let r ← readLineEnd r
    let f ← f.openHeader isElement path key
    return (f, r)
  | r =>
    match readLineEnd r with
    | some r => some (f, r)
    | none => do
      let ((path, key), r) ← readKey r
      let r ← readChar '=' r
      let (v, r) ← readValue (r.length + 1) (depthBound - 1) (skipSpace r)
      let r ← readLineEnd r
      let f ← f.put path key v
      return (f, r)

/-- All lines. -/
def readLines : Nat → File → List Char → Option File
  | _, f, [] => some f
  | 0, _, _ :: _ => none
  | fuel + 1, f, cs => do
    let (f, r) ← readLine f cs
    readLines fuel f r

/-- The root table of a text; a byte order mark may stand in front. -/
def parse (text : String) : Option Value := do
  let cs := match text.toList with
    | '\ufeff' :: r => r
    | r => r
  let f ← readLines (cs.length + 1) ⟨[], []⟩ cs
  return .table (Node.entryValues f.entries)

end ServingPlane.Toml
