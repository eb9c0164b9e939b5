import ServingPlane.Json.Document
import ServingPlane.Numeric.Scaled

/-! # Reading texts

    The grammar of documents.  Reading never fails: a fault becomes a
    mark in the document at the place where it stands.  A value inside
    more than 127 open brackets is marked as too deep. -/

namespace ServingPlane.Document

open Numeric

/-- The blanks between tokens. -/
def isSpace (c : Char) : Bool := c == ' ' || c == '\n' || c == '\t' || c == '\r'

/-- Drop blanks before a token. -/
def skipSpace (cs : List Char) : List Char := cs.dropWhile isSpace

/-- A document read so far, and the text after it unless the text broke inside. -/
structure Step where
  document : Document
  rest : Option (List Char)

/-- The text is wrong from here on. -/
def Step.stop (damage : Damage) : Step := ⟨.broken damage, none⟩

/-- What follows an opening bracket, with `depth` more allowed at its place. -/
def Step.within (depth : Nat) (s : Step) : Step :=
  match depth with
  | 0 => ⟨.deep s.document, s.rest⟩
  | _ + 1 => s

/-- Value of a hexadecimal digit. -/
def hexValue? (c : Char) : Option Nat :=
  if '0' ≤ c ∧ c ≤ '9' then some (c.toNat - '0'.toNat)
  else if 'a' ≤ c ∧ c ≤ 'f' then some (c.toNat - 'a'.toNat + 10)
  else if 'A' ≤ c ∧ c ≤ 'F' then some (c.toNat - 'A'.toNat + 10)
  else none

/-- Four hexadecimal digits. -/
def readHex4 (cs : List Char) : Except Breakage (Nat × List Char) :=
  if (String.ofList (cs.take 4)).utf8ByteSize < 4 then .error .truncated
  else match cs with
    | a :: b :: c :: d :: r =>
      match hexValue? a, hexValue? b, hexValue? c, hexValue? d with
      | some a, some b, some c, some d => .ok (((a * 16 + b) * 16 + c) * 16 + d, r)
      | _, _, _, _ => .error .malformed
    | _ => .error .malformed

/-- One element of a string: a character, or half of one given by its escape. -/
inductive Piece where
  | char (c : Char)
  | half (unit : Nat)
  deriving DecidableEq, Repr

/-- What an escaped sixteen-bit unit stands for. -/
def Piece.ofUnit (n : Nat) : Piece :=
  if 0xd800 ≤ n ∧ n < 0xe000 then .half n else .char (Char.ofNat n)

/-- Join halves in pairs; a half on its own spoils the string. -/
def joinPieces : List Piece → Option (List Char)
  | [] => some []
  | .char c :: r => (joinPieces r).map (c :: ·)
  | .half a :: .half b :: r =>
    if a < 0xdc00 ∧ 0xdc00 ≤ b then
      (joinPieces r).map (Char.ofNat (0x10000 + (a - 0xd800) * 0x400 + (b - 0xdc00)) :: ·)
    else none
  | .half _ :: _ => none

/-- The character after a backslash that is not a code unit. -/
def shortEscape? (c : Char) : Option Char :=
  if c = '"' then some '"'
  else if c = '\\' then some '\\'
  else if c = '/' then some '/'
  else if c = 'b' then some '\x08'
  else if c = 'f' then some '\x0c'
  else if c = 'n' then some '\n'
  else if c = 'r' then some '\r'
  else if c = 't' then some '\t'
  else none

/-- A string that goes wrong after these pieces, the last one first.  A
    half that has no partner is met before that, except at the very end,
    where its partner may still have been on the way. -/
def stringDamage (pieces : List Piece) (b : Breakage) : Damage :=
  let settled := match pieces with
    | .half unit :: r => if unit < 0xdc00 then r else pieces
    | _ => pieces
  { Damage.plain (if (joinPieces settled.reverse).isSome then b else .malformed) with skimmed := b }

/-- The pieces of a string up to its closing quote. -/
def readPieces : Nat → List Char → List Piece → Except Damage (List Piece × List Char)
  | 0, _, acc => .error (stringDamage acc .truncated)
  | _ + 1, [], acc => .error (stringDamage acc .truncated)
  | _ + 1, '"' :: r, acc => .ok (acc.reverse, r)
  | _ + 1, ['\\'], acc => .error (stringDamage acc .truncated)
  | fuel + 1, '\\' :: 'u' :: r, acc =>
    match readHex4 r with
    | .ok (n, r) => readPieces fuel r (.ofUnit n :: acc)
    | .error b => .error (stringDamage acc b)
  | fuel + 1, '\\' :: c :: r, acc =>
    match shortEscape? c with
    | some c => readPieces fuel r (.char c :: acc)
    | none => .error (.plain .malformed)
  | fuel + 1, c :: r, acc =>
    if c.toNat < 0x20 then .error (.plain .malformed) else readPieces fuel r (.char c :: acc)

/-- A string after its opening quote. -/
def readString (cs : List Char) : Except Damage (Option String × List Char) := do
  let (pieces, r) ← readPieces (cs.length + 1) cs []
  return ((joinPieces pieces).map String.ofList, r)

/-- Digits after a point: at least one. -/
def readFraction : List Char → Except Breakage (List Char × List Char)
  | '.' :: r =>
    match spanDigits r with
    | ([], []) => .error .truncated
    | ([], _) => .error .malformed
    | (ds, r) => .ok (ds, r)
  | r => .ok ([], r)

/-- The exponent after its mark: an optional sign and at least one digit. -/
def readExponent (cs : List Char) : Except Breakage (Option Int × List Char) :=
  match cs with
  | c :: r =>
    if c = 'e' ∨ c = 'E' then
      let (negative, r) := match r with
        | '-' :: r => (true, r)
        | '+' :: r => (false, r)
        | r => (false, r)
      match spanDigits r with
      | ([], []) => .error .truncated
      | ([], _) => .error .malformed
      | (ds, r) =>
        let n : Int := valueOfDigits ds
        .ok (some (if negative then -n else n), r)
    else .ok (none, cs)
  | [] => .ok (none, [])

/-- The digits before a point: a zero stands alone. -/
def readWhole : List Char → Except Breakage (List Char × List Char)
  | [] => .error .truncated
  | '0' :: r =>
    match r with
    | c :: _ => if c.isDigit then .error .malformed else .ok (['0'], r)
    | [] => .ok (['0'], [])
  | cs =>
    match spanDigits cs with
    | ([], _) => .error .malformed
    | (ds, r) => .ok (ds, r)

/-- The number of a text without point and exponent whose digits fit eight
    bytes: whole where its sign leaves it there, and not a negative zero. -/
def wholeNumber (negative : Bool) (n : Nat) : Number :=
  if negative then
    if 0 < n ∧ n ≤ Int64.minValue.toInt.natAbs then .int (-n) else .float (.ofRatio true n 1)
  else .int n

/-- A number.  Leading digits go into a significand of eight bytes for as
    long as they fit; after that a digit before the point counts only as a
    place, and one after the point not at all. -/
def readNumber (cs : List Char) : Except Breakage (Option Number × List Char) := do
  let (negative, r) := match cs with
    | '-' :: r => (true, r)
    | r => (false, r)
  let (whole, r) ← readWhole r
  let (fraction, r) ← readFraction r
  let (exponent, r) ← readExponent r
  let (significand, places) := takeDigits 0 whole
  if fraction.isEmpty && exponent.isNone && places = 0 then
    return (some (wholeNumber negative significand), r)
  else
    let (significand, passed) := takeDigits significand fraction
    let exponent := exponent.getD 0 + places - (fraction.length - passed)
    return ((scaledDouble? negative significand exponent).map .float, r)

/-- The rest of a fixed word. -/
def readWord (result : Document) : List Char → List Char → Step
  | [], r => ⟨result, some r⟩
  | _ :: _, [] => .stop ⟨.truncated, .truncated, .malformed⟩
  | w :: ws, c :: r => if c = w then readWord result ws r else .stop (.plain .malformed)

/-- A number that goes wrong.  Only a reader of its value sees that the
    text ends where a digit is missing. -/
def numberDamage (b : Breakage) : Damage := ⟨b, .malformed, .malformed⟩

/-- Something other than a name at the head of a map. -/
def strayName (d : Document) : Damage where
  read := .malformed
  skimmed := .malformed
  variant := match d with
    | .broken damage => damage.read.faultClass
    | .number none | .string none => .malformed
    | _ => .content

/-- The end of a text after a comma in a map. -/
def afterComma (b : Breakage) : Damage := ⟨b, b, .malformed⟩

mutual

/-- One value; `depth` more brackets may be opened. -/
def readValue : Nat → Nat → List Char → Step
  | 0, _, _ => .stop (.plain .malformed)
  | fuel + 1, depth, cs =>
    match skipSpace cs with
    | [] => .stop (.plain .truncated)
    | '"' :: r =>
      match readString r with
      | .ok (s, r) => ⟨.string s, some r⟩
      | .error damage => .stop damage
    | '[' :: r =>
      Step.within depth <| match skipSpace r with
        | [] => ⟨.array [] (some .truncated), none⟩
        | ']' :: r => ⟨.array [] none, some r⟩
        | r => readItems fuel (depth - 1) r []
    | '\x7b' :: r =>
      Step.within depth <| match skipSpace r with
        | [] => ⟨.object [] (some (.plain .truncated)), none⟩
        | '\x7d' :: r => ⟨.object [] none, some r⟩
        | '"' :: r => readMembers fuel (depth - 1) ('"' :: r) []
        | r => ⟨.object [] (some (strayName (readValue fuel (depth - 1) r).document)), none⟩
    | 'n' :: r => readWord .null ['u', 'l', 'l'] r
    | 't' :: r => readWord (.bool true) ['r', 'u', 'e'] r
    | 'f' :: r => readWord (.bool false) ['a', 'l', 's', 'e'] r
    | c :: r =>
      if c = '-' ∨ c.isDigit then
        match readNumber (c :: r) with
        | .ok (n, r) => ⟨.number n, some r⟩
        | .error b => .stop (numberDamage b)
      else .stop (.plain .malformed)

/-- An item and all that follow it in the same sequence. -/
def readItems : Nat → Nat → List Char → List Document → Step
  | 0, _, _, acc => ⟨.array acc.reverse (some .malformed), none⟩
  | fuel + 1, depth, cs, acc =>
    match readValue fuel depth cs with
    | ⟨d, none⟩ => ⟨.array (d :: acc).reverse (some .malformed), none⟩
    | ⟨d, some r⟩ =>
      match skipSpace r with
      | [] => ⟨.array (d :: acc).reverse (some .truncated), none⟩
      | ']' :: r => ⟨.array (d :: acc).reverse none, some r⟩
      | ',' :: r =>
        match skipSpace r with
        | ']' :: _ => ⟨.array (d :: acc).reverse (some .malformed), none⟩
        | r => readItems fuel depth r (d :: acc)
      | _ => ⟨.array (d :: acc).reverse (some .malformed), none⟩

/-- A member, from its key on, and all that follow it in the same map. -/
def readMembers : Nat → Nat → List Char → List (Option String × Document) → Step
  | 0, _, _, acc => ⟨.object acc.reverse (some (.plain .malformed)), none⟩
  | fuel + 1, depth, cs, acc =>
    match cs with
    | [] => ⟨.object acc.reverse (some (afterComma .truncated)), none⟩
    | '"' :: r =>
      match readString r with
      | .error damage =>
        let damage := if acc.isEmpty then damage else { damage with variant := .malformed }
        ⟨.object acc.reverse (some damage), none⟩
      | .ok (key, r) =>
        let broken (b : Breakage) : Step :=
          ⟨.object ((key, .broken (.plain b)) :: acc).reverse (some (.plain b)), none⟩
        match skipSpace r with
        | [] => broken .truncated
        | ':' :: r =>
          match readValue fuel depth r with
          | ⟨d, none⟩ => ⟨.object ((key, d) :: acc).reverse (some (.plain .malformed)), none⟩
          | ⟨d, some r⟩ =>
            match skipSpace r with
            | [] => ⟨.object ((key, d) :: acc).reverse (some (.plain .truncated)), none⟩
            | '\x7d' :: r => ⟨.object ((key, d) :: acc).reverse none, some r⟩
            | ',' :: r => readMembers fuel depth (skipSpace r) ((key, d) :: acc)
            | _ => ⟨.object ((key, d) :: acc).reverse (some (.plain .malformed)), none⟩
        | _ => broken .malformed
    | _ => ⟨.object acc.reverse (some (afterComma .malformed)), none⟩

end

/-- Brackets that may be open at once around a value that is read. -/
def maxDepth : Nat := 127

/-- A document and the way the text after it is wrong, if it is. -/
structure Whole where
  document : Document
  trailing : Option Breakage

/-- Read a whole text. -/
def ofText (s : String) : Whole :=
  let cs := s.toList
  match readValue (2 * cs.length + 2) maxDepth cs with
  | ⟨d, none⟩ => ⟨d, none⟩
  | ⟨d, some r⟩ => ⟨d, if (skipSpace r).isEmpty then none else some .malformed⟩

end ServingPlane.Document

namespace ServingPlane.Json

/-- The untyped value of a text. -/
def parse (s : String) : Except Breakage Json := do
  let w := Document.ofText s
  let v ← w.document.toJson
  Document.settle w.trailing
  return v

end ServingPlane.Json
