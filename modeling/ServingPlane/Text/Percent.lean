import ServingPlane.Text.Bytes

/-! # Percent encoding

    Texts inside an address: bytes that cannot stand for themselves are
    written as a percent sign and two hexadecimal digits.  In the values
    of a query a blank is a plus sign; in a path fewer bytes are changed.
    Decoding leaves a percent sign alone that no two digits follow. -/

namespace ServingPlane.Text

/-- The value of a hexadecimal digit. -/
def hexDigit? (b : UInt8) : Option UInt8 :=
  if 0x30 ≤ b ∧ b ≤ 0x39 then some (b - 0x30)
  else if 0x41 ≤ b ∧ b ≤ 0x46 then some (b - 0x41 + 10)
  else if 0x61 ≤ b ∧ b ≤ 0x66 then some (b - 0x61 + 10)
  else none

/-- The upper-case hexadecimal digit of a value below sixteen. -/
def hexDigit (n : UInt8) : Char :=
  Char.ofNat (if n < 10 then 0x30 + n.toNat else 0x41 + n.toNat - 10)

/-- A byte as a percent sign and two digits. -/
def percentByte (b : UInt8) : List Char := ['%', hexDigit (b / 16), hexDigit (b % 16)]

/-- Letters, digits, and the four signs that a query value keeps. -/
def keptInQuery (b : UInt8) : Bool :=
  (0x30 ≤ b && b ≤ 0x39) || (0x41 ≤ b && b ≤ 0x5a) || (0x61 ≤ b && b ≤ 0x7a)
    || b == 0x2a || b == 0x2d || b == 0x2e || b == 0x5f

/-- A byte of a query value. -/
def queryByte (b : UInt8) : List Char :=
  if b = 0x20 then ['+'] else if keptInQuery b then [Char.ofNat b.toNat] else percentByte b

/-- A value as it stands in a query. -/
def queryEncode (s : String) : String :=
  String.ofList ((bytesOf s.toList).flatMap queryByte)

/-- Names and values of a query, joined. -/
def queryText (pairs : List (String × String)) : String :=
  "&".intercalate (pairs.map fun (k, v) => queryEncode k ++ "=" ++ queryEncode v)

/-- Printing characters, without those that end or confuse a path. -/
def keptInPath (b : UInt8) : Bool :=
  0x21 ≤ b && b ≤ 0x7e && !([0x22, 0x23, 0x3c, 0x3e, 0x3f, 0x60, 0x7b, 0x7d] : List UInt8).contains b

/-- A byte of a path. -/
def pathByte (b : UInt8) : List Char :=
  if keptInPath b then [Char.ofNat b.toNat] else percentByte b

/-- A text as it stands in a path. -/
def pathEncode (s : String) : String := String.ofList ((bytesOf s.toList).flatMap pathByte)

/-- Printing characters, without those that end or confuse a query. -/
def keptInRawQuery (b : UInt8) : Bool :=
  0x21 ≤ b && b ≤ 0x7e && !([0x22, 0x23, 0x3c, 0x3e] : List UInt8).contains b

/-- A whole query, as it was written, as it stands in an address. -/
def rawQueryEncode (s : String) : String :=
  String.ofList ((bytesOf s.toList).flatMap fun b =>
    if keptInRawQuery b then [Char.ofNat b.toNat] else percentByte b)

/-- The bytes that a query value stands for. -/
def queryBytes : List UInt8 → List UInt8
  | [] => []
  | 0x2b :: r => 0x20 :: queryBytes r
  | 0x25 :: a :: b :: r =>
    match hexDigit? a, hexDigit? b with
    | some x, some y => (x * 16 + y) :: queryBytes r
    | _, _ => 0x25 :: queryBytes (a :: b :: r)
  | c :: r => c :: queryBytes r

/-- The value that stands in a query. -/
def queryDecode (s : String) : String := String.ofList (charsOf (queryBytes (bytesOf s.toList)))

/-- Cut a text at the first character that satisfies a test; the second
    part is missing if there is none. -/
def cutAt (p : Char → Bool) (cs : List Char) : List Char × Option (List Char) :=
  match cs.dropWhile (!p ·) with
  | [] => (cs.takeWhile (!p ·), none)
  | _ :: r => (cs.takeWhile (!p ·), some r)

/-- The pieces of a text between separators. -/
def pieces (separator : Char) : List Char → List (List Char)
  | [] => [[]]
  | c :: r =>
    if c = separator then [] :: pieces separator r
    else
      match pieces separator r with
      | [] => [[c]]
      | piece :: rest => (c :: piece) :: rest

/-- The names and values of a query; empty pieces are passed over. -/
def queryPairs (s : String) : List (String × String) :=
  ((pieces '&' s.toList).filter (!·.isEmpty)).map fun piece =>
    let (k, v) := cutAt (· == '=') piece
    (queryDecode (String.ofList k), queryDecode (String.ofList (v.getD [])))

end ServingPlane.Text
