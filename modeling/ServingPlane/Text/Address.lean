import ServingPlane.Text.Percent

/-! # Addresses

    How a text is taken apart into the path and the query of an address.
    What the text holds is taken literally: a question mark in it starts
    the query, a number sign ends the address, and a segment of dots moves
    about in the path.  Neither blanks at the end nor line breaks count. -/

namespace ServingPlane.Text

/-- A path and, where one was given, a query; both percent-encoded. -/
structure Address where
  path : String
  query : Option String
  deriving DecidableEq, Repr

namespace Address

/-- Characters that are dropped wherever they stand. -/
def isDropped (c : Char) : Bool := c == '\t' || c == '\n' || c == '\r'

/-- A text without what does not count in an address. -/
def clean (cs : List Char) : List Char :=
  (cs.reverse.dropWhile fun c => c.toNat ≤ 0x20).reverse.filter (!isDropped ·)

/-- Read an encoded point as a point. -/
def plainDots : List Char → List Char
  | '%' :: '2' :: c :: r =>
    if c = 'e' ∨ c = 'E' then '.' :: plainDots r else '%' :: '2' :: plainDots (c :: r)
  | c :: r => c :: plainDots r
  | [] => []

/-- Walk along segments; `taken` are those so far, the last one first.  One
    point stays where it is and two go back, not beyond the root; either
    at the end leaves an empty segment. -/
def walk (taken : List (List Char)) : List (List Char) → List (List Char)
  | [] => taken.reverse
  | segment :: rest =>
    let last := if rest.isEmpty then [[]] else []
    match plainDots segment with
    | ['.'] => walk (last ++ taken) rest
    | ['.', '.'] => walk (last ++ taken.drop 1) rest
    | _ => walk (segment :: taken) rest

/-- Take a text apart that starts with a slash. -/
def ofText (s : String) : Address :=
  let (whole, _) := cutAt (· == '#') (clean s.toList)
  let (path, query) := cutAt (· == '?') whole
  { path := String.ofList ((walk [] (pieces '/' (path.drop 1))).flatMap fun segment =>
      '/' :: (pathEncode (String.ofList segment)).toList)
    query := query.map fun q => rawQueryEncode (String.ofList q) }

end Address

end ServingPlane.Text
