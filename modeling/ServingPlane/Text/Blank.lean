/-! # White space

    The characters that separate words anywhere in the program's input:
    the ASCII blanks with the vertical ones, next line, and the spaces and
    separators of the other scripts.  Trimming and blank tests use this
    one set. -/

namespace ServingPlane.Text

/-- Whether a character is white space. -/
def isBlank (c : Char) : Bool :=
  let n := c.toNat
  (0x9 ≤ n && n ≤ 0xd) || n == 0x20 || n == 0x85 || n == 0xa0 || n == 0x1680
    || (0x2000 ≤ n && n ≤ 0x200a) || n == 0x2028 || n == 0x2029 || n == 0x202f
    || n == 0x205f || n == 0x3000

/-- Drop leading white space. -/
def trimStart (cs : List Char) : List Char := cs.dropWhile isBlank

/-- Drop trailing characters that satisfy a test. -/
def dropEndWhile (p : Char → Bool) (cs : List Char) : List Char :=
  (cs.reverse.dropWhile p).reverse

/-- Drop white space at both ends. -/
def trimBlanks (cs : List Char) : List Char := dropEndWhile isBlank (trimStart cs)

/-- Drop white space at both ends of a text. -/
def trim (s : String) : String := String.ofList (trimBlanks s.toList)

/-- No characters other than white space. -/
def allBlank (s : String) : Bool := s.toList.all isBlank

/-- Drop every occurrence of a character at both ends. -/
def trimChar (c : Char) (s : String) : String :=
  String.ofList (dropEndWhile (· == c) (s.toList.dropWhile (· == c)))

/-- Drop every occurrence of a character at the end. -/
def trimCharEnd (c : Char) (s : String) : String :=
  String.ofList (dropEndWhile (· == c) s.toList)

/-- The lines of a text: cut at line feeds, a carriage return before one
    belongs to the break, and a final break starts no further line. -/
def lines (cs : List Char) : List (List Char) :=
  let pieces := cs.splitBy fun a _ => a != '\n'
  pieces.map fun l =>
    match l.reverse with
    | '\n' :: '\r' :: r => r.reverse
    | '\n' :: r => r.reverse
    | _ => l

end ServingPlane.Text
