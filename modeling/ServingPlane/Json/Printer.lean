import ServingPlane.Json.Value

/-! # Document texts

    Two layouts of a structured value: compact on one line, and spread
    out with two blanks per level.  Strings escape the quote, the
    backslash and the controls; everything else stands as it is. -/

namespace ServingPlane.Json

open Numeric

/-- Four lower-case hexadecimal digits. -/
def hex4 (n : Nat) : List Char :=
  let ds := Nat.toDigits 16 n
  List.replicate (4 - ds.length) '0' ++ ds

/-- One character inside a document string. -/
def escapeChar (c : Char) : List Char :=
  if c = '"' then ['\\', '"']
  else if c = '\\' then ['\\', '\\']
  else if c = '\n' then ['\\', 'n']
  else if c = '\t' then ['\\', 't']
  else if c = '\r' then ['\\', 'r']
  else if c = '\x08' then ['\\', 'b']
  else if c = '\x0c' then ['\\', 'f']
  else if c.toNat < 0x20 then ['\\', 'u'] ++ hex4 c.toNat
  else [c]

/-- A string with its quotes. -/
def stringText (s : String) : List Char :=
  '"' :: (s.toList.flatMap escapeChar ++ ['"'])

/-- A number; a value that is not finite has no text and is written as null. -/
def numberText : Number → List Char
  | .int n => (intText n).toList
  | .float x => ((x.compactText?).getD "null").toList

mutual

/-- Compact text of a value. -/
def compactChars : Json → List Char
  | null => "null".toList
  | bool true => "true".toList
  | bool false => "false".toList
  | number n => numberText n
  | string s => stringText s
  | array [] => ['[', ']']
  | array (v :: r) => '[' :: (compactChars v ++ compactItems r)
  | object [] => ['\x7b', '\x7d']
  | object ((k, v) :: r) => '\x7b' :: (stringText k ++ ':' :: (compactChars v ++ compactMembers r))

/-- The items after the first, and the closing bracket. -/
def compactItems : List Json → List Char
  | [] => [']']
  | v :: r => ',' :: (compactChars v ++ compactItems r)

/-- The members after the first, and the closing brace. -/
def compactMembers : List (String × Json) → List Char
  | [] => ['\x7d']
  | (k, v) :: r => ',' :: (stringText k ++ ':' :: (compactChars v ++ compactMembers r))

end

/-- A line break and the indentation of a level. -/
def newline (level : Nat) : List Char := '\n' :: List.replicate (2 * level) ' '

mutual

/-- Spread-out text of a value whose brackets stand at a level. -/
def prettyChars (level : Nat) : Json → List Char
  | null => "null".toList
  | bool true => "true".toList
  | bool false => "false".toList
  | number n => numberText n
  | string s => stringText s
  | array [] => ['[', ']']
  | array (v :: r) => '[' :: (newline (level + 1) ++ prettyChars (level + 1) v ++ prettyItems level r)
  | object [] => ['\x7b', '\x7d']
  | object ((k, v) :: r) =>
    '\x7b' :: (newline (level + 1) ++ stringText k ++ ':' :: ' ' ::
      (prettyChars (level + 1) v ++ prettyMembers level r))

/-- The items after the first, and the closing bracket on its own line. -/
def prettyItems (level : Nat) : List Json → List Char
  | [] => newline level ++ [']']
  | v :: r => ',' :: (newline (level + 1) ++ prettyChars (level + 1) v ++ prettyItems level r)

/-- The members after the first, and the closing brace on its own line. -/
def prettyMembers (level : Nat) : List (String × Json) → List Char
  | [] => newline level ++ ['\x7d']
  | (k, v) :: r =>
    ',' :: (newline (level + 1) ++ stringText k ++ ':' :: ' ' ::
      (prettyChars (level + 1) v ++ prettyMembers level r))

end

/-- The compact text of a value. -/
def compact (v : Json) : String := String.ofList (compactChars v)

/-- The spread-out text of a value. -/
def pretty (v : Json) : String := String.ofList (prettyChars 0 v)

end ServingPlane.Json
