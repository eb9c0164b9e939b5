import ServingPlane.Text.Hidden

/-! # Quoted text

    A string as it stands in a message: between double quotes, with the
    common controls as letters after a backslash and every character
    without a plain printed form as its code point in braces. -/

namespace ServingPlane.Text

/-- Lower-case hexadecimal digits, without padding. -/
def hexDigits (n : Nat) : List Char := Nat.toDigits 16 n

/-- A code point in braces. -/
def codePointEscape (c : Char) : List Char :=
  ['\\', 'u', '\x7b'] ++ hexDigits c.toNat ++ ['\x7d']

/-- One character inside quotes. -/
def quoteChar (c : Char) : List Char :=
  if c = '\x00' then ['\\', '0']
  else if c = '\t' then ['\\', 't']
  else if c = '\r' then ['\\', 'r']
  else if c = '\n' then ['\\', 'n']
  else if c = '"' then ['\\', '"']
  else if c = '\\' then ['\\', '\\']
  else if c.toNat < 0x20 ∨ c.toNat = 0x7f then codePointEscape c
  else if c.toNat < 0x7f then [c]
  else if isHidden c then codePointEscape c
  else [c]

/-- The quoted form of a string. -/
def quoted (s : String) : String :=
  String.ofList ('"' :: (s.toList.flatMap quoteChar ++ ['"']))

end ServingPlane.Text
