/-! # Bytes of a text

    The eight-bit form of characters, and the reading of bytes as
    characters.  Bytes that are no character are read as the replacement
    character, one for each longest stretch that could have begun one. -/

namespace ServingPlane.Text

/-- The bytes of characters. -/
def bytesOf (cs : List Char) : List UInt8 := cs.flatMap String.utf8EncodeChar

/-- What stands for bytes that are no character. -/
def replacement : Char := '\ufffd'

/-- A character of which some bytes are still to come. -/
structure Unfinished where
  /-- Bytes to come, at least one. -/
  missing : Nat
  /-- The least next byte. -/
  low : UInt8
  /-- The greatest next byte. -/
  high : UInt8
  /-- The bits so far. -/
  bits : Nat
  deriving DecidableEq, Repr

/-- Take a byte outside of any character. -/
def openByte (b : UInt8) : List Char × Option Unfinished :=
  if b < 0x80 then ([Char.ofNat b.toNat], none)
  else if b < 0xc2 then ([replacement], none)
  else if b < 0xe0 then ([], some ⟨1, 0x80, 0xbf, b.toNat - 0xc0⟩)
  else if b < 0xf0 then
    let low := if b = 0xe0 then 0xa0 else 0x80
    let high := if b = 0xed then 0x9f else 0xbf
    ([], some ⟨2, low, high, b.toNat - 0xe0⟩)
  else if b < 0xf5 then
    let low := if b = 0xf0 then 0x90 else 0x80
    let high := if b = 0xf4 then 0x8f else 0xbf
    ([], some ⟨3, low, high, b.toNat - 0xf0⟩)
  else ([replacement], none)

/-- Take a byte. -/
def takeByte (state : Option Unfinished) (b : UInt8) : List Char × Option Unfinished :=
  match state with
  | none => openByte b
  | some u =>
    if u.low ≤ b ∧ b ≤ u.high then
      let bits := u.bits * 64 + (b.toNat - 0x80)
      if u.missing ≤ 1 then ([Char.ofNat bits], none)
      else ([], some ⟨u.missing - 1, 0x80, 0xbf, bits⟩)
    else
      let (cs, state) := openByte b
      (replacement :: cs, state)

/-- Read bytes as characters. -/
def charsFrom : Option Unfinished → List UInt8 → List Char
  | none, [] => []
  | some _, [] => [replacement]
  | state, b :: r =>
    let (cs, state) := takeByte state b
    cs ++ charsFrom state r

/-- Read bytes as characters from the beginning. -/
def charsOf (bytes : List UInt8) : List Char := charsFrom none bytes

end ServingPlane.Text
