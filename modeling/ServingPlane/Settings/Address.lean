import ServingPlane.Json.Codec

/-! # Socket addresses

    An address to listen on: four octets or eight groups, with a port.
    Reading accepts every usual spelling; writing has one form for each
    address. -/

namespace ServingPlane

open Numeric

/-- An address and a port. -/
inductive SocketAddress where
  | v4 (octets : List UInt8) (port : UInt16)
  | v6 (groups : List UInt16) (scope : UInt32) (port : UInt16)
  deriving DecidableEq, Repr, Inhabited

namespace SocketAddress

/-- Value of a digit in a base up to sixteen. -/
def digit? (base : Nat) (c : Char) : Option Nat :=
  match Document.hexValue? c with
  | some n => if n < base then some n else none
  | none => none

/-- The longest run of digits in a base, as a number below a bound: at
    most `maxDigits` digits, and no leading zero unless allowed. -/
def readNumber (base bound : Nat) (maxDigits : Option Nat) (zeroPrefix : Bool) (cs : List Char) :
    Option (Nat × List Char) :=
  let digits := cs.takeWhile fun c => (digit? base c).isSome
  let n := digits.foldl (fun n c => n * base + (digit? base c).getD 0) 0
  let tooMany := match maxDigits with
    | some m => m < digits.length
    | none => false
  if digits.isEmpty || tooMany || bound ≤ n then none
  else if !zeroPrefix && digits.head? == some '0' && 1 < digits.length then none
  else some (n, cs.drop digits.length)

/-- A given character. -/
def readChar (c : Char) : List Char → Option (List Char)
  | d :: r => if d = c then some r else none
  | [] => none

/-- One octet: up to three digits without a leading zero. -/
def readOctet (cs : List Char) : Option (UInt8 × List Char) :=
  (readNumber 10 256 (some 3) false cs).map fun (n, r) => (.ofNat n, r)

/-- Four octets with points between them. -/
def readOctets (cs : List Char) : Option (List UInt8 × List Char) := do
  let (a, r) ← readOctet cs
  let r ← readChar '.' r
  let (b, r) ← readOctet r
  let r ← readChar '.' r
  let (c, r) ← readOctet r
  let r ← readChar '.' r
  let (d, r) ← readOctet r
  return ([a, b, c, d], r)

/-- Two octets as one group. -/
def joinOctets (a b : UInt8) : UInt16 := .ofNat (a.toNat * 256 + b.toNat)

/-- The separator before every group but the first. -/
def readSeparator (first : Bool) (cs : List Char) : Option (List Char) :=
  if first then some cs else readChar ':' cs

/-- Up to `limit` groups.  Four octets may stand for the last two; the flag says they did. -/
def readGroups : Nat → Bool → List Char → List UInt16 × Bool × List Char
  | 0, _, cs => ([], false, cs)
  | limit + 1, first, cs =>
    let embedded := if limit = 0 then none else (readSeparator first cs).bind readOctets
    match embedded with
    | some ([a, b, c, d], r) => ([joinOctets a b, joinOctets c d], true, r)
    | _ =>
      match (readSeparator first cs).bind (readNumber 16 65536 (some 4) true) with
      | none => ([], false, cs)
      | some (n, r) =>
        let (groups, octets, r) := readGroups limit false r
        (.ofNat n :: groups, octets, r)

/-- Eight groups, a double colon standing for one or more zero groups. -/
def readAddress6 (cs : List Char) : Option (List UInt16 × List Char) :=
  let (front, octets, r) := readGroups 8 true cs
  if front.length = 8 then some (front, r)
  else if octets then none
  else do
    let r ← readChar ':' r
    let r ← readChar ':' r
    let (back, _, r) := readGroups (7 - front.length) true r
    return (front ++ List.replicate (8 - front.length - back.length) 0 ++ back, r)

/-- A port after its colon. -/
def readPort (cs : List Char) : Option (UInt16 × List Char) := do
  let r ← readChar ':' cs
  let (n, r) ← readNumber 10 65536 none true r
  return (.ofNat n, r)

/-- A scope after its percent sign; zero if there is none. -/
def readScope (cs : List Char) : UInt32 × List Char :=
  match (readChar '%' cs).bind (readNumber 10 UInt32.size none true) with
  | some (n, r) => (.ofNat n, r)
  | none => (0, cs)

/-- Octets and a port. -/
def read4 (cs : List Char) : Option (SocketAddress × List Char) := do
  let (octets, r) ← readOctets cs
  let (port, r) ← readPort r
  return (v4 octets port, r)

/-- Groups in brackets and a port. -/
def read6 (cs : List Char) : Option (SocketAddress × List Char) := do
  let r ← readChar '[' cs
  let (groups, r) ← readAddress6 r
  let (scope, r) := readScope r
  let r ← readChar ']' r
  let (port, r) ← readPort r
  return (v6 groups scope port, r)

/-- Read a whole text as an address. -/
def read? (s : String) : Option SocketAddress :=
  match (read4 s.toList).or (read6 s.toList) with
  | some (a, []) => some a
  | _ => none

/-- Octets with points. -/
def octetsText (octets : List UInt8) : String :=
  ".".intercalate (octets.map fun o => natText o.toNat)

/-- Groups with colons, in lower-case hexadecimal. -/
def groupsText (groups : List UInt16) : String :=
  ":".intercalate (groups.map fun g => String.ofList (Text.hexDigits g.toNat))

/-- A run of zero groups: where it starts and how long it is. -/
structure ZeroRun where
  start : Nat
  length : Nat

/-- The first of the longest runs of zeros. -/
def longestZeros : List UInt16 → Nat → ZeroRun → ZeroRun → ZeroRun
  | [], _, _, best => best
  | g :: r, i, current, best =>
    if g = 0 then
      let current := if current.length = 0 then ⟨i, 1⟩ else ⟨current.start, current.length + 1⟩
      longestZeros r (i + 1) current (if best.length < current.length then current else best)
    else longestZeros r (i + 1) ⟨0, 0⟩ best

/-- The text of eight groups: octets where they embed an address of four,
    otherwise a double colon for the longest run of two or more zeros. -/
def address6Text (groups : List UInt16) : String :=
  match groups with
  | [0, 0, 0, 0, 0, 0xffff, a, b] =>
    "::ffff:" ++ octetsText [.ofNat (a.toNat / 256), .ofNat (a.toNat % 256),
      .ofNat (b.toNat / 256), .ofNat (b.toNat % 256)]
  | _ =>
    let run := longestZeros groups 0 ⟨0, 0⟩ ⟨0, 0⟩
    if 1 < run.length then
      groupsText (groups.take run.start) ++ "::" ++ groupsText (groups.drop (run.start + run.length))
    else groupsText groups

/-- The text of an address. -/
def text : SocketAddress → String
  | v4 octets port => octetsText octets ++ ":" ++ natText port.toNat
  | v6 groups scope port =>
    let zone := if scope = 0 then "" else "%" ++ natText scope.toNat
    "[" ++ address6Text groups ++ zone ++ "]:" ++ natText port.toNat

/-- Addresses on the wire. -/
def codec : Codec SocketAddress where
  write a := .string a.text
  read
    | .string (some s) =>
      match read? s with
      | some a => .ok a
      | none => .error .invalidAddress
    | d => .error (d.mismatch "socket address")

end SocketAddress

end ServingPlane
