import ServingPlane.Text.Blank
import ServingPlane.Time.Instant

/-! # Timestamps

    How a point in time is read: a date, a `T` or a blank, a time of day
    and an offset from universal time.  Blanks may stand between the
    parts.  A fault is the first one met from the left, except that a day
    its month does not have, or an offset of a day or more, is met last. -/

namespace ServingPlane

open Numeric

/-- Why a text is no timestamp. -/
inductive TimeFault where
  /-- A part has no such value. -/
  | outOfRange
  /-- The offset leads beyond the instants that can be named. -/
  | impossible
  /-- Something else stands where a part should. -/
  | invalid
  | tooShort
  /-- Something follows. -/
  | trailing
  deriving DecidableEq, Repr

/-- The message of a fault. -/
def TimeFault.message : TimeFault → String
  | outOfRange => "input is out of range"
  | impossible => "no possible date and time matching input"
  | invalid => "input contains invalid characters"
  | tooShort => "premature end of input"
  | trailing => "trailing input"

namespace Timestamp

/-- A reader of one part: its value and the text after it. -/
abbrev Part (α : Type) := StateT (List Char) (Except TimeFault) α

/-- Pass over blanks. -/
def blanks : Part Unit := modify fun cs => cs.dropWhile Text.isBlank

/-- Digits, at least one and at most `width`, as far as they fit eight bytes. -/
def digits (width : Option Nat) : Part Nat := fun cs =>
  match spanDigits cs with
  | ([], []) => .error .tooShort
  | ([], _ :: _) => .error .invalid
  | (ds, _) =>
    let taken := match width with
      | some w => ds.take w
      | none => ds
    let n := valueOfDigits taken
    if n ≤ Int64.maxValue.toInt.toNat then .ok (n, cs.drop taken.length) else .error .outOfRange

/-- A given sign, after blanks. -/
def sign (c : Char) : Part Unit := do
  blanks
  fun cs => match cs with
    | [] => .error .tooShort
    | first :: rest => if first = c then .ok ((), rest) else .error .invalid

/-- A number of up to two digits within bounds, after blanks. -/
def field (low high : Nat) : Part Nat := do
  blanks
  let n ← digits (some 2)
  if low ≤ n ∧ n ≤ high then return n else throw .outOfRange

/-- Four digits, or any number after a sign. -/
def signedNumber : Part Int := do
  match ← get with
  | '-' :: r => set r; return -(← digits none)
  | '+' :: r => set r; return ← digits none
  | _ => return ← digits (some 4)

/-- A year, after blanks. -/
def year : Part Int := do
  blanks
  let y ← signedNumber
  if Int32.minValue.toInt ≤ y ∧ y ≤ Int32.maxValue.toInt then return y else throw .outOfRange

/-- The letter or blank between date and time. -/
def divider : Part Unit := fun cs =>
  match cs with
  | [] => .error .tooShort
  | c :: rest => if c = 'T' ∨ c = 't' ∨ c = ' ' then .ok ((), rest) else .error .invalid

/-- Nanoseconds, if a point stands here; digits from the tenth on do not count. -/
def fraction : Part Nat := do
  match ← get with
  | '.' :: r =>
    let (ds, rest) := spanDigits r
    set r
    let n ← digits (some 9)
    set rest
    return n * Nat.pow 10 (9 - min 9 ds.length)
  | _ => return 0

/-- Two digits, the first of them up to `high`. -/
def twoDigits (high : Char) : Part Nat := fun cs =>
  match cs with
  | a :: b :: rest =>
    if !a.isDigit || !b.isDigit then .error .invalid
    else if high < a then .error .outOfRange
    else .ok (valueOfDigits [a, b], rest)
  | _ => if (String.ofList cs).utf8ByteSize < 2 then .error .tooShort else .error .invalid

/-- Seconds east of universal time. -/
def offset : Part Int := do
  let cs ← get
  match cs with
  | [] => throw .tooShort
  | c :: r =>
    if (cs.take 3).map Char.toLower = ['u', 't', 'c'] then
      set (cs.drop 3)
      return 0
    else if c = 'Z' ∨ c = 'z' then
      set r
      return 0
    else if c = '+' ∨ c = '-' ∨ c = '−' then
      set r
      let hours ← twoDigits '9'
      modify fun cs => cs.dropWhile fun c => c == ':' || Text.isBlank c
      let minutes ← twoDigits '5'
      let seconds : Int := hours * 3600 + minutes * 60
      return if c = '+' then seconds else -seconds
    else throw .invalid

/-- The instant of a local date and time. -/
def instant (year month day : Int) (hour minute second nanos : Nat) (offset : Int) :
    Except TimeFault Instant :=
  let days := Instant.daysOfDate year month day
  let leap := second == 60
  let local_ : Int := days * Instant.secondsPerDay + hour * 3600 + minute * 60
    + (if leap then 59 else second : Nat)
  let t : Instant := ⟨local_ - offset, nanos + if leap then Instant.nanosPerSecond else 0⟩
  if Instant.dateOfDays days ≠ (year, month, day) then .error .outOfRange
  else if !(⟨local_, 0⟩ : Instant).inRange then .error .outOfRange
  else if Instant.secondsPerDay ≤ offset.natAbs then .error .outOfRange
  else if t.inRange then .ok t else .error .impossible

/-- A whole timestamp. -/
def whole : Part Instant := do
  let y ← year
  sign '-'
  let m ← field 1 12
  sign '-'
  let d ← field 1 31
  divider
  let hour ← field 0 23
  sign ':'
  let minute ← field 0 59
  sign ':'
  let second ← field 0 60
  let nanos ← fraction
  blanks
  let east ← offset
  blanks
  if (← get).isEmpty then instant y m d hour minute second nanos east else throw .trailing

end Timestamp

/-- Read a timestamp. -/
def Instant.ofText (s : String) : Except TimeFault Instant :=
  (Timestamp.whole.run s.toList).map (·.1)

end ServingPlane
