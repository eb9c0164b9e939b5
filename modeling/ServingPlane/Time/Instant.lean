import ServingPlane.Numeric.Notation

/-! # Points in time

    Instants of the proleptic Gregorian calendar in universal time, with
    nanoseconds.  A nanosecond part of a second or more marks a leap
    second, which follows second 59. -/

namespace ServingPlane

open Numeric

/-- A point in time. -/
structure Instant where
  /-- Whole seconds since 1970. -/
  seconds : Int
  /-- Below two seconds; from one second on it is a leap second. -/
  nanos : Nat
  deriving DecidableEq, Repr, Inhabited

/-- A length of time, not negative. -/
structure Span where
  seconds : Nat
  nanos : Nat
  deriving DecidableEq, Repr, Inhabited

namespace Instant

/-- Nanoseconds in a second. -/
def nanosPerSecond : Nat := 1000000000

/-- Seconds in a day. -/
def secondsPerDay : Int := 86400

/-- Days from 1970 to a date. -/
def daysOfDate (year month day : Int) : Int :=
  let y := if month ≤ 2 then year - 1 else year
  let era := y / 400
  let yearOfEra := y % 400
  let dayOfYear := (153 * ((month + 9) % 12) + 2) / 5 + day - 1
  era * 146097 + yearOfEra * 365 + yearOfEra / 4 - yearOfEra / 100 + dayOfYear - 719468

/-- The date of a day: year, month and day. -/
def dateOfDays (days : Int) : Int × Int × Int :=
  let z := days + 719468
  let era := z / 146097
  let dayOfEra := z % 146097
  let yearOfEra := (dayOfEra - dayOfEra / 1460 + dayOfEra / 36524 - dayOfEra / 146096) / 365
  let dayOfYear := dayOfEra - (365 * yearOfEra + yearOfEra / 4 - yearOfEra / 100)
  let m := (5 * dayOfYear + 2) / 153
  let day := dayOfYear - (153 * m + 2) / 5 + 1
  let month := if m < 10 then m + 3 else m - 9
  let year := era * 400 + yearOfEra + if month ≤ 2 then 1 else 0
  (year, month, day)

/-- The first second that can be named. -/
def firstSecond : Int := daysOfDate (-262143) 1 1 * secondsPerDay

/-- The last second that can be named. -/
def lastSecond : Int := (daysOfDate 262142 12 31 + 1) * secondsPerDay - 1

/-- Whether an instant can be named. -/
def inRange (t : Instant) : Bool := firstSecond ≤ t.seconds && t.seconds ≤ lastSecond

/-- A natural with leading zeros up to a width. -/
def padded (width n : Nat) : String :=
  let ds := digitsOf n
  String.ofList (List.replicate (width - ds.length) '0' ++ ds)

/-- A year: four digits, or a sign and at least four digits outside 0 to 9999. -/
def yearText (y : Int) : String :=
  if 0 ≤ y ∧ y ≤ 9999 then padded 4 y.natAbs
  else (if y < 0 then "-" else "+") ++ padded 4 y.natAbs

/-- The instant to the second, in universal time. -/
def text (t : Instant) : String :=
  let (y, m, d) := dateOfDays (t.seconds / secondsPerDay)
  let s := (t.seconds % secondsPerDay).toNat
  let second := s % 60 + if nanosPerSecond ≤ t.nanos then 1 else 0
  s!"{yearText y}-{padded 2 m.toNat}-{padded 2 d.toNat}T"
    ++ s!"{padded 2 (s / 3600)}:{padded 2 (s / 60 % 60)}:{padded 2 second}Z"

/-- The instant a span earlier, for instants outside leap seconds. -/
def minus (t : Instant) (d : Span) : Instant :=
  let total := t.seconds * nanosPerSecond + t.nanos - (d.seconds * nanosPerSecond + d.nanos : Nat)
  ⟨total / nanosPerSecond, (total % nanosPerSecond).toNat⟩

/-- Milliseconds since 1970. -/
def millis (t : Instant) : Int := t.seconds * 1000 + t.nanos / 1000000

end Instant

end ServingPlane
