import ServingPlane.Time.Instant

/-! # Query windows

    The stretch of time that a range query looks at.  A lookback of more
    milliseconds than eight bytes hold counts as three hours. -/

namespace ServingPlane

/-- Time range and resolution of the queries of one collection. -/
structure QueryWindow where
  start : Instant
  finish : Instant
  step : String
  deriving DecidableEq, Repr

namespace QueryWindow

/-- The longest lookback: as many milliseconds as a signed eight-byte integer holds. -/
def longestLookback : Span :=
  let millis := Int64.maxValue.toInt.toNat
  ⟨millis / 1000, millis % 1000 * 1000000⟩

/-- Whether a span is no longer than another. -/
def noLonger (a b : Span) : Bool :=
  a.seconds < b.seconds || (a.seconds == b.seconds && a.nanos ≤ b.nanos)

/-- The lookback that is used for a wanted one. -/
def effectiveLookback (wanted : Span) : Span :=
  if noLonger wanted longestLookback then wanted else ⟨10800, 0⟩

/-- The window that ends at an instant; there is none if it would start
    before the calendar does, where the arithmetic of dates panics. -/
def endingAt (finish : Instant) (lookback : Span) (step : String) : Option QueryWindow :=
  let start := finish.minus (effectiveLookback lookback)
  if start.inRange then some ⟨start, finish, step⟩ else none

/-- The length of a window that `endingAt` makes. -/
def length (w : QueryWindow) : Span :=
  let total (t : Instant) : Int := t.seconds * Instant.nanosPerSecond + t.nanos
  let d := (total w.finish - total w.start).toNat
  ⟨d / Instant.nanosPerSecond, d % Instant.nanosPerSecond⟩

end QueryWindow

end ServingPlane
