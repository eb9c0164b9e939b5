import ServingPlane.Numeric.Binary

/-! # Shortest decimals

    The decimal of fewest digits that rounds back to a given binary
    magnitude, and of those the nearest; which of two equally near ones
    is up to the text that is written.  Grids of one, two, … digits
    are tried in turn; on each only the two neighbours of the value can
    lie in its rounding interval, so the first grid with a hit wins. -/

namespace ServingPlane.Numeric

/-- A decimal `digits · 10^exponent`. -/
structure Decimal where
  digits : Nat
  exponent : Int
  deriving DecidableEq, Repr

namespace Decimal

/-- A decimal as a ratio of naturals. -/
def ratio (d : Decimal) : Nat × Nat :=
  match d.exponent with
  | .ofNat e => (d.digits * Nat.pow 10 e, 1)
  | .negSucc e => (d.digits, Nat.pow 10 (e + 1))

/-- Move trailing zeros of the digits into the exponent, at most `fuel` of them. -/
def trim : Nat → Decimal → Decimal
  | 0, d => d
  | fuel + 1, d =>
    if d.digits % 10 = 0 ∧ d.digits ≠ 0 then trim fuel ⟨d.digits / 10, d.exponent + 1⟩ else d

end Decimal

/-- A set of reals between two ratios with a common denominator. -/
structure Interval where
  low : Nat
  high : Nat
  den : Nat
  /-- Whether the ends belong to the set. -/
  closed : Bool
  deriving Repr

/-- Whether a ratio lies in the interval. -/
def Interval.contains (i : Interval) (num den : Nat) : Bool :=
  let a := num * i.den
  let lo := i.low * den
  let hi := i.high * den
  if i.closed then lo ≤ a && a ≤ hi else lo < a && a < hi

/-- The reals that round to a positive magnitude: half a unit to either
    side, a quarter below where the unit halves.  An even significand
    owns the ends, because ties go to even. -/
def Format.roundingInterval (f : Format) (m : Magnitude) : Interval :=
  let below := if m.significand = f.hiddenBit ∧ f.minExponent < m.exponent then 1 else 2
  let (s, d) := shiftRatio 1 1 (m.exponent - 2)
  ⟨(4 * m.significand - below) * s, (4 * m.significand + 2) * s, d, m.significand % 2 = 0⟩

/-- The integer `e` with `10^e ≤ num / den < 10^(e+1)`, for positive arguments. -/
def floorLog10 (num den : Nat) : Int :=
  let guess : Int := floorLog2 num den * 30103 / 100000
  let atLeast (e : Int) : Bool :=
    match e with
    | .ofNat k => Nat.pow 10 k * den ≤ num
    | .negSucc k => den ≤ num * Nat.pow 10 (k + 1)
  if atLeast (guess + 1) then guess + 1 else if atLeast guess then guess else guess - 1

/-- Which of two decimals is taken when the value lies just between them. -/
inductive TieRule where
  /-- The one with an even last digit. -/
  | even
  /-- The larger one. -/
  | up
  deriving DecidableEq, Repr

/-- The hit, if any, among the two neighbours of `num / den` on the grid `10^k`. -/
def gridHit (tie : TieRule) (i : Interval) (num den : Nat) (k : Int) : Option Decimal :=
  let (n, d) := match k with
    | .ofNat e => (num, den * Nat.pow 10 e)
    | .negSucc e => (num * Nat.pow 10 (e + 1), den)
  let c := n / d
  let inside (c : Nat) : Bool :=
    let (a, b) := Decimal.ratio ⟨c, k⟩
    i.contains a b
  let r := n % d
  let upNearer := d < 2 * r ∨ (d = 2 * r ∧ (tie = .up ∨ c % 2 = 1))
  match inside c, inside (c + 1) with
  | true, true => some ⟨if upNearer then c + 1 else c, k⟩
  | true, false => some ⟨c, k⟩
  | false, true => some ⟨c + 1, k⟩
  | false, false => none

/-- Try ever finer grids, starting at `10^k`. -/
def searchGrids (tie : TieRule) (i : Interval) (num den : Nat) : Nat → Int → Decimal
  | 0, k => ⟨num / den, k⟩
  | fuel + 1, k =>
    match gridHit tie i num den k with
    | some d => d
    | none => searchGrids tie i num den fuel (k - 1)

/-- The shortest decimal that rounds to a finite magnitude, without trailing zeros. -/
def Format.shortest (f : Format) (tie : TieRule) (m : Magnitude) : Decimal :=
  if m.significand = 0 then ⟨0, 0⟩
  else
    let (num, den) := m.ratio
    (searchGrids tie (f.roundingInterval m) num den 20 (floorLog10 num den)).trim 20

end ServingPlane.Numeric
