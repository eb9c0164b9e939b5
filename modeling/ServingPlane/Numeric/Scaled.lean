import ServingPlane.Numeric.Binary

/-! # Decimals by scaling

    How documents read a decimal: its significand, a natural of eight
    bytes, is rounded to a floating-point number, which is then
    multiplied or divided by a power of ten.  The power is itself the
    nearest number to the exact one, and every step rounds once, so the
    result may miss the nearest number to the decimal by its last bit. -/

namespace ServingPlane.Numeric

/-- The largest power of ten that is finite. -/
def maxPower : Nat := 308

/-- The number nearest to a power of ten. -/
def powerOfTen (k : Nat) : Magnitude :=
  Format.double.magnitude (Format.double.roundRatio (Nat.pow 10 k) 1)

/-- The pattern nearest to a product. -/
def roundProduct (x y : Magnitude) : Nat :=
  let (a, b) := x.ratio
  let (c, d) := y.ratio
  Format.double.roundRatio (a * c) (b * d)

/-- The pattern nearest to a quotient. -/
def roundQuotient (x y : Magnitude) : Nat :=
  let (a, b) := x.ratio
  let (c, d) := y.ratio
  Format.double.roundRatio (a * d) (b * c)

/-- Scale a finite pattern by `10^exponent`; there is none beyond the finite
    ones.  An exponent out of reach below is taken in steps, of which the
    second leaves nothing of a number under `10^308`. -/
def scalePattern : Nat → Nat → Int → Option Nat
  | 0, _, _ => some 0
  | fuel + 1, bits, exponent =>
    let x := Format.double.magnitude bits
    if exponent.natAbs ≤ maxPower then
      if exponent < 0 then some (roundQuotient x (powerOfTen exponent.natAbs))
      else
        let y := roundProduct x (powerOfTen exponent.natAbs)
        if y < Format.double.infinityBits then some y else none
    else if bits = 0 then some 0
    else if exponent < 0 then
      scalePattern fuel (roundQuotient x (powerOfTen maxPower)) (exponent + maxPower)
    else none

/-- The number `± significand · 10^exponent`, for a significand of eight bytes. -/
def scaledDouble? (negative : Bool) (significand : Nat) (exponent : Int) : Option Double :=
  (scalePattern 3 (Format.double.roundRatio significand 1) exponent).map fun bits =>
    ⟨UInt64.ofNat (bits + if negative then Format.double.signWeight else 0)⟩

end ServingPlane.Numeric
