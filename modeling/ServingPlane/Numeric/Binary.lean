/-! # Binary floating point

    The two interchange formats that numbers travel in, as bit patterns
    with exact meaning.  A pattern is read as `m · 2^q`; a ratio of
    naturals is written as the nearest pattern, ties going to the even
    one.  Nothing here depends on machine arithmetic. -/

namespace ServingPlane.Numeric

/-- A binary interchange format. -/
structure Format where
  /-- Significand bits, the hidden one included. -/
  precision : Nat
  /-- Width of the exponent field. -/
  exponentBits : Nat
  deriving DecidableEq, Repr

namespace Format

/-- Four bytes wide. -/
def single : Format := ⟨24, 8⟩

/-- Eight bytes wide. -/
def double : Format := ⟨53, 11⟩

variable (f : Format)

/-- The exponent `q` of the smallest subnormal. -/
def minExponent : Int := 3 - (1 <<< (f.exponentBits - 1) : Nat) - f.precision

/-- The weight of the hidden bit, and of the lowest bit of the exponent field. -/
def hiddenBit : Nat := 1 <<< (f.precision - 1)

/-- Patterns at or above this one, sign aside, are not finite. -/
def infinityBits : Nat := (1 <<< f.exponentBits - 1) * f.hiddenBit

/-- The weight of the sign bit. -/
def signWeight : Nat := 1 <<< (f.precision + f.exponentBits - 1)

end Format

/-- Round `num / den` to the nearest natural, ties to even. -/
def roundHalfEven (num den : Nat) : Nat :=
  let q := num / den
  let r := num % den
  if 2 * r < den then q
  else if den < 2 * r then q + 1
  else if q % 2 = 0 then q else q + 1

/-- `num · 2^shift / den`, with a shift of either sign, as a ratio. -/
def shiftRatio (num den : Nat) (shift : Int) : Nat × Nat :=
  match shift with
  | .ofNat s => (num <<< s, den)
  | .negSucc s => (num, den <<< (s + 1))

/-- The integer `e` with `2^e ≤ num / den < 2^(e+1)`, for positive arguments. -/
def floorLog2 (num den : Nat) : Int :=
  let guess : Int := (num.log2 : Int) - den.log2
  let (n, d) := shiftRatio num den (-guess)
  if n < d then guess - 1 else guess

/-- The magnitude pattern nearest to `num / den`; beyond the largest
    finite value it is the pattern of infinity. -/
def Format.roundRatio (f : Format) (num den : Nat) : Nat :=
  if num = 0 then 0
  else
    let q := max (floorLog2 num den - (f.precision - 1)) f.minExponent
    let (n, d) := shiftRatio num den (-q)
    let m := roundHalfEven n d
    min ((q - f.minExponent).toNat * f.hiddenBit + m) f.infinityBits

/-- A magnitude read as `m · 2^q`. -/
structure Magnitude where
  significand : Nat
  exponent : Int
  deriving DecidableEq, Repr

/-- Read a finite magnitude pattern. -/
def Format.magnitude (f : Format) (bits : Nat) : Magnitude :=
  let field := bits / f.hiddenBit
  let fraction := bits % f.hiddenBit
  if field = 0 then ⟨fraction, f.minExponent⟩
  else ⟨fraction + f.hiddenBit, f.minExponent + (field - 1 : Nat)⟩

/-- A magnitude as a ratio of naturals. -/
def Magnitude.ratio (m : Magnitude) : Nat × Nat :=
  shiftRatio m.significand 1 m.exponent

/-- A number in the four-byte format. -/
structure Single where
  bits : UInt32
  deriving DecidableEq, Repr, Inhabited

/-- A number in the eight-byte format. -/
structure Double where
  bits : UInt64
  deriving DecidableEq, Repr, Inhabited

/-- What a pattern stands for. -/
inductive Reading where
  | finite (negative : Bool) (value : Magnitude)
  | infinite (negative : Bool)
  | nan
  deriving DecidableEq, Repr

/-- Read a whole pattern. -/
def Format.reading (f : Format) (bits : Nat) : Reading :=
  let negative := decide (f.signWeight ≤ bits)
  let rest := bits % f.signWeight
  if rest < f.infinityBits then .finite negative (f.magnitude rest)
  else if rest = f.infinityBits then .infinite negative
  else .nan

/-- Write a pattern of finite meaning: the nearest to a signed ratio. -/
def Format.ofRatio (f : Format) (negative : Bool) (num den : Nat) : Nat :=
  f.roundRatio num den + if negative then f.signWeight else 0

namespace Single

/-- Positive zero. -/
def zero : Single := ⟨0⟩

/-- The nearest number to a signed ratio. -/
def ofRatio (negative : Bool) (num den : Nat) : Single :=
  ⟨UInt32.ofNat (Format.single.ofRatio negative num den)⟩

/-- The nearest number to an integer. -/
def ofInt (n : Int) : Single := ofRatio (n < 0) n.natAbs 1

/-- What the pattern stands for. -/
def reading (x : Single) : Reading := Format.single.reading x.bits.toNat

/-- Neither infinite nor undefined. -/
def isFinite (x : Single) : Bool := x.bits.toNat % Format.single.signWeight < Format.single.infinityBits

/-- Zero of either sign. -/
def isZero (x : Single) : Bool := x.bits.toNat % Format.single.signWeight == 0

/-- Not a number. -/
def isNaN (x : Single) : Bool := Format.single.infinityBits < x.bits.toNat % Format.single.signWeight

/-- Strictly above zero. -/
def isPositive (x : Single) : Bool := x.bits.toNat < Format.single.signWeight && !x.isZero && !x.isNaN

/-- Equality as numbers: the zeros agree and an undefined value differs from itself. -/
def eqv (x y : Single) : Bool :=
  !x.isNaN && !y.isNaN && (x.bits == y.bits || (x.isZero && y.isZero))

end Single

namespace Double

/-- Positive zero. -/
def zero : Double := ⟨0⟩

/-- Positive infinity. -/
def infinity : Double := ⟨0x7ff0000000000000⟩

/-- Negative infinity. -/
def negInfinity : Double := ⟨0xfff0000000000000⟩

/-- The undefined value. -/
def nan : Double := ⟨0x7ff8000000000000⟩

/-- The nearest number to a signed ratio. -/
def ofRatio (negative : Bool) (num den : Nat) : Double :=
  ⟨UInt64.ofNat (Format.double.ofRatio negative num den)⟩

/-- The nearest number to an integer. -/
def ofInt (n : Int) : Double := ofRatio (n < 0) n.natAbs 1

/-- What the pattern stands for. -/
def reading (x : Double) : Reading := Format.double.reading x.bits.toNat

/-- Neither infinite nor undefined. -/
def isFinite (x : Double) : Bool := x.bits.toNat % Format.double.signWeight < Format.double.infinityBits

/-- The nearest four-byte number; out of range it is infinite. -/
def toSingle (x : Double) : Single :=
  match x.reading with
  | .finite negative m => .ofRatio negative m.ratio.1 m.ratio.2
  | .infinite false => ⟨0x7f800000⟩
  | .infinite true => ⟨0xff800000⟩
  | .nan => ⟨0x7fc00000⟩

end Double

/-- The same number in the wider format; nothing is rounded. -/
def Single.toDouble (x : Single) : Double :=
  match x.reading with
  | .finite negative m => .ofRatio negative m.ratio.1 m.ratio.2
  | .infinite false => .infinity
  | .infinite true => .negInfinity
  | .nan => .nan

end ServingPlane.Numeric
