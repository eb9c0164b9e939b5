import ServingPlane.Numeric.Shortest

/-! # Number texts

    How numbers are written and read: plain positional decimals for
    command lines, the compact form with an exponent for documents, and
    the readers of whole numbers and of floating-point samples.  Digits
    are ASCII throughout. -/

namespace ServingPlane.Numeric

/-- Decimal digits of a natural, most significant first. -/
def digitsOf (n : Nat) : List Char := Nat.toDigits 10 n

/-- A natural written in base ten. -/
def natText (n : Nat) : String := String.ofList (digitsOf n)

/-- An integer written in base ten. -/
def intText (n : Int) : String :=
  if n < 0 then String.ofList ('-' :: digitsOf n.natAbs) else natText n.natAbs

/-- Where the exponent form takes over from the positional one. -/
structure Layout where
  /-- Integers of up to this many digits are written out. -/
  maxIntegerDigits : Int
  /-- Fractions with fewer than this many zeros after the point are written out. -/
  maxLeadingZeros : Int
  deriving Repr

/-- Documents write out values from `10^-5` up to `10^16`. -/
def documentLayout : Layout := ⟨16, 5⟩

/-- Digits with a point `place` digits from the left, zeros filled in as needed. -/
def positional (digits : List Char) (place : Int) : List Char × List Char :=
  if place ≤ 0 then (['0'], List.replicate (-place).toNat '0' ++ digits)
  else
    let p := place.toNat
    (digits.take p ++ List.replicate (p - digits.length) '0', digits.drop p)

/-- A positive decimal in the compact form: positional with at least one
    digit after the point, or one digit before the point and an exponent
    with its sign. -/
def compactDigits (layout : Layout) (d : Decimal) : List Char :=
  let digits := digitsOf d.digits
  let place := (digits.length : Int) + d.exponent
  if place ≤ layout.maxIntegerDigits ∧ -layout.maxLeadingZeros < place then
    let (whole, fraction) := positional digits place
    whole ++ '.' :: (if fraction.isEmpty then ['0'] else fraction)
  else
    let mantissa := match digits with
      | [] => []
      | [c] => [c]
      | c :: r => c :: '.' :: r
    let sign := if 0 < place then ['+'] else []
    mantissa ++ 'e' :: (sign ++ (intText (place - 1)).toList)

/-- Digits of a non-negative decimal without exponent, and without a point
    where there is no fraction. -/
def plainDigits (d : Decimal) : List Char :=
  let digits := digitsOf d.digits
  let (whole, fraction) := positional digits (digits.length + d.exponent)
  if fraction.isEmpty then whole else whole ++ '.' :: fraction

/-- Compact text of a finite reading. -/
def compactText (f : Format) (negative : Bool) (m : Magnitude) : String :=
  let body := if m.significand = 0 then ['0', '.', '0']
    else compactDigits documentLayout (f.shortest .even m)
  String.ofList (if negative then '-' :: body else body)

/-- Plain text of a reading; ties go up. -/
def plainText (f : Format) : Reading → String
  | .finite negative m =>
    let body := plainDigits (f.shortest .up m)
    String.ofList (if negative then '-' :: body else body)
  | .infinite negative => if negative then "-inf" else "inf"
  | .nan => "NaN"

/-- The text of a number on a command line. -/
def Single.plainText (x : Single) : String := Numeric.plainText .single x.reading

/-- The text of a number in a document; there is none for values that are not finite. -/
def Double.compactText? (x : Double) : Option String :=
  match x.reading with
  | .finite negative m => some (compactText .double negative m)
  | _ => none

/-- The number a document gets for a four-byte value: the eight-byte
    number nearest to its shortest decimal. -/
def Single.asDocumentNumber? (x : Single) : Option Double :=
  match x.reading with
  | .finite negative m =>
    let (num, den) := (Format.single.shortest .even m).ratio
    some (.ofRatio negative num den)
  | _ => none

/-- Whether an integer has a place among the signed eight-byte ones. -/
def fitsInt64 (n : Int) : Bool := Int64.minValue.toInt ≤ n && n ≤ Int64.maxValue.toInt

/-- Value of a list of ASCII digits. -/
def valueOfDigits (ds : List Char) : Nat :=
  ds.foldl (fun n c => n * 10 + (c.toNat - '0'.toNat)) 0

/-- ASCII digits only, and at least one. -/
def isDigits (cs : List Char) : Bool := !cs.isEmpty && cs.all Char.isDigit

/-- A whole number below a bound: ASCII digits after an optional plus sign. -/
def readNatural? (bound : Nat) (cs : List Char) : Option Nat :=
  let digits := match cs with
    | '+' :: r => r
    | _ => cs
  if isDigits digits then
    let n := valueOfDigits digits
    if n < bound then some n else none
  else none

/-- The number nearest to `± digits · 10^exponent`, for exponents of any size. -/
def nearestDouble (negative : Bool) (digits : Nat) (exponent : Int) : Double :=
  let place : Int := (digitsOf digits).length + exponent
  if digits = 0 then .ofRatio negative 0 1
  else if 400 < place then if negative then .negInfinity else .infinity
  else if place < -400 then .ofRatio negative 0 1
  else
    let (num, den) := Decimal.ratio ⟨digits, exponent⟩
    .ofRatio negative num den

/-- Take digits into a natural of eight bytes for as long as they fit;
    with it comes the number of those that do not. -/
def takeDigits (n : Nat) : List Char → Nat × Nat
  | [] => (n, 0)
  | c :: r =>
    let next := valueOfDigits [c] + n * 10
    if next < UInt64.size then takeDigits next r else (n, r.length + 1)

/-- Split off the leading ASCII digits. -/
def spanDigits (cs : List Char) : List Char × List Char :=
  (cs.takeWhile Char.isDigit, cs.dropWhile Char.isDigit)

/-- The exponent part of a floating-point text: nothing, or a mark, an
    optional sign and digits up to the end. -/
def readExponent? : List Char → Option Int
  | [] => some 0
  | c :: r =>
    if c = 'e' ∨ c = 'E' then
      let (negative, ds) := match r with
        | '-' :: ds => (true, ds)
        | '+' :: ds => (false, ds)
        | ds => (false, ds)
      if isDigits ds then
        let n : Int := valueOfDigits ds
        some (if negative then -n else n)
      else none
    else none

/-- An unsigned floating-point text: digits with an optional point, at
    least one digit in all, and an optional exponent. -/
def readUnsigned? (negative : Bool) (cs : List Char) : Option Double :=
  let (whole, rest) := spanDigits cs
  let (fraction, rest) := match rest with
    | '.' :: r => spanDigits r
    | r => ([], r)
  if whole.isEmpty && fraction.isEmpty then none
  else (readExponent? rest).map fun e =>
    nearestDouble negative (valueOfDigits (whole ++ fraction)) (e - fraction.length)

/-- Read a sample value: a signed decimal, or one of the words for
    infinity and for the undefined value in any letter case. -/
def readDouble? (s : String) : Option Double :=
  let (negative, cs) := match s.toList with
    | '-' :: r => (true, r)
    | '+' :: r => (false, r)
    | r => (false, r)
  let word := String.ofList (cs.map Char.toLower)
  if word = "inf" ∨ word = "infinity" then some (if negative then .negInfinity else .infinity)
  else if word = "nan" then some .nan
  else readUnsigned? negative cs

end ServingPlane.Numeric
