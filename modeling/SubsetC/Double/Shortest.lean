import SubsetC.Text
import SubsetC.Double

/-!
# Shortest decimal text of a double

A finite double is written with the fewest digits that still round to it, and among the decimals
with that many digits it is the nearest one; an exact tie goes to the even last digit. The layout
is signed scientific notation with a minimal exponent, such as `+1.23e4`.
-/

namespace SubsetC

namespace Double

/-- The reals that round to one finite double, as multiples of a quarter of its last place. -/
structure RoundingInterval where
  /-- Four times the significand. -/
  center : Nat
  /-- Four times the halfway point to the next smaller double. -/
  lower : Nat
  /-- Four times the halfway point to the next larger double. -/
  upper : Nat
  /-- Whether the halfway points themselves round to the double. -/
  closed : Bool

/-- The reals that round to a finite nonzero double. Below a power of two the doubles lie twice as
dense as above it. -/
def roundingInterval (value : Double) : RoundingInterval where
  center := 4 * value.significand
  lower := 4 * value.significand -
    if value.significand = leadingBit ∧ value.scale ≠ 0 then 1 else 2
  upper := 4 * value.significand + 2
  closed := value.significand % 2 = 0

/-- A decimal `digits * 10 ^ exponent`. -/
structure Decimal where
  /-- The digits, read as one number. -/
  digits : Nat
  /-- The power of ten that scales them. -/
  exponent : Int

/-- A quarter of the last place of a finite double, times a power of ten, as a ratio. -/
def gridUnit (value : Double) (exponent : Int) : Nat × Nat :=
  let (numerator, denominator) := (twoPow value.scale, twoPow 1076)
  match exponent with
  | .ofNat power => (numerator, denominator * tenPow power)
  | .negSucc power => (numerator * tenPow (power + 1), denominator)

/-- The nearest multiple of `10 ^ exponent` that rounds to the double, if there is one. -/
def nearestOnGrid? (value : Double) (exponent : Int) : Option Decimal :=
  let interval := value.roundingInterval
  -- A count of grid points `n` is compared with the double on the scale `n * denominator`.
  let (numerator, denominator) := value.gridUnit exponent
  let center := interval.center * numerator
  let inside (count : Nat) : Bool :=
    let point := count * denominator
    if interval.closed then
      interval.lower * numerator ≤ point && point ≤ interval.upper * numerator
    else
      interval.lower * numerator < point && point < interval.upper * numerator
  let below := center / denominator
  let above := below + 1
  let nearer :=
    let toBelow := center - below * denominator
    let toAbove := above * denominator - center
    if toBelow < toAbove then below
    else if toAbove < toBelow then above
    else below + below % 2
  let farther := below + above - nearer
  if inside nearer then some ⟨nearer, exponent⟩
  else if inside farther then some ⟨farther, exponent⟩
  else none

/-- A power of ten that is at most one place above the leading digit of a finite nonzero double. -/
def leadingExponent (value : Double) : Int :=
  let whole := value.significand * twoPow value.scale
  -- The digits of the value in units of the least double, and of the value's own scale.
  if twoPow 1074 ≤ whole then
    ((Nat.toDigits 10 (whole / twoPow 1074)).length : Int)
  else
    -- Below one, the inverse has one digit more than there are zeros after the point.
    2 - ((Nat.toDigits 10 (twoPow 1074 / whole)).length : Int)

/-- The first of the grids, from coarse to fine, on which a decimal rounds to the double. -/
def firstOnGrids (value : Double) (exponent : Int) : (grids : Nat) → Decimal
  | 0 => (value.nearestOnGrid? exponent).getD ⟨0, 0⟩
  | grids + 1 =>
    match value.nearestOnGrid? exponent with
    | some decimal => decimal
    | none => firstOnGrids value (exponent - 1) grids

/-- The shortest decimal that rounds to a finite nonzero double, and the nearest of that length. -/
def shortest (value : Double) : Decimal :=
  firstOnGrids value value.leadingExponent 18

/-- The digits without the zeros at their end, which move to the exponent. -/
def Decimal.trim (decimal : Decimal) : Decimal :=
  let digits := Nat.toDigits 10 decimal.digits
  let zeros := (digits.reverse.takeWhile (· = '0')).length
  ⟨decimal.digits / tenPow zeros, decimal.exponent + zeros⟩

/-- Scientific notation of a decimal: a digit, the others after a point, and the exponent. -/
def Decimal.scientific (decimal : Decimal) : Text :=
  let digits := Text.ofNat decimal.digits
  let exponent := decimal.exponent + digits.length - 1
  let mantissa :=
    match digits with
    | [] => []
    | [digit] => [digit]
    | digit :: fraction => digit :: Text.ofAscii '.' :: fraction
  mantissa ++ "e" ++ Text.ofInt exponent

/-- The text of a double: a sign, the shortest digits and a minimal exponent. -/
def text (value : Double) : Text :=
  let sign : Text := if value.isNegative then "-" else "+"
  if value.isNaN then "NaN"
  else if value.isInfinite then sign ++ "Inf"
  else if value.isZero then sign ++ "0e0"
  else sign ++ value.shortest.trim.scientific

end Double

end SubsetC
