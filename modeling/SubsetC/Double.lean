/-!
# Double-precision numbers

A double is the 64-bit word of an IEEE binary64 number. Its arithmetic is given in exact natural
number arithmetic: a finite double is `significand * 2 ^ exponent`, and every result is an exact
ratio rounded once, to the nearest double, with ties to the even significand.
-/

namespace SubsetC

/-- An IEEE binary64 number, by its word. -/
structure Double where
  /-- The sign bit, eleven bits of exponent and fifty-two bits of fraction. -/
  bits : UInt64
  deriving DecidableEq, Repr, Inhabited

namespace Double

def twoPow (power : Nat) : Nat := Nat.pow 2 power

def tenPow (power : Nat) : Nat := Nat.pow 10 power

/-- The sign bit, which is the highest of sixty-four. -/
def signBit : Nat := 9223372036854775808

/-- The leading bit of a significand, which is the lowest bit of the exponent field. -/
def leadingBit : Nat := 4503599627370496

/-- The bits below the sign. -/
def magnitude (value : Double) : Nat :=
  value.bits.toNat % signBit

/-- Whether the sign bit is set. -/
def isNegative (value : Double) : Bool :=
  decide (signBit ≤ value.bits.toNat)

/-- The magnitude of the infinities; larger magnitudes are those of NaN. -/
def infiniteMagnitude : Nat := 2047 * leadingBit

/-- Whether the word denotes no number. -/
def isNaN (value : Double) : Bool :=
  decide (infiniteMagnitude < value.magnitude)

def isInfinite (value : Double) : Bool :=
  decide (value.magnitude = infiniteMagnitude)

def isZero (value : Double) : Bool :=
  decide (value.magnitude = 0)

/-- The word with the given sign and magnitude. -/
def ofMagnitude (negative : Bool) (magnitude : Nat) : Double :=
  ⟨UInt64.ofNat (magnitude + if negative then signBit else 0)⟩

def infinity (negative : Bool) : Double := ofMagnitude negative infiniteMagnitude

def zero (negative : Bool) : Double := ofMagnitude negative 0

/-- The result of an operation that has no number as its result. -/
def nan : Double := ofMagnitude false (infiniteMagnitude + leadingBit / 2)

/-- The same number with the other sign. -/
def neg (value : Double) : Double := ofMagnitude (!value.isNegative) value.magnitude

/-- The integer significand of a finite value. -/
def significand (value : Double) : Nat :=
  let fraction := value.magnitude % leadingBit
  if value.magnitude < leadingBit then fraction else leadingBit + fraction

/-- The power of two that scales the significand of a finite value, counted from the least one,
which is `2 ^ (-1074)`. -/
def scale (value : Double) : Nat :=
  value.magnitude / leadingBit - 1

/-! ### Rounding -/

/-- The natural number nearest to a quotient, the even one of two. -/
def roundQuotient (numerator denominator : Nat) : Nat :=
  let quotient := numerator / denominator
  let remainder := numerator % denominator
  if 2 * remainder < denominator then quotient
  else if denominator < 2 * remainder then quotient + 1
  else quotient + quotient % 2

/-- The ratio of two naturals, times a power of two, as a ratio of two naturals. -/
def shiftRatio (numerator denominator : Nat) : Int → Nat × Nat
  | .ofNat power => (numerator * twoPow power, denominator)
  | .negSucc power => (numerator, denominator * twoPow (power + 1))

/-- The greatest power of two that is at most the quotient of two positive naturals. -/
def floorLog2 (numerator denominator : Nat) : Int :=
  let guess : Int := (numerator.log2 : Int) - (denominator.log2 : Int)
  let (scaledNumerator, scaledDenominator) := shiftRatio numerator denominator (-guess)
  if scaledDenominator ≤ scaledNumerator then guess else guess - 1

/-- The double nearest to a quotient of naturals, of the given sign. Quotients too large for a
finite double round to infinity. -/
def ofRatio (negative : Bool) (numerator denominator : Nat) : Double :=
  if numerator = 0 then
    zero negative
  else
    let exponent := max (floorLog2 numerator denominator - 52) (-1074)
    let (scaledNumerator, scaledDenominator) := shiftRatio numerator denominator (-exponent)
    let significand := roundQuotient scaledNumerator scaledDenominator
    -- The implicit leading bit of the significand carries into the exponent field.
    let magnitude := significand + (exponent + 1074).toNat * leadingBit
    ofMagnitude negative (min magnitude infiniteMagnitude)

/-- The double nearest to an integer. -/
def ofInt (value : Int) : Double :=
  ofRatio (decide (value < 0)) value.natAbs 1

/-- The double nearest to `digits * 10 ^ exponent`. Exponents far outside the range of doubles are
decided by the number of digits alone. -/
def ofDecimal (digits : Nat) (exponent : Int) : Double :=
  let leading : Int := (Nat.toDigits 10 digits).length + exponent
  if digits = 0 ∨ leading < -400 then zero false
  else if 400 < leading then infinity false
  else
    match exponent with
    | .ofNat power => ofRatio false (digits * tenPow power) 1
    | .negSucc power => ofRatio false digits (tenPow (power + 1))

/-! ### Conversion to integers -/

/-- The value without its fraction, if the value is finite. -/
def truncate? (value : Double) : Option Int :=
  if infiniteMagnitude ≤ value.magnitude then none
  else
    let whole : Nat := value.significand * twoPow value.scale / twoPow 1074
    some (if value.isNegative then -(whole : Int) else (whole : Int))

/-- The truncated value as a signed word; values out of range give the least word. -/
def toInt64 (value : Double) : Int64 :=
  match value.truncate? with
  | some whole =>
    if -signBit ≤ whole ∧ whole < signBit then Int64.ofInt whole else Int64.minValue
  | none => Int64.minValue

/-- The truncated value as an unsigned word. Negative values wrap around; values out of range give
the word that only has its highest bit set. -/
def toUInt64 (value : Double) : UInt64 :=
  match value.truncate? with
  | some whole =>
    if -signBit ≤ whole ∧ whole < 2 * signBit then (Int64.ofInt whole).toUInt64
    else UInt64.ofNat signBit
  | none => UInt64.ofNat signBit

/-! ### Arithmetic -/

/-- The double nearest to an integer times the least positive double. -/
def ofUnits (value : Int) : Double :=
  ofRatio (decide (value < 0)) value.natAbs (twoPow 1074)

/-- A finite value as a multiple of the least positive double. -/
def units (value : Double) : Int :=
  let size : Int := value.significand * twoPow value.scale
  if value.isNegative then -size else size

/-- The sum, rounded. Opposite finite values add up to positive zero. -/
def add (left right : Double) : Double :=
  if left.isNaN ∨ right.isNaN then nan
  else if left.isInfinite then
    if right.isInfinite ∧ left.isNegative ≠ right.isNegative then nan else left
  else if right.isInfinite then right
  else
    let sum := left.units + right.units
    if sum = 0 then zero (left.isNegative && right.isNegative) else ofUnits sum

/-- The difference, rounded. -/
def sub (left right : Double) : Double := left.add right.neg

/-- The product, rounded. -/
def mul (left right : Double) : Double :=
  let negative := left.isNegative != right.isNegative
  if left.isNaN ∨ right.isNaN then nan
  else if left.isInfinite ∨ right.isInfinite then
    if left.isZero ∨ right.isZero then nan else infinity negative
  else
    ofRatio negative
      (left.significand * right.significand * twoPow (left.scale + right.scale))
      (twoPow 2148)

/-- The quotient, rounded. A nonzero value divided by zero is infinite. -/
def div (left right : Double) : Double :=
  let negative := left.isNegative != right.isNegative
  if left.isNaN ∨ right.isNaN then nan
  else if left.isInfinite then
    if right.isInfinite then nan else infinity negative
  else if right.isInfinite then zero negative
  else if right.isZero then
    if left.isZero then nan else infinity negative
  else
    ofRatio negative (left.significand * twoPow left.scale)
      (right.significand * twoPow right.scale)

/-! ### Comparison -/

/-- The magnitude with its sign, which orders all values but NaN; both zeros give zero. -/
def orderKey (value : Double) : Int :=
  if value.isNegative then -(value.magnitude : Int) else value.magnitude

/-- Whether neither value is NaN, so that the two can be compared. -/
def comparable (left right : Double) : Bool := !left.isNaN && !right.isNaN

/-- Whether the left value is less. -/
def lt (left right : Double) : Bool := comparable left right && left.orderKey < right.orderKey

/-- Whether the left value is less or equal. -/
def le (left right : Double) : Bool := comparable left right && left.orderKey ≤ right.orderKey

/-- Whether both values are the same number. -/
def eq (left right : Double) : Bool := comparable left right && left.orderKey == right.orderKey

end Double

end SubsetC
