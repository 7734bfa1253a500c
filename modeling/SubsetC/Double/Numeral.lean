import SubsetC.Double
import SubsetC.Text

/-!
# Decimal numerals

The double that a decimal numeral denotes. A numeral may have any number of digits, but only a
bounded part of it takes part in arithmetic. The first digits decide the result if every
continuation of them rounds to the same double. Otherwise a longer part decides, which is long
enough to tell on which side of the middle between two doubles the number lies.
-/

namespace SubsetC

/-- A decimal numeral without a sign. -/
structure Numeral where
  /-- The digits from the first one that is not zero. -/
  digits : Text
  /-- The number of digits before the point. It is negative if the digits start after zeros that
  follow the point. -/
  point : Int
  /-- The power of ten that scales the number. -/
  exponent : Int
  deriving DecidableEq, Repr

namespace Numeral

def zeroDigit : UInt8 := Text.ofAscii '0'

/-- The digits from the first one that is not zero. -/
def significant (digits : Text) : Text := digits.dropWhile (· = zeroDigit)

/-- The numeral with digits before and after the point. -/
def ofParts (whole fraction : Text) (exponent : Int) : Numeral :=
  let all := whole ++ fraction
  let digits := significant all
  let leadingZeros : Int := all.length - digits.length
  ⟨digits, whole.length - leadingZeros, exponent⟩

/-- The number of digits of an exponent that count. -/
def exponentDigits : Nat := 5

/-- The value of the digits of an exponent: what the first ones denote, leading zeros apart. An
exponent with more digits is beyond all doubles anyway, unless the numeral itself is that long. -/
def exponentValue (digits : Text) : Nat := Text.toNat ((significant digits).take exponentDigits)

/-- The number of digits that decide most numerals. -/
def headDigits : Nat := 19

/-- The number of digits that decide all numerals. A number halfway between two doubles has fewer
digits. -/
def maxDigits : Nat := 800

/-- The exponent of the last of the given number of leading digits. -/
def lastExponent (numeral : Numeral) (count : Nat) : Int :=
  numeral.point + numeral.exponent - count

/-- The double nearest to the numeral, all digits taken together. -/
def nearest (numeral : Numeral) : Double :=
  .ofDecimal (Text.toNat numeral.digits) (numeral.lastExponent numeral.digits.length)

/-- The numeral cut after as many digits as can matter. One more digit stands for those cut off,
unless they are all zero. The point of the numeral stands after the kept digits at the latest. -/
def cut (numeral : Numeral) : Numeral :=
  let rest := numeral.digits.drop maxDigits
  let mark : Text := if rest.all (· = zeroDigit) then [] else [Text.ofAscii '1']
  { numeral with
    digits := numeral.digits.take maxDigits ++ mark
    point := min numeral.point maxDigits }

/-- The double that the numeral denotes. The first digits decide it if there are no others but
zeros, or if the next number with as many digits rounds to the same double. -/
def toDouble (numeral : Numeral) : Double :=
  let head := numeral.digits.take headDigits
  let rest := numeral.digits.drop headDigits
  let exponent := numeral.lastExponent head.length
  let lower := Double.ofDecimal (Text.toNat head) exponent
  let upper := Double.ofDecimal (Text.toNat head + 1) exponent
  if rest.all (· = zeroDigit) || lower = upper then lower else numeral.cut.nearest

end Numeral

end SubsetC
