/-!
# Byte texts

Source files, names and dumps are sequences of bytes that need not be valid UTF-8, so every text
of this library is a list of bytes. This file gives the few operations all printers share: string
literals as texts, numbers in decimal and hexadecimal, and joining with a separator.
-/

namespace SubsetC

/-- A sequence of bytes. -/
abbrev Text := List UInt8

namespace Text

/-- The UTF-8 bytes of a string. -/
def ofString (string : String) : Text :=
  string.toList.flatMap String.utf8EncodeChar

instance : Coe String Text := ⟨ofString⟩

/-- The single byte of an ASCII character. -/
def ofAscii (character : Char) : UInt8 := character.toUInt8

/-- Decimal digits without leading zeros. -/
def ofNat (number : Nat) : Text :=
  (Nat.toDigits 10 number).map ofAscii

/-- Decimal digits, after a minus sign if the number is negative. -/
def ofInt : Int → Text
  | .ofNat number => ofNat number
  | .negSucc number => ofAscii '-' :: ofNat (number + 1)

/-- A truth value as `true` or `false`. -/
def ofBool (value : Bool) : Text :=
  if value then "true" else "false"

/-- The lower-case hexadecimal digit of a number below sixteen. -/
def hexDigit (digit : Nat) : UInt8 :=
  ofAscii (Nat.digitChar digit)

/-- The `width` lowest hexadecimal digits of a number, the most significant first. -/
def hex : (width number : Nat) → Text
  | 0, _ => []
  | width + 1, number => hex width (number / 16) ++ [hexDigit (number % 16)]

/-- The texts in order, with a separator between neighbours. -/
def join (separator : Text) (texts : List Text) : Text :=
  separator.intercalate texts

/-- The texts in order, separated by a comma and a space. -/
def commas (texts : List Text) : Text :=
  join ", " texts

/-- The number a sequence of decimal digits denotes. -/
def toNat (digits : Text) : Nat :=
  digits.foldl (fun number digit => number * 10 + (digit.toNat - 48)) 0

end Text

end SubsetC
