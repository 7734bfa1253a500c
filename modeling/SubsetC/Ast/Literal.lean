import SubsetC.Double.Numeral
import SubsetC.Failure
import SubsetC.Text.Escape
import SubsetC.Token.Lexer

/-!
# Values of literals

The constants that number and character literals denote.
-/

namespace SubsetC

namespace Literal

/-- Whether a byte can stand in the suffix of an integer literal. -/
def isSuffixMark (byte : UInt8) : Bool := Lexer.isUnsignedMark byte || Lexer.isLongMark byte

/-- An integer literal without its suffix, and the suffix: the marks at the end of the literal. -/
def splitSuffix (literal : Text) : Text × Text :=
  let reversed := literal.reverse
  ((reversed.dropWhile isSuffixMark).reverse, (reversed.takeWhile isSuffixMark).reverse)

/-- The number that a text of decimal digits denotes. Other texts, and the empty one, denote none. -/
def decimal? (text : Text) : Option Nat :=
  if text.isEmpty || text.any (!Lexer.isDigit ·) then none else some (Text.toNat text)

/-- The constant that an integer literal with a value stands for. Its type is the first of int and
long, or of unsigned int and unsigned long, that the suffix allows and that has the value. -/
def typed (literal : Text) (isUnsigned isLong : Bool) (value : Nat) : Except SyntaxError Const :=
  if UInt64.size ≤ value then throw (.integerTooLarge literal)
  else if isUnsigned then
    if isLong || UInt32.size ≤ value then pure (.ulong (UInt64.ofNat value))
    else pure (.uint (UInt32.ofNat value))
  else if UInt64.size / 2 ≤ value then throw (.integerTooLargeForLong literal)
  else if isLong || UInt32.size / 2 ≤ value then pure (.long (Int64.ofNat value))
  else pure (.int (Int32.ofNat value))

def integer (literal : Text) : Except SyntaxError Const :=
  let (digits, suffix) := splitSuffix literal
  match decimal? digits with
  | some value =>
    typed literal (suffix.any Lexer.isUnsignedMark) (suffix.any Lexer.isLongMark) value
  | none => throw (.integerTooLarge literal)

/-- Whether a byte marks the exponent of a floating literal. -/
def isExponentMark (byte : UInt8) : Bool :=
  byte = Text.ofAscii 'e' || byte = Text.ofAscii 'E'

/-- The exponent after its mark. -/
def exponent (text : Text) : Int :=
  match text with
  | byte :: digits =>
    if byte = Text.ofAscii '-' then -(Numeral.exponentValue digits : Int)
    else if byte = Text.ofAscii '+' then Numeral.exponentValue digits
    else Numeral.exponentValue text
  | [] => 0

/-- The numeral a floating literal is. -/
def numeral (literal : Text) : Numeral :=
  let mantissa := literal.takeWhile (!isExponentMark ·)
  let whole := mantissa.takeWhile Lexer.isDigit
  let fraction := mantissa.drop (whole.length + 1)
  .ofParts whole fraction (exponent (literal.drop (mantissa.length + 1)))

def floating (literal : Text) : Const := .double (numeral literal).toDouble

/-- The constant of a character literal, an int. Plain char is signed, so bytes from 128 on are
negative. -/
def character (literal : Text) : Const :=
  .int (((Text.unescape literal).headD 0).toInt8.toInt32)

end Literal

end SubsetC
