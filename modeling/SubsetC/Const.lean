import SubsetC.CType
import SubsetC.Double.Shortest

/-!
# Typed constants

A constant is a value of one of seven kinds: signed and unsigned words of one, four and eight
bytes, and doubles. Conversions between integer kinds are modular, as in C.
-/

namespace SubsetC

/-- A typed scalar constant. Signed char shares the kind of plain char. -/
inductive Const where
  | char (value : Int8)
  | uchar (value : UInt8)
  | int (value : Int32)
  | uint (value : UInt32)
  | long (value : Int64)
  | ulong (value : UInt64)
  | double (value : Double)
  deriving DecidableEq, Repr

namespace Const

def type : Const → CType
  | .char _ => .char
  | .uchar _ => .uchar
  | .int _ => .int
  | .uint _ => .uint
  | .long _ => .long
  | .ulong _ => .ulong
  | .double _ => .double

/-- The value as a signed word; a double is truncated. -/
def toInt64 : Const → Int64
  | .char value => value.toInt64
  | .uchar value => value.toUInt64.toInt64
  | .int value => value.toInt64
  | .uint value => value.toUInt64.toInt64
  | .long value => value
  | .ulong value => value.toInt64
  | .double value => value.toInt64

/-- The value as an unsigned word. -/
def toUInt64 (constant : Const) : UInt64 := constant.toInt64.toUInt64

def toDouble : Const → Double
  | .double value => value
  | .ulong value => .ofInt value.toNat
  | constant => .ofInt constant.toInt64.toInt

def isZero : Const → Bool
  | .double value => value.isZero
  | constant => constant.toInt64 = 0

/-- Whether the constant is the double zero with a negative sign. -/
def isNegativeZero : Const → Bool
  | .double value => value.isZero && value.isNegative
  | _ => false

/-- The value as it is written, without the suffix of its kind. -/
def literal : Const → Text
  | .char value => Text.ofInt value.toInt
  | .uchar value => Text.ofNat value.toNat
  | .int value => Text.ofInt value.toInt
  | .uint value => Text.ofNat value.toNat
  | .long value => Text.ofInt value.toInt
  | .ulong value => Text.ofNat value.toNat
  | .double value => value.text

/-- The suffix that marks the kind; characters and int share the empty one. -/
def suffix : Const → Text
  | .char _ | .uchar _ | .int _ => ""
  | .uint _ => "U"
  | .long _ => "L"
  | .ulong _ => "UL"
  | .double _ => "D"

/-- The value as it is written. -/
def text (constant : Const) : Text := constant.literal ++ constant.suffix

/-- The constant of an integer type that is congruent to a word. -/
def ofInt64 (value : Int64) : IntType → Const
  | .char | .schar => .char value.toInt8
  | .uchar => .uchar value.toUInt64.toUInt8
  | .int => .int value.toInt32
  | .uint => .uint value.toUInt64.toUInt32
  | .long => .long value
  | .ulong => .ulong value.toUInt64

/-- The constant of a type that is congruent to a word. Pointers are unsigned longs; void, array
and function types have no constants. -/
def ofInt64? (value : Int64) : CType → Option Const
  | .integer kind => some (ofInt64 value kind)
  | .double => some (.double (.ofInt value.toInt))
  | .pointer _ => some (.ulong value.toUInt64)
  | .void | .array _ _ | .function _ _ => none

/-- The constant converted to a type, if the type has constants. -/
def convert? (constant : Const) (type : CType) : Option Const :=
  if constant.type = type then some constant
  else if type.isDouble then some (.double constant.toDouble)
  else
    match constant with
    | .double value =>
      if type.isSigned then ofInt64? value.toInt64 type else ofInt64? value.toUInt64.toInt64 type
    | _ => ofInt64? constant.toInt64 type

/-- The zero of a type, if the type has constants. -/
def zero? (type : CType) : Option Const := ofInt64? 0 type

/-- A size as an unsigned long constant. -/
def ofSize (size : Size) : Const := .ulong (Int64.ofInt size).toUInt64

def ofBool (value : Bool) : Const := .int (if value then 1 else 0)

end Const

end SubsetC
