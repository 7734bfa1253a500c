import SubsetC.Text
import SubsetC.Size

/-!
# C types

The types of the language: void, seven integer types, double, and pointers, arrays and functions
built from them, with their sizes and alignments on a target with 64-bit longs and pointers.
-/

namespace SubsetC

/-- The integer types. Plain char is signed, but is a type of its own. -/
inductive IntType where
  | char
  | schar
  | uchar
  | int
  | uint
  | long
  | ulong
  deriving DecidableEq, Repr

namespace IntType

/-- The number of bytes of a value. -/
def size : IntType → Nat
  | .char | .schar | .uchar => 1
  | .int | .uint => 4
  | .long | .ulong => 8

/-- Whether negative values are represented. -/
def isSigned : IntType → Bool
  | .char | .schar | .int | .long => true
  | .uchar | .uint | .ulong => false

/-- The name dumps give the type. -/
def text : IntType → Text
  | .char => "Char"
  | .schar => "SChar"
  | .uchar => "UChar"
  | .int => "Int"
  | .uint => "UInt"
  | .long => "Long"
  | .ulong => "ULong"

end IntType

/-- The types of the language. -/
inductive CType where
  | void
  | integer (kind : IntType)
  | double
  | pointer (element : CType)
  | array (size : Int) (element : CType)
  | function (parameters : List CType) (result : CType)
  deriving Repr, Inhabited

namespace CType

mutual

/-- Whether two types are built alike: by the same constructor, with equal sizes and parts. -/
def equal : (left right : CType) → Bool
  | .void, .void | .double, .double => true
  | .integer left, .integer right => left = right
  | .pointer left, .pointer right => left.equal right
  | .array leftSize left, .array rightSize right => leftSize = rightSize && left.equal right
  | .function leftParameters left, .function rightParameters right =>
    left.equal right && equalList leftParameters rightParameters
  | _, _ => false

/-- Whether two lists of types have equal lengths and members. -/
def equalList : (left right : List CType) → Bool
  | [], [] => true
  | left :: lefts, right :: rights => left.equal right && equalList lefts rights
  | _, _ => false

end

mutual

/-- Types that are built alike are the same. -/
theorem equal_iff : (left right : CType) → (left.equal right = true ↔ left = right)
  | .void, right | .integer _, right | .double, right => by cases right <;> simp [equal]
  | .pointer left, right => by cases right <;> simp [equal, equal_iff left]
  | .array _ left, right => by cases right <;> simp [equal, equal_iff left]
  | .function parameters left, right => by
    cases right <;> simp [equal, equal_iff left, equalList_iff parameters, and_comm]

theorem equalList_iff : (left right : List CType) → (equalList left right = true ↔ left = right)
  | [], right => by cases right <;> simp [equalList]
  | left :: lefts, right => by
    cases right <;> simp [equalList, equal_iff left, equalList_iff lefts]

end

instance : DecidableEq CType := fun left right => decidable_of_iff _ (equal_iff left right)

abbrev char : CType := .integer .char

/-- Signed char. -/
abbrev schar : CType := .integer .schar

/-- Unsigned char. -/
abbrev uchar : CType := .integer .uchar

/-- Signed 32-bit int. -/
abbrev int : CType := .integer .int

/-- Unsigned 32-bit int. -/
abbrev uint : CType := .integer .uint

/-- Signed 64-bit long. -/
abbrev long : CType := .integer .long

/-- Unsigned 64-bit long. -/
abbrev ulong : CType := .integer .ulong

mutual

/-- The text dumps and messages show for a type. -/
def text : CType → Text
  | .void => "Void"
  | .integer kind => kind.text
  | .double => "Double"
  | .pointer element => "Pointer(" ++ element.text ++ ")"
  | .array size element => "Array(" ++ Text.ofInt size ++ ", " ++ element.text ++ ")"
  | .function parameters result =>
    "FunType(params=[" ++ Text.commas (texts parameters) ++ "], ret=" ++ result.text ++ ")"

def texts : List CType → List Text
  | [] => []
  | type :: types => type.text :: texts types

end

/-! ### Sizes -/

/-- The number of bytes of an object. Void and function types have none and give zero. -/
def size : CType → Size
  | .void | .function _ _ => 0
  | .integer kind => kind.size
  | .double | .pointer _ => 8
  | .array size element => Size.mul size element.size

/-- The alignment of an object: that of the innermost element for an array. -/
def alignment : CType → Size
  | .array _ element => element.alignment
  | type => type.size

/-! ### Classes of types -/

/-- Whether the type is an integer type. -/
def isInteger : CType → Bool
  | .integer _ => true
  | _ => false

def isDouble : CType → Bool
  | .double => true
  | _ => false

def isArithmetic (type : CType) : Bool := type.isInteger || type.isDouble

/-- Whether the type is one of the three character types. -/
def isCharacter : CType → Bool
  | .integer .char | .integer .schar | .integer .uchar => true
  | _ => false

/-- Whether the type is a pointer type. -/
def isPointer : CType → Bool
  | .pointer _ => true
  | _ => false

/-- Whether the type is an array type. -/
def isArray : CType → Bool
  | .array _ _ => true
  | _ => false

/-- Whether the type is a function type. -/
def isFunction : CType → Bool
  | .function _ _ => true
  | _ => false

def isVoid : CType → Bool
  | .void => true
  | _ => false

def isScalar (type : CType) : Bool := type.isArithmetic || type.isPointer

def isVoidPointer : CType → Bool
  | .pointer .void => true
  | _ => false

/-- Whether objects of the type have a size. -/
def isComplete : CType → Bool
  | .void | .function _ _ => false
  | .array _ element => element.isComplete
  | _ => true

/-- Whether the type points at objects that have a size. -/
def isPointerToComplete : CType → Bool
  | .pointer element => element.isComplete
  | _ => false

/-- Whether an arithmetic type is signed. Pointers count as unsigned. -/
def isSigned : CType → Bool
  | .integer kind => kind.isSigned
  | .double => true
  | _ => false

/-- The element type of an array, or the type a pointer points at. -/
def element? : CType → Option CType
  | .pointer element | .array _ element => some element
  | _ => none

/-! ### Conversions -/

/-- The integer promotion: character types become int. -/
def promote (type : CType) : CType :=
  if type.isCharacter then int else type

/-- The type in which an arithmetic operation on operands of the given types is carried out.
Double wins; otherwise the wider type, and the unsigned one of two types of equal size. -/
def common (left right : CType) : CType :=
  let left := left.promote
  let right := right.promote
  if left = right then left
  else if left.isDouble || right.isDouble then double
  else if left.isSigned = right.isSigned then
    if right.size < left.size then left else right
  else
    let (unsigned, signed) := if left.isSigned then (right, left) else (left, right)
    if signed.size ≤ unsigned.size then unsigned else signed

end CType

end SubsetC
