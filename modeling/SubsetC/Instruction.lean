import SubsetC.Const
import SubsetC.Operator

/-!
# Instructions

The flat code that functions are lowered to. An operand is a constant or a named object, or is
left out, and the types of objects are in the symbol table. An instruction has two texts: a short
three-address form, and a form that names every field.
-/

namespace SubsetC

/-- What an instruction reads or writes. -/
inductive Operand where
  | constant (value : Const)
  /-- A parameter, a local or static object, or a temporary. -/
  | var (name : Text)
  /-- Nothing: the result of a function without one. -/
  | absent
  deriving DecidableEq, Repr

namespace Operand

/-- The short text. Where an operand is needed, one that is left out shows as a mark. -/
def text : Operand → Text
  | .constant value => value.text
  | .var name => name
  | .absent => "%!s(<nil>)"

/-- The text that tells constants from objects. -/
def debugText : Operand → Text
  | .constant value => "Constant(" ++ value.text ++ ")"
  | .var name => "Var(" ++ name ++ ")"
  | .absent => "None"

/-- The name of an object; other operands have none. -/
def name? : Operand → Option Text
  | .var name => some name
  | .constant _ | .absent => none

end Operand

/-- Changes of representation. -/
inductive ConvertOp where
  | signExtend
  | zeroExtend
  | truncate
  | doubleToInt
  | doubleToUInt
  | intToDouble
  | uintToDouble
  deriving DecidableEq, Repr

namespace ConvertOp

def text : ConvertOp → Text
  | .signExtend => "sign_extend"
  | .zeroExtend => "zero_extend"
  | .truncate => "truncate"
  | .doubleToInt => "double_to_int"
  | .doubleToUInt => "double_to_uint"
  | .intToDouble => "int_to_double"
  | .uintToDouble => "uint_to_double"

def name : ConvertOp → Text
  | .signExtend => "SignExtend"
  | .zeroExtend => "ZeroExtend"
  | .truncate => "Truncate"
  | .doubleToInt => "DoubleToInt"
  | .doubleToUInt => "DoubleToUInt"
  | .intToDouble => "IntToDouble"
  | .uintToDouble => "UIntToDouble"

end ConvertOp

inductive OneOp where
  | complement
  | negate
  | not
  deriving DecidableEq, Repr

namespace OneOp

def text : OneOp → Text
  | .complement => "~"
  | .negate => "-"
  | .not => "!"

def name : OneOp → Text
  | .complement => "Complement"
  | .negate => "Negate"
  | .not => "Not"

end OneOp

def ArithOp.name : ArithOp → Text
  | .add => "Add"
  | .sub => "Sub"
  | .mul => "Mult"
  | .div => "Div"
  | .rem => "Rem"
  | .bitAnd => "BitAnd"
  | .bitOr => "BitOr"
  | .bitXor => "BitXor"
  | .shiftLeft => "ShiftLeft"
  | .shiftRight => "ShiftRight"

def CompareOp.name : CompareOp → Text
  | .equal => "Equal"
  | .notEqual => "NotEqual"
  | .less => "LessThan"
  | .lessEqual => "LessOrEqual"
  | .greater => "GreaterThan"
  | .greaterEqual => "GreaterOrEqual"

/-- Operations on two operands, whose types decide between signed and unsigned. -/
inductive TwoOp where
  | arith (op : ArithOp)
  | compare (op : CompareOp)
  deriving DecidableEq, Repr

namespace TwoOp

def text : TwoOp → Text
  | .arith op => op.text
  | .compare op => op.text

def name : TwoOp → Text
  | .arith op => op.name
  | .compare op => op.name

end TwoOp

inductive Instruction where
  /-- Leaves the function, with a value unless its result is void. -/
  | ret (value : Operand)
  /-- Changes the representation of a value. -/
  | convert (op : ConvertOp) (source target : Operand)
  | unary (op : OneOp) (source target : Operand)
  | binary (op : TwoOp) (left right target : Operand)
  /-- Copies a value. -/
  | copy (source target : Operand)
  /-- Takes the address of an object. -/
  | getAddress (source target : Operand)
  /-- Reads the object behind a pointer. -/
  | load (pointer target : Operand)
  /-- Writes the object behind a pointer. -/
  | store (source pointer : Operand)
  /-- Adds an index to a pointer to elements of the given size. -/
  | addPointer (pointer index : Operand) (scale : Size) (target : Operand)
  /-- Writes a part of an object. -/
  | copyToOffset (source : Operand) (target : Text) (offset : Size)
  /-- Reads a part of an object. -/
  | copyFromOffset (source : Text) (offset : Size) (target : Operand)
  /-- Goes to a label. -/
  | jump (target : Text)
  /-- Goes to a label if a value is zero. -/
  | jumpIfZero (condition : Operand) (target : Text)
  /-- Goes to a label if a value is not zero. -/
  | jumpIfNotZero (condition : Operand) (target : Text)
  /-- Marks a place that jumps go to. -/
  | label (name : Text)
  /-- Calls a function, with a target unless its result is void. -/
  | call (function : Text) (arguments : List Operand) (target : Operand)
  deriving DecidableEq, Repr

/-- The body of a function, or a part of it. -/
abbrev Code := List Instruction

namespace Instruction

/-- The three-address form. -/
def text : Instruction → Text
  | .ret .absent => "return"
  | .ret value => "return " ++ value.text
  | .convert op source target => target.text ++ " = " ++ op.text ++ " " ++ source.text
  | .unary op source target => target.text ++ " = " ++ op.text ++ source.text
  | .binary op left right target =>
    target.text ++ " = " ++ left.text ++ " " ++ op.text ++ " " ++ right.text
  | .copy source target => target.text ++ " = " ++ source.text
  | .getAddress source target => target.text ++ " = &" ++ source.text
  | .load pointer target => target.text ++ " = *" ++ pointer.text
  | .store source pointer => "*" ++ pointer.text ++ " = " ++ source.text
  | .addPointer pointer index scale target =>
    target.text ++ " = add_ptr(" ++ pointer.text ++ ", " ++ index.text ++ ", scale=" ++
      Text.ofInt scale ++ ")"
  | .copyToOffset source target offset =>
    target ++ "[" ++ Text.ofInt offset ++ "] = " ++ source.text
  | .copyFromOffset source offset target =>
    target.text ++ " = " ++ source ++ "[" ++ Text.ofInt offset ++ "]"
  | .jump target => "jump " ++ target
  | .jumpIfZero condition target => "jump_if_zero(" ++ condition.text ++ ", " ++ target ++ ")"
  | .jumpIfNotZero condition target =>
    "jump_if_not_zero(" ++ condition.text ++ ", " ++ target ++ ")"
  | .label name => name ++ ":"
  | .call function arguments .absent =>
    function ++ "(" ++ Text.commas (arguments.map Operand.text) ++ ")"
  | .call function arguments target =>
    target.text ++ " = " ++ function ++ "(" ++ Text.commas (arguments.map Operand.text) ++ ")"

/-- Whether the three-address form exists: the arguments of a call must not be left out. -/
def hasText : Instruction → Bool
  | .call _ arguments _ => !arguments.contains .absent
  | _ => true

/-- A constructor with its fields by name. -/
def record (name : Text) (fields : List (Text × Text)) : Text :=
  name ++ "\x7b" ++ Text.commas (fields.map fun (field, value) => field ++ ": " ++ value) ++ "\x7d"

/-- The name of the constructor in the form that names every field. Each conversion has its own. -/
def debugName : Instruction → Text
  | .ret _ => "Return"
  | .convert op _ _ => op.name
  | .unary _ _ _ => "Unary"
  | .binary _ _ _ _ => "Binary"
  | .copy _ _ => "Copy"
  | .getAddress _ _ => "GetAddress"
  | .load _ _ => "Load"
  | .store _ _ => "Store"
  | .addPointer _ _ _ _ => "AddPtr"
  | .copyToOffset _ _ _ => "CopyToOffset"
  | .copyFromOffset _ _ _ => "CopyFromOffset"
  | .jump _ => "Jump"
  | .jumpIfZero _ _ => "JumpIfZero"
  | .jumpIfNotZero _ _ => "JumpIfNotZero"
  | .label _ => "Label"
  | .call _ _ _ => "FunCall"

/-- The fields of the form that names every field, with the texts of their values. -/
def debugFields : Instruction → List (Text × Text)
  | .ret value => [("Value", value.debugText)]
  | .convert _ source target | .copy source target | .getAddress source target =>
    [("Src", source.debugText), ("Dst", target.debugText)]
  | .unary op source target =>
    [("Op", op.name), ("Src", source.debugText), ("Dst", target.debugText)]
  | .binary op left right target =>
    [("Op", op.name), ("Src1", left.debugText), ("Src2", right.debugText),
      ("Dst", target.debugText)]
  | .load pointer target => [("Ptr", pointer.debugText), ("Dst", target.debugText)]
  | .store source pointer => [("Src", source.debugText), ("Ptr", pointer.debugText)]
  | .addPointer pointer index scale target =>
    [("Ptr", pointer.debugText), ("Index", index.debugText), ("Scale", Text.ofInt scale),
      ("Dst", target.debugText)]
  | .copyToOffset source target offset =>
    [("Src", source.debugText), ("Dst", target), ("Offset", Text.ofInt offset)]
  | .copyFromOffset source offset target =>
    [("Src", source), ("Offset", Text.ofInt offset), ("Dst", target.debugText)]
  | .jump target => [("Target", target)]
  | .jumpIfZero condition target | .jumpIfNotZero condition target =>
    [("Cond", condition.debugText), ("Target", target)]
  | .label name => [("Name", name)]
  | .call function arguments target =>
    [("Name", function), ("Args", "[" ++ Text.commas (arguments.map Operand.debugText) ++ "]"),
      ("Dst", target.debugText)]

/-- The form that names every field. -/
def debugText (instruction : Instruction) : Text :=
  record instruction.debugName instruction.debugFields

/-- The operands an instruction mentions, in order, with those it writes last. Parts of objects
count as operands. -/
def operands : Instruction → List Operand
  | .ret value => [value]
  | .convert _ source target | .unary _ source target | .copy source target
  | .getAddress source target => [source, target]
  | .binary _ left right target => [left, right, target]
  | .load pointer target => [pointer, target]
  | .store source pointer => [source, pointer]
  | .addPointer pointer index _ target => [pointer, index, target]
  | .copyToOffset source target _ => [source, .var target]
  | .copyFromOffset source _ target => [.var source, target]
  | .jumpIfZero condition _ | .jumpIfNotZero condition _ => [condition]
  | .jump _ | .label _ => []
  | .call _ arguments target => arguments ++ [target]

/-- The names of the objects an instruction mentions. -/
def names (instruction : Instruction) : List Text :=
  instruction.operands.filterMap Operand.name?

end Instruction

end SubsetC
