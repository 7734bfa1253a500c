import SubsetC.Instruction
import SubsetC.Pass

/-!
# Places and values

The building blocks of lowering. The code of an expression leaves its result in a place: an
operand, or an object behind a pointer that has not been read yet. Each block gives the code it
adds, and the operand that holds its result afterwards.
-/

namespace SubsetC

def Pass.newTemporary (type : CType) : Pass Operand := do
  let name ← Pass.uniqueName "tmp"
  Pass.setSymbol name type .automatic
  pure (.var name)

/-- Where the code of an expression leaves its result. -/
inductive Place where
  /-- The expression is void. -/
  | nowhere
  | value (operand : Operand)
  /-- The object behind a pointer. -/
  | behind (pointer : Operand)
  deriving DecidableEq, Repr

namespace Place

/-- The value in a place of a type. -/
def load (type : CType) : Place → Pass (Code × Operand)
  | .nowhere => throw (.internal .noValue)
  | .value operand => pure ([], operand)
  | .behind pointer => do
    let target ← Pass.newTemporary type
    pure ([.load pointer target], target)

/-- Writes a value to a place. -/
def store (source : Operand) : Place → Pass Code
  | .nowhere => throw (.internal .noValue)
  | .value operand => pure [.copy source operand]
  | .behind pointer => pure [.store source pointer]

/-- The address of an operand, in a new temporary of a pointer type. -/
def addressOf (pointerType : CType) (operand : Operand) : Pass (Code × Operand) := do
  let target ← Pass.newTemporary pointerType
  pure ([.getAddress operand target], target)

def address (pointerType : CType) : Place → Pass (Code × Operand)
  | .nowhere => throw (.internal .noValue)
  | .value operand => addressOf pointerType operand
  | .behind pointer => pure ([], pointer)

/-- The address of the first element of an array in a place. -/
def firstElement (pointerType : CType) : Place → Pass (Code × Operand)
  | .nowhere => throw (.internal .noValue)
  | .value operand => addressOf pointerType operand
  | .behind pointer => do
    let target ← Pass.newTemporary pointerType
    pure ([.copy pointer target], target)

end Place

namespace Const

/-- The constant converted to a type that has constants. -/
def convert (constant : Const) (type : CType) : Pass Const :=
  match constant.convert? type with
  | some value => pure value
  | none => throw (.missing (.constant type))

end Const

/-- The change of representation between two different scalar types; types of the same size need
none, unless one of them is double. -/
def ConvertOp.between? (source target : CType) : Option ConvertOp :=
  if target.isDouble then some (if source.isSigned then .intToDouble else .uintToDouble)
  else if source.isDouble then some (if target.isSigned then .doubleToInt else .doubleToUInt)
  else if source.size = target.size then none
  else if target.size < source.size then some .truncate
  else if source.isSigned then some .signExtend
  else some .zeroExtend

namespace Operand

/-- The value of a constant expression of a type. -/
def ofConst (value : Const) : Code × Operand := ([], .constant value)

/-- Converts an object by an instruction. -/
def convertObject (source target : CType) (operand : Operand) : Pass (Code × Operand) := do
  let temporary ← Pass.newTemporary target
  match ConvertOp.between? source target with
  | some op => pure ([.convert op operand temporary], temporary)
  | none => pure ([.copy operand temporary], temporary)

/-- Converts a value between types. Constants are converted at once, to unsigned long where a
pointer is asked for. -/
def convert (source target : CType) (operand : Operand) : Pass (Code × Operand) :=
  if source = target then pure ([], operand)
  else
    match operand with
    | .constant value =>
      if target.isArithmetic then do pure (ofConst (← value.convert target))
      else if target.isPointer then do pure (ofConst (← value.convert .ulong))
      else convertObject source target operand
    | _ => convertObject source target operand

/-- Adds an index to a pointer of the given type. -/
def addPointer (pointerType : CType) (pointer index : Operand) : Pass (Code × Operand) := do
  let target ← Pass.newTemporary pointerType
  let scale := (pointerType.element?.getD .void).size
  pure ([.addPointer pointer index scale target], target)

def negateIndex (index : Operand) : Pass (Code × Operand) :=
  match index with
  | .constant value => pure (ofConst (.long (-value.toInt64)))
  | _ => do
    let target ← Pass.newTemporary .long
    pure ([.unary .negate index target], target)

/-- Subtracts an index from a pointer of the given type. -/
def subPointer (pointerType : CType) (pointer index : Operand) : Pass (Code × Operand) := do
  let (negateCode, index) ← index.negateIndex
  let (addCode, target) ← pointer.addPointer pointerType index
  pure (negateCode ++ addCode, target)

/-- The number of elements between two pointers of the given type. -/
def pointerDifference (pointerType : CType) (left right : Operand) : Pass (Code × Operand) := do
  let difference ← Pass.newTemporary .long
  let target ← Pass.newTemporary .long
  let size := (pointerType.element?.getD .void).size
  pure ([.binary (.arith .sub) left right difference,
    .binary (.arith .div) difference (.constant (.long (Int64.ofInt size))) target], target)

/-- An operation on two operands, into a new temporary of a type. -/
def combine (op : TwoOp) (type : CType) (left right : Operand) : Pass (Code × Operand) := do
  let target ← Pass.newTemporary type
  pure ([.binary op left right target], target)

end Operand

end SubsetC
