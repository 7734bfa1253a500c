import SubsetC.Ast

/-!
# Constant expressions

Folding computes the value of an arithmetic constant expression, before or after types are
checked: conversions that checking makes explicit are those that folding applies by itself. An
expression whose value is undefined, such as a division by zero, has no value here.
-/

namespace SubsetC

namespace Const

/-- The value of a unary operator on a constant, at the promoted type. -/
def unary? (op : UnaryOp) (operand : Const) : Option Const :=
  let type := operand.type.promote
  match op with
  | .not => some (ofBool operand.isZero)
  | .plus => operand.convert? type
  | .negate => do
    match ← operand.convert? type with
    | .double value => some (.double value.neg)
    | value => ofInt64? (-value.toInt64) type
  | .complement => do
    let value ← operand.convert? type
    if type.isDouble then none else ofInt64? (~~~value.toInt64) type

/-- The value of a shift, at the promoted type of its left operand. The amount must be less than
the number of bits. -/
def shift? (isLeft : Bool) (left right : Const) : Option Const :=
  let type := left.type.promote
  if !type.isInteger || !right.type.isInteger then none
  else do
    let value ← left.convert? type
    let amount := right.toInt64
    if amount < 0 ∨ type.size * 8 ≤ amount.toInt then none
    else if isLeft then ofInt64? (value.toInt64 <<< amount) type
    else if type.isSigned then ofInt64? (value.toInt64 >>> amount) type
    else ofInt64? (value.toUInt64 >>> amount.toUInt64).toInt64 type

/-- The value of an arithmetic or bitwise operator on doubles. -/
def arithDouble? (op : ArithOp) (left right : Double) : Option Const :=
  match op with
  | .add => some (.double (left.add right))
  | .sub => some (.double (left.sub right))
  | .mul => some (.double (left.mul right))
  | .div => some (.double (left.div right))
  | _ => none

/-- The value of an arithmetic or bitwise operator on signed words. -/
def arithSigned? (op : ArithOp) (left right : Int64) : Option Int64 :=
  match op with
  | .add => some (left + right)
  | .sub => some (left - right)
  | .mul => some (left * right)
  | .div =>
    if right = 0 ∨ (right = -1 ∧ left = Int64.minValue) then none else some (left / right)
  | .rem =>
    if right = 0 ∨ (right = -1 ∧ left = Int64.minValue) then none else some (left % right)
  | .bitAnd => some (left &&& right)
  | .bitOr => some (left ||| right)
  | .bitXor => some (left ^^^ right)
  | .shiftLeft | .shiftRight => none

/-- The value of an arithmetic or bitwise operator on unsigned words. -/
def arithUnsigned? (op : ArithOp) (left right : UInt64) : Option UInt64 :=
  match op with
  | .add => some (left + right)
  | .sub => some (left - right)
  | .mul => some (left * right)
  | .div => if right = 0 then none else some (left / right)
  | .rem => if right = 0 then none else some (left % right)
  | .bitAnd => some (left &&& right)
  | .bitOr => some (left ||| right)
  | .bitXor => some (left ^^^ right)
  | .shiftLeft | .shiftRight => none

/-- The value of an arithmetic, bitwise or shift operator on constants. All but shifts compute at
the common type of their operands. -/
def arith? (op : ArithOp) (left right : Const) : Option Const :=
  match op with
  | .shiftLeft => shift? true left right
  | .shiftRight => shift? false left right
  | _ => do
    let type := left.type.common right.type
    let left ← left.convert? type
    let right ← right.convert? type
    if type.isDouble then arithDouble? op left.toDouble right.toDouble
    else if type.isSigned then ofInt64? (← arithSigned? op left.toInt64 right.toInt64) type
    else ofInt64? (← arithUnsigned? op left.toUInt64 right.toUInt64).toInt64 type

def compareDouble (op : CompareOp) (left right : Double) : Bool :=
  match op with
  | .less => left.lt right
  | .lessEqual => left.le right
  | .greater => right.lt left
  | .greaterEqual => right.le left
  | .equal => left.eq right
  | .notEqual => !left.eq right

/-- The truth of a comparison on signed words. -/
def compareSigned (op : CompareOp) (left right : Int64) : Bool :=
  match op with
  | .less => left < right
  | .lessEqual => left ≤ right
  | .greater => right < left
  | .greaterEqual => right ≤ left
  | .equal => left = right
  | .notEqual => left ≠ right

/-- The truth of a comparison on unsigned words. -/
def compareUnsigned (op : CompareOp) (left right : UInt64) : Bool :=
  match op with
  | .less => left < right
  | .lessEqual => left ≤ right
  | .greater => right < left
  | .greaterEqual => right ≤ left
  | .equal => left = right
  | .notEqual => left ≠ right

/-- The value of a comparison of constants, decided at their common type. -/
def compare? (op : CompareOp) (left right : Const) : Option Const := do
  let type := left.type.common right.type
  let left ← left.convert? type
  let right ← right.convert? type
  if type.isDouble then some (ofBool (compareDouble op left.toDouble right.toDouble))
  else if type.isSigned then some (ofBool (compareSigned op left.toInt64 right.toInt64))
  else some (ofBool (compareUnsigned op left.toUInt64 right.toUInt64))

/-- The value of a binary operator on constants. -/
def binary? (op : BinaryOp) (left right : Const) : Option Const :=
  match op with
  | .arith op => arith? op left right
  | .compare op => compare? op left right
  | .logic .and => some (ofBool (!left.isZero && !right.isZero))
  | .logic .or => some (ofBool (!left.isZero || !right.isZero))

/-- The size of a complete type as a constant. -/
def sizeof? (type : CType) : Option Const :=
  if type.isComplete then some (ofSize type.size) else none

end Const

namespace Expr

/-- The value of a constant expression. All operands must be constant, also those that are not
needed. The operand of sizeof only needs to be constant while its type is not known. -/
def fold? : Expr → Option Const
  | .constant _ value => some value
  | .cast _ target operand _ => do
    let value ← operand.fold?
    if target.isArithmetic then value.convert? target else none
  | .unary _ op operand => do Const.unary? op (← operand.fold?)
  | .binary _ op left right => do
    let left ← left.fold?
    let right ← right.fold?
    Const.binary? op left right
  | .conditional _ condition thenBranch elseBranch => do
    let condition ← condition.fold?
    let thenValue ← thenBranch.fold?
    let elseValue ← elseBranch.fold?
    let type := thenValue.type.common elseValue.type
    if condition.isZero then elseValue.convert? type else thenValue.convert? type
  | .sizeofExpr _ operand =>
    match operand.type? with
    | some type => Const.sizeof? type
    | none => do Const.sizeof? (← operand.fold?).type
  | .sizeofType _ operand => Const.sizeof? operand
  | _ => none

end Expr

end SubsetC
