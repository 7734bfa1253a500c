import SubsetC.Lowering.Place

/-!
# Code of expressions

The code of an expression runs the code of its operands from left to right and then its own. Only
`&&`, `||` and the conditional operator jump.
-/

namespace SubsetC

/-- The value of an expression of a type, given the code that leaves it in a place. -/
def Place.loaded (type : CType) (lowered : Code × Place) : Pass (Code × Operand) := do
  let (loadCode, operand) ← lowered.2.load type
  pure (lowered.1 ++ loadCode, operand)

/-- The operation on one operand for an operator, if it has one. -/
def UnaryOp.oneOp? : UnaryOp → Option OneOp
  | .negate => some .negate
  | .not => some .not
  | .complement => some .complement
  | .plus => none

/-- The two kinds of binary operators: those that jump, and those that are one operation. -/
def BinaryOp.kind : BinaryOp → LogicOp ⊕ TwoOp
  | .logic op => .inl op
  | .arith op => .inr (.arith op)
  | .compare op => .inr (.compare op)

namespace LogicOp

/-- The stems of the labels for a decision by one operand and for the end. -/
def stems : LogicOp → Text × Text
  | .and => ("and_false", "and_end")
  | .or => ("or_true", "or_end")

/-- Goes to a label if one operand decides the result. -/
def exit (op : LogicOp) (operand : Operand) (label : Text) : Instruction :=
  match op with
  | .and => .jumpIfZero operand label
  | .or => .jumpIfNotZero operand label

/-- The result if one operand decides it. -/
def decided : LogicOp → Bool
  | .and => false
  | .or => true

def result (value : Bool) : Operand := .constant (Const.ofBool value)

end LogicOp

namespace Expr

def unaryCode (op : UnaryOp) (type : CType) (value : Operand) : Pass (Code × Operand) :=
  match op.oneOp? with
  | none => pure ([], value)
  | some op => do
    let target ← Pass.newTemporary type
    pure ([.unary op value target], target)

/-- A sum or difference of values of which one is a pointer. -/
def pointerCode (op : ArithOp) (leftType rightType : CType) (left right : Operand) :
    Pass (Code × Operand) :=
  if op = .add then
    if leftType.isPointer then left.addPointer leftType right
    else right.addPointer rightType left
  else if rightType.isPointer then left.pointerDifference leftType right
  else left.subPointer leftType right

/-- An operator on two values, at a type. -/
def binaryCode (op : TwoOp) (type leftType rightType : CType) (left right : Operand) :
    Pass (Code × Operand) :=
  match op with
  | .compare _ => left.combine op type right
  | .arith arith =>
    if leftType.isPointer || rightType.isPointer then
      pointerCode arith leftType rightType left right
    else left.combine op type right

/-- The new value of an object in a compound assignment. It is computed at a type of its own and
converted back. -/
def compoundCode (op : ArithOp) (type opType : CType) (current right : Operand) :
    Pass (Code × Operand) :=
  if type.isPointer then
    if op = .sub then current.subPointer type right else current.addPointer type right
  else do
    let (widenCode, current) ← current.convert type opType
    let (computeCode, result) ← current.combine (.arith op) opType right
    let (narrowCode, result) ← result.convert opType type
    pure (widenCode ++ computeCode ++ narrowCode, result)

/-- The value of an object after a step. -/
def stepCode (op : StepOp) (type : CType) (current : Operand) : Pass (Code × Operand) :=
  if type.isPointer then
    current.addPointer type (.constant (.long (if op = .increment then 1 else -1)))
  else do
    let one ← Const.convert (.int 1) type.promote
    let arith := if op = .increment then .add else .sub
    compoundCode arith type type.promote current (.constant one)

/-- The value of a step of the object in a place. A step that yields the value before it keeps a
copy, unless that value was read into a temporary anyway. -/
def stepPlace (form : StepForm) (op : StepOp) (type : CType) (place : Place) :
    Pass (Code × Operand) := do
  let (loadCode, current) ← place.load type
  let (keepCode, old) ← match form, place with
    | .after, .value _ => do
      let old ← Pass.newTemporary type
      pure ([.copy current old], old)
    | _, _ => pure ([], current)
  let (code, new) ← stepCode op type current
  let storeCode ← place.store new
  pure (loadCode ++ keepCode ++ code ++ storeCode, if form = .after then old else new)

/-- A call with the values of its arguments. -/
def callCode (name : Text) (type : CType) (arguments : List Operand) : Pass (Code × Place) :=
  if type.isVoid then pure ([.call name arguments .absent], .nowhere)
  else do
    let target ← Pass.newTemporary type
    pure ([.call name arguments target], .value target)

mutual

/-- The code of an expression, and the place of its result. -/
def lower : Expr → Pass (Code × Place)
  | .constant _ value => pure ([], .value (.constant value))
  | .string _ bytes => do pure ([], .value (.var (← Pass.newString bytes)))
  | .var _ name => pure ([], .value (.var name))
  | .unary note op operand => do
    let (operandCode, value) ← operand.lower >>= Place.loaded operand.type
    let (code, result) ← unaryCode op note.knownType value
    pure (operandCode ++ code, .value result)
  | .binary note op left right =>
    match op.kind with
    | .inl op => do
      let (decided, finish) ← Pass.newLabelPair op.stems.1 op.stems.2
      let target ← Pass.newTemporary .int
      let (leftCode, leftValue) ← left.lower >>= Place.loaded left.type
      let (rightCode, rightValue) ← right.lower >>= Place.loaded right.type
      pure (leftCode ++ [op.exit leftValue decided] ++ rightCode ++
        [op.exit rightValue decided,
          .copy (LogicOp.result !op.decided) target,
          .jump finish,
          .label decided,
          .copy (LogicOp.result op.decided) target,
          .label finish], .value target)
    | .inr op => do
      let (leftCode, leftValue) ← left.lower >>= Place.loaded left.type
      let (rightCode, rightValue) ← right.lower >>= Place.loaded right.type
      let (code, result) ←
        binaryCode op note.knownType left.type right.type leftValue rightValue
      pure (leftCode ++ rightCode ++ code, .value result)
  | .assign _ op left right opType => do
    let (leftCode, place) ← left.lower
    match op with
    | .plain => do
      let (rightCode, value) ← right.lower >>= Place.loaded right.type
      let storeCode ← place.store value
      pure (leftCode ++ rightCode ++ storeCode, .value value)
    | .compound op => do
      let (loadCode, current) ← place.load left.type
      let (rightCode, value) ← right.lower >>= Place.loaded right.type
      let (code, result) ← compoundCode op left.type (opType.getD .void) current value
      let storeCode ← place.store result
      pure (leftCode ++ loadCode ++ rightCode ++ code ++ storeCode, .value result)
  | .conditional note condition thenBranch elseBranch => do
    let (otherwise, finish) ← Pass.newLabelPair "cond_else" "cond_end"
    let (conditionCode, value) ← condition.lower >>= Place.loaded condition.type
    let testCode := conditionCode ++ [.jumpIfZero value otherwise]
    if note.knownType.isVoid then do
      let (thenCode, _) ← thenBranch.lower
      let (elseCode, _) ← elseBranch.lower
      pure (testCode ++ thenCode ++ [.jump finish, .label otherwise] ++ elseCode ++
        [.label finish], .nowhere)
    else do
      let target ← Pass.newTemporary note.knownType
      let (thenCode, thenValue) ← thenBranch.lower >>= Place.loaded thenBranch.type
      let (elseCode, elseValue) ← elseBranch.lower >>= Place.loaded elseBranch.type
      pure (testCode ++ thenCode ++ [.copy thenValue target, .jump finish, .label otherwise] ++
        elseCode ++ [.copy elseValue target, .label finish], .value target)
  | .call note name arguments => do
    let (argumentsCode, values) ← lowerArguments arguments
    let (code, place) ← callCode name note.knownType values
    pure (argumentsCode ++ code, place)
  | .cast _ target operand _ =>
    if target.isVoid then do
      let (code, _) ← operand.lower
      pure (code, .nowhere)
    else do
      let (operandCode, value) ← operand.lower >>= Place.loaded operand.type
      let (code, result) ← value.convert operand.type target
      pure (operandCode ++ code, .value result)
  | .addressOf note operand => do
    let (operandCode, place) ← operand.lower
    let (code, pointer) ← place.address note.knownType
    pure (operandCode ++ code, .value pointer)
  | .dereference _ operand => do
    let (code, pointer) ← operand.lower >>= Place.loaded operand.type
    pure (code, .behind pointer)
  | .subscript _ array index => do
    let (arrayCode, arrayValue) ← array.lower >>= Place.loaded array.type
    let (indexCode, indexValue) ← index.lower >>= Place.loaded index.type
    let (code, pointer) ← pointerCode .add array.type index.type arrayValue indexValue
    pure (arrayCode ++ indexCode ++ code, .behind pointer)
  | .step _ form op operand => do
    let (operandCode, place) ← operand.lower
    let (code, value) ← stepPlace form op operand.type place
    pure (operandCode ++ code, .value value)
  | .sizeofExpr _ operand => pure ([], .value (.constant (Const.ofSize operand.type.size)))
  | .sizeofType _ operand => pure ([], .value (.constant (Const.ofSize operand.size)))
  | .decay note operand => do
    let (operandCode, place) ← operand.lower
    let (code, pointer) ← place.firstElement note.knownType
    pure (operandCode ++ code, .value pointer)

/-- The code of the arguments of a call, and their values. -/
def lowerArguments : List Expr → Pass (Code × List Operand)
  | [] => pure ([], [])
  | argument :: arguments => do
    let (code, value) ← argument.lower >>= Place.loaded argument.type
    let (restCode, values) ← lowerArguments arguments
    pure (code ++ restCode, value :: values)

end

/-- The code of an expression, and its value. -/
def lowerValue (expr : Expr) : Pass (Code × Operand) :=
  expr.lower >>= Place.loaded expr.type

/-- The code of an expression whose result is not used. -/
def lowerEffect (expr : Expr) : Pass Code := do
  let (code, _) ← expr.lower
  pure code

/-- The code of an optional expression whose result is not used. -/
def lowerEffectOption : Option Expr → Pass Code
  | some expr => expr.lowerEffect
  | none => pure []

end Expr

end SubsetC
