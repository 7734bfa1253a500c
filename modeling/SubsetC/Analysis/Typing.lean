import SubsetC.Analysis.Conversion

/-!
# Types of expressions

Typing marks every expression with its type and with whether it designates an object, and makes
all conversions explicit. Each operator has a rule that takes its typed operands; `Expr.check`
applies the rules from the leaves up.
-/

namespace SubsetC

/-- Checks that every array inside a type has elements with a size. -/
def CType.checkElements (span : Span) : CType → Pass Unit
  | .array _ element =>
    if element.isComplete then element.checkElements span
    else Pass.typeError span (.incompleteElement element)
  | .pointer element => element.checkElements span
  | .function parameters result => do
    checkList parameters
    result.checkElements span
  | .void | .integer _ | .double => pure ()
where
  checkList : List CType → Pass Unit
    | [] => pure ()
    | type :: types => do
      type.checkElements span
      checkList types

/-- The note with a type and a value category filled in. -/
def Note.typed (note : Note) (type : CType) (isLvalue : Bool) : Note :=
  { note with type := some type, isLvalue }

namespace Expr

/-! ### Rules for operators -/

/-- Whether a unary operator takes an operand of a type. -/
def acceptsOperand (op : UnaryOp) (type : CType) : Bool :=
  match op with
  | .not => type.isScalar
  | .complement => type.isInteger
  | .negate | .plus => type.isArithmetic

/-- A unary operator on a value. All but `!` compute at the promoted type of their operand. -/
def ofUnary (note : Note) (op : UnaryOp) (operand : Expr) : Pass Expr :=
  if !acceptsOperand op operand.type then
    Pass.typeError note.loc.span (.invalidOperand op operand.type)
  else if op = .not then pure (.unary (note.typed .int false) op operand)
  else do
    let type := operand.type.promote
    pure (.unary (note.typed type false) op (← operand.convertTo type))

/-- A binary operator whose operands are first converted to the given types. -/
def ofConverted (note : Note) (op : BinaryOp) (type leftType rightType : CType)
    (left right : Expr) : Pass Expr := do
  let left ← left.convertTo leftType
  let right ← right.convertTo rightType
  pure (.binary (note.typed type false) op left right)

/-- A binary operator on values that it does not take. -/
def refuseOperands (note : Note) (op : BinaryOp) (left right : Expr) : Pass Expr :=
  Pass.typeError note.loc.span (.invalidOperands op left.type right.type)

/-- A shift. Each operand is promoted by itself, and the left one gives the type. -/
def ofShift (note : Note) (op : ArithOp) (left right : Expr) : Pass Expr :=
  if left.type.isInteger && right.type.isInteger then
    ofConverted note (.arith op) left.type.promote left.type.promote right.type.promote left right
  else refuseOperands note (.arith op) left right

/-- An arithmetic or bitwise operator on arithmetic values, at their common type. -/
def ofArithmetic (note : Note) (op : ArithOp) (left right : Expr) : Pass Expr :=
  let common := left.type.common right.type
  if op.isIntegral && common.isDouble then refuseOperands note (.arith op) left right
  else ofConverted note (.arith op) common common common left right

/-- A sum or difference in which a pointer occurs. Integers count elements as longs, and the
difference of two equal pointer types is a long. -/
def ofPointerArithmetic (note : Note) (op : ArithOp) (left right : Expr) : Pass Expr :=
  let leftType := left.type
  let rightType := right.type
  if (op = .add || op = .sub) && leftType.isPointerToComplete && rightType.isInteger then
    ofConverted note (.arith op) leftType leftType .long left right
  else if op = .add && leftType.isInteger && rightType.isPointerToComplete then
    ofConverted note (.arith op) rightType .long rightType left right
  else if op = .sub && leftType.isPointerToComplete && leftType = rightType then
    ofConverted note (.arith op) .long leftType rightType left right
  else refuseOperands note (.arith op) left right

/-- Whether a value may be compared with a pointer: it is a pointer, or a null pointer where only
equality is asked for. -/
def isPointerOperand (op : CompareOp) (expr : Expr) : Bool :=
  expr.type.isPointer || op.isEquality && expr.isNullPointer

/-- A comparison in which a pointer occurs. -/
def ofPointerComparison (note : Note) (op : CompareOp) (left right : Expr) : Pass Expr :=
  if left.isPointerOperand op && right.isPointerOperand op then do
    let common ← commonPointer note.loc.span left right
    ofConverted note (.compare op) .int common common left right
  else refuseOperands note (.compare op) left right

/-- A binary operator on values. -/
def ofBinary (note : Note) (op : BinaryOp) (left right : Expr) : Pass Expr :=
  let isArithmetic := left.type.isArithmetic && right.type.isArithmetic
  match op with
  | .logic _ =>
    if left.type.isScalar && right.type.isScalar then
      pure (.binary (note.typed .int false) op left right)
    else refuseOperands note op left right
  | .arith arith =>
    if arith.isShift then ofShift note arith left right
    else if isArithmetic then ofArithmetic note arith left right
    else ofPointerArithmetic note arith left right
  | .compare compare =>
    if isArithmetic then
      let common := left.type.common right.type
      ofConverted note op .int common common left right
    else ofPointerComparison note compare left right

/-- Checks that an expression designates an object that can be assigned to. -/
def checkAssignable (span : Span) (expr : Expr) : Pass Unit :=
  if expr.type.isArray then Pass.typeError span (.arrayNotAssignable expr.type)
  else if !expr.isLvalue then Pass.typeError span .notAssignable
  else pure ()

/-- For a compound assignment, the type in which it computes and the type its right operand is
converted to, if it takes operands of the given types. -/
def compoundTypes? (op : ArithOp) (leftType rightType : CType) : Option (CType × CType) :=
  if leftType.isPointer then
    if (op = .add || op = .sub) && rightType.isInteger && leftType.isPointerToComplete then
      some (leftType, .long)
    else none
  else if !leftType.isArithmetic || !rightType.isArithmetic then none
  else if op.isShift then
    if leftType.isInteger && rightType.isInteger then some (leftType.promote, rightType.promote)
    else none
  else
    let common := leftType.common rightType
    if op.isIntegral && common.isDouble then none else some (common, common)

/-- An assignment of a value to an object. -/
def ofAssign (note : Note) (op : AssignOp) (left right : Expr) (opType : Option CType) :
    Pass Expr :=
  let type := left.type
  match op with
  | .plain => do
    pure (.assign (note.typed type false) op left (← right.assignTo type) opType)
  | .compound arith =>
    match compoundTypes? arith type right.type with
    | none => Pass.typeError note.loc.span (.invalidAssignOperands op type right.type)
    | some (opType, rightType) => do
      pure (.assign (note.typed type false) op left (← right.convertTo rightType) (some opType))

/-- The type that the branches of a conditional agree on. -/
def branchType (span : Span) (thenBranch elseBranch : Expr) : Pass CType :=
  let thenType := thenBranch.type
  let elseType := elseBranch.type
  if thenType.isVoid && elseType.isVoid then pure .void
  else if thenType.isArithmetic && elseType.isArithmetic then pure (thenType.common elseType)
  else if thenType.isPointer || elseType.isPointer then commonPointer span thenBranch elseBranch
  else Pass.typeError span (.incompatibleBranches thenType elseType)

/-- A conditional on values. -/
def ofConditional (note : Note) (condition thenBranch elseBranch : Expr) : Pass Expr := do
  let type ← branchType note.loc.span thenBranch elseBranch
  let thenBranch ← thenBranch.convertTo type
  let elseBranch ← elseBranch.convertTo type
  pure (.conditional (note.typed type false) condition thenBranch elseBranch)

/-- Checks that a value can be a condition. -/
def checkCondition (expr : Expr) : Pass Expr :=
  if expr.type.isScalar then pure expr
  else Pass.typeError expr.span (.conditionNotScalar expr.type)

/-- The parameter types and the result type of a function that is called with a number of
arguments. -/
def calleeTypes (span : Span) (name : Text) (count : Nat) : Pass (List CType × CType) := do
  match ← Pass.findSymbol? name with
  | none => throw (.internal (.undeclared name))
  | some ⟨_, .function parameters result, .function _ _⟩ =>
    if parameters.length = count then pure (parameters, result)
    else Pass.typeError span (.argumentCount name parameters.length count)
  | some _ => Pass.typeError span (.notFunction name)

/-- Checks that a type can be the target of a conversion. -/
def checkCastTarget (span : Span) (target : CType) : Pass Unit :=
  if target.isArray then Pass.typeError span (.castToArray target)
  else if target.isFunction then Pass.typeError span (.castToFunction target)
  else target.checkElements span

/-- An explicit conversion of a value. Everything converts to void, and nothing from it; doubles
and pointers do not convert to each other. -/
def ofCast (note : Note) (target : CType) (operand : Expr) (isImplicit : Bool) : Pass Expr :=
  let source := operand.type
  if !target.isVoid && source.isVoid then Pass.typeError note.loc.span (.castOfVoid target)
  else if source.isDouble && target.isPointer || source.isPointer && target.isDouble then
    Pass.typeError note.loc.span (.castBetween source target)
  else pure (.cast (note.typed target false) target operand isImplicit)

def ofAddress (note : Note) (operand : Expr) : Pass Expr :=
  if operand.type.isFunction then Pass.typeError note.loc.span .addressOfFunction
  else if !operand.isLvalue then Pass.typeError note.loc.span .addressOfRvalue
  else pure (.addressOf (note.typed (.pointer operand.type) false) operand)

/-- The object a pointer points at. -/
def ofDereference (note : Note) (operand : Expr) : Pass Expr :=
  match operand.type with
  | .pointer .void => Pass.typeError note.loc.span .dereferenceVoid
  | .pointer element => pure (.dereference (note.typed element true) operand)
  | type => Pass.typeError note.loc.span (.dereferenceNonPointer type)

/-- An element of an array. The pointer and the index may stand on either side. -/
def ofSubscript (note : Note) (array index : Expr) : Pass Expr :=
  let arrayType := array.type
  let indexType := index.type
  if arrayType.isPointerToComplete && indexType.isInteger then do
    let index ← index.convertTo .long
    pure (.subscript (note.typed (arrayType.element?.getD .void) true) array index)
  else if arrayType.isInteger && indexType.isPointerToComplete then do
    let array ← array.convertTo .long
    pure (.subscript (note.typed (indexType.element?.getD .void) true) array index)
  else Pass.typeError note.loc.span (.invalidSubscript arrayType indexType)

/-- A step of an object by one. -/
def ofStep (note : Note) (form : StepForm) (op : StepOp) (operand : Expr) : Pass Expr := do
  operand.checkAssignable note.loc.span
  if operand.type.isArithmetic || operand.type.isPointerToComplete then
    pure (.step (note.typed operand.type false) form op operand)
  else Pass.typeError note.loc.span (.cannotStep operand.type)

/-- Checks that sizeof applies to a type. -/
def checkSized (span : Span) (type : CType) : Pass Unit :=
  if type.isComplete then pure () else Pass.typeError span (.sizeofIncomplete type)

/-! ### Expressions -/

mutual

/-- The expression with types and explicit conversions inside. -/
def check : Expr → Pass Expr
  | .constant note value => pure (.constant (note.typed value.type false) value)
  | .string note bytes => pure (.string (note.typed (.array (bytes.length + 1) .char) true) bytes)
  | .var note name => do
    match ← Pass.findSymbol? name with
    | none => throw (.internal (.undeclared name))
    | some symbol => pure (.var (note.typed symbol.type (!symbol.type.isFunction)) name)
  | .unary note op operand => do
    let operand ← operand.check >>= toValue
    ofUnary note op operand
  | .binary note op left right => do
    let left ← left.check >>= toValue
    let right ← right.check >>= toValue
    ofBinary note op left right
  | .assign note op left right opType => do
    let left ← left.check
    left.checkAssignable note.loc.span
    let right ← right.check >>= toValue
    ofAssign note op left right opType
  | .conditional note condition thenBranch elseBranch => do
    let condition ← condition.check >>= toValue >>= checkCondition
    let thenBranch ← thenBranch.check >>= toValue
    let elseBranch ← elseBranch.check >>= toValue
    ofConditional note condition thenBranch elseBranch
  | .call note name arguments => do
    let (parameters, result) ← calleeTypes note.loc.span name arguments.length
    let arguments ← checkArguments parameters arguments
    pure (.call (note.typed result false) name arguments)
  | .cast note target operand isImplicit => do
    checkCastTarget note.loc.span target
    let operand ← operand.check >>= toValue
    ofCast note target operand isImplicit
  | .addressOf note operand => do
    let operand ← operand.check
    ofAddress note operand
  | .dereference note operand => do
    let operand ← operand.check >>= toValue
    ofDereference note operand
  | .subscript note array index => do
    let array ← array.check >>= toValue
    let index ← index.check >>= toValue
    ofSubscript note array index
  | .step note form op operand => do
    let operand ← operand.check
    ofStep note form op operand
  | .sizeofExpr note operand => do
    let operand ← operand.check
    checkSized note.loc.span operand.type
    pure (.sizeofExpr (note.typed .ulong false) operand)
  | .sizeofType note operand => do
    operand.checkElements note.loc.span
    checkSized note.loc.span operand
    pure (.sizeofType (note.typed .ulong false) operand)
  | .decay note operand => pure (.decay note operand)

/-- The arguments of a call, converted to the types of the parameters. -/
def checkArguments : List CType → List Expr → Pass (List Expr)
  | parameter :: parameters, argument :: arguments => do
    let argument ← argument.check >>= toValue >>= assignTo parameter
    pure (argument :: (← checkArguments parameters arguments))
  | _, _ => pure []

end

def checkValue (expr : Expr) : Pass Expr := expr.check >>= toValue

def checkConditionValue (expr : Expr) : Pass Expr := expr.checkValue >>= checkCondition

/-- Checks an expression if there is one. -/
def checkOption (check : Expr → Pass Expr) : Option Expr → Pass (Option Expr)
  | some expr => do pure (some (← check expr))
  | none => pure none

end Expr

end SubsetC
