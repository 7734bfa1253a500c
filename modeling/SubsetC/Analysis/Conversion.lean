import SubsetC.Pass

/-!
# Implicit conversions

What typing inserts between an expression and the place where it is used. Arrays become pointers
to their first element wherever a value is needed, and a value whose type differs from the type
its context asks for is wrapped in a conversion. A node inserted here stands at the place of the
expression it wraps.
-/

namespace SubsetC

namespace Expr

/-- Whether an expression is an integer constant zero, which converts to every pointer type. -/
def isNullPointer : Expr → Bool
  | .constant _ value => value.type.isInteger && value.isZero
  | _ => false

/-- The expression converted to a type; no conversion is inserted when it has that type. -/
def convertTo (target : CType) (expr : Expr) : Pass Expr :=
  if expr.type = target then pure expr
  else do
    let loc ← Pass.newLoc expr.span
    pure (.cast ⟨loc, some target, false⟩ target expr true)

/-- The typed expression where its value is used: an array is replaced by the pointer to its first
element, and a function has no value. -/
def toValue (expr : Expr) : Pass Expr :=
  match expr.type with
  | .array _ element => do
    let loc ← Pass.newLoc expr.span
    pure (.decay ⟨loc, some (.pointer element), false⟩ expr)
  | .function _ _ => Pass.typeError expr.span .functionAsValue
  | _ => pure expr

/-- Whether a value may be converted to a type by assignment. Arithmetic types convert to each
other, a null pointer to every pointer type, and pointers from and to pointers to void. -/
def isAssignableTo (target : CType) (expr : Expr) : Bool :=
  expr.type = target ||
    expr.type.isArithmetic && target.isArithmetic ||
    target.isPointer && expr.isNullPointer ||
    target.isVoidPointer && expr.type.isPointer ||
    expr.type.isVoidPointer && target.isPointer

/-- The value converted as if it were assigned to an object of a type. Arguments, results and
initializers are converted in this way too. -/
def assignTo (target : CType) (expr : Expr) : Pass Expr :=
  if expr.isAssignableTo target then expr.convertTo target
  else Pass.typeError expr.span (.cannotConvert expr.type target)

/-- The pointer type that two values agree on, if there is one. A null pointer takes the type of
the other value, and a pointer to void absorbs other pointers. -/
def commonPointer? (left right : Expr) : Option CType :=
  if left.type = right.type then some left.type
  else if left.isNullPointer then some right.type
  else if right.isNullPointer then some left.type
  else if left.type.isVoidPointer && right.type.isPointer ||
      right.type.isVoidPointer && left.type.isPointer then
    some (.pointer .void)
  else none

/-- The pointer type that the two values of an operator at a place agree on. -/
def commonPointer (span : Span) (left right : Expr) : Pass CType :=
  match commonPointer? left right with
  | some type => pure type
  | none => Pass.typeError span (.incompatiblePointers left.type right.type)

end Expr

end SubsetC
