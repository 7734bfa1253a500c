import SubsetC.Const
import SubsetC.Operator
import SubsetC.Span

/-!
# Syntax trees

The tree of a compilation unit. The parser numbers its nodes; analysis then renames objects, adds
labels, marks every expression with its type and makes all conversions explicit, so one type of
trees serves all stages.
-/

namespace SubsetC

/-- The number and the place of a tree node. -/
structure Loc where
  /-- The number, unique within a compilation unit. -/
  id : Nat
  /-- The source text the node stands for. -/
  span : Span
  deriving DecidableEq, Repr

/-- What is known about an expression besides its shape. -/
structure Note where
  /-- The number and the place of the expression. -/
  loc : Loc
  /-- The type, once it is known. -/
  type : Option CType
  /-- Whether the expression is known to designate an object. -/
  isLvalue : Bool
  deriving DecidableEq, Repr

/-- The note of an expression of which the type is not known yet. -/
def Note.untyped (loc : Loc) : Note := ⟨loc, none, false⟩

/-- The type of a typed expression. While the type is not known, it counts as void. -/
def Note.knownType (note : Note) : CType := note.type.getD .void

inductive Expr where
  /-- An arithmetic literal. -/
  | constant (note : Note) (value : Const)
  /-- A string literal, or several next to each other. -/
  | string (note : Note) (bytes : Text)
  | var (note : Note) (name : Text)
  | unary (note : Note) (op : UnaryOp) (operand : Expr)
  | binary (note : Note) (op : BinaryOp) (left right : Expr)
  /-- An assignment. Once typed, a compound one has the type in which it computes. -/
  | assign (note : Note) (op : AssignOp) (left right : Expr) (opType : Option CType)
  | conditional (note : Note) (condition thenBranch elseBranch : Expr)
  | call (note : Note) (name : Text) (arguments : List Expr)
  /-- A conversion, written in the source or inserted by analysis. -/
  | cast (note : Note) (target : CType) (operand : Expr) (isImplicit : Bool)
  | addressOf (note : Note) (operand : Expr)
  /-- The object a pointer points at. -/
  | dereference (note : Note) (operand : Expr)
  | subscript (note : Note) (array index : Expr)
  /-- An increment or decrement. -/
  | step (note : Note) (form : StepForm) (op : StepOp) (operand : Expr)
  /-- The size of an expression's type. -/
  | sizeofExpr (note : Note) (operand : Expr)
  | sizeofType (note : Note) (operand : CType)
  /-- The pointer to the first element of an array; only analysis makes these. -/
  | decay (note : Note) (operand : Expr)

namespace Expr

def note : Expr → Note
  | .constant note _ | .string note _ | .var note _ | .unary note _ _ | .binary note _ _ _
  | .assign note _ _ _ _ | .conditional note _ _ _ | .call note _ _ | .cast note _ _ _
  | .addressOf note _ | .dereference note _ | .subscript note _ _ | .step note _ _ _
  | .sizeofExpr note _ | .sizeofType note _ | .decay note _ => note

def span (expr : Expr) : Span := expr.note.loc.span

/-- The type of an expression, once it is known. -/
def type? (expr : Expr) : Option CType := expr.note.type

/-- The type of a typed expression. While the type is not known, it counts as void. -/
def type (expr : Expr) : CType := expr.note.knownType

/-- Whether the expression is known to designate an object. -/
def isLvalue (expr : Expr) : Bool := expr.note.isLvalue

end Expr

inductive Initializer where
  | single (loc : Loc) (value : Expr)
  | compound (loc : Loc) (items : List Initializer)

def Initializer.loc : Initializer → Loc
  | .single loc _ | .compound loc _ => loc

/-- The storage classes a declaration can name. -/
inductive StorageClass where
  | static
  | external
  deriving DecidableEq, Repr

structure VarDecl where
  loc : Loc
  name : Text
  type : CType
  storageClass : Option StorageClass
  init : Option Initializer

structure Param where
  /-- The name, which is empty if it is left out. -/
  name : Text
  type : CType
  span : Span
  deriving DecidableEq, Repr

/-- The declaration of a function, without a body. -/
structure FunDecl where
  loc : Loc
  name : Text
  params : List Param
  result : CType
  storageClass : Option StorageClass
  deriving DecidableEq, Repr

def FunDecl.type (function : FunDecl) : CType :=
  .function (function.params.map Param.type) function.result

/-- The first clause of a for statement. -/
inductive ForInit where
  /-- Declarations of loop variables. -/
  | declarations (loc : Loc) (decls : List VarDecl)
  /-- An expression, which may be left out. -/
  | expression (loc : Loc) (value : Option Expr)

/-- A case of a switch, as it is collected for dispatch. -/
structure SwitchCase where
  /-- The value to compare with; the default case has none. -/
  value : Option Const
  label : Text
  /-- The place of the value, or of the default label. -/
  span : Span
  deriving DecidableEq, Repr

def SwitchCase.isDefault (case : SwitchCase) : Bool := case.value.isNone

mutual

/-- Statements. Loops, switches, cases and jumps have a label once they are labelled. -/
inductive Stmt where
  | ret (loc : Loc) (value : Option Expr)
  | expr (loc : Loc) (value : Expr)
  | ifThen (loc : Loc) (condition : Expr) (thenBranch : Stmt)
  | ifElse (loc : Loc) (condition : Expr) (thenBranch elseBranch : Stmt)
  | block (loc : Loc) (items : List Item)
  | whileLoop (loc : Loc) (label : Option Text) (condition : Expr) (body : Stmt)
  | doWhile (loc : Loc) (label : Option Text) (body : Stmt) (condition : Expr)
  | forLoop (loc : Loc) (label : Option Text) (init : ForInit) (condition post : Option Expr)
    (body : Stmt)
  | switch (loc : Loc) (label : Option Text) (value : Expr) (body : Stmt)
    (cases : List SwitchCase)
  | case (loc : Loc) (label : Option Text) (value : Expr) (body : Stmt)
  | default (loc : Loc) (label : Option Text) (body : Stmt)
  | break (loc : Loc) (label : Option Text)
  | continue (loc : Loc) (label : Option Text)
  | null (loc : Loc)

inductive Decl where
  | object (decl : VarDecl)
  /-- A function without a body. -/
  | function (decl : FunDecl)
  /-- A function with the block that is its body. -/
  | definition (decl : FunDecl) (bodyLoc : Loc) (body : List Item)

/-- What stands in a block: statements and declarations. -/
inductive Item where
  | stmt (stmt : Stmt)
  | decl (decl : Decl)

end

abbrev Program := List Decl

end SubsetC
