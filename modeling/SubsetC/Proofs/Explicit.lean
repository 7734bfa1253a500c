import SubsetC.Ast
import SubsetC.Proofs.Naming

/-!
# Explicit trees

What the tree of a compilation unit looks like once analysis has accepted it: every expression is
marked with its type and value category, every operator has operands of the types it computes
with, and every conversion, array decay included, is a node of the tree. The rules for operators
are stated on types alone; `Expr.Explicit`, `Initializer.Explicit`, `Stmt.Explicit` and
`Program.Explicit` apply them to each node of a tree. A symbol table that grows keeps a tree
explicit.
-/

namespace SubsetC

/-! ### Rules for types -/

/-- A type of values: void, an arithmetic type or a pointer type, but no array or function. -/
def CType.IsValue (type : CType) : Prop := type.isVoid ∨ type.isScalar

/-- The integer promotion does not change the type. -/
def CType.IsPromoted (type : CType) : Prop := type.promote = type

/-- The types of the operand and of the result of a unary operator. -/
inductive UnaryOp.HasTypes : UnaryOp → (operand result : CType) → Prop where
  | not {operand : CType} (scalar : operand.isScalar) : HasTypes .not operand .int
  | complement {type : CType} (integer : type.isInteger) (promoted : type.IsPromoted) :
      HasTypes .complement type type
  | sign {op : UnaryOp} {type : CType} (isSign : op = .negate ∨ op = .plus)
      (arithmetic : type.isArithmetic) (promoted : type.IsPromoted) : HasTypes op type type

/-- The types of the operands and of the result of an arithmetic, bitwise or shift operator. -/
inductive ArithOp.HasTypes : ArithOp → (left right result : CType) → Prop where
  /-- Each operand of a shift is promoted by itself. -/
  | shift {op : ArithOp} {type amount : CType} (isShift : op.isShift)
      (integer : type.isInteger) (promoted : type.IsPromoted)
      (integerAmount : amount.isInteger) (promotedAmount : amount.IsPromoted) :
      HasTypes op type amount type
  /-- Both operands and the result have one arithmetic type. -/
  | arithmetic {op : ArithOp} {type : CType} (noShift : op.isShift = false)
      (arithmetic : type.isArithmetic) (promoted : type.IsPromoted)
      (integral : op.isIntegral → type.isInteger) : HasTypes op type type type
  /-- A pointer moved by a number of elements. -/
  | offset {op : ArithOp} {pointer : CType} (isSum : op = .add ∨ op = .sub)
      (complete : pointer.isPointerToComplete) : HasTypes op pointer .long pointer
  /-- A number of elements by which a pointer is moved. -/
  | offsetOf {pointer : CType} (complete : pointer.isPointerToComplete) :
      HasTypes .add .long pointer pointer
  /-- The number of elements between two pointers. -/
  | difference {pointer : CType} (complete : pointer.isPointerToComplete) :
      HasTypes .sub pointer pointer .long

/-- The types of the operands and of the result of a binary operator. -/
inductive BinaryOp.HasTypes : BinaryOp → (left right result : CType) → Prop where
  | arith {op : ArithOp} {left right result : CType} (types : op.HasTypes left right result) :
      HasTypes (.arith op) left right result
  | compareArithmetic {op : CompareOp} {type : CType} (arithmetic : type.isArithmetic)
      (promoted : type.IsPromoted) : HasTypes (.compare op) type type .int
  | comparePointers {op : CompareOp} {type : CType} (pointer : type.isPointer) :
      HasTypes (.compare op) type type .int
  | logic {op : LogicOp} {left right : CType} (scalarLeft : left.isScalar)
      (scalarRight : right.isScalar) : HasTypes (.logic op) left right .int

/-- The types of the two sides of an assignment, and the type in which a compound one computes. -/
inductive AssignOp.HasTypes : AssignOp → (left right : CType) → (opType : Option CType) → Prop where
  | plain {type : CType} {opType : Option CType} (scalar : type.isScalar) :
      HasTypes .plain type type opType
  /-- A pointer moved by a number of elements. -/
  | offset {op : ArithOp} {pointer : CType} (isSum : op = .add ∨ op = .sub)
      (complete : pointer.isPointerToComplete) : HasTypes (.compound op) pointer .long (some pointer)
  /-- A shift computes in the promoted type of its left side. -/
  | shift {op : ArithOp} {type amount : CType} (isShift : op.isShift) (integer : type.isInteger)
      (integerAmount : amount.isInteger) (promotedAmount : amount.IsPromoted) :
      HasTypes (.compound op) type amount (some type.promote)
  /-- The other operators compute in the type that their right side has. -/
  | arithmetic {op : ArithOp} {type opType : CType} (noShift : op.isShift = false)
      (arithmetic : type.isArithmetic) (arithmeticOp : opType.isArithmetic)
      (promoted : opType.IsPromoted) (integral : op.isIntegral → opType.isInteger) :
      HasTypes (.compound op) type opType (some opType)

/-- Values of one type convert to another: everything to void, and scalars to each other except
between doubles and pointers. -/
inductive CType.ConvertsTo : (source target : CType) → Prop where
  | toVoid {source : CType} (value : source.IsValue) : ConvertsTo source .void
  | scalar {source target : CType} (scalarSource : source.isScalar)
      (scalarTarget : target.isScalar) (noPointer : ¬(source.isDouble ∧ target.isPointer))
      (noDouble : ¬(source.isPointer ∧ target.isDouble)) : ConvertsTo source target

/-! ### Rules for symbols -/

namespace SymbolTable

/-- A name has a symbol of a type. -/
def HasType (table : SymbolTable) (name : Text) (type : CType) : Prop :=
  ∃ symbol, table.find? name = some symbol ∧ symbol.type = type

/-- A name is an object of a type. -/
def HasObject (table : SymbolTable) (name : Text) (type : CType) : Prop :=
  type.isComplete ∧ table.HasType name type

/-- A name is a function with the given types of parameters and of its result. -/
def HasFunction (table : SymbolTable) (name : Text) (parameters : List CType) (result : CType) :
    Prop :=
  ∃ symbol, table.find? name = some symbol ∧ symbol.type = .function parameters result ∧
    symbol.storage.kind = .function

variable {earlier later : SymbolTable} {name : Text}

theorem HasType.extend {type : CType} (hasType : earlier.HasType name type)
    (extension : later.Extends earlier) : later.HasType name type := by
  rcases hasType with ⟨symbol, found, sameType⟩
  rcases extension name symbol found with ⟨kept, keptFound, keptType, _⟩
  exact ⟨kept, keptFound, keptType.trans sameType⟩

theorem HasObject.extend {type : CType} (object : earlier.HasObject name type)
    (extension : later.Extends earlier) : later.HasObject name type :=
  ⟨object.1, object.2.extend extension⟩

theorem HasFunction.extend {parameters : List CType} {result : CType}
    (function : earlier.HasFunction name parameters result) (extension : later.Extends earlier) :
    later.HasFunction name parameters result := by
  rcases function with ⟨symbol, found, sameType, sameKind⟩
  rcases extension name symbol found with ⟨kept, keptFound, keptType, keptKind⟩
  exact ⟨kept, keptFound, keptType.trans sameType, keptKind.trans sameKind⟩

end SymbolTable

/-! ### Expressions -/

/-- The note of a typed expression: it has a type, which is no function type, and says whether the
expression designates an object. -/
structure Note.Marks (note : Note) (isLvalue : Bool) : Prop where
  typed : note.type = some note.knownType
  /-- The value category. -/
  category : note.isLvalue = isLvalue
  /-- Functions are no values, and there are no objects of function type. -/
  notFunction : note.knownType.isFunction = false

namespace Expr

mutual

/-- Every node of the expression is marked with its type, and its operands have the types that its
rule asks for. Only literals of strings, identifiers, dereferences and subscripts designate
objects. -/
def Explicit (table : SymbolTable) : Expr → Prop
  | .constant note value => note.Marks false ∧ note.knownType = value.type
  | .string note bytes => note.Marks true ∧ note.knownType = .array (bytes.length + 1) .char
  | .var note name => note.Marks true ∧ table.HasObject name note.knownType
  | .unary note op operand =>
      note.Marks false ∧ operand.Explicit table ∧ op.HasTypes operand.type note.knownType
  | .binary note op left right =>
      note.Marks false ∧ left.Explicit table ∧ right.Explicit table ∧
        op.HasTypes left.type right.type note.knownType
  | .assign note op left right opType =>
      note.Marks false ∧ left.Explicit table ∧ right.Explicit table ∧ left.isLvalue ∧
        note.knownType = left.type ∧ op.HasTypes left.type right.type opType
  | .conditional note condition thenBranch elseBranch =>
      note.Marks false ∧ condition.Explicit table ∧ thenBranch.Explicit table ∧
        elseBranch.Explicit table ∧ condition.type.isScalar ∧
        thenBranch.type = note.knownType ∧ elseBranch.type = note.knownType ∧
        note.knownType.IsValue
  | .call note name arguments =>
      note.Marks false ∧ ExplicitList table arguments ∧
        (∀ argument ∈ arguments, argument.type.IsValue) ∧
        table.HasFunction name (arguments.map type) note.knownType
  | .cast note target operand _ =>
      note.Marks false ∧ operand.Explicit table ∧ note.knownType = target ∧
        operand.type.ConvertsTo target
  | .addressOf note operand =>
      note.Marks false ∧ operand.Explicit table ∧ operand.isLvalue ∧
        note.knownType = .pointer operand.type
  | .dereference note operand =>
      note.Marks true ∧ operand.Explicit table ∧ operand.type = .pointer note.knownType ∧
        note.knownType.isVoid = false
  | .subscript note array index =>
      note.Marks true ∧ array.Explicit table ∧ index.Explicit table ∧
        note.knownType.isComplete ∧
        (array.type = .pointer note.knownType ∧ index.type = .long ∨
          array.type = .long ∧ index.type = .pointer note.knownType)
  | .step note _ _ operand =>
      note.Marks false ∧ operand.Explicit table ∧ operand.isLvalue ∧
        note.knownType = operand.type ∧
        (operand.type.isArithmetic ∨ operand.type.isPointerToComplete)
  | .sizeofExpr note operand =>
      note.Marks false ∧ operand.Explicit table ∧ operand.type.isComplete ∧
        note.knownType = .ulong
  | .sizeofType note operand => note.Marks false ∧ operand.isComplete ∧ note.knownType = .ulong
  | .decay note operand =>
      note.Marks false ∧ operand.Explicit table ∧
        ∃ size element, operand.type = .array size element ∧ note.knownType = .pointer element

def ExplicitList (table : SymbolTable) : List Expr → Prop
  | [] => True
  | expr :: exprs => expr.Explicit table ∧ ExplicitList table exprs

end

/-- An explicit expression that stands where a value is needed, so that its type is no array. -/
def IsValue (table : SymbolTable) (expr : Expr) : Prop := expr.Explicit table ∧ expr.type.IsValue

/-- An explicit expression whose value decides a branch or a loop. -/
def IsCondition (table : SymbolTable) (expr : Expr) : Prop :=
  expr.Explicit table ∧ expr.type.isScalar

/-- What an object of a type is initialized with: a value of the type, a zero written out by
analysis, or a string literal for an array of characters that has room for its bytes. -/
inductive Initializes (table : SymbolTable) (type : CType) : Expr → Prop where
  | value {expr : Expr} (explicit : expr.Explicit table) (sameType : expr.type = type)
      (scalar : type.isScalar) : Initializes table type expr
  | zero {note : Note} {value : Const} (marks : note.Marks false) (sameType : note.knownType = type)
      (isZero : Const.zero? type = some value) : Initializes table type (.constant note value)
  | string {note : Note} {bytes : Text} {size : Int} {element : CType}
      (explicit : (Expr.string note bytes).Explicit table) (isArray : type = .array size element)
      (characters : element.isCharacter) (fits : bytes.length ≤ size) :
      Initializes table type (.string note bytes)

end Expr

/-! ### Initializers and declarations -/

namespace Initializer

mutual

/-- The initializer has the shape of a type. That of an automatic array has all elements; that of a
static one may end early, and braces around a scalar are kept in it. -/
def Explicit (table : SymbolTable) (isStatic : Bool) (type : CType) : Initializer → Prop
  | .single _ value => value.Initializes table type
  | .compound _ items =>
      (∃ size element, type = .array size element ∧ items.length ≤ size.toNat ∧
        (isStatic = false → items.length = size.toNat) ∧
        ExplicitList table isStatic element items) ∨
      isStatic ∧ type.isArray = false ∧ items.length = 1 ∧ ExplicitList table isStatic type items

def ExplicitList (table : SymbolTable) (isStatic : Bool) (type : CType) : List Initializer → Prop
  | [] => True
  | item :: items => item.Explicit table isStatic type ∧ ExplicitList table isStatic type items

end

end Initializer

/-- The declared object has a symbol of its type, and its initializer has the shape of the type.
Objects at file scope are static whatever their storage class. -/
def VarDecl.Explicit (table : SymbolTable) (isFile : Bool) (decl : VarDecl) : Prop :=
  table.HasType decl.name decl.type ∧
    ∀ init ∈ decl.init, init.Explicit table (isFile || decl.storageClass.isSome) decl.type

/-- The declared function has a symbol of its type. -/
def FunDecl.Explicit (table : SymbolTable) (decl : FunDecl) : Prop :=
  table.HasFunction decl.name (decl.params.map Param.type) decl.result

/-- The first clause of a for statement is explicit. -/
def ForInit.Explicit (table : SymbolTable) : ForInit → Prop
  | .declarations _ decls => ∀ decl ∈ decls, decl.Explicit table false
  | .expression _ value => ∀ expr ∈ value, expr.IsValue table

/-! ### Statements -/

mutual

/-- All expressions of the statement are explicit and have the types their places ask for, in a
function with a result type. -/
def Stmt.Explicit (table : SymbolTable) (result : CType) : Stmt → Prop
  | .ret _ none => result.isVoid
  | .ret _ (some value) => result.isVoid = false ∧ value.IsValue table ∧ value.type = result
  | .expr _ value => value.IsValue table
  | .ifThen _ condition thenBranch =>
      condition.IsCondition table ∧ thenBranch.Explicit table result
  | .ifElse _ condition thenBranch elseBranch =>
      condition.IsCondition table ∧ thenBranch.Explicit table result ∧
        elseBranch.Explicit table result
  | .block _ items => Item.ExplicitList table result items
  | .whileLoop _ _ condition body | .doWhile _ _ body condition =>
      condition.IsCondition table ∧ body.Explicit table result
  | .forLoop _ _ init condition post body =>
      init.Explicit table ∧ (∀ expr ∈ condition, expr.IsCondition table) ∧
        (∀ expr ∈ post, expr.IsValue table) ∧ body.Explicit table result
  | .switch _ _ value body cases =>
      value.Explicit table ∧ value.type.isInteger ∧ value.type.IsPromoted ∧
        (∀ case ∈ cases, ∀ constant ∈ case.value, constant.type = value.type) ∧
        body.Explicit table result
  | .case _ _ value body => value.IsValue table ∧ body.Explicit table result
  | .default _ _ body => body.Explicit table result
  | .break _ _ | .continue _ _ | .null _ => True

/-- All items of a block are explicit; functions are not defined there. -/
def Item.ExplicitList (table : SymbolTable) (result : CType) : List Item → Prop
  | [] => True
  | .stmt stmt :: items => stmt.Explicit table result ∧ Item.ExplicitList table result items
  | .decl (.object decl) :: items =>
      decl.Explicit table false ∧ Item.ExplicitList table result items
  | .decl (.function decl) :: items => decl.Explicit table ∧ Item.ExplicitList table result items
  | .decl (.definition _ _ _) :: _ => False

end

/-- A declaration at file scope is explicit. -/
def Decl.Explicit (table : SymbolTable) : Decl → Prop
  | .object decl => decl.Explicit table true
  | .function decl => decl.Explicit table
  | .definition decl _ body =>
      decl.Explicit table ∧ (∀ param ∈ decl.params, table.HasType param.name param.type) ∧
        Item.ExplicitList table decl.result body

/-- Every declaration of the compilation unit is explicit. -/
def Program.Explicit (table : SymbolTable) (program : Program) : Prop :=
  ∀ decl ∈ program, decl.Explicit table

/-! ### Growth of the symbol table -/

section Growth

variable {earlier later : SymbolTable} (extension : later.Extends earlier)

-- The recursive calls of a mutual block hide that its theorems use the hypothesis.
set_option linter.unusedSectionVars false

include extension

namespace Expr

mutual

/-- An explicit expression stays so when symbols are added. -/
theorem Explicit.extend : ∀ expr : Expr, expr.Explicit earlier → expr.Explicit later
  | .constant _ _, explicit | .string _ _, explicit | .sizeofType _ _, explicit => by
      simpa only [Explicit] using explicit
  | .var _ _, explicit => by
      simp only [Explicit] at explicit ⊢
      exact ⟨explicit.1, explicit.2.extend extension⟩
  | .unary _ _ operand, explicit | .cast _ _ operand _, explicit | .addressOf _ operand, explicit
  | .dereference _ operand, explicit | .step _ _ _ operand, explicit
  | .sizeofExpr _ operand, explicit | .decay _ operand, explicit => by
      simp only [Explicit] at explicit ⊢
      exact ⟨explicit.1, Explicit.extend operand explicit.2.1, explicit.2.2⟩
  | .binary _ _ left right, explicit | .assign _ _ left right _, explicit
  | .subscript _ left right, explicit => by
      simp only [Explicit] at explicit ⊢
      exact ⟨explicit.1, Explicit.extend left explicit.2.1, Explicit.extend right explicit.2.2.1,
        explicit.2.2.2⟩
  | .conditional _ condition thenBranch elseBranch, explicit => by
      simp only [Explicit] at explicit ⊢
      exact ⟨explicit.1, Explicit.extend condition explicit.2.1,
        Explicit.extend thenBranch explicit.2.2.1, Explicit.extend elseBranch explicit.2.2.2.1,
        explicit.2.2.2.2⟩
  | .call _ _ arguments, explicit => by
      simp only [Explicit] at explicit ⊢
      exact ⟨explicit.1, ExplicitList.extend arguments explicit.2.1, explicit.2.2.1,
        explicit.2.2.2.extend extension⟩

theorem ExplicitList.extend :
    ∀ exprs : List Expr, ExplicitList earlier exprs → ExplicitList later exprs
  | [], _ => by simp only [ExplicitList]
  | expr :: exprs, explicit => by
      simp only [ExplicitList] at explicit ⊢
      exact ⟨Explicit.extend expr explicit.1, ExplicitList.extend exprs explicit.2⟩

end

variable {expr : Expr}

theorem IsValue.extend (value : expr.IsValue earlier) : expr.IsValue later :=
  ⟨Explicit.extend extension expr value.1, value.2⟩

theorem IsCondition.extend (condition : expr.IsCondition earlier) : expr.IsCondition later :=
  ⟨Explicit.extend extension expr condition.1, condition.2⟩

theorem Initializes.extend {type : CType} (initializes : expr.Initializes earlier type) :
    expr.Initializes later type := by
  cases initializes with
  | value explicit sameType scalar =>
      exact .value (Explicit.extend extension _ explicit) sameType scalar
  | zero marks sameType isZero => exact .zero marks sameType isZero
  | string explicit isArray characters fits =>
      exact .string (Explicit.extend extension _ explicit) isArray characters fits

end Expr

mutual

theorem Initializer.Explicit.extend {isStatic : Bool} :
    ∀ (type : CType) (init : Initializer), init.Explicit earlier isStatic type →
      init.Explicit later isStatic type
  | _, .single _ _, explicit => by
      simp only [Initializer.Explicit] at explicit ⊢
      exact explicit.extend extension
  | type, .compound _ items, explicit => by
      simp only [Initializer.Explicit] at explicit ⊢
      rcases explicit with ⟨size, element, isArray, short, full, elements⟩ | ⟨isStatic, rest⟩
      · exact .inl ⟨size, element, isArray, short, full,
          Initializer.ExplicitList.extend element items elements⟩
      · exact .inr ⟨isStatic, rest.1, rest.2.1,
          Initializer.ExplicitList.extend type items rest.2.2⟩

theorem Initializer.ExplicitList.extend {isStatic : Bool} :
    ∀ (type : CType) (items : List Initializer),
      Initializer.ExplicitList earlier isStatic type items →
      Initializer.ExplicitList later isStatic type items
  | _, [], _ => by simp only [Initializer.ExplicitList]
  | type, item :: items, explicit => by
      simp only [Initializer.ExplicitList] at explicit ⊢
      exact ⟨Initializer.Explicit.extend type item explicit.1,
        Initializer.ExplicitList.extend type items explicit.2⟩

end

theorem VarDecl.Explicit.extend {isFile : Bool} {decl : VarDecl}
    (explicit : decl.Explicit earlier isFile) : decl.Explicit later isFile :=
  ⟨explicit.1.extend extension,
    fun init mem => Initializer.Explicit.extend extension _ init (explicit.2 init mem)⟩

theorem ForInit.Explicit.extend {init : ForInit} (explicit : init.Explicit earlier) :
    init.Explicit later := by
  cases init with
  | declarations loc decls => exact fun decl mem => (explicit decl mem).extend extension
  | expression loc value => exact fun expr mem => (explicit expr mem).extend extension

mutual

/-- An explicit statement stays so when symbols are added. -/
theorem Stmt.Explicit.extend {result : CType} :
    ∀ stmt : Stmt, stmt.Explicit earlier result → stmt.Explicit later result
  | .ret _ none, explicit => by
      simpa only [Stmt.Explicit] using explicit
  | .break _ _, _ | .continue _ _, _ | .null _, _ => by
      simp only [Stmt.Explicit]
  | .ret _ (some _), explicit => by
      simp only [Stmt.Explicit] at explicit ⊢
      exact ⟨explicit.1, explicit.2.1.extend extension, explicit.2.2⟩
  | .expr _ _, explicit => by
      simp only [Stmt.Explicit] at explicit ⊢
      exact explicit.extend extension
  | .ifElse _ _ thenBranch elseBranch, explicit => by
      simp only [Stmt.Explicit] at explicit ⊢
      exact ⟨explicit.1.extend extension, Stmt.Explicit.extend thenBranch explicit.2.1,
        Stmt.Explicit.extend elseBranch explicit.2.2⟩
  | .block _ items, explicit => by
      simp only [Stmt.Explicit] at explicit ⊢
      exact Item.ExplicitList.extend items explicit
  | .ifThen _ _ body, explicit | .whileLoop _ _ _ body, explicit
  | .doWhile _ _ body _, explicit => by
      simp only [Stmt.Explicit] at explicit ⊢
      exact ⟨explicit.1.extend extension, Stmt.Explicit.extend body explicit.2⟩
  | .forLoop _ _ _ _ _ body, explicit => by
      simp only [Stmt.Explicit] at explicit ⊢
      exact ⟨explicit.1.extend extension,
        fun expr mem => (explicit.2.1 expr mem).extend extension,
        fun expr mem => (explicit.2.2.1 expr mem).extend extension,
        Stmt.Explicit.extend body explicit.2.2.2⟩
  | .switch _ _ _ body _, explicit => by
      simp only [Stmt.Explicit] at explicit ⊢
      exact ⟨Expr.Explicit.extend extension _ explicit.1, explicit.2.1, explicit.2.2.1,
        explicit.2.2.2.1, Stmt.Explicit.extend body explicit.2.2.2.2⟩
  | .case _ _ _ body, explicit => by
      simp only [Stmt.Explicit] at explicit ⊢
      exact ⟨explicit.1.extend extension, Stmt.Explicit.extend body explicit.2⟩
  | .default _ _ body, explicit => by
      simp only [Stmt.Explicit] at explicit ⊢
      exact Stmt.Explicit.extend body explicit

theorem Item.ExplicitList.extend {result : CType} :
    ∀ items : List Item, Item.ExplicitList earlier result items →
      Item.ExplicitList later result items
  | [], _ => by simp only [Item.ExplicitList]
  | .stmt stmt :: items, explicit => by
      simp only [Item.ExplicitList] at explicit ⊢
      exact ⟨Stmt.Explicit.extend stmt explicit.1, Item.ExplicitList.extend items explicit.2⟩
  | .decl (.object _) :: items, explicit => by
      simp only [Item.ExplicitList] at explicit ⊢
      exact ⟨explicit.1.extend extension, Item.ExplicitList.extend items explicit.2⟩
  | .decl (.function _) :: items, explicit => by
      simp only [Item.ExplicitList] at explicit ⊢
      exact ⟨SymbolTable.HasFunction.extend explicit.1 extension,
        Item.ExplicitList.extend items explicit.2⟩
  | .decl (.definition _ _ _) :: _, explicit => by
      simp only [Item.ExplicitList] at explicit

end

theorem Decl.Explicit.extend {decl : Decl} (explicit : decl.Explicit earlier) :
    decl.Explicit later := by
  cases decl with
  | object decl => exact VarDecl.Explicit.extend extension explicit
  | function decl => exact SymbolTable.HasFunction.extend explicit extension
  | definition decl bodyLoc body =>
      exact ⟨SymbolTable.HasFunction.extend explicit.1 extension,
        fun param mem => (explicit.2.1 param mem).extend extension,
        Item.ExplicitList.extend extension body explicit.2.2⟩

end Growth

end SubsetC
