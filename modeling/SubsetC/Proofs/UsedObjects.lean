import SubsetC.Proofs.InitTyping
import SubsetC.Proofs.StmtDelivery

/-!
# Objects that explicit trees use

Every name that an explicit tree uses as an object has a symbol, which is not that of a function: an
expression never uses a function as a value, and nothing initializes one.
-/

namespace SubsetC

/-- A name has a symbol with a type that is no function type. -/
def SymbolTable.HasNonFunction (table : SymbolTable) (name : Text) : Prop :=
  ∃ type, table.HasType name type ∧ type.isFunction = false

theorem CType.isFunction_of_isComplete {type : CType} (complete : type.isComplete) :
    type.isFunction = false := by
  cases type <;> first | rfl | cases complete

section

variable {table : SymbolTable}

namespace Expr

mutual

theorem Explicit.objects : ∀ expr : Expr, expr.Explicit table →
    ∀ name ∈ expr.objects, table.HasNonFunction name
  | .constant _ _, _ | .string _ _, _ | .sizeofExpr _ _, _ | .sizeofType _ _, _ => nofun
  | .var _ name, explicit => by
      rcases explicit.2 with ⟨complete, hasType⟩
      intro other mem
      rw [List.mem_singleton.1 mem]
      exact ⟨_, hasType, CType.isFunction_of_isComplete complete⟩
  | .unary _ _ operand, explicit | .cast _ _ operand _, explicit | .addressOf _ operand, explicit
  | .dereference _ operand, explicit | .step _ _ _ operand, explicit | .decay _ operand, explicit =>
      Explicit.objects operand explicit.2.1
  | .binary _ _ left right, explicit | .assign _ _ left right _, explicit
  | .subscript _ left right, explicit =>
      List.forall_mem_append.2
        ⟨Explicit.objects left explicit.2.1, Explicit.objects right explicit.2.2.1⟩
  | .conditional _ condition thenBranch elseBranch, explicit =>
      List.forall_mem_append.2 ⟨Explicit.objects condition explicit.2.1,
        List.forall_mem_append.2 ⟨Explicit.objects thenBranch explicit.2.2.1,
          Explicit.objects elseBranch explicit.2.2.2.1⟩⟩
  | .call _ _ arguments, explicit => ExplicitList.objects arguments explicit.2.1

theorem ExplicitList.objects : ∀ exprs : List Expr, ExplicitList table exprs →
    ∀ name ∈ objectsList exprs, table.HasNonFunction name
  | [], _ => nofun
  | expr :: exprs, explicit =>
      List.forall_mem_append.2
        ⟨Explicit.objects expr explicit.1, ExplicitList.objects exprs explicit.2⟩

end

theorem objects_option {value : Option Expr} {wanted : Expr → Prop}
    (explicit : ∀ expr ∈ value, wanted expr) (weaken : ∀ expr, wanted expr → expr.Explicit table) :
    ∀ name ∈ objectsOption value, table.HasNonFunction name := by
  cases value with
  | none => exact nofun
  | some expr => exact Explicit.objects expr (weaken expr (explicit expr rfl))

theorem Initializes.objects {expr : Expr} {type : CType}
    (initializes : expr.Initializes table type) : ∀ name ∈ expr.objects, table.HasNonFunction name := by
  cases initializes with
  | value explicit _ _ => exact Explicit.objects expr explicit
  | zero _ _ _ => exact nofun
  | string _ _ _ _ => exact nofun

theorem Initializes.isFunction {expr : Expr} {type : CType}
    (initializes : expr.Initializes table type) : type.isFunction = false := by
  cases initializes with
  | value _ _ scalar => exact CType.isFunction_of_isScalar scalar
  | zero _ _ isZero => exact CType.isFunction_of_isScalar (Const.isScalar_of_zero? isZero)
  | string _ isArray _ _ =>
      rw [isArray]
      rfl

end Expr

namespace Initializer

mutual

theorem Explicit.objects {isStatic : Bool} : ∀ (init : Initializer) {type : CType},
    init.Explicit table isStatic type → ∀ name ∈ init.objects, table.HasNonFunction name
  | .single _ _, _, explicit => Expr.Initializes.objects explicit
  | .compound _ items, _, .inl ⟨_, _, _, _, _, explicit⟩
  | .compound _ items, _, .inr ⟨_, _, _, explicit⟩ => ExplicitList.objects items explicit

theorem ExplicitList.objects {isStatic : Bool} : ∀ (items : List Initializer) {type : CType},
    ExplicitList table isStatic type items →
    ∀ name ∈ objectsList items, table.HasNonFunction name
  | [], _, _ => nofun
  | item :: items, _, explicit =>
      List.forall_mem_append.2
        ⟨Explicit.objects item explicit.1, ExplicitList.objects items explicit.2⟩

end

/-- What is initialized automatically is no function. -/
theorem Explicit.isFunction {init : Initializer} {type : CType}
    (explicit : init.Explicit table false type) : type.isFunction = false := by
  cases init with
  | single _ _ => exact Expr.Initializes.isFunction explicit
  | compound _ _ =>
      rcases explicit with ⟨_, _, rfl, _⟩ | ⟨isStatic, _⟩
      · rfl
      · cases isStatic

end Initializer

theorem VarDecl.Explicit.uses {decl : VarDecl} (explicit : decl.Explicit table false) :
    ∀ name ∈ decl.uses, table.HasNonFunction name := by
  rcases decl with ⟨loc, name, type, _ | storageClass, _ | init⟩
  case none.some =>
    have initExplicit := explicit.2 init rfl
    exact List.forall_mem_cons.2
      ⟨⟨type, explicit.1, initExplicit.isFunction⟩, Initializer.Explicit.objects init initExplicit⟩
  all_goals exact nofun

theorem VarDecl.Explicit.usesList : ∀ decls : List VarDecl,
    (∀ decl ∈ decls, decl.Explicit table false) →
    ∀ name ∈ VarDecl.usesList decls, table.HasNonFunction name
  | [], _ => nofun
  | _ :: decls, explicit => by
      rcases List.forall_mem_cons.1 explicit with ⟨head, tail⟩
      exact List.forall_mem_append.2 ⟨head.uses, VarDecl.Explicit.usesList decls tail⟩

theorem ForInit.Explicit.uses {init : ForInit} (explicit : init.Explicit table) :
    ∀ name ∈ init.uses, table.HasNonFunction name := by
  cases init with
  | declarations _ decls => exact VarDecl.Explicit.usesList decls explicit
  | expression _ value => exact Expr.objects_option explicit fun _ => And.left

mutual

theorem Stmt.Explicit.uses {result : CType} : ∀ stmt : Stmt, stmt.Explicit table result →
    ∀ name ∈ stmt.uses, table.HasNonFunction name
  | .ret _ none, _ | .break _ _, _ | .continue _ _, _ | .null _, _ => nofun
  | .ret _ (some value), explicit => Expr.Explicit.objects value explicit.2.1.1
  | .expr _ value, explicit => Expr.Explicit.objects value explicit.1
  | .ifThen _ condition body, explicit | .whileLoop _ _ condition body, explicit =>
      List.forall_mem_append.2
        ⟨Expr.Explicit.objects condition explicit.1.1, Stmt.Explicit.uses body explicit.2⟩
  | .doWhile _ _ body condition, explicit =>
      List.forall_mem_append.2
        ⟨Stmt.Explicit.uses body explicit.2, Expr.Explicit.objects condition explicit.1.1⟩
  | .ifElse _ condition thenBranch elseBranch, explicit =>
      List.forall_mem_append.2 ⟨Expr.Explicit.objects condition explicit.1.1,
        List.forall_mem_append.2 ⟨Stmt.Explicit.uses thenBranch explicit.2.1,
          Stmt.Explicit.uses elseBranch explicit.2.2⟩⟩
  | .block _ items, explicit => Item.ExplicitList.uses items explicit
  | .forLoop _ _ _ _ _ body, explicit =>
      List.forall_mem_append.2 ⟨explicit.1.uses, List.forall_mem_append.2
        ⟨Expr.objects_option explicit.2.1 fun _ => And.left, List.forall_mem_append.2
          ⟨Stmt.Explicit.uses body explicit.2.2.2,
            Expr.objects_option explicit.2.2.1 fun _ => And.left⟩⟩⟩
  | .switch _ _ value body _, explicit =>
      List.forall_mem_append.2
        ⟨Expr.Explicit.objects value explicit.1, Stmt.Explicit.uses body explicit.2.2.2.2⟩
  | .case _ _ _ body, explicit => Stmt.Explicit.uses body explicit.2
  | .default _ _ body, explicit => Stmt.Explicit.uses body explicit

theorem Item.ExplicitList.uses {result : CType} : ∀ items : List Item,
    Item.ExplicitList table result items →
    ∀ name ∈ Item.usesList items, table.HasNonFunction name
  | [], _ => nofun
  | .stmt stmt :: items, explicit =>
      List.forall_mem_append.2
        ⟨Stmt.Explicit.uses stmt explicit.1, Item.ExplicitList.uses items explicit.2⟩
  | .decl (.object _) :: items, explicit =>
      List.forall_mem_append.2 ⟨explicit.1.uses, Item.ExplicitList.uses items explicit.2⟩
  | .decl (.function _) :: items, explicit => Item.ExplicitList.uses items explicit.2
  | .decl (.definition _ _ _) :: _, explicit => explicit.elim

end

/-- The objects that the body of a definition initializes or uses. -/
theorem Program.Explicit.uses {program : Program} (explicit : program.Explicit table) :
    ∀ definition ∈ program.definitions, ∀ name ∈ Item.usesList definition.2,
      table.HasNonFunction name := by
  intro definition mem
  rcases List.mem_filterMap.1 mem with ⟨decl, declMem, isDefinition⟩
  have declExplicit := explicit decl declMem
  cases decl with
  | object | function => cases isDefinition
  | definition decl bodyLoc body =>
      cases isDefinition
      exact Item.ExplicitList.uses body declExplicit.2.2

end

end SubsetC
