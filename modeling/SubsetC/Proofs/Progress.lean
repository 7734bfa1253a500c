import SubsetC.Assembly
import SubsetC.Proofs.ExprProgress
import SubsetC.Proofs.StmtCode

/-!
# Accepted programs reach assembly

Lowering and assembly have nothing left to refuse once analysis has accepted a program. Every form
of expression, initializer and statement that an explicit tree can have is lowered, functions have
the symbols that declaring them has entered, and scalar results have a zero to return. Assembly then
finds a symbol for every name in the code, and every object that it lays out has a size, so that its
alignment is not zero.

The one limit that remains is memory: the bytes of a string that fills an automatic array are built
in a buffer. `Program.buffers` lists the sizes of these buffers.
-/

namespace SubsetC

/-! ### Buffers -/

namespace Initializer

mutual

/-- The sizes of the arrays that strings fill, in an initializer of an object of a type. -/
def buffers (type : CType) : Initializer → List Size
  | .single _ value =>
    match type, value with
    | .array size _, .string _ _ => [size]
    | _, _ => []
  | .compound _ items => buffersList (type.element?.getD .void) items

/-- The sizes of the arrays that strings fill, in initializers of objects of a type. -/
def buffersList (type : CType) : List Initializer → List Size
  | [] => []
  | item :: items => item.buffers type ++ buffersList type items

end

end Initializer

/-- The sizes of the buffers for an automatic object. -/
def VarDecl.buffers (decl : VarDecl) : List Size :=
  match decl.storageClass, decl.init with
  | none, some init => init.buffers decl.type
  | _, _ => []

/-- The sizes of the buffers for the first clause of a for statement. -/
def ForInit.buffers : ForInit → List Size
  | .declarations _ decls => decls.flatMap VarDecl.buffers
  | .expression _ _ => []

mutual

/-- The sizes of the buffers for a statement. -/
def Stmt.buffers : Stmt → List Size
  | .ifThen _ _ body | .whileLoop _ _ _ body | .doWhile _ _ body _ | .switch _ _ _ body _
  | .case _ _ _ body | .default _ _ body => body.buffers
  | .ifElse _ _ thenBranch elseBranch => thenBranch.buffers ++ elseBranch.buffers
  | .block _ items => Item.buffersList items
  | .forLoop _ _ init _ _ body => init.buffers ++ body.buffers
  | .ret _ _ | .expr _ _ | .break _ _ | .continue _ _ | .null _ => []

def Item.buffersList : List Item → List Size
  | [] => []
  | .stmt stmt :: items => stmt.buffers ++ Item.buffersList items
  | .decl (.object decl) :: items => decl.buffers ++ Item.buffersList items
  | .decl _ :: items => Item.buffersList items

end

/-- The sizes of the buffers for a declaration of a file. -/
def Decl.buffers : Decl → List Size
  | .definition _ _ body => Item.buffersList body
  | _ => []

/-- The sizes of the buffers for a compilation unit. -/
def Program.buffers (program : Program) : List Size := program.flatMap Decl.buffers

/-- All sizes are sizes a buffer can have. -/
def Size.Fit (sizes : List Size) : Prop := ∀ size ∈ sizes, size ≤ allocationLimit

theorem Size.Fit.of_append {first second : List Size} (fit : Size.Fit (first ++ second)) :
    Size.Fit first ∧ Size.Fit second :=
  List.forall_mem_append.1 fit

section Explicit

variable {base : SymbolTable} (sound : base.Sound)

-- The recursive calls of a mutual block hide that its theorems use the hypothesis.
set_option linter.unusedSectionVars false

include sound

/-! ### Initializers -/

omit sound in
/-- An array of characters has as many bytes as elements. -/
theorem CType.size_of_characters {size : Int} {element : CType} (characters : element.isCharacter)
    (nonnegative : 0 ≤ size) (fits : size ≤ allocationLimit) :
    (CType.array size element).size = size := by
  have single : element.size = 1 := by
    cases element with
    | integer kind => cases kind <;> first | rfl | cases characters
    | void | double | pointer | array | function => cases characters
  rw [CType.size, single, Size.mul, Size.wrap, Int.mul_one]
  unfold allocationLimit at fits
  exact Int.bmod_eq_of_le (by omega) (by omega)

theorem Expr.Initializes.lowerValue_succeeds {type : CType} {expr : Expr}
    (initializes : expr.Initializes base type) (notArray : type.isArray = false) :
    expr.lowerValue.Succeeds := by
  cases initializes with
  | value explicit sameType scalar =>
      exact Expr.lowerValue_succeeds sound explicit (sameType ▸ scalar)
  | zero =>
      rw [Expr.lowerValue, Expr.lower, pure_bind]
      exact .pure trivial
  | string _ isArray =>
      subst isArray
      cases notArray

namespace Initializer

mutual

theorem lowerAt_succeeds : ∀ (init : Initializer) {type : CType},
    init.Explicit base false type → Size.Fit (init.buffers type) →
    ∀ (name : Text) (offset : Size), (init.lowerAt name type offset).Succeeds
  | .single loc value, type, explicit, fit, name, offset => by
      replace explicit : value.Initializes base type := explicit
      unfold lowerAt
      split
      · rename_i size element note bytes
        cases explicit with
        | value _ _ scalar => cases CType.isArray_of_isScalar scalar
        | string _ isArray characters room =>
            cases isArray
            have nonnegative : 0 ≤ size := Int.le_trans (Int.natCast_nonneg _) room
            have fits : size ≤ allocationLimit := fit size (by simp [buffers])
            have inBounds : ¬(size < 0 ∨ allocationLimit < size) :=
              not_or.2 ⟨Int.not_lt.2 nonnegative, Int.not_lt.2 fits⟩
            rw [CType.size_of_characters characters nonnegative fits, writeString, if_neg inBounds]
            exact .pure trivial
      · rename_i noString
        have notArray : type.isArray = false := by
          cases explicit with
          | value _ _ scalar => exact CType.isArray_of_isScalar scalar
          | zero _ _ isZero => exact CType.isArray_of_isScalar (Const.isScalar_of_zero? isZero)
          | string _ isArray => exact absurd rfl (noString _ _ _ _ isArray)
        exact (explicit.lowerValue_succeeds sound notArray).bind fun _ => .pure trivial
  | .compound loc items, type, explicit, fit, name, offset => by
      rw [lowerAt]
      rcases explicit with ⟨size, element, rfl, _, _, explicit⟩ | ⟨isStatic, _⟩
      · exact lowerElements_succeeds items explicit fit name offset
      · cases isStatic

theorem lowerElements_succeeds : ∀ (items : List Initializer) {element : CType},
    ExplicitList base false element items → Size.Fit (buffersList element items) →
    ∀ (name : Text) (offset : Size), (lowerElements name element offset items).Succeeds
  | [], element, _, _, name, offset => by
      rw [lowerElements]
      exact .pure trivial
  | item :: items, element, explicit, fit, name, offset => by
      rcases Size.Fit.of_append fit with ⟨itemFit, itemsFit⟩
      rw [lowerElements]
      refine (lowerAt_succeeds item explicit.1 itemFit name offset).bind fun _ => ?_
      exact (lowerElements_succeeds items explicit.2 itemsFit name _).bind fun _ => .pure trivial

end

end Initializer

theorem VarDecl.lower_succeeds {decl : VarDecl} (explicit : decl.Explicit base false)
    (fit : Size.Fit decl.buffers) : decl.lower.Succeeds := by
  rcases decl with ⟨loc, name, type, _ | storageClass, _ | init⟩
  case none.some =>
    replace explicit : init.Explicit base false type := explicit.2 init rfl
    replace fit : Size.Fit (init.buffers type) := fit
    unfold lower
    dsimp only
    split
    · exact Initializer.lowerAt_succeeds sound init explicit fit name 0
    · rename_i notArray
      have notArray : type.isArray = false := by
        cases type with
        | array size element => exact absurd rfl (notArray size element)
        | _ => rfl
      exact (Expr.Initializes.lowerValue_succeeds sound explicit notArray).bind
        fun _ => .pure trivial
    · exact Initializer.lowerAt_succeeds sound init explicit fit name 0
  all_goals exact .pure trivial

theorem VarDecl.lowerList_succeeds : ∀ decls : List VarDecl,
    (∀ decl ∈ decls, decl.Explicit base false) → Size.Fit (decls.flatMap VarDecl.buffers) →
    (VarDecl.lowerList decls).Succeeds
  | [], _, _ => by
      rw [VarDecl.lowerList]
      exact .pure trivial
  | decl :: decls, explicit, fit => by
      rcases List.forall_mem_cons.1 explicit with ⟨head, tail⟩
      rw [List.flatMap_cons] at fit
      rcases fit.of_append with ⟨headFit, tailFit⟩
      rw [VarDecl.lowerList]
      refine (VarDecl.lower_succeeds sound head headFit).bind fun _ => ?_
      exact (VarDecl.lowerList_succeeds decls tail tailFit).bind fun _ => .pure trivial

/-! ### Clauses -/

namespace Expr

theorem lowerEffect_succeeds {expr : Expr} (explicit : expr.Explicit base) :
    expr.lowerEffect.Succeeds :=
  (lowers_of_explicit sound expr explicit).bind fun _ _ => .pure trivial

theorem lowerEffectOption_succeeds {value : Option Expr}
    (explicit : ∀ expr ∈ value, expr.IsValue base) : (lowerEffectOption value).Succeeds := by
  cases value with
  | none => exact .pure trivial
  | some expr => exact lowerEffect_succeeds sound (explicit expr rfl).1

theorem IsCondition.lowerValue_succeeds {condition : Expr}
    (isCondition : condition.IsCondition base) :
    condition.lowerValue.Succeeds :=
  Expr.lowerValue_succeeds sound isCondition.1 isCondition.2

theorem lowerTest_succeeds {condition : Option Expr}
    (explicit : ∀ expr ∈ condition, expr.IsCondition base) (target : Text) :
    (lowerTest target condition).Succeeds := by
  cases condition with
  | none => exact .pure trivial
  | some condition =>
      exact ((explicit condition rfl).lowerValue_succeeds sound).bind fun _ => .pure trivial

end Expr

theorem ForInit.lower_succeeds {init : ForInit} (explicit : init.Explicit base)
    (fit : Size.Fit init.buffers) : init.lower.Succeeds := by
  cases init with
  | declarations loc decls => exact VarDecl.lowerList_succeeds sound decls explicit fit
  | expression loc value => exact Expr.lowerEffectOption_succeeds sound explicit

omit sound in
theorem SwitchCase.lowerList_succeeds {type : CType} (integer : type.isInteger) (value : Operand) :
    ∀ cases : List SwitchCase, (SwitchCase.lowerList value type cases).Succeeds
  | [] => by
      rw [SwitchCase.lowerList]
      exact .pure trivial
  | case :: cases => by
      rw [SwitchCase.lowerList]
      split
      · exact SwitchCase.lowerList_succeeds integer value cases
      · have arithmetic : type.isArithmetic := by simp [CType.isArithmetic, integer]
        refine (Pass.newTemporary_succeeds rfl).bind fun _ => ?_
        refine (Const.convert_succeeds arithmetic _).bind fun _ => ?_
        exact (SwitchCase.lowerList_succeeds integer value cases).bind fun _ => .pure trivial

/-! ### Statements -/

variable {result : CType}

mutual

/-- Lowering of an explicit statement does not fail. -/
theorem Stmt.lower_succeeds : ∀ stmt : Stmt, stmt.Explicit base result → Size.Fit stmt.buffers →
    stmt.lower.Succeeds
  | .ret loc none, _, _ => by
      rw [Stmt.lower]
      exact .pure trivial
  | .ret loc (some value), explicit, _ => by
      rcases explicit with ⟨notVoid, ⟨valueExplicit, isValue⟩, sameType⟩
      have scalar := CType.isScalar_of_isValue isValue (sameType ▸ notVoid)
      rw [Stmt.lower]
      exact (Expr.lowerValue_succeeds sound valueExplicit scalar).bind fun _ => .pure trivial
  | .expr loc value, explicit, _ => by
      rw [Stmt.lower]
      exact Expr.lowerEffect_succeeds sound explicit.1
  | .ifThen loc condition thenBranch, explicit, fit => by
      rw [Stmt.lower]
      refine (Pass.newLabelPair_succeeds _ _).bind fun _ => ?_
      refine (explicit.1.lowerValue_succeeds sound).bind fun _ => ?_
      exact (Stmt.lower_succeeds thenBranch explicit.2 fit).bind fun _ => .pure trivial
  | .ifElse loc condition thenBranch elseBranch, explicit, fit => by
      rcases Size.Fit.of_append fit with ⟨thenFit, elseFit⟩
      rw [Stmt.lower]
      refine (Pass.newLabelPair_succeeds _ _).bind fun _ => ?_
      refine (explicit.1.lowerValue_succeeds sound).bind fun _ => ?_
      refine (Stmt.lower_succeeds thenBranch explicit.2.1 thenFit).bind fun _ => ?_
      exact (Stmt.lower_succeeds elseBranch explicit.2.2 elseFit).bind fun _ => .pure trivial
  | .block loc items, explicit, fit => by
      rw [Stmt.lower]
      exact Item.lowerList_succeeds items explicit fit
  | .whileLoop loc label condition body, explicit, fit => by
      rw [Stmt.lower]
      refine (explicit.1.lowerValue_succeeds sound).bind fun _ => ?_
      exact (Stmt.lower_succeeds body explicit.2 fit).bind fun _ => .pure trivial
  | .doWhile loc label body condition, explicit, fit => by
      rw [Stmt.lower]
      refine (Stmt.lower_succeeds body explicit.2 fit).bind fun _ => ?_
      exact (explicit.1.lowerValue_succeeds sound).bind fun _ => .pure trivial
  | .forLoop loc label init condition post body, explicit, fit => by
      rcases explicit with ⟨initExplicit, conditionExplicit, postExplicit, bodyExplicit⟩
      rcases Size.Fit.of_append fit with ⟨initFit, bodyFit⟩
      rw [Stmt.lower]
      refine (ForInit.lower_succeeds sound initExplicit initFit).bind fun _ => ?_
      refine (Expr.lowerTest_succeeds sound conditionExplicit _).bind fun _ => ?_
      refine (Stmt.lower_succeeds body bodyExplicit bodyFit).bind fun _ => ?_
      exact (Expr.lowerEffectOption_succeeds sound postExplicit).bind fun _ => .pure trivial
  | .switch loc label value body cases, explicit, fit => by
      rcases explicit with ⟨valueExplicit, integer, _, _, bodyExplicit⟩
      have scalar := CType.isScalar_of_isInteger integer
      rw [Stmt.lower]
      refine (Expr.lowerValue_succeeds sound valueExplicit scalar).bind fun _ => ?_
      refine (SwitchCase.lowerList_succeeds integer _ cases).bind fun _ => ?_
      exact (Stmt.lower_succeeds body bodyExplicit fit).bind fun _ => .pure trivial
  | .case loc label value body, explicit, fit => by
      rw [Stmt.lower]
      exact (Stmt.lower_succeeds body explicit.2 fit).bind fun _ => .pure trivial
  | .default loc label body, explicit, fit => by
      rw [Stmt.lower]
      exact (Stmt.lower_succeeds body explicit fit).bind fun _ => .pure trivial
  | .break loc label, _, _ | .continue loc label, _, _ | .null loc, _, _ => by
      rw [Stmt.lower]
      exact .pure trivial

theorem Item.lowerList_succeeds : ∀ items : List Item, Item.ExplicitList base result items →
    Size.Fit (Item.buffersList items) → (Item.lowerList items).Succeeds
  | [], _, _ => by
      rw [Item.lowerList]
      exact .pure trivial
  | .stmt stmt :: items, explicit, fit => by
      rcases Size.Fit.of_append fit with ⟨stmtFit, itemsFit⟩
      rw [Item.lowerList]
      refine (Stmt.lower_succeeds stmt explicit.1 stmtFit).bind fun _ => ?_
      exact (Item.lowerList_succeeds items explicit.2 itemsFit).bind fun _ => .pure trivial
  | .decl (.object decl) :: items, explicit, fit => by
      rcases Size.Fit.of_append fit with ⟨declFit, itemsFit⟩
      rw [Item.lowerList]
      refine (VarDecl.lower_succeeds sound explicit.1 declFit).bind fun _ => ?_
      exact (Item.lowerList_succeeds items explicit.2 itemsFit).bind fun _ => .pure trivial
  | .decl (.function decl) :: items, explicit, fit => by
      rw [Item.lowerList]
      · exact Item.lowerList_succeeds items explicit.2 fit
      · simp
  | .decl (.definition _ _ _) :: _, explicit, _ => explicit.elim

end

end Explicit

/-! ### Functions -/

theorem CType.lowerEnd_succeeds {result : CType} (value : result.IsValue) :
    result.lowerEnd.Succeeds := by
  unfold CType.lowerEnd
  refine .ite (fun _ => .pure trivial) fun notVoid => ?_
  have scalar := CType.isScalar_of_isValue value (by simpa using notVoid)
  split
  · exact .pure trivial
  · rename_i none
    have isSome := Const.isSome_ofInt64? scalar 0
    rw [← Const.zero?, none] at isSome
    cases isSome

theorem Pass.functionIsGlobal_ensures {context : Context} {name : Text} {parameters : List CType}
    {result : CType} (hasFunction : context.symbols.HasFunction name parameters result) :
    Ensures (Pass.functionIsGlobal name) context (fun _ => False) fun _ after =>
      context = after := by
  rcases hasFunction with ⟨⟨symbolName, type, storage⟩, found, _, isFunction⟩
  unfold Pass.functionIsGlobal
  refine Ensures.bind_ok (Pass.run_findSymbol? _ _) ?_
  rw [found]
  cases storage with
  | function defined isGlobal => exact Ensures.pure rfl
  | static | constant | automatic => cases isFunction

theorem FunDecl.lower_ensures {context : Context} (sound : context.symbols.Sound) {decl : FunDecl}
    {bodyLoc : Loc} {body : List Item}
    (explicit : (Decl.definition decl bodyLoc body).Explicit context.symbols)
    (fit : Size.Fit (Item.buffersList body)) :
    Ensures (decl.lower body) context (fun _ => False) fun _ after => after.symbols.Sound := by
  rcases explicit with ⟨hasFunction, _, bodyExplicit⟩
  unfold FunDecl.lower
  refine (Pass.functionIsGlobal_ensures hasFunction).bind ?_
  rintro isGlobal _ rfl
  refine (Item.lowerList_succeeds sound body bodyExplicit fit context sound).bind ?_
  rintro bodyCode between ⟨soundBetween, _⟩
  have isValue := (sound.signature hasFunction).2
  refine (CType.lowerEnd_succeeds isValue between soundBetween).bind ?_
  rintro endCode after ⟨soundAfter, _⟩
  exact Ensures.pure soundAfter

namespace Program

theorem lowerFunctions_ensures : ∀ (program : Program) {context : Context}, context.Valid →
    program.Explicit context.symbols → Size.Fit program.buffers →
    Ensures program.lowerFunctions context (fun _ => False) fun _ after => after.symbols.Sound
  | [], context, valid, _, _ => by
      rw [lowerFunctions]
      exact Ensures.pure valid.sound
  | .definition decl bodyLoc body :: decls, context, valid, explicit, fit => by
      rcases List.forall_mem_cons.1 explicit with ⟨head, tail⟩
      rcases Size.Fit.of_append fit with ⟨headFit, tailFit⟩
      have lowers := (FunDecl.lower_ensures valid.sound head headFit).with_run
        fun function after runs sound =>
          And.intro sound ((FunDecl.lower_yields valid.tidy head).of_ok runs).1
      rw [lowerFunctions]
      refine lowers.bind ?_
      rintro function between ⟨sound, grows⟩
      have rest : Program.Explicit between.symbols decls :=
        fun decl mem => (tail decl mem).extend grows.extends_
      refine (lowerFunctions_ensures decls ⟨grows.tidy valid.tidy (by simp), sound⟩ rest
        tailFit).bind ?_
      intro functions after sound
      exact Ensures.pure sound
  | .object decl :: decls, context, valid, explicit, fit
  | .function decl :: decls, context, valid, explicit, fit => by
      rcases List.forall_mem_cons.1 explicit with ⟨_, tail⟩
      rw [lowerFunctions]
      · exact lowerFunctions_ensures decls valid tail fit
      · simp

theorem lower_ensures {program : Program} {context : Context} (valid : context.Valid)
    (explicit : program.Explicit context.symbols) (fit : Size.Fit program.buffers) :
    Ensures program.lower context (fun _ => False) fun _ after => after.symbols.Sound := by
  unfold lower
  refine (lowerFunctions_ensures program valid explicit fit).bind ?_
  intro functions after sound
  exact Ensures.bind_ok (Pass.run_get _) (Ensures.pure sound)

end Program

/-! ### Frames -/

theorem exists_of_forall₂ {α β : Type} {relates : α → β → Prop} {left : List α} {right : List β}
    (pairs : List.Forall₂ relates left right) : ∀ a ∈ left, ∃ b, relates a b := by
  induction pairs with
  | nil => exact nofun
  | cons head _ ih => exact List.forall_mem_cons.2 ⟨⟨_, head⟩, ih⟩

/-- Every operand of a well-typed instruction has a type, unless it is the place of a void
result. -/
theorem Instruction.WellTyped.operands_typed {table : SymbolTable} {result : CType}
    {instruction : Instruction} (wellTyped : instruction.WellTyped table result) :
    ∀ operand ∈ instruction.operands, operand = .absent ∨ ∃ type, operand.HasType table type := by
  cases instruction with
  | ret value =>
      refine List.forall_mem_singleton.2 ?_
      rcases wellTyped with ⟨_, isAbsent⟩ | ⟨_, hasValue⟩
      · exact .inl isAbsent
      · exact .inr ⟨_, hasValue⟩
  | convert op source target | unary op source target | copy source target =>
      rcases wellTyped with ⟨_, _, hasSource, hasTarget, _⟩
      simp only [operands, List.forall_mem_cons]
      exact ⟨.inr ⟨_, hasSource⟩, .inr ⟨_, hasTarget.hasType⟩, List.forall_mem_nil _⟩
  | binary op left right target =>
      rcases wellTyped with ⟨_, _, _, hasLeft, hasRight, hasTarget, _⟩
      simp only [operands, List.forall_mem_cons]
      exact ⟨.inr ⟨_, hasLeft⟩, .inr ⟨_, hasRight⟩, .inr ⟨_, hasTarget.hasType⟩,
        List.forall_mem_nil _⟩
  | getAddress source target =>
      rcases wellTyped with ⟨_, _, hasSource, hasTarget, _⟩
      simp only [operands, List.forall_mem_cons]
      exact ⟨.inr ⟨_, hasSource.hasType⟩, .inr ⟨_, hasTarget.hasType⟩, List.forall_mem_nil _⟩
  | load pointer target =>
      rcases wellTyped with ⟨_, hasPointer, hasTarget⟩
      simp only [operands, List.forall_mem_cons]
      exact ⟨.inr ⟨_, hasPointer⟩, .inr ⟨_, hasTarget.hasType⟩, List.forall_mem_nil _⟩
  | store source pointer =>
      rcases wellTyped with ⟨_, hasSource, hasPointer⟩
      simp only [operands, List.forall_mem_cons]
      exact ⟨.inr ⟨_, hasSource⟩, .inr ⟨_, hasPointer⟩, List.forall_mem_nil _⟩
  | addPointer pointer index scale target =>
      rcases wellTyped with ⟨_, hasPointer, hasIndex, _, hasTarget⟩
      simp only [operands, List.forall_mem_cons]
      exact ⟨.inr ⟨_, hasPointer⟩, .inr ⟨_, hasIndex⟩, .inr ⟨_, hasTarget.hasType⟩,
        List.forall_mem_nil _⟩
  | copyToOffset source target offset =>
      rcases wellTyped with ⟨_, _, hasSource, _, hasTarget, _⟩
      simp only [operands, List.forall_mem_cons]
      exact ⟨.inr ⟨_, hasSource⟩, .inr ⟨_, hasTarget⟩, List.forall_mem_nil _⟩
  | copyFromOffset source offset target =>
      rcases wellTyped with ⟨_, _, hasTarget, _, hasSource, _⟩
      simp only [operands, List.forall_mem_cons]
      exact ⟨.inr ⟨_, hasSource⟩, .inr ⟨_, hasTarget.hasType⟩, List.forall_mem_nil _⟩
  | jump | label => exact List.forall_mem_nil _
  | jumpIfZero condition target | jumpIfNotZero condition target =>
      rcases wellTyped with ⟨_, hasCondition, _⟩
      exact List.forall_mem_singleton.2 (.inr ⟨_, hasCondition⟩)
  | call function arguments target =>
      rcases wellTyped with ⟨_, _, _, hasArguments, hasTarget⟩
      refine List.forall_mem_append.2 ⟨?_, List.forall_mem_singleton.2 ?_⟩
      · exact fun argument mem => .inr (exists_of_forall₂ hasArguments argument mem)
      · rcases hasTarget with ⟨_, isAbsent⟩ | ⟨_, hasTarget⟩
        · exact .inl isAbsent
        · exact .inr ⟨_, hasTarget.hasType⟩

/-- Every name that a well-typed function mentions has a symbol. -/
theorem Function.WellTyped.known {table : SymbolTable} {function : Function}
    (wellTyped : function.WellTyped table) :
    ∀ name ∈ function.names, ∃ symbol, table.find? name = some symbol := by
  rcases wellTyped with ⟨parameters, result, _, hasParams, body⟩
  refine List.forall_mem_append.2 ⟨?_, ?_⟩
  · intro name mem
    rcases exists_of_forall₂ hasParams name mem with ⟨_, symbol, found, _⟩
    exact ⟨symbol, found⟩
  · intro name mem
    rcases List.mem_flatMap.1 mem with ⟨instruction, instructionMem, nameMem⟩
    rcases List.mem_filterMap.1 nameMem with ⟨operand, operandMem, isName⟩
    rcases (body instruction instructionMem).operands_typed operand operandMem with
      rfl | ⟨type, hasType⟩
    · cases isName
    · cases operand with
      | constant | absent => cases isName
      | var own =>
          cases isName
          rcases hasType with ⟨symbol, found, _⟩
          exact ⟨symbol, found⟩

theorem CType.alignment_ne_zero : ∀ {type : CType}, type.isComplete → type.alignment ≠ 0
  | .integer kind, _ => by cases kind <;> decide
  | .double, _ | .pointer _, _ => by simp [alignment, size]
  | .array _ element, complete => by
      rw [alignment]
      have complete : element.isComplete := complete
      exact alignment_ne_zero complete

namespace Frame

theorem mem_of_mem_distinct : ∀ {names seen : List Text} {name : Text},
    name ∈ distinct seen names → name ∈ names
  | [], _, _, mem => nomatch mem
  | first :: names, seen, name, mem => by
      rw [distinct] at mem
      split at mem
      · exact List.mem_cons_of_mem _ (mem_of_mem_distinct mem)
      · rcases List.mem_cons.1 mem with rfl | restMem
        · exact List.mem_cons_self
        · exact List.mem_cons_of_mem _ (mem_of_mem_distinct restMem)

theorem align_ok (size : Size) {alignment : Size} (nonzero : alignment ≠ 0) :
    ∃ aligned, align size alignment = .ok aligned := by
  unfold align Size.alignUp?
  rw [if_neg nonzero]
  exact ⟨_, rfl⟩

/-- An automatic object that has a size can be given a slot. -/
theorem addSymbol_ok (frame : Frame) {symbol : Symbol}
    (laidOut : symbol.storage = .automatic → symbol.type.alignment ≠ 0) :
    ∃ next, frame.addSymbol symbol = .ok next := by
  unfold addSymbol
  split
  · rename_i isAutomatic
    rcases align_ok (Size.add frame.size symbol.type.size) (laidOut isAutomatic) with
      ⟨aligned, aligns⟩
    rw [aligns]
    exact ⟨_, rfl⟩
  · exact ⟨frame, rfl⟩

theorem addNames_ok {table : SymbolTable} : ∀ {names : List Text} (frame : Frame),
    (∀ name ∈ names, ∃ symbol, table.find? name = some symbol ∧
      (symbol.storage = .automatic → symbol.type.alignment ≠ 0)) →
    ∃ next, addNames table frame names = .ok next
  | [], frame, _ => ⟨frame, rfl⟩
  | name :: names, frame, known => by
      rcases List.forall_mem_cons.1 known with ⟨⟨symbol, found, laidOut⟩, rest⟩
      rcases addSymbol_ok frame laidOut with ⟨next, adds⟩
      rcases addNames_ok next rest with ⟨last, addsRest⟩
      refine ⟨last, ?_⟩
      simp only [addNames, found, adds]
      exact addsRest

end Frame

/-- The names that a function mentions have symbols, and those of automatic objects can be laid
out. -/
def Function.HasLayout (table : SymbolTable) (function : Function) : Prop :=
  ∀ name ∈ function.names, ∃ symbol, table.find? name = some symbol ∧
    (symbol.storage = .automatic → symbol.type.alignment ≠ 0)

theorem Function.WellTyped.hasLayout {table : SymbolTable} {function : Function}
    (wellTyped : function.WellTyped table) (sound : table.Sound) : function.HasLayout table := by
  intro name mem
  rcases wellTyped.known name mem with ⟨symbol, found⟩
  refine ⟨symbol, found, ?_⟩
  intro isAutomatic
  rcases sound name symbol found with complete | ⟨_, isFunction⟩
  · exact CType.alignment_ne_zero complete
  · rw [isAutomatic] at isFunction
    cases isFunction

theorem Function.HasLayout.frame_ok {table : SymbolTable} {function : Function}
    (hasLayout : function.HasLayout table) : ∃ frame, function.frame table = .ok frame := by
  have known : ∀ name ∈ Frame.distinct [] function.names, ∃ symbol,
      table.find? name = some symbol ∧
        (symbol.storage = .automatic → symbol.type.alignment ≠ 0) :=
    fun name mem => hasLayout name (Frame.mem_of_mem_distinct mem)
  rcases Frame.addNames_ok ⟨[], 0⟩ known with ⟨frame, adds⟩
  have nonzero : Frame.frameAlignment ≠ 0 := by decide
  rcases Frame.align_ok frame.size nonzero with ⟨aligned, aligns⟩
  have closes : frame.close = .ok { frame with size := aligned } := by
    rw [Frame.close, aligns]
    rfl
  refine ⟨{ frame with size := aligned }, ?_⟩
  rw [Function.frame, adds]
  exact closes

theorem LinearProgram.assemble_ok {table : SymbolTable} : ∀ {program : LinearProgram},
    (∀ function, TopLevel.function function ∈ program → function.HasLayout table) →
    ∃ assembly, program.assemble table = .ok assembly
  | [], _ => ⟨[], rfl⟩
  | item :: items, hasLayouts => by
      have assembles : ∃ assembled, item.assemble table = .ok assembled := by
        cases item with
        | function function =>
            rcases (hasLayouts function List.mem_cons_self).frame_ok with ⟨frame, lays⟩
            exact ⟨.function ⟨function, frame⟩, by rw [TopLevel.assemble, lays]; rfl⟩
        | object object => exact ⟨.object object, rfl⟩
        | constant constant => exact ⟨.constant constant, rfl⟩
      rcases assembles with ⟨assembled, assembles⟩
      have rest : ∀ function, TopLevel.function function ∈ items → function.HasLayout table :=
        fun function mem => hasLayouts function (List.mem_cons_of_mem _ mem)
      rcases LinearProgram.assemble_ok rest with ⟨assembly, assemblesRest⟩
      refine ⟨assembled :: assembly, ?_⟩
      rw [LinearProgram.assemble] at assemblesRest ⊢
      rw [List.mapM_cons, assembles, assemblesRest]
      rfl

namespace Program

/-- A parsed and accepted source is lowered and assembled, provided that the buffers for its strings
fit into memory. All names in its code have symbols, and all objects in its frames alignments. -/
theorem assembles_of_analyze {source : Text} {program analysed : Program} {lastId : Nat}
    {context : Context} (parses : Program.parse source = .ok (program, lastId))
    (accepts : program.analyze.run (parsedContext lastId) = .ok (analysed, context))
    (fit : ∀ size ∈ analysed.buffers, size ≤ allocationLimit) :
    ∃ linear final assembly, analysed.lower.run context = .ok (linear, final) ∧
      linear.assemble final.symbols = .ok assembly ∧
      ∀ function, TopLevel.function function ∈ linear → ∀ name ∈ function.names,
        ∃ symbol, final.symbols.find? name = some symbol ∧
          (symbol.storage = .automatic → symbol.type.alignment ≠ 0) := by
  have fresh : (parsedContext lastId).symbols = .empty := rfl
  rcases (analyze_ensures (isSource_of_parse parses) fresh).of_ok accepts with
    ⟨valid, explicit, _⟩
  rcases (lower_ensures valid explicit fit).exists_ok with ⟨linear, final, lowers, sound⟩
  have wellTyped := (lower_yields valid.tidy explicit).of_ok lowers
  have hasLayouts : ∀ function, TopLevel.function function ∈ linear →
      function.HasLayout final.symbols :=
    fun function mem => (wellTyped function mem).hasLayout sound
  rcases LinearProgram.assemble_ok hasLayouts with ⟨assembly, assembles⟩
  exact ⟨linear, final, assembly, lowers, assembles, hasLayouts⟩

/-- An automatic array that a string fills is passed to a function that is only declared. -/
theorem assembles_of_analyze_string :
    ∃ program lastId analysed context,
      Program.parse
          "int g(char *p); int f(int a) \x7b char s[4] = \"ab\"; return g(s) + a; \x7d" =
          .ok (program, lastId) ∧
        program.analyze.run (parsedContext lastId) = .ok (analysed, context) ∧
        analysed.buffers = [4] ∧
        ∃ linear final assembly, analysed.lower.run context = .ok (linear, final) ∧
          linear.assemble final.symbols = .ok assembly ∧
          ∀ function, TopLevel.function function ∈ linear → ∀ name ∈ function.names,
            ∃ symbol, final.symbols.find? name = some symbol ∧
              (symbol.storage = .automatic → symbol.type.alignment ≠ 0) := by
  have computed : succeedsWith (fun parsed => succeedsWith (fun analysed =>
        analysed.1.buffers = [4]) (parsed.1.analyze.run (parsedContext parsed.2)))
      (Program.parse
        "int g(char *p); int f(int a) \x7b char s[4] = \"ab\"; return g(s) + a; \x7d") := by
    decide +kernel
  rcases exists_of_succeedsWith computed with ⟨⟨program, lastId⟩, parses, computed⟩
  rcases exists_of_succeedsWith computed with ⟨⟨analysed, context⟩, accepts, computed⟩
  have buffers : analysed.buffers = [4] := of_decide_eq_true computed
  have fit : ∀ size ∈ analysed.buffers, size ≤ allocationLimit := by
    rw [buffers]
    decide
  exact ⟨program, lastId, analysed, context, parses, accepts, buffers,
    assembles_of_analyze parses accepts fit⟩

end Program

end SubsetC
