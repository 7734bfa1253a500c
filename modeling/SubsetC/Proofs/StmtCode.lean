import SubsetC.Lowering
import SubsetC.Proofs.Acceptance
import SubsetC.Proofs.ExprCode

/-!
# Typed code of functions

The code of explicit initializers, statements and functions is well typed. All of it holds against
the symbol table at the end of lowering, since code stays well typed while later functions enter
their temporaries and strings.
-/

namespace SubsetC

variable (result : CType)

/-! ### Initializers -/

theorem Const.isScalar_type (constant : Const) : constant.type.isScalar := by
  cases constant <;> rfl

theorem wellTyped_writeBytes {table : SymbolTable} {name : Text} {object : CType}
    (hasType : table.HasType name object) (isArray : object.isArray) (offset : Size)
    (bytes : Text) : Code.WellTyped table result (writeBytes name offset bytes) := by
  fun_induction writeBytes name offset bytes with
  | case1 offset => exact .nil
  | case2 offset bytes _ width ih =>
      refine .cons ?_ ih
      exact ⟨_, object, Const.hasType_type _, Const.isScalar_type _, hasType, isArray⟩

theorem writeString_yields {context : Context} {name : Text} {object : CType}
    (hasType : context.symbols.HasType name object) (isArray : object.isArray)
    {offset size : Size} {bytes : Text} :
    Yields (writeString name offset size bytes) context (context.Emits result) := by
  unfold writeString
  refine Ensures.ite (fun _ => Ensures.throw trivial) (fun _ => ?_)
  exact Ensures.pure ⟨.refl _ _, wellTyped_writeBytes result hasType isArray _ _⟩

/-- The value that initializes a scalar has its type. -/
theorem Expr.Initializes.lowerValue_yields {context : Context} {type : CType} {expr : Expr}
    (initializes : expr.Initializes context.symbols type) (tidy : context.Tidy)
    (notArray : type.isArray = false) :
    Yields expr.lowerValue context fun made after =>
      context.Computes result type made after ∧ type.isScalar := by
  unfold Expr.lowerValue
  cases initializes with
  | value explicit sameType scalar =>
      subst sameType
      refine (Expr.value_yields result tidy (Expr.lower_yields result expr tidy explicit)).mono ?_
      exact fun made after computes => ⟨computes, scalar⟩
  | zero marks sameType isZero =>
      rw [Expr.lower, pure_bind]
      exact Ensures.pure
        ⟨⟨.nil _, Const.hasType_of_ofInt64? isZero⟩, Const.isScalar_of_zero? isZero⟩
  | string _ isArray =>
      subst isArray
      simp [CType.isArray] at notArray

/-- Only strings initialize arrays. -/
theorem Expr.Initializes.notArray {table : SymbolTable} {type : CType} {expr : Expr}
    (initializes : expr.Initializes table type)
    (noString : ∀ size element note bytes, type = .array size element →
      expr = .string note bytes → False) : type.isArray = false := by
  cases initializes with
  | value _ _ scalar => exact CType.isArray_of_isScalar scalar
  | zero _ _ isZero => exact CType.isArray_of_isScalar (Const.isScalar_of_zero? isZero)
  | string _ isArray => exact (noString _ _ _ _ isArray rfl).elim

namespace Initializer

mutual

/-- The parts of an automatic array are written one by one. -/
theorem lowerAt_yields {name : Text} {object : CType} (isArray : object.isArray) :
    ∀ (init : Initializer) {type : CType} {offset : Size} {context : Context}, context.Tidy →
    context.symbols.HasType name object → init.Explicit context.symbols false type →
    Yields (init.lowerAt name type offset) context (context.Emits result)
  | .single loc value, type, offset, context, tidy, hasObject, explicit => by
      unfold lowerAt
      split
      · exact writeString_yields result hasObject isArray
      · rename_i noString
        have explicit : value.Initializes context.symbols type := explicit
        refine (explicit.lowerValue_yields result tidy (explicit.notArray noString)).bind ?_
        rintro ⟨code, operand⟩ after ⟨⟨emits, hasValue⟩, scalar⟩
        refine Ensures.pure (emits.add (.single ?_))
        exact ⟨type, object, hasValue, scalar, hasObject.extend emits.extends_, isArray⟩
  | .compound loc items, type, offset, context, tidy, hasObject, explicit => by
      rw [lowerAt]
      rcases explicit with ⟨size, element, rfl, _, _, explicit⟩ | ⟨isStatic, _⟩
      · exact lowerElements_yields isArray items tidy hasObject explicit
      · cases isStatic

theorem lowerElements_yields {name : Text} {object : CType} (isArray : object.isArray) :
    ∀ (items : List Initializer) {element : CType} {offset : Size} {context : Context},
    context.Tidy → context.symbols.HasType name object →
    ExplicitList context.symbols false element items →
    Yields (lowerElements name element offset items) context (context.Emits result)
  | [], element, offset, context, tidy, _, _ => by
      rw [lowerElements]
      exact Ensures.pure (.nil _)
  | item :: items, element, offset, context, tidy, hasObject, explicit => by
      rw [lowerElements]
      refine (lowerAt_yields isArray item tidy hasObject explicit.1).bind ?_
      intro code between emits
      refine (lowerElements_yields isArray items (emits.tidy tidy)
        (hasObject.extend emits.extends_)
        (ExplicitList.extend emits.extends_ element items explicit.2)).bind ?_
      intro restCode after restEmits
      exact Ensures.pure (emits.append restEmits)

end

end Initializer

namespace VarDecl

theorem lower_yields {decl : VarDecl} {context : Context} (tidy : context.Tidy)
    (explicit : decl.Explicit context.symbols false) :
    Yields decl.lower context (context.Emits result) := by
  rcases decl with ⟨loc, name, type, _ | storageClass, _ | init⟩
  case none.some =>
    rcases explicit with ⟨hasType, explicit⟩
    have explicit : init.Explicit context.symbols false type := explicit init rfl
    unfold lower
    dsimp only
    split
    · exact Initializer.lowerAt_yields result rfl _ tidy hasType explicit
    · rename_i notArray
      have notArray : type.isArray = false := by
        cases type <;> simp_all [CType.isArray]
      refine (Expr.Initializes.lowerValue_yields result explicit tidy notArray).bind ?_
      rintro ⟨code, operand⟩ after ⟨⟨emits, hasValue⟩, scalar⟩
      refine Ensures.pure (emits.add (Place.copies_self result scalar hasValue ?_))
      exact ⟨name, rfl, hasType.extend emits.extends_⟩
    · rename_i notArray notSingle
      cases init with
      | single valueLoc value => exact absurd rfl (notSingle valueLoc value)
      | compound itemsLoc items =>
          rcases explicit with ⟨size, element, isArray, _⟩ | ⟨isStatic, _⟩
          · exact absurd isArray (notArray size element)
          · cases isStatic
  all_goals exact Ensures.pure (.nil _)

theorem lowerList_yields : ∀ (decls : List VarDecl) {context : Context}, context.Tidy →
    (∀ decl ∈ decls, decl.Explicit context.symbols false) →
    Yields (lowerList decls) context (context.Emits result)
  | [], context, tidy, _ => by
      rw [lowerList]
      exact Ensures.pure (.nil _)
  | decl :: decls, context, tidy, explicit => by
      rcases List.forall_mem_cons.1 explicit with ⟨head, tail⟩
      rw [lowerList]
      refine (lower_yields result tidy head).bind ?_
      intro code between emits
      refine (lowerList_yields decls (emits.tidy tidy)
        fun decl mem => (tail decl mem).extend emits.extends_).bind ?_
      intro restCode after restEmits
      exact Ensures.pure (emits.append restEmits)

end VarDecl

/-! ### Clauses -/

namespace Expr

variable {context : Context}

theorem lowerValue_yields {expr : Expr} (tidy : context.Tidy)
    (explicit : expr.Explicit context.symbols) :
    Yields expr.lowerValue context (context.Computes result expr.type) :=
  value_yields result tidy (lower_yields result expr tidy explicit)

theorem lowerEffect_yields {expr : Expr} (tidy : context.Tidy)
    (explicit : expr.Explicit context.symbols) :
    Yields expr.lowerEffect context (context.Emits result) := by
  unfold lowerEffect
  refine (lower_yields result expr tidy explicit).bind ?_
  rintro ⟨code, _⟩ after ⟨emits, _⟩
  exact Ensures.pure emits

theorem lowerEffectOption_yields {value : Option Expr} (tidy : context.Tidy)
    (explicit : ∀ expr ∈ value, expr.IsValue context.symbols) :
    Yields (lowerEffectOption value) context (context.Emits result) := by
  cases value with
  | none => exact Ensures.pure (.nil _)
  | some expr => exact lowerEffect_yields result tidy (explicit expr rfl).1

theorem lowerTest_yields {condition : Option Expr} {target : Text} (tidy : context.Tidy)
    (explicit : ∀ expr ∈ condition, expr.IsCondition context.symbols) :
    Yields (lowerTest target condition) context (context.Emits result) := by
  cases condition with
  | none => exact Ensures.pure (.nil _)
  | some condition =>
      rcases explicit condition rfl with ⟨explicit, scalar⟩
      refine (lowerValue_yields result tidy explicit).bind ?_
      rintro ⟨code, value⟩ after ⟨emits, hasValue⟩
      exact Ensures.pure (emits.add (.single ⟨condition.type, hasValue, scalar⟩))

end Expr

theorem ForInit.lower_yields {context : Context} {init : ForInit} (tidy : context.Tidy)
    (explicit : init.Explicit context.symbols) :
    Yields init.lower context (context.Emits result) := by
  cases init with
  | declarations loc decls => exact VarDecl.lowerList_yields result decls tidy explicit
  | expression loc value => exact Expr.lowerEffectOption_yields result tidy explicit

/-- The controlling value of a switch is compared with constants of its type. -/
theorem SwitchCase.lowerList_yields {value : Operand} {type : CType} (scalar : type.isScalar) :
    ∀ (cases : List SwitchCase) {context : Context}, context.Tidy →
    value.HasType context.symbols type →
    Yields (lowerList value type cases) context (context.Emits result)
  | [], context, tidy, _ => by
      rw [lowerList]
      exact Ensures.pure (.nil _)
  | case :: cases, context, tidy, hasValue => by
      rw [lowerList]
      split
      · exact lowerList_yields scalar cases tidy hasValue
      · rename_i constant _
        refine (Pass.newTemporary_yields tidy .int).bind ?_
        rintro same first ⟨grows, isSame⟩
        unfold Const.convert
        split
        · rename_i converted found
          rw [pure_bind]
          have hasValue := hasValue.extend grows.extends_
          refine (lowerList_yields scalar cases (grows.tidy tidy (by simp)) hasValue).bind ?_
          intro restCode after restEmits
          refine Ensures.pure (.grow grows ?_)
          refine ⟨restEmits.grows, .append (.extend restEmits.extends_ ?_) restEmits.wellTyped⟩
          refine .cons ?_ (.single ⟨.int, isSame.hasType, rfl⟩)
          exact ⟨type, type, .int, hasValue, Const.hasType_of_convert? found, isSame,
            .compare scalar⟩
        · exact Ensures.bind (Ensures.throw trivial) fun _ _ impossible => impossible

/-! ### Statements -/

mutual

/-- The code of an explicit statement is well typed. -/
theorem Stmt.lower_yields : ∀ (stmt : Stmt) {context : Context}, context.Tidy →
    stmt.Explicit context.symbols result → Yields stmt.lower context (context.Emits result)
  | .ret loc none, context, tidy, explicit => by
      rw [Stmt.lower]
      exact Ensures.pure ⟨.refl _ _, .single (.inl ⟨explicit, rfl⟩)⟩
  | .ret loc (some value), context, tidy, explicit => by
      rcases explicit with ⟨notVoid, isValue, sameType⟩
      rw [Stmt.lower]
      refine (Expr.lowerValue_yields result tidy isValue.1).bind ?_
      rintro ⟨code, operand⟩ after ⟨emits, hasValue⟩
      exact Ensures.pure (emits.add (.single (.inr ⟨notVoid, sameType ▸ hasValue⟩)))
  | .expr loc value, context, tidy, explicit => by
      rw [Stmt.lower]
      exact Expr.lowerEffect_yields result tidy explicit.1
  | .ifThen loc condition thenBranch, context, tidy, explicit => by
      rcases explicit with ⟨⟨conditionExplicit, scalar⟩, thenExplicit⟩
      rw [Stmt.lower]
      refine Ensures.bind_ok (Pass.run_newLabelPair _ _ _) ?_
      have drawn := Context.Grows.draw context
      have tidy := drawn.tidy tidy (by simp)
      refine (Expr.lowerValue_yields result tidy
        (Expr.Explicit.extend drawn.extends_ _ conditionExplicit)).bind ?_
      rintro ⟨conditionCode, value⟩ first ⟨conditionEmits, hasValue⟩
      have start := drawn.append conditionEmits.grows
      refine (Stmt.lower_yields thenBranch (conditionEmits.tidy tidy)
        (Stmt.Explicit.extend start.extends_ _ thenExplicit)).bind ?_
      intro thenCode after thenEmits
      refine Ensures.pure (.grow drawn (((conditionEmits.add ?_).append thenEmits).add ?_))
      · exact .single ⟨condition.type, hasValue, scalar⟩
      · exact .single trivial
  | .ifElse loc condition thenBranch elseBranch, context, tidy, explicit => by
      rcases explicit with ⟨⟨conditionExplicit, scalar⟩, thenExplicit, elseExplicit⟩
      rw [Stmt.lower]
      refine Ensures.bind_ok (Pass.run_newLabelPair _ _ _) ?_
      have drawn := Context.Grows.draw context
      have tidy := drawn.tidy tidy (by simp)
      refine (Expr.lowerValue_yields result tidy
        (Expr.Explicit.extend drawn.extends_ _ conditionExplicit)).bind ?_
      rintro ⟨conditionCode, value⟩ first ⟨conditionEmits, hasValue⟩
      have tidy := conditionEmits.tidy tidy
      have start := drawn.append conditionEmits.grows
      refine (Stmt.lower_yields thenBranch tidy
        (Stmt.Explicit.extend start.extends_ _ thenExplicit)).bind ?_
      intro thenCode second thenEmits
      refine (Stmt.lower_yields elseBranch (thenEmits.tidy tidy) (Stmt.Explicit.extend
        (start.append thenEmits.grows).extends_ _ elseExplicit)).bind ?_
      intro elseCode after elseEmits
      refine Ensures.pure (.grow drawn
        (((((conditionEmits.add ?_).append thenEmits).add ?_).append elseEmits).add ?_))
      · exact .single ⟨condition.type, hasValue, scalar⟩
      · exact .cons trivial (.single trivial)
      · exact .single trivial
  | .block loc items, context, tidy, explicit => by
      rw [Stmt.lower]
      exact Item.lowerList_yields items tidy explicit
  | .whileLoop loc label condition body, context, tidy, explicit => by
      rcases explicit with ⟨⟨conditionExplicit, scalar⟩, bodyExplicit⟩
      rw [Stmt.lower]
      refine (Expr.lowerValue_yields result tidy conditionExplicit).bind ?_
      rintro ⟨conditionCode, value⟩ first ⟨conditionEmits, hasValue⟩
      refine (Stmt.lower_yields body (conditionEmits.tidy tidy)
        (Stmt.Explicit.extend conditionEmits.extends_ _ bodyExplicit)).bind ?_
      intro bodyCode after bodyEmits
      refine Ensures.pure (((((Context.Emits.nil context).add (.single ?_)).append
        conditionEmits).add ?_ |>.append bodyEmits).add ?_)
      · trivial
      · exact .single ⟨condition.type, hasValue, scalar⟩
      · exact .cons trivial (.single trivial)
  | .doWhile loc label body condition, context, tidy, explicit => by
      rcases explicit with ⟨⟨conditionExplicit, scalar⟩, bodyExplicit⟩
      rw [Stmt.lower]
      refine (Stmt.lower_yields body tidy bodyExplicit).bind ?_
      intro bodyCode first bodyEmits
      refine (Expr.lowerValue_yields result (bodyEmits.tidy tidy)
        (Expr.Explicit.extend bodyEmits.extends_ _ conditionExplicit)).bind ?_
      rintro ⟨conditionCode, value⟩ after ⟨conditionEmits, hasValue⟩
      refine Ensures.pure ((((((Context.Emits.nil context).add (.single ?_)).append bodyEmits).add
        (.single ?_)).append conditionEmits).add ?_)
      · trivial
      · trivial
      · exact .cons ⟨condition.type, hasValue, scalar⟩ (.single trivial)
  | .forLoop loc label init condition post body, context, tidy, explicit => by
      rcases explicit with ⟨initExplicit, conditionExplicit, postExplicit, bodyExplicit⟩
      rw [Stmt.lower]
      refine (ForInit.lower_yields result tidy initExplicit).bind ?_
      intro initCode first initEmits
      have tidy := initEmits.tidy tidy
      refine (Expr.lowerTest_yields result tidy
        fun expr mem => (conditionExplicit expr mem).extend initEmits.extends_).bind ?_
      intro testCode second testEmits
      have tidy := testEmits.tidy tidy
      have start := initEmits.append testEmits
      refine (Stmt.lower_yields body tidy
        (Stmt.Explicit.extend start.extends_ _ bodyExplicit)).bind ?_
      intro bodyCode third bodyEmits
      have start := start.append bodyEmits
      refine (Expr.lowerEffectOption_yields result (bodyEmits.tidy tidy)
        fun expr mem => (postExplicit expr mem).extend start.extends_).bind ?_
      intro postCode after postEmits
      refine Ensures.pure ((((((initEmits.add (.single ?_)).append testEmits).append
        bodyEmits).add (.single ?_)).append postEmits).add ?_)
      · trivial
      · trivial
      · exact .cons trivial (.single trivial)
  | .switch loc label value body cases, context, tidy, explicit => by
      rcases explicit with ⟨valueExplicit, integer, _, _, bodyExplicit⟩
      rw [Stmt.lower]
      refine (Expr.lowerValue_yields result tidy valueExplicit).bind ?_
      rintro ⟨valueCode, operand⟩ first ⟨valueEmits, hasValue⟩
      have tidy := valueEmits.tidy tidy
      refine (SwitchCase.lowerList_yields result (CType.isScalar_of_isInteger integer) cases tidy
        hasValue).bind ?_
      intro casesCode second casesEmits
      have start := valueEmits.append casesEmits
      refine (Stmt.lower_yields body (casesEmits.tidy tidy)
        (Stmt.Explicit.extend start.extends_ _ bodyExplicit)).bind ?_
      intro bodyCode after bodyEmits
      refine Ensures.pure (((start.add (.single ?_)).append bodyEmits).add (.single ?_))
      · trivial
      · trivial
  | .case loc label value body, context, tidy, explicit => by
      rw [Stmt.lower]
      refine (Stmt.lower_yields body tidy explicit.2).bind ?_
      intro bodyCode after bodyEmits
      exact Ensures.pure ⟨bodyEmits.grows, .cons trivial bodyEmits.wellTyped⟩
  | .default loc label body, context, tidy, explicit => by
      rw [Stmt.lower]
      refine (Stmt.lower_yields body tidy explicit).bind ?_
      intro bodyCode after bodyEmits
      exact Ensures.pure ⟨bodyEmits.grows, .cons trivial bodyEmits.wellTyped⟩
  | .break loc label, context, tidy, _ | .continue loc label, context, tidy, _ => by
      rw [Stmt.lower]
      exact Ensures.pure ⟨.refl _ _, .single trivial⟩
  | .null loc, context, tidy, _ => by
      rw [Stmt.lower]
      exact Ensures.pure (.nil _)

theorem Item.lowerList_yields : ∀ (items : List Item) {context : Context}, context.Tidy →
    Item.ExplicitList context.symbols result items →
    Yields (Item.lowerList items) context (context.Emits result)
  | [], context, tidy, _ => by
      rw [Item.lowerList]
      exact Ensures.pure (.nil _)
  | .stmt stmt :: items, context, tidy, explicit => by
      rw [Item.lowerList]
      refine (Stmt.lower_yields stmt tidy explicit.1).bind ?_
      intro code between emits
      refine (Item.lowerList_yields items (emits.tidy tidy)
        (Item.ExplicitList.extend emits.extends_ _ explicit.2)).bind ?_
      intro restCode after restEmits
      exact Ensures.pure (emits.append restEmits)
  | .decl (.object decl) :: items, context, tidy, explicit => by
      rw [Item.lowerList]
      refine (VarDecl.lower_yields result tidy explicit.1).bind ?_
      intro code between emits
      refine (Item.lowerList_yields items (emits.tidy tidy)
        (Item.ExplicitList.extend emits.extends_ _ explicit.2)).bind ?_
      intro restCode after restEmits
      exact Ensures.pure (emits.append restEmits)
  | .decl (.function decl) :: items, context, tidy, explicit => by
      rw [Item.lowerList]
      · exact Item.lowerList_yields items tidy explicit.2
      · simp
  | .decl (.definition _ _ _) :: _, context, tidy, explicit => explicit.elim

end

/-! ### Functions -/

theorem CType.lowerEnd_yields {context : Context} :
    Yields result.lowerEnd context fun code after =>
      context = after ∧ Code.WellTyped context.symbols result code := by
  unfold CType.lowerEnd
  refine Ensures.ite ?_ ?_
  · exact fun isVoid => Ensures.pure ⟨rfl, .single (.inl ⟨isVoid, rfl⟩)⟩
  · intro notVoid
    split
    · rename_i zero isZero
      exact Ensures.pure ⟨rfl, .single (.inr ⟨by simpa using notVoid,
        Const.hasType_of_ofInt64? isZero⟩)⟩
    · exact Ensures.throw trivial

theorem Pass.functionIsGlobal_yields {context : Context} {name : Text} :
    Yields (Pass.functionIsGlobal name) context fun _ after => context = after := by
  unfold Pass.functionIsGlobal
  refine Ensures.bind_ok (Pass.run_findSymbol? _ _) ?_
  split
  · exact Ensures.throw trivial
  · exact Ensures.pure rfl
  · exact Ensures.throw trivial

theorem FunDecl.lower_yields {context : Context} (tidy : context.Tidy) {decl : FunDecl}
    {bodyLoc : Loc} {body : List Item}
    (explicit : (Decl.definition decl bodyLoc body).Explicit context.symbols) :
    Yields (decl.lower body) context fun function after =>
      context.Grows [] after ∧ function.WellTyped after.symbols := by
  rcases explicit with ⟨hasFunction, hasParams, bodyExplicit⟩
  unfold FunDecl.lower
  refine Pass.functionIsGlobal_yields.bind ?_
  rintro isGlobal _ rfl
  refine (Item.lowerList_yields decl.result body tidy bodyExplicit).bind ?_
  intro bodyCode after emits
  refine (CType.lowerEnd_yields decl.result).bind ?_
  rintro endCode _ ⟨rfl, wellTyped⟩
  refine Ensures.pure ⟨emits.grows, decl.params.map Param.type, decl.result,
    SymbolTable.HasFunction.extend hasFunction emits.extends_, ?_, ?_⟩
  · refine List.forall₂_map_left_iff.2 (List.forall₂_map_right_iff.2 (List.forall₂_same.2 ?_))
    exact fun param mem => (hasParams param mem).extend emits.extends_
  · exact emits.wellTyped.append wellTyped

namespace Program

theorem lowerFunctions_yields : ∀ (program : Program) {context : Context}, context.Tidy →
    program.Explicit context.symbols →
    Yields program.lowerFunctions context fun functions after =>
      context.Grows [] after ∧ ∀ function ∈ functions, function.WellTyped after.symbols
  | [], context, tidy, _ => by
      rw [lowerFunctions]
      exact Ensures.pure ⟨.refl _ _, by simp⟩
  | .definition decl bodyLoc body :: decls, context, tidy, explicit => by
      rcases List.forall_mem_cons.1 explicit with ⟨head, tail⟩
      rw [lowerFunctions]
      refine (FunDecl.lower_yields tidy head).bind ?_
      rintro function between ⟨grows, wellTyped⟩
      have rest : Program.Explicit between.symbols decls :=
        fun decl mem => (tail decl mem).extend grows.extends_
      refine (lowerFunctions_yields decls (grows.tidy tidy (by simp)) rest).bind ?_
      rintro functions after ⟨restGrows, wellTypedRest⟩
      refine Ensures.pure ⟨grows.append restGrows, ?_⟩
      exact List.forall_mem_cons.2 ⟨wellTyped.extend restGrows.extends_, wellTypedRest⟩
  | .object decl :: decls, context, tidy, explicit
  | .function decl :: decls, context, tidy, explicit => by
      rcases List.forall_mem_cons.1 explicit with ⟨_, tail⟩
      rw [lowerFunctions]
      · exact lowerFunctions_yields decls tidy tail
      · simp

theorem lower_yields {program : Program} {context : Context} (tidy : context.Tidy)
    (explicit : program.Explicit context.symbols) :
    Yields program.lower context fun linear after =>
      ∀ function, TopLevel.function function ∈ linear → function.WellTyped after.symbols := by
  unfold lower
  refine (lowerFunctions_yields program tidy explicit).bind ?_
  rintro functions after ⟨_, wellTyped⟩
  refine Ensures.bind_ok (Pass.run_get _) ?_
  refine Ensures.pure ?_
  intro function mem
  simp only [List.mem_append, List.mem_map, TopLevel.function.injEq, exists_eq_right,
    reduceCtorEq, and_false, exists_false, or_false] at mem
  exact wellTyped function mem

/-- All code that a parsed and accepted source is lowered to is well typed against the symbol table
at the end. -/
theorem wellTyped_of_lower {source : Text} {program analysed : Program} {lastId : Nat}
    {context final : Context} {linear : LinearProgram}
    (parses : Program.parse source = .ok (program, lastId))
    (accepts : program.analyze.run (parsedContext lastId) = .ok (analysed, context))
    (lowers : analysed.lower.run context = .ok (linear, final)) :
    ∀ function, TopLevel.function function ∈ linear → function.WellTyped final.symbols := by
  have fresh : (parsedContext lastId).symbols = .empty := rfl
  rcases (analyze_ensures (isSource_of_parse parses) fresh).of_ok accepts with
    ⟨valid, explicit, _⟩
  exact (lower_yields valid.tidy explicit).of_ok lowers

/-- A function that adds a character, which is promoted, to an integer. -/
theorem wellTyped_of_lower_sum :
    ∃ program lastId analysed context linear final,
      Program.parse "int f(int a, char c) { return a + c; }" = .ok (program, lastId) ∧
        program.analyze.run (parsedContext lastId) = .ok (analysed, context) ∧
        analysed.lower.run context = .ok (linear, final) ∧ linear ≠ [] ∧
        ∀ function, TopLevel.function function ∈ linear → function.WellTyped final.symbols := by
  have computed : (match Program.parse "int f(int a, char c) { return a + c; }" with
      | .ok (program, lastId) =>
        match program.analyze.run (parsedContext lastId) with
        | .ok (analysed, context) =>
          match analysed.lower.run context with
          | .ok (linear, _) => linear ≠ []
          | .error _ => false
        | .error _ => false
      | .error _ => false) = true := by decide +kernel
  split at computed
  · rename_i program lastId parses
    split at computed
    · rename_i analysed context accepts
      split at computed
      · rename_i linear final lowers
        exact ⟨program, lastId, analysed, context, linear, final, parses, accepts, lowers,
          by simpa using computed, wellTyped_of_lower parses accepts lowers⟩
      · cases computed
    · cases computed
  · cases computed

end Program

end SubsetC
