import SubsetC.Lowering.Expr
import SubsetC.Proofs.ExprCode
import SubsetC.Proofs.InitTyping

/-!
# Lowering of expressions does not fail

The blocks of lowering fail where they are asked for a value that a place does not have, or for a
constant of a type that has none. Neither happens on an explicit tree: only void expressions leave
nothing behind, and every operation is carried out in a scalar type. Since temporaries then have
scalar types as well, every object that lowering enters has a size.

What is proved does not depend on the state in which lowering starts, so the tree is explicit
against one fixed symbol table throughout.
-/

namespace SubsetC

/-! ### Runs that do not fail -/

namespace Pass

variable {α β : Type} {action : Pass α} {next : α → Pass β} {wanted middle : α → Prop}
  {final : β → Prop}

/-- From every state with sound symbols, the run ends in such a state, with a result as wanted. -/
def Completes (action : Pass α) (wanted : α → Prop) : Prop :=
  ∀ context : Context, context.symbols.Sound →
    Ensures action context (fun _ => False) fun result after =>
      after.symbols.Sound ∧ wanted result

/-- The run does not fail, and keeps symbols sound. -/
abbrev Succeeds (action : Pass α) : Prop := action.Completes fun _ => True

theorem Completes.pure {result : α} (holds : wanted result) :
    (Pure.pure result : Pass α).Completes wanted :=
  fun _ sound => Ensures.pure ⟨sound, holds⟩

theorem Completes.bind (first : action.Completes middle)
    (rest : ∀ result, middle result → (next result).Completes final) :
    (action >>= next).Completes final := by
  intro context sound
  refine (first context sound).bind ?_
  rintro result after ⟨soundAfter, holds⟩
  exact rest result holds after soundAfter

theorem Succeeds.bind (first : action.Succeeds) (rest : ∀ result, (next result).Completes final) :
    (action >>= next).Completes final :=
  Completes.bind first fun result _ => rest result

theorem Completes.ite {condition : Prop} [Decidable condition] {whenTrue whenFalse : Pass α}
    (isTrue : condition → whenTrue.Completes wanted)
    (isFalse : ¬condition → whenFalse.Completes wanted) :
    (if condition then whenTrue else whenFalse).Completes wanted :=
  fun context sound =>
    Ensures.ite (fun holds => isTrue holds context sound) fun fails => isFalse fails context sound

theorem newLabelPair_succeeds (first second : Text) : (newLabelPair first second).Succeeds := by
  intro context sound
  rw [Ensures, run_newLabelPair]
  exact ⟨sound, trivial⟩

end Pass

theorem CType.isComplete_of_isScalar {type : CType} (scalar : type.isScalar) :
    type.isComplete := by
  cases type with
  | void | array | function =>
      simp [isScalar, isArithmetic, isInteger, isDouble, isPointer] at scalar
  | integer | double | pointer => rfl

theorem CType.isVoid_of_isScalar {type : CType} (scalar : type.isScalar) : type.isVoid = false := by
  cases type with
  | void => simp [isScalar, isArithmetic, isInteger, isDouble, isPointer] at scalar
  | _ => rfl

/-- A temporary of a scalar type has a size. -/
theorem Pass.newTemporary_succeeds {type : CType} (scalar : type.isScalar) :
    (Pass.newTemporary type).Succeeds := by
  intro context sound
  unfold Pass.newTemporary
  refine Ensures.bind_ok (Pass.run_uniqueName _ _) ?_
  refine Ensures.bind_ok (Pass.run_setSymbol _ _ _ _) ?_
  exact Ensures.pure ⟨sound.set _ .automatic (.inl (CType.isComplete_of_isScalar scalar)), trivial⟩

theorem Pass.newString_succeeds (bytes : Text) : (Pass.newString bytes).Succeeds := by
  intro context sound
  unfold Pass.newString
  refine Ensures.bind_ok (Pass.run_uniqueName _ _) ?_
  refine Ensures.bind_ok (Pass.run_setSymbol _ _ _ _) ?_
  exact Ensures.pure ⟨sound.set _ (.constant _) (.inl rfl), trivial⟩

/-! ### Places -/

namespace Place

/-- Only an expression of type void leaves nothing. -/
def Suits (type : CType) (place : Place) : Prop := place = .nowhere → type.isVoid

variable {type : CType} {place : Place}

theorem Suits.ne_nowhere (suits : place.Suits type) (notVoid : type.isVoid = false) :
    place ≠ .nowhere := by
  intro isNowhere
  simp [suits isNowhere] at notVoid

theorem suits_value (operand : Operand) : (Place.value operand).Suits type := nofun

theorem load_succeeds (present : place ≠ .nowhere) (scalar : type.isScalar) :
    (place.load type).Succeeds := by
  cases place with
  | nowhere => exact absurd rfl present
  | value operand => exact .pure trivial
  | behind pointer => exact (Pass.newTemporary_succeeds scalar).bind fun _ => .pure trivial

theorem loaded_succeeds {lowered : Code × Place} (suits : lowered.2.Suits type)
    (scalar : type.isScalar) : (Place.loaded type lowered).Succeeds :=
  (load_succeeds (suits.ne_nowhere (CType.isVoid_of_isScalar scalar)) scalar).bind
    fun _ => .pure trivial

theorem store_succeeds (present : place ≠ .nowhere) (source : Operand) :
    (place.store source).Succeeds := by
  cases place with
  | nowhere => exact absurd rfl present
  | value | behind => exact .pure trivial

theorem addressOf_succeeds {pointerType : CType} (isPointer : pointerType.isPointer)
    (operand : Operand) : (addressOf pointerType operand).Succeeds :=
  (Pass.newTemporary_succeeds (CType.isScalar_of_isPointer isPointer)).bind fun _ => .pure trivial

theorem address_succeeds (present : place ≠ .nowhere) {pointerType : CType}
    (isPointer : pointerType.isPointer) : (place.address pointerType).Succeeds := by
  cases place with
  | nowhere => exact absurd rfl present
  | value operand => exact addressOf_succeeds isPointer operand
  | behind pointer => exact .pure trivial

theorem firstElement_succeeds (present : place ≠ .nowhere) {pointerType : CType}
    (isPointer : pointerType.isPointer) : (place.firstElement pointerType).Succeeds := by
  cases place with
  | nowhere => exact absurd rfl present
  | value operand => exact addressOf_succeeds isPointer operand
  | behind pointer =>
      exact (Pass.newTemporary_succeeds (CType.isScalar_of_isPointer isPointer)).bind
        fun _ => .pure trivial

end Place

/-! ### Constants and operations -/

/-- Every arithmetic type has constants. -/
theorem Const.convert_succeeds {type : CType} (arithmetic : type.isArithmetic) (constant : Const) :
    (constant.convert type).Succeeds := by
  unfold convert
  split
  · exact .pure trivial
  · rename_i none
    simpa [none] using Const.isSome_convert? arithmetic constant

namespace Operand

theorem convertObject_succeeds {target : CType} (scalar : target.isScalar) (source : CType)
    (operand : Operand) : (convertObject source target operand).Succeeds := by
  refine (Pass.newTemporary_succeeds scalar).bind fun temporary => ?_
  split <;> exact .pure trivial

theorem convert_succeeds {target : CType} (scalar : target.isScalar) (source : CType)
    (operand : Operand) : (operand.convert source target).Succeeds := by
  unfold convert
  refine .ite (fun _ => .pure trivial) fun _ => ?_
  split
  · refine .ite (fun arithmetic => ?_) fun _ => .ite (fun _ => ?_) fun _ => ?_
    · exact (Const.convert_succeeds arithmetic _).bind fun _ => .pure trivial
    · exact (Const.convert_succeeds rfl _).bind fun _ => .pure trivial
    · exact convertObject_succeeds scalar _ _
  · exact convertObject_succeeds scalar _ _

theorem addPointer_succeeds {pointerType : CType} (isPointer : pointerType.isPointer)
    (pointer index : Operand) : (pointer.addPointer pointerType index).Succeeds :=
  (Pass.newTemporary_succeeds (CType.isScalar_of_isPointer isPointer)).bind fun _ => .pure trivial

theorem subPointer_succeeds {pointerType : CType} (isPointer : pointerType.isPointer)
    (pointer index : Operand) : (pointer.subPointer pointerType index).Succeeds := by
  have negates : index.negateIndex.Succeeds := by
    unfold negateIndex
    split
    · exact .pure trivial
    · exact (Pass.newTemporary_succeeds rfl).bind fun _ => .pure trivial
  refine negates.bind fun _ => ?_
  exact (addPointer_succeeds isPointer _ _).bind fun _ => .pure trivial

theorem pointerDifference_succeeds (pointerType : CType) (left right : Operand) :
    (left.pointerDifference pointerType right).Succeeds :=
  (Pass.newTemporary_succeeds rfl).bind fun _ =>
    (Pass.newTemporary_succeeds rfl).bind fun _ => .pure trivial

theorem combine_succeeds {type : CType} (scalar : type.isScalar) (op : TwoOp)
    (left right : Operand) : (left.combine op type right).Succeeds :=
  (Pass.newTemporary_succeeds scalar).bind fun _ => .pure trivial

end Operand

/-! ### Operators -/

/-- The types of a function that a sound table knows. -/
theorem SymbolTable.Sound.signature {table : SymbolTable} (sound : table.Sound) {name : Text}
    {parameters : List CType} {result : CType}
    (hasFunction : table.HasFunction name parameters result) :
    (∀ type ∈ parameters, type.isComplete) ∧ result.IsValue := by
  rcases hasFunction with ⟨symbol, found, isFunction, _⟩
  have canHave := sound name symbol found
  rw [isFunction] at canHave
  rcases canHave with complete | ⟨isSignature, _⟩
  · cases complete
  · simpa [CType.isSignature, CType.IsValue] using isSignature

namespace Expr

theorem unaryCode_succeeds {op : UnaryOp} {operand type : CType} (types : op.HasTypes operand type)
    (value : Operand) : (unaryCode op type value).Succeeds := by
  have scalar : type.isScalar := by
    cases types with
    | not => rfl
    | complement integer => exact CType.isScalar_of_isInteger integer
    | sign _ arithmetic => exact CType.isScalar_of_isArithmetic arithmetic
  unfold unaryCode
  split
  · exact .pure trivial
  · exact (Pass.newTemporary_succeeds scalar).bind fun _ => .pure trivial

/-- A sum of a pointer and an index, in either order, or a difference whose left side is a
pointer. -/
theorem pointerCode_succeeds {op : ArithOp} {leftType rightType : CType}
    (pointer : leftType.isPointer ∨ op = .add ∧ rightType.isPointer) (left right : Operand) :
    (pointerCode op leftType rightType left right).Succeeds := by
  unfold pointerCode
  refine .ite (fun _ => .ite ?_ ?_) fun notSum => .ite ?_ ?_
  · exact fun isPointer => Operand.addPointer_succeeds isPointer _ _
  · intro noPointer
    exact Operand.addPointer_succeeds (pointer.resolve_left noPointer).2 _ _
  · exact fun _ => Operand.pointerDifference_succeeds _ _ _
  · intro _
    have isPointer := pointer.resolve_right fun sum => notSum sum.1
    exact Operand.subPointer_succeeds isPointer _ _

theorem arithCode_succeeds {op : ArithOp} {leftType rightType type : CType}
    (types : op.HasTypes leftType rightType type) (left right : Operand) :
    (binaryCode (.arith op) type leftType rightType left right).Succeeds := by
  unfold binaryCode
  refine .ite (fun pointer => ?_) fun noPointer => ?_
  · refine pointerCode_succeeds ?_ _ _
    cases types with
    | shift _ integer _ integerAmount =>
        have ofInteger : ∀ {type : CType}, type.isInteger → type.isPointer = false := by
          intro type integer
          exact isPointer_of_isArithmetic (by simp [CType.isArithmetic, integer])
        simp [ofInteger integer, ofInteger integerAmount] at pointer
    | arithmetic _ arithmetic => simp [isPointer_of_isArithmetic arithmetic] at pointer
    | offset _ complete | difference complete =>
        exact .inl (CType.isPointer_of_isPointerToComplete complete)
    | offsetOf complete => exact .inr ⟨rfl, CType.isPointer_of_isPointerToComplete complete⟩
  · refine Operand.combine_succeeds ?_ _ _ _
    cases types with
    | shift _ integer => exact CType.isScalar_of_isInteger integer
    | arithmetic _ arithmetic => exact CType.isScalar_of_isArithmetic arithmetic
    | offset _ complete | offsetOf complete | difference complete =>
        simp [CType.isPointer_of_isPointerToComplete complete] at noPointer

theorem compoundCode_succeeds {type opType : CType} (scalar : type.isScalar)
    (scalarOp : type.isPointer = false → opType.isScalar) (op : ArithOp)
    (current right : Operand) : (compoundCode op type opType current right).Succeeds := by
  unfold compoundCode
  refine .ite (fun isPointer => .ite (fun _ => ?_) fun _ => ?_) fun noPointer => ?_
  · exact Operand.subPointer_succeeds isPointer _ _
  · exact Operand.addPointer_succeeds isPointer _ _
  · have scalarOp := scalarOp (by simpa using noPointer)
    refine (Operand.convert_succeeds scalarOp _ _).bind fun _ => ?_
    refine (Operand.combine_succeeds scalarOp _ _ _).bind fun _ => ?_
    exact (Operand.convert_succeeds scalar _ _).bind fun _ => .pure trivial

/-- The type in which a compound assignment computes is scalar, unless a pointer is moved. -/
theorem scalar_of_compound {op : ArithOp} {left right : CType} {opType : Option CType}
    (types : (AssignOp.compound op).HasTypes left right opType)
    (noPointer : left.isPointer = false) :
    (opType.getD .void).isScalar := by
  cases types with
  | offset _ complete => simp [CType.isPointer_of_isPointerToComplete complete] at noPointer
  | shift _ integer => exact CType.isScalar_of_isInteger (CType.isInteger_promote integer)
  | arithmetic _ _ arithmeticOp => exact CType.isScalar_of_isArithmetic arithmeticOp

theorem isScalar_of_compound_right {op : ArithOp} {left right : CType} {opType : Option CType}
    (types : (AssignOp.compound op).HasTypes left right opType) : right.isScalar := by
  cases types with
  | offset => rfl
  | shift _ _ integerAmount => exact CType.isScalar_of_isInteger integerAmount
  | arithmetic _ _ arithmeticOp => exact CType.isScalar_of_isArithmetic arithmeticOp

theorem isScalar_of_steps {type : CType} (steps : type.isArithmetic ∨ type.isPointerToComplete) :
    type.isScalar := by
  rcases steps with arithmetic | complete
  · exact CType.isScalar_of_isArithmetic arithmetic
  · exact CType.isScalar_of_isPointer (CType.isPointer_of_isPointerToComplete complete)

theorem stepCode_succeeds {type : CType} (steps : type.isArithmetic ∨ type.isPointerToComplete)
    (op : StepOp) (current : Operand) : (stepCode op type current).Succeeds := by
  unfold stepCode
  refine .ite (fun isPointer => Operand.addPointer_succeeds isPointer _ _) fun noPointer => ?_
  have arithmetic : type.isArithmetic :=
    steps.resolve_right fun complete =>
      noPointer (CType.isPointer_of_isPointerToComplete complete)
  have arithmeticOp := CType.isArithmetic_promote arithmetic
  refine (Const.convert_succeeds arithmeticOp _).bind fun _ => ?_
  exact compoundCode_succeeds (isScalar_of_steps steps)
    (fun _ => CType.isScalar_of_isArithmetic arithmeticOp) _ _ _

theorem stepPlace_succeeds {type : CType} (steps : type.isArithmetic ∨ type.isPointerToComplete)
    {place : Place} (present : place ≠ .nowhere) (form : StepForm) (op : StepOp) :
    (stepPlace form op type place).Succeeds := by
  have scalar := isScalar_of_steps steps
  unfold stepPlace
  refine (Place.load_succeeds present scalar).bind ?_
  rintro ⟨loadCode, current⟩
  have finish : ∀ (keepCode : Code) (old : Operand), Pass.Succeeds (do
      let stepped ← stepCode op type current
      let storeCode ← place.store stepped.2
      pure (loadCode ++ keepCode ++ stepped.1 ++ storeCode,
        if form = .after then old else stepped.2)) := by
    intro keepCode old
    refine (stepCode_succeeds steps op current).bind ?_
    rintro ⟨code, new⟩
    exact (Place.store_succeeds present new).bind fun _ => .pure trivial
  dsimp only
  split
  · exact (Pass.newTemporary_succeeds scalar).bind fun old => finish _ old
  · exact finish [] current

theorem callCode_completes {type : CType} (value : type.IsValue) (name : Text)
    (arguments : List Operand) :
    (callCode name type arguments).Completes fun made => made.2.Suits type := by
  unfold callCode
  refine .ite (fun isVoid => .pure fun _ => isVoid) fun notVoid => ?_
  have scalar := CType.isScalar_of_isValue value (by simpa using notVoid)
  exact (Pass.newTemporary_succeeds scalar).bind fun _ => .pure (Place.suits_value _)

/-! ### Expressions -/

/-- Lowering does not fail, and leaves a result unless the expression is void. -/
abbrev Lowers (expr : Expr) : Prop := expr.lower.Completes fun made => made.2.Suits expr.type

theorem Lowers.value {expr : Expr} (lowers : expr.Lowers) (scalar : expr.type.isScalar) :
    expr.lowerValue.Succeeds :=
  Pass.Completes.bind lowers fun _ suits => Place.loaded_succeeds suits scalar

theorem scalars_of_arith {op : ArithOp} {left right result : CType}
    (types : op.HasTypes left right result) : left.isScalar ∧ right.isScalar := by
  have ofPointer : ∀ {type : CType}, type.isPointerToComplete → type.isScalar := fun complete =>
    CType.isScalar_of_isPointer (CType.isPointer_of_isPointerToComplete complete)
  cases types with
  | shift _ integer _ integerAmount =>
      exact ⟨CType.isScalar_of_isInteger integer, CType.isScalar_of_isInteger integerAmount⟩
  | arithmetic _ arithmetic =>
      have scalar := CType.isScalar_of_isArithmetic arithmetic
      exact ⟨scalar, scalar⟩
  | offset _ complete => exact ⟨ofPointer complete, rfl⟩
  | offsetOf complete => exact ⟨rfl, ofPointer complete⟩
  | difference complete => exact ⟨ofPointer complete, ofPointer complete⟩

variable {base : SymbolTable} (sound : base.Sound)

-- The recursive calls of a mutual block hide that its theorems use the hypothesis.
set_option linter.unusedSectionVars false

include sound

mutual

/-- Lowering of an explicit expression does not fail. -/
theorem lowers_of_explicit : ∀ expr : Expr, expr.Explicit base → expr.Lowers
  | .constant note value, _ => by
      rw [Lowers, lower]
      exact .pure (Place.suits_value _)
  | .string note bytes, _ => by
      rw [Lowers, lower]
      exact (Pass.newString_succeeds bytes).bind fun _ => .pure (Place.suits_value _)
  | .var note name, _ => by
      rw [Lowers, lower]
      exact .pure (Place.suits_value _)
  | .unary note op operand, explicit => by
      have operandValue := (lowers_of_explicit operand explicit.2.1).value
        (isScalar_of_unary explicit.2.2)
      rw [Lowers, lower]
      refine operandValue.bind fun made => ?_
      exact (unaryCode_succeeds explicit.2.2 _).bind fun _ => .pure (Place.suits_value _)
  | .binary note (.logic op) left right, explicit => by
      rcases explicit with ⟨_, leftExplicit, rightExplicit, types⟩
      rcases logicTypes types with ⟨scalarLeft, scalarRight, _⟩
      have leftValue := (lowers_of_explicit left leftExplicit).value scalarLeft
      have rightValue := (lowers_of_explicit right rightExplicit).value scalarRight
      rw [Lowers, lower]
      refine (Pass.newLabelPair_succeeds _ _).bind fun labels => ?_
      refine (Pass.newTemporary_succeeds rfl).bind fun target => ?_
      refine leftValue.bind fun _ => ?_
      exact rightValue.bind fun _ => .pure (Place.suits_value _)
  | .binary note (.arith op) left right, explicit => by
      rcases explicit with ⟨_, leftExplicit, rightExplicit, types⟩
      cases types with
      | arith types =>
          rcases scalars_of_arith types with ⟨scalarLeft, scalarRight⟩
          have leftValue := (lowers_of_explicit left leftExplicit).value scalarLeft
          have rightValue := (lowers_of_explicit right rightExplicit).value scalarRight
          rw [Lowers, lower]
          refine leftValue.bind fun _ => ?_
          refine rightValue.bind fun _ => ?_
          exact (arithCode_succeeds types _ _).bind fun _ => .pure (Place.suits_value _)
  | .binary note (.compare op) left right, explicit => by
      rcases explicit with ⟨_, leftExplicit, rightExplicit, types⟩
      rcases compareTypes types with ⟨sameType, scalar, isInt⟩
      have leftValue := (lowers_of_explicit left leftExplicit).value scalar
      have rightValue := (lowers_of_explicit right rightExplicit).value (sameType ▸ scalar)
      rw [Lowers, lower]
      refine leftValue.bind fun _ => ?_
      refine rightValue.bind fun _ => ?_
      have compares : ∀ first second, (binaryCode (.compare op) note.knownType left.type right.type
          first second).Succeeds := fun first second =>
        Operand.combine_succeeds (isInt ▸ rfl) _ _ _
      exact (compares _ _).bind fun _ => .pure (Place.suits_value _)
  | .assign note .plain left right opType, explicit => by
      rcases explicit with ⟨_, leftExplicit, rightExplicit, _, _, types⟩
      rcases plainTypes types with ⟨sameSides, scalar⟩
      have rightValue := (lowers_of_explicit right rightExplicit).value (sameSides ▸ scalar)
      rw [Lowers, lower]
      refine (lowers_of_explicit left leftExplicit).bind ?_
      rintro ⟨leftCode, place⟩ suits
      refine rightValue.bind fun _ => ?_
      have present := suits.ne_nowhere (CType.isVoid_of_isScalar scalar)
      exact (Place.store_succeeds present _).bind fun _ => .pure (Place.suits_value _)
  | .assign note (.compound op) left right opType, explicit => by
      rcases explicit with ⟨_, leftExplicit, rightExplicit, _, _, types⟩
      have scalar := compoundScalar types
      have rightValue :=
        (lowers_of_explicit right rightExplicit).value (isScalar_of_compound_right types)
      rw [Lowers, lower]
      refine (lowers_of_explicit left leftExplicit).bind ?_
      rintro ⟨leftCode, place⟩ suits
      have present := suits.ne_nowhere (CType.isVoid_of_isScalar scalar)
      refine (Place.load_succeeds present scalar).bind fun _ => ?_
      refine rightValue.bind fun _ => ?_
      refine (compoundCode_succeeds scalar (scalar_of_compound types) _ _ _).bind fun _ => ?_
      exact (Place.store_succeeds present _).bind fun _ => .pure (Place.suits_value _)
  | .conditional note condition thenBranch elseBranch, explicit => by
      rcases explicit with ⟨_, conditionExplicit, thenExplicit, elseExplicit, scalar, thenType,
        elseType, isValue⟩
      have conditionValue := (lowers_of_explicit condition conditionExplicit).value scalar
      have thenLowers := lowers_of_explicit thenBranch thenExplicit
      have elseLowers := lowers_of_explicit elseBranch elseExplicit
      rw [Lowers, lower]
      refine (Pass.newLabelPair_succeeds _ _).bind fun _ => ?_
      refine conditionValue.bind fun _ => .ite (fun isVoid => ?_) fun notVoid => ?_
      · refine thenLowers.bind fun _ _ => ?_
        exact elseLowers.bind fun _ _ => .pure fun _ => isVoid
      · have scalarType := CType.isScalar_of_isValue isValue (by simpa using notVoid)
        refine (Pass.newTemporary_succeeds scalarType).bind fun _ => ?_
        refine (thenLowers.value (thenType ▸ scalarType)).bind fun _ => ?_
        exact (elseLowers.value (elseType ▸ scalarType)).bind fun _ => .pure (Place.suits_value _)
  | .call note name arguments, explicit => by
      rcases explicit with ⟨_, argumentsExplicit, areValues, hasFunction⟩
      rcases sound.signature hasFunction with ⟨complete, isValue⟩
      -- Parameters have sizes, so no argument is void.
      have scalars : ∀ argument ∈ arguments, argument.type.isScalar := by
        intro argument mem
        refine CType.isScalar_of_isValue (areValues argument mem) ?_
        have sized := complete argument.type (List.mem_map_of_mem mem)
        cases shape : argument.type with
        | void => simp [shape, CType.isComplete] at sized
        | _ => rfl
      rw [Lowers, lower]
      refine (lowerArguments_succeeds arguments argumentsExplicit scalars).bind fun _ => ?_
      exact (callCode_completes isValue _ _).bind fun _ suits => .pure suits
  | .cast note target operand isImplicit, explicit => by
      rcases explicit with ⟨_, operandExplicit, sameType, converts⟩
      have operandLowers := lowers_of_explicit operand operandExplicit
      rw [Lowers, lower]
      refine .ite (fun isVoid => ?_) fun notVoid => ?_
      · exact operandLowers.bind fun _ _ => .pure fun _ => sameType ▸ isVoid
      · cases converts with
        | toVoid => exact absurd rfl notVoid
        | scalar scalarSource scalarTarget =>
            refine (operandLowers.value scalarSource).bind fun _ => ?_
            exact (Operand.convert_succeeds scalarTarget _ _).bind fun _ =>
              .pure (Place.suits_value _)
  | .addressOf note operand, explicit => by
      rcases explicit with ⟨_, operandExplicit, isLvalue, isPointer⟩
      rw [Lowers, lower]
      refine (lowers_of_explicit operand operandExplicit).bind fun made suits => ?_
      have present := suits.ne_nowhere (isVoid_of_isLvalue operandExplicit isLvalue)
      exact (Place.address_succeeds present (isPointer ▸ rfl)).bind fun _ =>
        .pure (Place.suits_value _)
  | .dereference note operand, explicit => by
      rcases explicit with ⟨_, operandExplicit, isPointer, _⟩
      rw [Lowers, lower]
      refine ((lowers_of_explicit operand operandExplicit).value (isPointer ▸ rfl)).bind fun _ => ?_
      exact .pure nofun
  | .subscript note array index, explicit => by
      rcases explicit with ⟨_, arrayExplicit, indexExplicit, _, types⟩
      have sums : (array.type.isScalar ∧ index.type.isScalar) ∧
          (array.type.isPointer ∨ ArithOp.add = .add ∧ index.type.isPointer) := by
        rcases types with ⟨arrayType, indexType⟩ | ⟨arrayType, indexType⟩
        · rw [arrayType, indexType]
          exact ⟨⟨rfl, rfl⟩, .inl rfl⟩
        · rw [arrayType, indexType]
          exact ⟨⟨rfl, rfl⟩, .inr ⟨rfl, rfl⟩⟩
      rw [Lowers, lower]
      refine ((lowers_of_explicit array arrayExplicit).value sums.1.1).bind fun _ => ?_
      refine ((lowers_of_explicit index indexExplicit).value sums.1.2).bind fun _ => ?_
      exact (pointerCode_succeeds sums.2 _ _).bind fun _ => .pure nofun
  | .step note form op operand, explicit => by
      rcases explicit with ⟨_, operandExplicit, isLvalue, _, steps⟩
      rw [Lowers, lower]
      refine (lowers_of_explicit operand operandExplicit).bind fun made suits => ?_
      have present := suits.ne_nowhere (isVoid_of_isLvalue operandExplicit isLvalue)
      exact (stepPlace_succeeds steps present form op).bind fun _ => .pure (Place.suits_value _)
  | .sizeofExpr note operand, _ => by
      rw [Lowers, lower]
      exact .pure (Place.suits_value _)
  | .sizeofType note operand, _ => by
      rw [Lowers, lower]
      exact .pure (Place.suits_value _)
  | .decay note operand, explicit => by
      rcases explicit with ⟨_, operandExplicit, size, element, isArray, isPointer⟩
      rw [Lowers, lower]
      refine (lowers_of_explicit operand operandExplicit).bind fun made suits => ?_
      have present := suits.ne_nowhere (isArray ▸ rfl)
      exact (Place.firstElement_succeeds present (isPointer ▸ rfl)).bind fun _ =>
        .pure (Place.suits_value _)

theorem lowerArguments_succeeds : ∀ arguments : List Expr, ExplicitList base arguments →
    (∀ argument ∈ arguments, argument.type.isScalar) → (lowerArguments arguments).Succeeds
  | [], _, _ => by
      rw [lowerArguments]
      exact .pure trivial
  | argument :: arguments, explicit, scalars => by
      rcases List.forall_mem_cons.1 scalars with ⟨scalar, scalarsRest⟩
      rw [lowerArguments]
      refine ((lowers_of_explicit argument explicit.1).value scalar).bind fun _ => ?_
      exact (lowerArguments_succeeds arguments explicit.2 scalarsRest).bind fun _ => .pure trivial

end

/-- The value of an explicit scalar expression. -/
theorem lowerValue_succeeds {expr : Expr} (explicit : expr.Explicit base)
    (scalar : expr.type.isScalar) : expr.lowerValue.Succeeds :=
  (lowers_of_explicit sound expr explicit).value scalar

end Expr

end SubsetC
