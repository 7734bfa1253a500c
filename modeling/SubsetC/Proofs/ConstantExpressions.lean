import SubsetC.Analysis.Target
import SubsetC.Proofs.Folding

/-!
# The language of constant expressions

Folding meets an expression twice: labelling folds the values of cases before types are checked, and
static initializers are folded afterwards. Both speak about the same constants. What folds before
folds after, to the same constant, which is built as those of the type the expression has got; and
what does not fold before does not fold after. The one exception is sizeof: once its operand is
typed, the operand need not be constant itself.

The main statement is `Expr.fold?_of_checkValue`.
-/

namespace SubsetC

namespace Const

variable {constant : Const} {type : CType}

/-- A constant built as those of an arithmetic type has that type, but there are no constants of
type signed char: it borrows those of char. -/
theorem HasType.type_eq_or_schar (hasType : constant.HasType type) (arithmetic : type.isArithmetic) :
    type = constant.type ∨ type = .schar ∧ constant.type = .char := by
  cases type with
  | integer kind =>
      cases kind with
      | schar => exact .inr ⟨rfl, (Option.some.inj hasType).symm⟩
      | _ => exact .inl (Option.some.inj hasType)
  | double => exact .inl (Option.some.inj hasType)
  | _ => cases arithmetic

end Const

namespace Expr

/-- Wherever folding comes to a sizeof of an expression, that expression folds. -/
def SizesConstants : Expr → Prop
  | .unary _ _ operand | .cast _ _ operand _ => operand.SizesConstants
  | .binary _ _ left right => left.SizesConstants ∧ right.SizesConstants
  | .conditional _ condition thenBranch elseBranch =>
      condition.SizesConstants ∧ thenBranch.SizesConstants ∧ elseBranch.SizesConstants
  | .sizeofExpr _ operand => operand.fold?.isSome
  | _ => True

section Rules

variable {context : Context} {expr left right : Expr} {value leftValue rightValue : Const}

/-! ### Operators on values that do not fold -/

theorem toValue_fold?_eq_none (unfolded : expr.fold? = none) :
    Yields expr.toValue context fun value _ => value.fold? = none := by
  unfold toValue
  split
  · exact Ensures.bind_ok (Pass.run_newLoc _ _) (Ensures.pure rfl)
  · exact Ensures.typeError fun _ _ => trivial
  · exact Ensures.pure unfolded

theorem convertTo_fold?_eq_none (unfolded : expr.fold? = none) {target : CType} :
    Yields (expr.convertTo target) context fun converted _ => converted.fold? = none := by
  unfold convertTo
  refine Ensures.ite (fun _ => Ensures.pure unfolded) fun _ => ?_
  exact Ensures.bind_ok (Pass.run_newLoc _ _) (Ensures.pure (by simp [fold?, unfolded]))

theorem ofConverted_fold?_eq_none (unfolded : left.fold? = none ∨ right.fold? = none) {note : Note}
    {op : BinaryOp} {type leftType rightType : CType} :
    Yields (ofConverted note op type leftType rightType left right) context
      fun expr _ => expr.fold? = none := by
  unfold ofConverted
  rcases unfolded with unfolded | unfolded
  · refine (convertTo_fold?_eq_none unfolded).bind fun left' _ none => ?_
    exact Ensures.bind_any fun right' _ => Ensures.pure (by simp [fold?, none])
  · refine Ensures.bind_any fun left' _ => ?_
    refine (convertTo_fold?_eq_none unfolded).bind fun right' _ none => Ensures.pure ?_
    simp [fold?, none]

theorem refuseOperands_yields {note : Note} {op : BinaryOp} {wanted : Expr → Context → Prop} :
    Yields (refuseOperands note op left right) context wanted :=
  Ensures.typeError fun _ _ => trivial

/-- A binary operator does not fold if one of its operands does not. -/
theorem ofBinary_fold?_eq_none (unfolded : left.fold? = none ∨ right.fold? = none) {note : Note}
    {op : BinaryOp} :
    Yields (ofBinary note op left right) context fun expr _ => expr.fold? = none := by
  unfold ofBinary
  cases op with
  | logic op =>
      refine Ensures.ite (fun _ => Ensures.pure ?_) fun _ => refuseOperands_yields
      rcases unfolded with unfolded | unfolded <;> simp [fold?, unfolded]
  | arith op =>
      refine Ensures.ite (fun _ => ?_) fun _ => Ensures.ite (fun _ => ?_) fun _ => ?_
      · unfold ofShift
        exact Ensures.ite (fun _ => ofConverted_fold?_eq_none unfolded)
          fun _ => refuseOperands_yields
      · unfold ofArithmetic
        exact Ensures.ite (fun _ => refuseOperands_yields)
          fun _ => ofConverted_fold?_eq_none unfolded
      · unfold ofPointerArithmetic
        exact Ensures.ite (fun _ => ofConverted_fold?_eq_none unfolded) fun _ =>
          Ensures.ite (fun _ => ofConverted_fold?_eq_none unfolded) fun _ =>
            Ensures.ite (fun _ => ofConverted_fold?_eq_none unfolded)
              fun _ => refuseOperands_yields
  | compare op =>
      refine Ensures.ite (fun _ => ofConverted_fold?_eq_none unfolded) fun _ => ?_
      unfold ofPointerComparison
      refine Ensures.ite (fun _ => ?_) fun _ => refuseOperands_yields
      exact Ensures.bind_any fun _ _ => ofConverted_fold?_eq_none unfolded

theorem ofUnary_fold?_eq_none {operand : Expr} (unfolded : operand.fold? = none) {note : Note}
    {op : UnaryOp} :
    Yields (ofUnary note op operand) context fun expr _ => expr.fold? = none := by
  unfold ofUnary
  refine Ensures.ite (fun _ => Ensures.typeError fun _ _ => trivial) fun _ => ?_
  refine Ensures.ite (fun _ => Ensures.pure (by simp [fold?, unfolded])) fun _ => ?_
  refine (convertTo_fold?_eq_none unfolded).bind fun operand' _ none => Ensures.pure ?_
  simp [fold?, none]

theorem ofConditional_fold?_eq_none {condition thenBranch elseBranch : Expr}
    (unfolded : condition.fold? = none ∨ thenBranch.fold? = none ∨ elseBranch.fold? = none)
    {note : Note} :
    Yields (ofConditional note condition thenBranch elseBranch) context
      fun expr _ => expr.fold? = none := by
  unfold ofConditional
  refine Ensures.bind_any fun type _ => ?_
  rcases unfolded with unfolded | unfolded | unfolded
  · refine Ensures.bind_any fun _ _ => Ensures.bind_any fun _ _ => Ensures.pure ?_
    simp [fold?, unfolded]
  · refine (convertTo_fold?_eq_none unfolded).bind fun then' _ none => ?_
    exact Ensures.bind_any fun _ _ => Ensures.pure (by simp [fold?, none])
  · refine Ensures.bind_any fun _ _ => ?_
    refine (convertTo_fold?_eq_none unfolded).bind fun else' _ none => Ensures.pure ?_
    simp [fold?, none]

/-! ### Operators that are undefined on the values of their operands -/

theorem FoldsTo.unary_fold?_eq_none {operand : Expr} (folds : operand.FoldsTo value) {note : Note}
    {op : UnaryOp} (undefined : Const.unary? op value = none) :
    Yields (ofUnary note op operand) context fun expr _ => expr.fold? = none := by
  have notNot : op ≠ .not := by
    rintro rfl
    cases undefined
  unfold ofUnary
  refine Ensures.ite (fun _ => Ensures.typeError fun _ _ => trivial) fun _ => ?_
  refine Ensures.ite (fun isNot => absurd isNot notNot) fun _ => ?_
  refine (folds.convertTo_yields (CType.isArithmetic_promote folds.arithmetic)).bind ?_
  rintro operand' _ ⟨_, converted, converts, folds'⟩
  rw [← folds.hasType.promote_eq folds.arithmetic] at converts
  refine Ensures.pure ?_
  simp [fold?, folds'.folds, Const.unary?_convert? notNot converts, undefined]

theorem FoldsTo.converted_fold?_eq_none (leftFolds : left.FoldsTo leftValue)
    (rightFolds : right.FoldsTo rightValue) {note : Note} {op : BinaryOp}
    {type leftType rightType : CType} (leftArithmetic : leftType.isArithmetic)
    (rightArithmetic : rightType.isArithmetic)
    (undefined : ∀ left' right', leftValue.convert? leftType = some left' →
      rightValue.convert? rightType = some right' → Const.binary? op left' right' = none) :
    Yields (ofConverted note op type leftType rightType left right) context
      fun expr _ => expr.fold? = none := by
  unfold ofConverted
  refine (leftFolds.convertTo_yields leftArithmetic).bind ?_
  rintro left' _ ⟨_, leftConstant, convertsLeft, leftFolds'⟩
  refine (rightFolds.convertTo_yields rightArithmetic).bind ?_
  rintro right' _ ⟨_, rightConstant, convertsRight, rightFolds'⟩
  refine Ensures.pure ?_
  simp [fold?, leftFolds'.folds, rightFolds'.folds, undefined _ _ convertsLeft convertsRight]

/-- Checking keeps an operator undefined, as it keeps its value. -/
theorem FoldsTo.binary_fold?_eq_none (leftFolds : left.FoldsTo leftValue)
    (rightFolds : right.FoldsTo rightValue) {note : Note} {op : BinaryOp}
    (undefined : Const.binary? op leftValue rightValue = none) :
    Yields (ofBinary note op left right) context fun expr _ => expr.fold? = none := by
  have leftArithmetic := leftFolds.arithmetic
  have rightArithmetic := rightFolds.arithmetic
  have sameLeft := leftFolds.hasType.promote_eq leftArithmetic
  have sameRight := rightFolds.hasType.promote_eq rightArithmetic
  have arithmetic := CType.isArithmetic_common leftArithmetic rightArithmetic
  have sameCommon := CType.common_congr sameLeft sameRight
  unfold ofBinary
  cases op with
  | logic op => cases op <;> cases undefined
  | compare op =>
      rw [leftArithmetic, rightArithmetic]
      refine leftFolds.converted_fold?_eq_none rightFolds arithmetic arithmetic ?_
      intro left' right' convertsLeft convertsRight
      rw [← sameCommon] at convertsLeft convertsRight
      exact (Const.compare?_convert? convertsLeft convertsRight).trans undefined
  | arith op =>
      refine Ensures.ite (fun isShift => ?_) fun noShift => ?_
      · unfold ofShift
        refine Ensures.ite (fun _ => ?_) fun _ => refuseOperands_yields
        refine leftFolds.converted_fold?_eq_none rightFolds
          (CType.isArithmetic_promote leftArithmetic) (CType.isArithmetic_promote rightArithmetic) ?_
        intro left' right' convertsLeft convertsRight
        rw [← sameLeft] at convertsLeft
        rw [← sameRight] at convertsRight
        cases op with
        | shiftLeft | shiftRight =>
            exact (Const.shift?_convert? convertsLeft convertsRight).trans undefined
        | _ => cases isShift
      · rw [leftArithmetic, rightArithmetic]
        show Yields (ofArithmetic note op left right) context _
        unfold ofArithmetic
        refine Ensures.ite (fun _ => refuseOperands_yields) fun _ => ?_
        refine leftFolds.converted_fold?_eq_none rightFolds arithmetic arithmetic ?_
        intro left' right' convertsLeft convertsRight
        rw [← sameCommon] at convertsLeft convertsRight
        have same := Const.arith?_convert? convertsLeft convertsRight (by simpa using noShift)
        exact same.trans undefined

end Rules

/-! ### Expressions that do not fold -/

theorem value_fold?_eq_none {expr : Expr} {context : Context}
    (unfolded : Yields expr.check context fun expr' _ => expr'.fold? = none) :
    Yields (expr.check >>= toValue) context fun value _ => value.fold? = none :=
  unfolded.bind fun _ _ none => toValue_fold?_eq_none none

theorem condition_fold?_eq_none {expr : Expr} {context : Context}
    (unfolded : Yields expr.check context fun expr' _ => expr'.fold? = none) :
    Yields (expr.check >>= toValue >>= checkCondition) context fun value _ => value.fold? = none := by
  refine (value_fold?_eq_none unfolded).bind fun value _ none => ?_
  unfold checkCondition
  exact Ensures.ite (fun _ => Ensures.pure none) fun _ => Ensures.typeError fun _ _ => trivial

/-- A source expression that does not fold does not fold either once it is checked, unless a sizeof
in it has become independent of its operand. -/
theorem check_fold?_eq_none : ∀ (expr : Expr) {context : Context}, expr.IsSource →
    expr.SizesConstants → expr.fold? = none →
    Yields expr.check context fun expr' _ => expr'.fold? = none
  | .constant _ _, _, _, _, unfolded => nomatch unfolded
  | .string _ _, _, _, _, _ => by
      rw [check]
      exact Ensures.pure rfl
  | .var _ _, context, _, _, _ => by
      rw [check]
      refine Ensures.bind_ok (Pass.run_findSymbol? _ _) ?_
      split
      · exact Ensures.throw trivial
      · exact Ensures.pure rfl
  | .unary _ op operand, context, isSource, sizes, unfolded => by
      rw [check]
      cases operandFolds : operand.fold? with
      | none =>
          refine (value_fold?_eq_none (check_fold?_eq_none operand isSource.2 sizes
            operandFolds)).bind ?_
          exact fun operand' _ none => ofUnary_fold?_eq_none none
      | some value =>
          simp only [fold?, operandFolds] at unfolded
          refine (value_foldsTo (check_foldsTo operand isSource.2 operandFolds)).bind ?_
          exact fun operand' _ folds => folds.unary_fold?_eq_none unfolded
  | .binary _ op left right, context, isSource, sizes, unfolded => by
      rw [check]
      cases leftFolds : left.fold? with
      | none =>
          refine (value_fold?_eq_none (check_fold?_eq_none left isSource.2.1 sizes.1
            leftFolds)).bind fun left' _ none => ?_
          exact Ensures.bind_any fun right' _ => ofBinary_fold?_eq_none (.inl none)
      | some leftValue =>
          refine (value_foldsTo (check_foldsTo left isSource.2.1 leftFolds)).bind ?_
          intro left' _ leftFolds'
          cases rightFolds : right.fold? with
          | none =>
              refine (value_fold?_eq_none (check_fold?_eq_none right isSource.2.2 sizes.2
                rightFolds)).bind fun right' _ none => ?_
              exact ofBinary_fold?_eq_none (.inr none)
          | some rightValue =>
              simp only [fold?, leftFolds, rightFolds] at unfolded
              refine (value_foldsTo (check_foldsTo right isSource.2.2 rightFolds)).bind ?_
              exact fun right' _ rightFolds' => leftFolds'.binary_fold?_eq_none rightFolds' unfolded
  | .conditional _ condition thenBranch elseBranch, context, isSource, sizes, unfolded => by
      rw [check]
      cases conditionFolds : condition.fold? with
      | none =>
          refine (condition_fold?_eq_none (check_fold?_eq_none condition isSource.2.1 sizes.1
            conditionFolds)).bind fun condition' _ none => ?_
          exact Ensures.bind_any fun _ _ => Ensures.bind_any fun _ _ =>
            ofConditional_fold?_eq_none (.inl none)
      | some decision =>
          refine Ensures.bind_any fun condition' _ => ?_
          cases thenFolds : thenBranch.fold? with
          | none =>
              refine (value_fold?_eq_none (check_fold?_eq_none thenBranch isSource.2.2.1 sizes.2.1
                thenFolds)).bind fun then' _ none => ?_
              exact Ensures.bind_any fun _ _ => ofConditional_fold?_eq_none (.inr (.inl none))
          | some thenValue =>
              refine Ensures.bind_any fun then' _ => ?_
              cases elseFolds : elseBranch.fold? with
              | none =>
                  refine (value_fold?_eq_none (check_fold?_eq_none elseBranch isSource.2.2.2
                    sizes.2.2 elseFolds)).bind fun else' _ none => ?_
                  exact ofConditional_fold?_eq_none (.inr (.inr none))
              | some elseValue =>
                  -- Constants of two arithmetic types always convert to their common type.
                  have arithmetic := CType.isArithmetic_common thenValue.isArithmetic_type
                    elseValue.isArithmetic_type
                  rcases thenValue.exists_convert? arithmetic with ⟨_, convertsThen⟩
                  rcases elseValue.exists_convert? arithmetic with ⟨_, convertsElse⟩
                  simp only [fold?, conditionFolds, thenFolds, elseFolds, Option.bind_eq_bind,
                    Option.bind_some, convertsThen, convertsElse] at unfolded
                  split at unfolded <;> cases unfolded
  | .cast _ target operand _, context, isSource, sizes, unfolded => by
      rw [check]
      refine Ensures.bind_any fun _ _ => ?_
      cases operandFolds : operand.fold? with
      | none =>
          refine (value_fold?_eq_none (check_fold?_eq_none operand isSource.2 sizes
            operandFolds)).bind fun operand' _ none => ?_
          unfold ofCast
          refine Ensures.ite (fun _ => Ensures.typeError fun _ _ => trivial) fun _ => ?_
          refine Ensures.ite (fun _ => Ensures.typeError fun _ _ => trivial) fun _ => ?_
          exact Ensures.pure (by simp [fold?, none])
      | some value =>
          have notArithmetic : ¬target.isArithmetic := by
            intro arithmetic
            rcases value.exists_convert? arithmetic with ⟨_, converts⟩
            simp [fold?, operandFolds, arithmetic, converts] at unfolded
          refine Ensures.bind_any fun operand' _ => ?_
          unfold ofCast
          refine Ensures.ite (fun _ => Ensures.typeError fun _ _ => trivial) fun _ => ?_
          refine Ensures.ite (fun _ => Ensures.typeError fun _ _ => trivial) fun _ => ?_
          exact Ensures.pure (by simp [fold?, notArithmetic])
  | .sizeofExpr _ operand, _, isSource, sizes, unfolded => by
      -- An operand that folds has an arithmetic type, and so a size.
      rcases Option.isSome_iff_exists.1 sizes with ⟨value, operandFolds⟩
      have complete := CType.isComplete_of_isArithmetic value.isArithmetic_type
      simp [fold?, operand.type?_of_isSource isSource.2, operandFolds, Const.sizeof?, complete]
        at unfolded
  | .sizeofType _ operand, context, _, _, unfolded => by
      rw [check]
      exact Ensures.bind_any fun _ _ => Ensures.bind_any fun _ _ => Ensures.pure unfolded
  | .assign _ op _ _ _, context, _, _, _ => by
      rw [check]
      refine Ensures.bind_any fun left _ => Ensures.bind_any fun _ _ => ?_
      refine Ensures.bind_any fun right _ => ?_
      unfold ofAssign
      cases op with
      | plain => exact Ensures.bind_any fun _ _ => Ensures.pure rfl
      | compound op =>
          dsimp only
          split
          · exact Ensures.typeError fun _ _ => trivial
          · exact Ensures.bind_any fun _ _ => Ensures.pure rfl
  | .call _ _ _, context, _, _, _ => by
      rw [check]
      exact Ensures.bind_any fun _ _ => Ensures.bind_any fun _ _ => Ensures.pure rfl
  | .addressOf _ _, context, _, _, _ => by
      rw [check]
      refine Ensures.bind_any fun operand _ => ?_
      unfold ofAddress
      refine Ensures.ite (fun _ => Ensures.typeError fun _ _ => trivial) fun _ => ?_
      exact Ensures.ite (fun _ => Ensures.typeError fun _ _ => trivial) fun _ => Ensures.pure rfl
  | .dereference _ _, context, _, _, _ => by
      rw [check]
      refine Ensures.bind_any fun operand _ => ?_
      unfold ofDereference
      split
      · exact Ensures.typeError fun _ _ => trivial
      · exact Ensures.pure rfl
      · exact Ensures.typeError fun _ _ => trivial
  | .subscript _ _ _, context, _, _, _ => by
      rw [check]
      refine Ensures.bind_any fun array _ => Ensures.bind_any fun index _ => ?_
      unfold ofSubscript
      refine Ensures.ite (fun _ => Ensures.bind_any fun _ _ => Ensures.pure rfl) fun _ => ?_
      refine Ensures.ite (fun _ => Ensures.bind_any fun _ _ => Ensures.pure rfl) fun _ => ?_
      exact Ensures.typeError fun _ _ => trivial
  | .step _ _ _ _, context, _, _, _ => by
      rw [check]
      refine Ensures.bind_any fun operand _ => ?_
      unfold ofStep
      refine Ensures.bind_any fun _ _ => ?_
      exact Ensures.ite (fun _ => Ensures.pure rfl) fun _ => Ensures.typeError fun _ _ => trivial
  | .decay _ _, _, isSource, _, _ => isSource.elim

/-! ### Cases and static initializers -/

/-- An expression that folds initializes a static object of every arithmetic type, which starts out
as the converted constant. -/
theorem FoldsTo.exists_staticItem {expr : Expr} {value : Const} (folds : expr.FoldsTo value)
    {type : CType} (arithmetic : type.isArithmetic) (context : Context) :
    ∃ constant after, value.convert? type = some constant ∧
      (expr.assignTo type >>= scalarItem type).run context = .ok (.scalar constant, after) := by
  rcases value.exists_convert? arithmetic with ⟨constant, converts⟩
  have again := (Const.hasType_of_convert? converts).convert?_eq arithmetic
  have assignable : expr.isAssignableTo type := by
    simp [isAssignableTo, folds.arithmetic, arithmetic]
  rw [assignTo, if_pos assignable, convertTo]
  split
  · rename_i same
    have unchanged := (same ▸ folds.hasType).convert?_eq arithmetic
    cases unchanged.symm.trans converts
    refine ⟨value, context, unchanged, ?_⟩
    rw [pure_bind, scalarItem, folds.folds]
    simp only [unchanged]
    rfl
  · refine ⟨constant, { context with lastId := context.lastId + 1 }, converts, ?_⟩
    rw [bind_assoc, StateT.run_bind, Pass.run_newLoc]
    simp only [pure_bind, scalarItem, fold?, folds.folds, Option.bind_eq_bind, Option.bind_some,
      arithmetic, if_true, converts, again]
    rfl

/-- A source expression that folds to a constant is typed, if it is accepted as a value, as an
expression that folds to the same constant and has the type of the constant; a signed char has the
constants of char. As a case and as the initializer of a static object it stands for the same
constant, converted to the type of the switch or of the object. If every sizeof in it has an operand
that folds, then it folds after checking exactly if it folds before. -/
theorem fold?_of_checkValue {expr checked : Expr} {context after : Context}
    (isSource : expr.IsSource) (accepts : expr.checkValue.run context = .ok (checked, after)) :
    (∀ value, expr.fold? = some value → checked.fold? = some value ∧
      (checked.type? = some value.type ∨ checked.type? = some .schar ∧ value.type = .char)) ∧
    (∀ targets loc cases before case between,
      (SwitchCase.ofValue targets loc expr cases).run before = .ok (case, between) →
      ∃ value, case.value = some value ∧ ∀ type : CType, type.isArithmetic →
        ∃ constant later, value.convert? type = some constant ∧
          (checked.assignTo type >>= scalarItem type).run after = .ok (.scalar constant, later)) ∧
    (expr.SizesConstants → checked.fold? = expr.fold?) := by
  have keeps : ∀ value, expr.fold? = some value → checked.FoldsTo value := fun value folds =>
    (value_foldsTo (check_foldsTo expr isSource folds)).of_ok accepts
  refine ⟨?_, ?_, ?_⟩
  · intro value folds
    have folds' := keeps value folds
    refine ⟨folds'.folds, ?_⟩
    rw [folds'.typed]
    rcases folds'.hasType.type_eq_or_schar folds'.arithmetic with same | ⟨isSchar, isChar⟩
    · exact .inl (congrArg some same)
    · exact .inr ⟨congrArg some isSchar, isChar⟩
  · intro targets loc cases before case between labels
    unfold SwitchCase.ofValue at labels
    split at labels
    · cases labels
    · split at labels
      · cases labels
      · rename_i value folds
        cases labels
        exact ⟨value, rfl, fun type arithmetic => (keeps value folds).exists_staticItem arithmetic _⟩
  · intro sizes
    cases folds : expr.fold? with
    | some value => exact (keeps value folds).folds
    | none => exact (value_fold?_eq_none (check_fold?_eq_none expr isSource sizes folds)).of_ok accepts

/-- The expression `(signed char) (60 * sizeof (1 + 1))`, of which the value does not fit into its
type. -/
def narrowedSize : Expr :=
  let note := Note.untyped ⟨0, .none⟩
  let one := Expr.constant note (.int 1)
  .cast note .schar (.binary note (.arith .mul) (.constant note (.int 60))
    (.sizeofExpr note (.binary note (.arith .add) one one))) false

theorem fold?_of_checkValue_narrowedSize :
    narrowedSize.IsSource ∧ narrowedSize.SizesConstants ∧
      ∃ checked after, narrowedSize.checkValue.run .empty = .ok (checked, after) ∧
        checked.fold? = some (.char (-16)) ∧ checked.type? = some .schar ∧
        checked.fold? = narrowedSize.fold? := by
  have isSource : narrowedSize.IsSource := by simp [narrowedSize, IsSource, Note.untyped]
  have sizes : narrowedSize.SizesConstants := ⟨trivial, rfl⟩
  have folds : narrowedSize.fold? = some (.char (-16)) := by decide +kernel
  have computed : succeedsWith (fun _ => true) (narrowedSize.checkValue.run .empty) := by
    decide +kernel
  rcases exists_of_succeedsWith computed with ⟨⟨checked, after⟩, accepts, _⟩
  rcases fold?_of_checkValue isSource accepts with ⟨keeps, _, agrees⟩
  rcases keeps _ folds with ⟨folds', isChar | ⟨isSchar, _⟩⟩
  · have typed : succeedsWith (fun checked => checked.1.type? = some .schar)
        (narrowedSize.checkValue.run .empty) := by
      decide +kernel
    rw [accepts] at typed
    simp [succeedsWith, isChar, Const.type] at typed
  · exact ⟨isSource, sizes, checked, after, accepts, folds', isSchar, agrees sizes⟩

end Expr

end SubsetC
