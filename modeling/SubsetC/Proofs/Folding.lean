import SubsetC.Analysis.Fold
import SubsetC.Proofs.InitTyping
import SubsetC.Proofs.TypedCode

/-!
# Folding before and after types are checked

Checking writes out the conversions that folding applies by itself. So a source expression that
folds to a constant, once it is checked, folds to the same constant, and the constant is built as
those of the type that the expression then has.
-/

namespace SubsetC

/-! ### Converted constants -/

theorem CType.common_congr {left left' right right' : CType} (sameLeft : left.promote = left'.promote)
    (sameRight : right.promote = right'.promote) : left.common right = left'.common right' := by
  unfold common
  rw [sameLeft, sameRight]

theorem CType.common_self {type : CType} (promoted : type.IsPromoted) : type.common type = type := by
  unfold common
  rw [promoted]
  simp

theorem CType.isVoid_of_isArithmetic {type : CType} (arithmetic : type.isArithmetic) :
    type.isVoid = false := by
  cases type with
  | void => cases arithmetic
  | _ => rfl

theorem CType.isComplete_of_isArithmetic {type : CType} (arithmetic : type.isArithmetic) :
    type.isComplete := by
  cases type with
  | integer _ | double => rfl
  | _ => cases arithmetic

namespace Const

variable {constant converted : Const} {type : CType}

theorem isArithmetic_type (constant : Const) : constant.type.isArithmetic := by
  cases constant <;> rfl

theorem HasType.type_eq (hasType : constant.HasType type) (arithmetic : type.isArithmetic)
    (promoted : type.IsPromoted) : constant.type = type := by
  cases type with
  | integer kind =>
      cases kind with
      | char | schar | uchar => simp [CType.IsPromoted, CType.promote, CType.isCharacter] at promoted
      | _ => exact (Option.some.inj hasType).symm
  | double => exact (Option.some.inj hasType).symm
  | _ => cases arithmetic

/-- Signed char, whose constants are those of char, is promoted as char is. -/
theorem HasType.promote_eq (hasType : constant.HasType type) (arithmetic : type.isArithmetic) :
    constant.type.promote = type.promote := by
  cases type with
  | integer kind =>
      rw [← Option.some.inj hasType]
      cases kind <;> rfl
  | double => rw [← Option.some.inj hasType]; rfl
  | _ => cases arithmetic

theorem HasType.size_eq (hasType : constant.HasType type) (arithmetic : type.isArithmetic) :
    constant.type.size = type.size := by
  cases type with
  | integer kind =>
      rw [← Option.some.inj hasType]
      cases kind <;> rfl
  | double => rw [← Option.some.inj hasType]; rfl
  | _ => cases arithmetic

/-- Converting a constant to a type that it has does not change it. -/
theorem HasType.convert?_eq (hasType : constant.HasType type) (arithmetic : type.isArithmetic) :
    constant.convert? type = some constant := by
  by_cases same : constant.type = type
  · simp [convert?, same]
  · cases type with
    | integer kind =>
        have isKind : (Const.ofInt64 0 kind).type = constant.type := Option.some.inj hasType
        cases kind with
        | schar =>
            cases constant <;> simp [ofInt64, type] at isKind
            simp [convert?, type, CType.isDouble, ofInt64?, ofInt64, toInt64]
        | _ => exact absurd isKind.symm same
    | double => exact absurd (Option.some.inj hasType).symm same
    | _ => cases arithmetic

theorem convert?_type (constant : Const) : constant.convert? constant.type = some constant :=
  (hasType_type constant).convert?_eq constant.isArithmetic_type

theorem exists_convert? (constant : Const) (arithmetic : type.isArithmetic) :
    ∃ converted, constant.convert? type = some converted :=
  Option.isSome_iff_exists.1 (isSome_convert? arithmetic constant)

theorem type_of_convert? (arithmetic : type.isArithmetic) (promoted : type.IsPromoted)
    (converts : constant.convert? type = some converted) : converted.type = type :=
  (hasType_of_convert? converts).type_eq arithmetic promoted

theorem toInt_toInt64_uchar (value : UInt8) : (uchar value).toInt64.toInt = value.toNat := by
  have bound := value.toNat_lt
  exact (BitVec.toInt_eq_toNat_bmod value.toUInt64.toBitVec).trans
    (Int.bmod_eq_of_le (by simp) (by simp; omega))

/-- The integer promotion keeps the word of a constant. -/
theorem toInt64_of_promote (converts : constant.convert? constant.type.promote = some converted) :
    converted.toInt64 = constant.toInt64 := by
  cases constant with
  | char value =>
      cases converts
      simp [toInt64, ofInt64]
  | uchar value =>
      cases converts
      have bound := value.toNat_lt
      have asInt : (uchar value).toInt64.toInt.bmod (2 ^ 32) = value.toNat := by
        rw [toInt_toInt64_uchar]
        exact Int.bmod_eq_of_le (by omega) (by omega)
      rw [← Int64.toInt_inj, toInt_toInt64_uchar, ← asInt]
      exact (Int32.toInt_toInt64 _).trans (Int64.toInt_toInt32 _)
  | _ =>
      have same := converts.symm.trans (convert?_type _)
      cases same
      rfl

/-! ### Operators on converted constants -/

theorem unary?_convert? {op : UnaryOp} {operand : Const} (notNot : op ≠ .not)
    (converts : operand.convert? operand.type.promote = some converted) :
    unary? op converted = unary? op operand := by
  have arithmetic := CType.isArithmetic_promote operand.isArithmetic_type
  have promoted := CType.isPromoted_promote operand.type
  have sameType := type_of_convert? arithmetic promoted converts
  have again : converted.convert? converted.type.promote = some converted := by
    rw [sameType, promoted, ← sameType]
    exact convert?_type converted
  have samePromote : converted.type.promote = operand.type.promote := by rw [sameType, promoted]
  cases op with
  | not => exact absurd rfl notNot
  | plus | negate | complement =>
      simp only [unary?, samePromote] at again ⊢
      rw [again, converts]

theorem shift?_convert? {isLeft : Bool} {left right left' right' : Const}
    (convertsLeft : left.convert? left.type.promote = some left')
    (convertsRight : right.convert? right.type.promote = some right') :
    shift? isLeft left' right' = shift? isLeft left right := by
  have arithmetic := CType.isArithmetic_promote left.isArithmetic_type
  have promoted := CType.isPromoted_promote left.type
  have sameType := type_of_convert? arithmetic promoted convertsLeft
  have samePromote : left'.type.promote = left.type.promote := by rw [sameType, promoted]
  have again : left'.convert? left.type.promote = some left' := by
    rw [← sameType]
    exact convert?_type left'
  have sameRight : right'.type = right.type.promote :=
    type_of_convert? (CType.isArithmetic_promote right.isArithmetic_type)
      (CType.isPromoted_promote _) convertsRight
  have sameInteger : right'.type.isInteger = right.type.isInteger := by
    rw [sameRight]
    cases right <;> rfl
  unfold shift?
  simp only [samePromote, again, convertsLeft, sameInteger, toInt64_of_promote convertsRight]

/-- The value of an arithmetic or bitwise operator at the type of its operands. -/
def arithAt? (op : ArithOp) (type : CType) (left right : Const) : Option Const :=
  if type.isDouble then arithDouble? op left.toDouble right.toDouble
  else if type.isSigned then
    (arithSigned? op left.toInt64 right.toInt64).bind (ofInt64? · type)
  else (arithUnsigned? op left.toUInt64 right.toUInt64).bind fun word => ofInt64? word.toInt64 type

theorem arith?_eq {op : ArithOp} (noShift : op.isShift = false) (left right : Const) :
    arith? op left right = (left.convert? (left.type.common right.type)).bind fun left' =>
      (right.convert? (left.type.common right.type)).bind fun right' =>
        arithAt? op (left.type.common right.type) left' right' := by
  cases op with
  | shiftLeft | shiftRight => cases noShift
  | _ => rfl

section Common

variable {left right left' right' : Const}
  (convertsLeft : left.convert? (left.type.common right.type) = some left')
  (convertsRight : right.convert? (left.type.common right.type) = some right')

include convertsLeft convertsRight

theorem types_of_common : left'.type = left.type.common right.type ∧
    right'.type = left.type.common right.type ∧
    left'.type.common right'.type = left.type.common right.type := by
  have arithmetic := CType.isArithmetic_common left.isArithmetic_type right.isArithmetic_type
  have promoted := CType.isPromoted_common left.type right.type
  have sameLeft := type_of_convert? arithmetic promoted convertsLeft
  have sameRight := type_of_convert? arithmetic promoted convertsRight
  refine ⟨sameLeft, sameRight, ?_⟩
  rw [sameLeft, sameRight, CType.common_self promoted]

theorem arith?_convert? {op : ArithOp} (noShift : op.isShift = false) :
    arith? op left' right' = arith? op left right := by
  rcases types_of_common convertsLeft convertsRight with ⟨sameLeft, sameRight, sameCommon⟩
  have againLeft : left'.convert? (left.type.common right.type) = some left' := by
    rw [← sameLeft]
    exact convert?_type left'
  have againRight : right'.convert? (left.type.common right.type) = some right' := by
    rw [← sameRight]
    exact convert?_type right'
  rw [arith?_eq noShift, arith?_eq noShift, sameCommon, againLeft, againRight, convertsLeft,
    convertsRight]

theorem compare?_convert? {op : CompareOp} :
    compare? op left' right' = compare? op left right := by
  rcases types_of_common convertsLeft convertsRight with ⟨sameLeft, sameRight, sameCommon⟩
  have againLeft : left'.convert? (left.type.common right.type) = some left' := by
    rw [← sameLeft]
    exact convert?_type left'
  have againRight : right'.convert? (left.type.common right.type) = some right' := by
    rw [← sameRight]
    exact convert?_type right'
  simp only [compare?, sameCommon, againLeft, againRight, convertsLeft, convertsRight]

end Common

/-! ### Types of folded constants -/

theorem hasType_ofBool (value : Bool) : (ofBool value).HasType .int := by
  cases value <;> rfl

theorem hasType_ofSize (size : Size) : (ofSize size).HasType .ulong := rfl

theorem hasType_of_unary? {op : UnaryOp} {operand value : Const} (notNot : op ≠ .not)
    (computes : unary? op operand = some value) : value.HasType operand.type.promote := by
  cases op with
  | not => exact absurd rfl notNot
  | plus => exact hasType_of_convert? computes
  | negate =>
      simp only [unary?, Option.bind_eq_bind, Option.bind_eq_some_iff] at computes
      rcases computes with ⟨converted, converts, computes⟩
      have own := hasType_of_convert? converts
      split at computes
      · cases computes
        exact own
      · exact hasType_of_ofInt64? computes
  | complement =>
      simp only [unary?, Option.bind_eq_bind, Option.bind_eq_some_iff] at computes
      rcases computes with ⟨converted, _, computes⟩
      split at computes
      · cases computes
      · exact hasType_of_ofInt64? computes

theorem hasType_of_shift? {isLeft : Bool} {left right value : Const}
    (computes : shift? isLeft left right = some value) :
    value.HasType left.type.promote ∧ left.type.isInteger ∧ right.type.isInteger := by
  simp only [shift?] at computes
  split at computes
  · cases computes
  · rename_i integers
    simp only [Bool.or_eq_true, Bool.not_eq_true', not_or, Bool.not_eq_false] at integers
    simp only [Option.bind_eq_bind, Option.bind_eq_some_iff] at computes
    rcases computes with ⟨converted, _, computes⟩
    have integer : left.type.isInteger := by
      cases left <;> first | rfl | exact integers.1
    refine ⟨?_, integer, integers.2⟩
    repeat' split at computes
    all_goals first
      | cases computes
      | exact hasType_of_ofInt64? computes

theorem hasType_of_arith? {op : ArithOp} {left right value : Const} (noShift : op.isShift = false)
    (computes : arith? op left right = some value) :
    value.HasType (left.type.common right.type) := by
  rw [arith?_eq noShift] at computes
  generalize left.type.common right.type = type at computes
  simp only [Option.bind_eq_some_iff] at computes
  rcases computes with ⟨left', _, right', _, computes⟩
  unfold arithAt? at computes
  split at computes
  · rename_i isDouble
    cases type with
    | double => cases op <;> cases computes <;> rfl
    | _ => cases isDouble
  · split at computes
    all_goals
      rcases Option.bind_eq_some_iff.1 computes with ⟨word, _, found⟩
      exact hasType_of_ofInt64? found

theorem hasType_of_compare? {op : CompareOp} {left right value : Const}
    (computes : compare? op left right = some value) : value.HasType .int := by
  simp only [compare?, Option.bind_eq_bind, Option.bind_eq_some_iff] at computes
  rcases computes with ⟨left', _, right', _, computes⟩
  split at computes
  · cases computes
    exact hasType_ofBool _
  · split at computes
    all_goals
      cases computes
      exact hasType_ofBool _

end Const

/-! ### Expressions -/

namespace Expr

/-- A typed expression folds to a constant of its type. -/
structure FoldsTo (value : Const) (expr : Expr) : Prop where
  folds : expr.fold? = some value
  typed : expr.type? = some expr.type
  arithmetic : expr.type.isArithmetic
  hasType : value.HasType expr.type

section Rules

variable {context : Context} {expr left right : Expr} {value leftValue rightValue : Const}

theorem FoldsTo.toValue_eq (folds : expr.FoldsTo value) : expr.toValue = pure expr := by
  have arithmetic := folds.arithmetic
  unfold toValue
  split
  · rename_i isArray
    rw [isArray] at arithmetic
    cases arithmetic
  · rename_i isFunction
    rw [isFunction] at arithmetic
    cases arithmetic
  · rfl

/-- A value that is converted folds to the converted constant. -/
theorem FoldsTo.convertTo_yields (folds : expr.FoldsTo value) {target : CType}
    (arithmetic : target.isArithmetic) :
    Yields (expr.convertTo target) context fun converted _ => converted.type = target ∧
      ∃ constant, value.convert? target = some constant ∧ converted.FoldsTo constant := by
  unfold convertTo
  refine Ensures.ite ?_ ?_
  · intro same
    exact Ensures.pure ⟨same, value, (same ▸ folds.hasType).convert?_eq arithmetic, folds⟩
  · intro _
    refine Ensures.bind_ok (Pass.run_newLoc _ _) ?_
    rcases value.exists_convert? arithmetic with ⟨constant, converts⟩
    refine Ensures.pure ⟨rfl, constant, converts, ?_, rfl, arithmetic,
      Const.hasType_of_convert? converts⟩
    simp [fold?, folds.folds, arithmetic, converts]

theorem FoldsTo.unary_yields {operand : Expr} {operandValue : Const}
    (folds : operand.FoldsTo operandValue) {note : Note} {op : UnaryOp}
    (computes : Const.unary? op operandValue = some value) :
    Yields (ofUnary note op operand) context fun expr _ => expr.FoldsTo value := by
  unfold ofUnary
  refine Ensures.ite (fun _ => Ensures.typeError fun _ _ => trivial) fun _ => ?_
  refine Ensures.ite ?_ ?_
  · rintro rfl
    refine Ensures.pure ⟨?_, rfl, rfl, ?_⟩
    · simp [fold?, folds.folds, computes]
    · cases computes
      exact Const.hasType_ofBool _
  · intro notNot
    have arithmetic := CType.isArithmetic_promote folds.arithmetic
    have samePromote := folds.hasType.promote_eq folds.arithmetic
    refine (folds.convertTo_yields arithmetic).bind ?_
    rintro operand' _ ⟨_, converted, converts, folds'⟩
    rw [← samePromote] at converts
    refine Ensures.pure ⟨?_, rfl, arithmetic, ?_⟩
    · simp [fold?, folds'.folds, Const.unary?_convert? notNot converts, computes]
    · exact samePromote ▸ Const.hasType_of_unary? notNot computes

/-- A binary operator that computes the same from its converted operands. -/
theorem FoldsTo.converted_yields (leftFolds : left.FoldsTo leftValue)
    (rightFolds : right.FoldsTo rightValue) {note : Note} {op : BinaryOp}
    {type leftType rightType : CType} (arithmetic : type.isArithmetic)
    (leftArithmetic : leftType.isArithmetic) (rightArithmetic : rightType.isArithmetic)
    (hasType : value.HasType type)
    (computes : ∀ left' right', leftValue.convert? leftType = some left' →
      rightValue.convert? rightType = some right' → Const.binary? op left' right' = some value) :
    Yields (ofConverted note op type leftType rightType left right) context
      fun expr _ => expr.FoldsTo value := by
  unfold ofConverted
  refine (leftFolds.convertTo_yields leftArithmetic).bind ?_
  rintro left' _ ⟨_, leftConstant, convertsLeft, leftFolds'⟩
  refine (rightFolds.convertTo_yields rightArithmetic).bind ?_
  rintro right' _ ⟨_, rightConstant, convertsRight, rightFolds'⟩
  refine Ensures.pure ⟨?_, rfl, arithmetic, hasType⟩
  simp [fold?, leftFolds'.folds, rightFolds'.folds, computes _ _ convertsLeft convertsRight]

theorem FoldsTo.shift_yields (leftFolds : left.FoldsTo leftValue)
    (rightFolds : right.FoldsTo rightValue) {note : Note} {op : ArithOp} (isShift : op.isShift)
    (computes : Const.arith? op leftValue rightValue = some value) :
    Yields (ofShift note op left right) context fun expr _ => expr.FoldsTo value := by
  have sameLeft := leftFolds.hasType.promote_eq leftFolds.arithmetic
  have sameRight := rightFolds.hasType.promote_eq rightFolds.arithmetic
  have leftArithmetic := CType.isArithmetic_promote leftFolds.arithmetic
  have rightArithmetic := CType.isArithmetic_promote rightFolds.arithmetic
  have hasType : value.HasType left.type.promote := by
    rw [← sameLeft]
    cases op with
    | shiftLeft => exact (Const.hasType_of_shift? computes).1
    | shiftRight => exact (Const.hasType_of_shift? computes).1
    | _ => cases isShift
  unfold ofShift
  refine Ensures.ite (fun _ => ?_) fun _ => Ensures.typeError fun _ _ => trivial
  refine leftFolds.converted_yields rightFolds leftArithmetic leftArithmetic rightArithmetic
    hasType ?_
  intro left' right' convertsLeft convertsRight
  rw [← sameLeft] at convertsLeft
  rw [← sameRight] at convertsRight
  rw [← computes]
  cases op with
  | shiftLeft => exact Const.shift?_convert? convertsLeft convertsRight
  | shiftRight => exact Const.shift?_convert? convertsLeft convertsRight
  | _ => cases isShift

theorem FoldsTo.arithmetic_yields (leftFolds : left.FoldsTo leftValue)
    (rightFolds : right.FoldsTo rightValue) {note : Note} {op : ArithOp}
    (noShift : op.isShift = false)
    (computes : Const.arith? op leftValue rightValue = some value) :
    Yields (ofArithmetic note op left right) context fun expr _ => expr.FoldsTo value := by
  have arithmetic := CType.isArithmetic_common leftFolds.arithmetic rightFolds.arithmetic
  have sameCommon := CType.common_congr (leftFolds.hasType.promote_eq leftFolds.arithmetic)
    (rightFolds.hasType.promote_eq rightFolds.arithmetic)
  unfold ofArithmetic
  refine Ensures.ite (fun _ => Ensures.typeError fun _ _ => trivial) fun _ => ?_
  refine leftFolds.converted_yields rightFolds arithmetic arithmetic arithmetic
    (sameCommon ▸ Const.hasType_of_arith? noShift computes) ?_
  intro left' right' convertsLeft convertsRight
  rw [← sameCommon] at convertsLeft convertsRight
  rw [← computes]
  exact Const.arith?_convert? convertsLeft convertsRight noShift

/-- A binary operator on operands that fold. -/
theorem FoldsTo.binary_yields (leftFolds : left.FoldsTo leftValue)
    (rightFolds : right.FoldsTo rightValue) {note : Note} {op : BinaryOp}
    (computes : Const.binary? op leftValue rightValue = some value) :
    Yields (ofBinary note op left right) context fun expr _ => expr.FoldsTo value := by
  have arithmetic := CType.isArithmetic_common leftFolds.arithmetic rightFolds.arithmetic
  have sameCommon := CType.common_congr (leftFolds.hasType.promote_eq leftFolds.arithmetic)
    (rightFolds.hasType.promote_eq rightFolds.arithmetic)
  unfold ofBinary
  cases op with
  | logic op =>
      refine Ensures.ite (fun _ => ?_) fun _ => Ensures.typeError fun _ _ => trivial
      refine Ensures.pure ⟨?_, rfl, rfl, ?_⟩
      · simp [fold?, leftFolds.folds, rightFolds.folds, computes]
      · cases op <;> cases computes <;> exact Const.hasType_ofBool _
  | arith op =>
      refine Ensures.ite (fun isShift => leftFolds.shift_yields rightFolds isShift computes)
        fun noShift => ?_
      rw [leftFolds.arithmetic, rightFolds.arithmetic]
      exact leftFolds.arithmetic_yields rightFolds (by simpa using noShift) computes
  | compare op =>
      rw [leftFolds.arithmetic, rightFolds.arithmetic]
      refine leftFolds.converted_yields rightFolds rfl arithmetic arithmetic
        (Const.hasType_of_compare? computes) ?_
      intro left' right' convertsLeft convertsRight
      rw [← sameCommon] at convertsLeft convertsRight
      rw [← computes]
      exact Const.compare?_convert? convertsLeft convertsRight

/-- Both branches of a conditional fold, and are converted to their common type. -/
theorem FoldsTo.conditional_yields {condition thenBranch elseBranch : Expr}
    {decision thenValue elseValue : Const} (folds : condition.FoldsTo decision)
    (thenFolds : thenBranch.FoldsTo thenValue) (elseFolds : elseBranch.FoldsTo elseValue)
    {note : Note}
    (computes : (if decision.isZero then elseValue.convert? (thenValue.type.common elseValue.type)
      else thenValue.convert? (thenValue.type.common elseValue.type)) = some value) :
    Yields (ofConditional note condition thenBranch elseBranch) context
      fun expr _ => expr.FoldsTo value := by
  have arithmetic := CType.isArithmetic_common thenFolds.arithmetic elseFolds.arithmetic
  have sameCommon := CType.common_congr (thenFolds.hasType.promote_eq thenFolds.arithmetic)
    (elseFolds.hasType.promote_eq elseFolds.arithmetic)
  have notVoid := CType.isVoid_of_isArithmetic thenFolds.arithmetic
  have branches : branchType note.loc.span thenBranch elseBranch =
      pure (thenBranch.type.common elseBranch.type) := by
    simp [branchType, notVoid, thenFolds.arithmetic, elseFolds.arithmetic]
  unfold ofConditional
  rw [branches, pure_bind]
  refine (thenFolds.convertTo_yields arithmetic).bind ?_
  rintro then' _ ⟨_, thenConstant, convertsThen, thenFolds'⟩
  refine (elseFolds.convertTo_yields arithmetic).bind ?_
  rintro else' _ ⟨_, elseConstant, convertsElse, elseFolds'⟩
  rw [← sameCommon] at convertsThen convertsElse
  rcases Const.types_of_common convertsThen convertsElse with ⟨sameThen, sameElse, sameAgain⟩
  have againThen : thenConstant.convert? (thenConstant.type.common elseConstant.type) =
      some thenConstant := by
    rw [sameAgain, ← sameThen]
    exact thenConstant.convert?_type
  have againElse : elseConstant.convert? (thenConstant.type.common elseConstant.type) =
      some elseConstant := by
    rw [sameAgain, ← sameElse]
    exact elseConstant.convert?_type
  refine Ensures.pure ⟨?_, rfl, arithmetic, ?_⟩
  · simp only [fold?, folds.folds, thenFolds'.folds, elseFolds'.folds, Option.bind_eq_bind,
      Option.bind_some, againThen, againElse]
    rw [convertsThen, convertsElse] at computes
    exact computes
  · show value.HasType (thenBranch.type.common elseBranch.type)
    rw [← sameCommon]
    split at computes
    · exact Const.hasType_of_convert? computes
    · exact Const.hasType_of_convert? computes

end Rules

theorem value_foldsTo {expr : Expr} {value : Const} {context : Context}
    (checks : Yields expr.check context fun expr' _ => expr'.FoldsTo value) :
    Yields (expr.check >>= toValue) context fun expr' _ => expr'.FoldsTo value := by
  refine checks.bind ?_
  intro expr' after folds
  rw [folds.toValue_eq]
  exact Ensures.pure folds

theorem condition_foldsTo {expr : Expr} {value : Const} {context : Context}
    (checks : Yields expr.check context fun expr' _ => expr'.FoldsTo value) :
    Yields (expr.check >>= toValue >>= checkCondition) context
      fun expr' _ => expr'.FoldsTo value := by
  refine (value_foldsTo checks).bind ?_
  intro expr' after folds
  unfold checkCondition
  exact Ensures.ite (fun _ => Ensures.pure folds) fun _ => Ensures.typeError fun _ _ => trivial

theorem type?_of_isSource : ∀ (expr : Expr), expr.IsSource → expr.type? = none
  | .constant _ _, isSource | .string _ _, isSource | .var _ _, isSource
  | .sizeofType _ _, isSource => isSource
  | .unary _ _ _, isSource | .cast _ _ _ _, isSource | .addressOf _ _, isSource
  | .dereference _ _, isSource | .step _ _ _ _, isSource | .sizeofExpr _ _, isSource
  | .binary _ _ _ _, isSource | .assign _ _ _ _ _, isSource | .subscript _ _ _, isSource
  | .conditional _ _ _ _, isSource | .call _ _ _, isSource => isSource.1
  | .decay _ _, isSource => isSource.elim

/-- A source expression that folds still folds to the same constant once it is checked. -/
theorem check_foldsTo : ∀ (expr : Expr) {value : Const} {context : Context}, expr.IsSource →
    expr.fold? = some value → Yields expr.check context fun expr' _ => expr'.FoldsTo value
  | .constant note own, value, context, _, folds => by
      cases folds
      rw [check]
      exact Ensures.pure ⟨rfl, rfl, own.isArithmetic_type, own.hasType_type⟩
  | .cast note target operand isImplicit, value, context, isSource, folds => by
      simp only [fold?, Option.bind_eq_bind, Option.bind_eq_some_iff] at folds
      rcases folds with ⟨own, operandFolds, converts⟩
      split at converts
      · rename_i arithmetic
        rw [check]
        refine Ensures.bind_any fun _ between => ?_
        refine (value_foldsTo (check_foldsTo operand isSource.2 operandFolds)).bind ?_
        intro operand' after folds'
        unfold ofCast
        refine Ensures.ite (fun _ => Ensures.typeError fun _ _ => trivial) fun _ => ?_
        refine Ensures.ite (fun _ => Ensures.typeError fun _ _ => trivial) fun _ => ?_
        refine Ensures.pure ⟨?_, rfl, arithmetic, Const.hasType_of_convert? converts⟩
        simp [fold?, folds'.folds, arithmetic, converts]
      · cases converts
  | .unary note op operand, value, context, isSource, folds => by
      simp only [fold?, Option.bind_eq_bind, Option.bind_eq_some_iff] at folds
      rcases folds with ⟨own, operandFolds, computes⟩
      rw [check]
      refine (value_foldsTo (check_foldsTo operand isSource.2 operandFolds)).bind ?_
      exact fun operand' _ folds' => folds'.unary_yields computes
  | .binary note op left right, value, context, isSource, folds => by
      simp only [fold?, Option.bind_eq_bind, Option.bind_eq_some_iff] at folds
      rcases folds with ⟨leftValue, leftFolds, rightValue, rightFolds, computes⟩
      rw [check]
      refine (value_foldsTo (check_foldsTo left isSource.2.1 leftFolds)).bind ?_
      intro left' between leftFolds'
      refine (value_foldsTo (check_foldsTo right isSource.2.2 rightFolds)).bind ?_
      exact fun right' _ rightFolds' => leftFolds'.binary_yields rightFolds' computes
  | .conditional note condition thenBranch elseBranch, value, context, isSource, folds => by
      simp only [fold?, Option.bind_eq_bind, Option.bind_eq_some_iff] at folds
      rcases folds with ⟨decision, conditionFolds, thenValue, thenFolds, elseValue, elseFolds,
        computes⟩
      rw [check]
      refine (condition_foldsTo (check_foldsTo condition isSource.2.1 conditionFolds)).bind ?_
      intro condition' first conditionFolds'
      refine (value_foldsTo (check_foldsTo thenBranch isSource.2.2.1 thenFolds)).bind ?_
      intro thenBranch' second thenFolds'
      refine (value_foldsTo (check_foldsTo elseBranch isSource.2.2.2 elseFolds)).bind ?_
      intro elseBranch' after elseFolds'
      exact conditionFolds'.conditional_yields thenFolds' elseFolds' computes
  | .sizeofExpr note operand, value, context, isSource, folds => by
      simp only [fold?, operand.type?_of_isSource isSource.2, Option.bind_eq_bind,
        Option.bind_eq_some_iff] at folds
      rcases folds with ⟨own, operandFolds, computes⟩
      rw [check]
      refine (check_foldsTo operand isSource.2 operandFolds).bind ?_
      intro operand' between folds'
      refine Ensures.bind_any fun _ after => ?_
      have same : Const.sizeof? operand'.type = Const.sizeof? own.type := by
        unfold Const.sizeof?
        rw [folds'.hasType.size_eq folds'.arithmetic,
          CType.isComplete_of_isArithmetic folds'.arithmetic,
          CType.isComplete_of_isArithmetic own.isArithmetic_type]
      refine Ensures.pure ⟨?_, rfl, rfl, ?_⟩
      · simp only [fold?, folds'.typed, same, computes]
      · unfold Const.sizeof? at computes
        split at computes
        · cases computes
          exact Const.hasType_ofSize _
        · cases computes
  | .sizeofType note operand, value, context, isSource, folds => by
      rw [check]
      refine Ensures.bind_any fun _ between => Ensures.bind_any fun _ after => ?_
      refine Ensures.pure ⟨folds, rfl, rfl, ?_⟩
      simp only [fold?, Const.sizeof?] at folds
      split at folds
      · cases folds
        exact Const.hasType_ofSize _
      · cases folds
  | .string _ _, _, _, _, folds | .var _ _, _, _, _, folds | .assign _ _ _ _ _, _, _, _, folds
  | .call _ _ _, _, _, _, folds | .addressOf _ _, _, _, _, folds
  | .dereference _ _, _, _, _, folds | .subscript _ _ _, _, _, _, folds
  | .step _ _ _ _, _, _, _, folds | .decay _ _, _, _, _, folds => by cases folds

end Expr

end SubsetC
