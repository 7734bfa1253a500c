import SubsetC.Proofs.ConstantCode
import Mathlib.Data.Int.Bitwise

/-!
# Exact folding of integers

The constants of every integer type pass through one signed word of eight bytes, and the result is
cut down to the type of the operation. What comes out is the one value of that type that is
congruent to the result on the integers themselves. Division is where the word shows through: the
quotient of the least int by minus one overflows the type but not the word.
-/

namespace SubsetC

/-! ### Operations on the integers -/

namespace ArithOp

/-- The result on the integers. The bitwise operators act on all digits in two's complement. -/
def onIntegers (op : ArithOp) (left right : Int) : Int :=
  match op with
  | .bitAnd => left.land right
  | .bitOr => left.lor right
  | .bitXor => left.xor right
  | op => op.exact left right

/-- The type at which an operation is carried out. -/
def foldType (op : ArithOp) (left right : CType) : CType :=
  if op.isShift then left.promote else left.common right

/-- The digits of a word are the lowest digits of the integer it is made from. -/
theorem getLsbD_ofInt {width : Nat} (number : Int) {index : Nat} (inside : index < width) :
    (BitVec.ofInt width number).getLsbD index = number.testBit index := by
  cases number with
  | ofNat number =>
      rw [Int.ofNat_eq_natCast, BitVec.ofInt_natCast, BitVec.getLsbD_ofNat, decide_eq_true inside,
        Bool.true_and]
      rfl
  | negSucc number =>
      rw [BitVec.ofInt_negSucc_eq_not_ofNat, BitVec.getLsbD_not, BitVec.getLsbD_ofNat,
        decide_eq_true inside, Bool.true_and, Bool.true_and]
      rfl

theorem onWords_eq {onWord : BitVec 64 → BitVec 64 → BitVec 64} {onDigits : Bool → Bool → Bool}
    {left right result : Int}
    (word : ∀ (left right : BitVec 64) (index : Nat),
      (onWord left right).getLsbD index = onDigits (left.getLsbD index) (right.getLsbD index))
    (digits : ∀ index : Nat,
      result.testBit index = onDigits (left.testBit index) (right.testBit index)) :
    onWords onWord left right = result.bmod (2 ^ 64) := by
  have same : onWord (.ofInt 64 left) (.ofInt 64 right) = .ofInt 64 result := by
    refine BitVec.eq_of_getLsbD_eq fun index inside => ?_
    rw [word, getLsbD_ofInt _ inside, getLsbD_ofInt _ inside, getLsbD_ofInt _ inside,
      digits]
  rw [onWords, same, BitVec.toInt_ofInt]

/-- Words of eight bytes are wide enough for every type. -/
theorem wrap_exact (op : ArithOp) (kind : IntType) (left right : Int) :
    kind.wrap (op.exact left right) = kind.wrap (op.onIntegers left right) := by
  cases op with
  | bitAnd =>
      rw [exact, onWords_eq (fun _ _ _ => BitVec.getLsbD_and) (Int.testBit_land left right),
        kind.wrap_bmod, onIntegers]
  | bitOr =>
      rw [exact, onWords_eq (fun _ _ _ => BitVec.getLsbD_or) (Int.testBit_lor left right),
        kind.wrap_bmod, onIntegers]
  | bitXor =>
      rw [exact, onWords_eq (fun _ _ _ => BitVec.getLsbD_xor) (Int.testBit_lxor left right),
        kind.wrap_bmod, onIntegers]
  | _ => rfl

end ArithOp

/-- The result of a unary operator on an integer. -/
def UnaryOp.onInteger (op : UnaryOp) (number : Int) : Int :=
  match op with
  | .negate => -number
  | .complement => -number - 1
  | .plus => number
  | .not => (decide (number = 0)).toInt

/-- The type of the result of a unary operator: that of a truth value for negation of truth, which
compares with zero. -/
def UnaryOp.foldKind (op : UnaryOp) (promoted : IntType) : IntType :=
  if op = .not then .int else promoted

/-! ### The constant of a residue -/

namespace Const

/-- The constant belongs to the type and is congruent to the integer. -/
structure Represents (kind : IntType) (number : Int) (constant : Const) : Prop where
  type_eq : constant.type = .integer kind
  /-- The value of the constant differs from the integer by a multiple of the number of values. -/
  congruent : ∃ own, constant.number? = some own ∧ own ≡ number [ZMOD kind.modulus]

/-- The constant is the one of the type that is congruent to the integer. -/
def IsResidue (kind : IntType) (number : Int) (constant : Const) : Prop :=
  ∀ other : Const, other.Represents kind number ↔ other = constant

variable {kind : IntType} {number : Int} {constant other : Const}

theorem eq_of_number? (sameType : constant.type = other.type)
    (isNumber : constant.number? = some number) (otherIsNumber : other.number? = some number) :
    constant = other := by
  have same : constant.number? = other.number? := isNumber.trans otherIsNumber.symm
  cases constant <;> cases other <;> cases sameType
  case double.double => cases isNumber
  all_goals
    simp only [number?, Option.some.injEq, Nat.cast_inj] at same
    simpa [← Int8.toInt_inj, ← Int32.toInt_inj, ← Int64.toInt_inj, ← UInt8.toNat_inj,
      ← UInt32.toNat_inj, ← UInt64.toNat_inj] using same

theorem number?_eq_wrap (represents : constant.Represents kind number) :
    constant.number? = some (kind.wrap number) := by
  rcases represents with ⟨sameType, own, isOwn, congruent⟩
  have hasKind : constant.type.kind? = some kind := by rw [sameType]; rfl
  rcases exists_number? hasKind with ⟨found, isFound, holds⟩
  cases isOwn.symm.trans isFound
  rw [isOwn, ← IntType.wrap_congr congruent, holds]

theorem Represents.isResidue (represents : constant.Represents kind number) :
    constant.IsResidue kind number := by
  intro other
  constructor
  · intro alsoRepresents
    exact eq_of_number? (alsoRepresents.type_eq.trans represents.type_eq.symm)
      (number?_eq_wrap alsoRepresents) (number?_eq_wrap represents)
  · rintro rfl
    exact represents

theorem Denotes.isResidue (promoted : (CType.integer kind).IsPromoted)
    (denotes : constant.Denotes kind (kind.wrap number)) : constant.IsResidue kind number :=
  Represents.isResidue
    ⟨denotes.type_eq promoted, _, denotes.isNumber, kind.wrap_emod number⟩

theorem isInteger_of_number? (isNumber : constant.number? = some number) :
    constant.type.isInteger := by
  cases constant with
  | double value => cases isNumber
  | _ => rfl

/-- The constant of an integer type that a constant is converted to. -/
theorem exists_denotes (isNumber : constant.number? = some number) {type : CType}
    (integer : type.isInteger) : ∃ kind converted, type = .integer kind ∧
      constant.convert? type = some converted ∧ converted.Denotes kind (kind.wrap number) := by
  cases type with
  | integer kind =>
      have arithmetic : (CType.integer kind).isArithmetic := rfl
      rcases exists_convert? constant arithmetic with ⟨converted, converts⟩
      exact ⟨kind, converted, rfl, converts, .inl (hasType_of_convert? converts),
        number?_convert? isNumber converts⟩
  | _ => cases integer

/-- Promotion does not change the number. -/
theorem wrap_of_promote (isNumber : constant.number? = some number)
    (converts : constant.convert? constant.type.promote = some other)
    (denotes : other.Denotes kind (kind.wrap number)) : kind.wrap number = number := by
  have same := (number?_of_promote converts).trans isNumber
  exact Option.some.inj (denotes.isNumber.symm.trans same)

end Const

/-! ### Operators on constants -/

namespace Const

section Binary

variable {left right : Const} {leftNumber rightNumber : Int}
  (isLeft : left.number? = some leftNumber) (isRight : right.number? = some rightNumber)

include isLeft isRight

/-- The operands at their common type. -/
theorem exists_operands : ∃ kind left' right',
    left.type.common right.type = .integer kind ∧ (CType.integer kind).IsPromoted ∧
      left.convert? (left.type.common right.type) = some left' ∧
      right.convert? (left.type.common right.type) = some right' ∧
      left'.Denotes kind (kind.wrap leftNumber) ∧ right'.Denotes kind (kind.wrap rightNumber) := by
  have integer := CType.isInteger_common (isInteger_of_number? isLeft) (isInteger_of_number? isRight)
  rcases exists_denotes isLeft integer with ⟨kind, left', sameType, convertsLeft, leftDenotes⟩
  rcases exists_denotes isRight integer with ⟨again, right', sameAgain, convertsRight, rightDenotes⟩
  cases CType.integer.inj (sameType.symm.trans sameAgain)
  exact ⟨kind, left', right', sameType, sameType ▸ CType.isPromoted_common _ _, convertsLeft,
    convertsRight, leftDenotes, rightDenotes⟩

theorem arith?_isResidue {op : ArithOp} {value : Const} (noShift : op.isShift = false)
    (computes : arith? op left right = some value) :
    ∃ kind, left.type.common right.type = .integer kind ∧
      value.IsResidue kind (op.onIntegers (kind.wrap leftNumber) (kind.wrap rightNumber)) := by
  rcases exists_operands isLeft isRight with
    ⟨kind, left', right', sameType, promoted, convertsLeft, convertsRight, leftDenotes, rightDenotes⟩
  rw [← arith?_convert? convertsLeft convertsRight noShift] at computes
  rcases leftDenotes.arith? rightDenotes promoted noShift computes with ⟨_, denotes⟩
  rw [op.wrap_exact] at denotes
  exact ⟨kind, sameType, denotes.isResidue promoted⟩

/-- A shift by less than the width is by an amount that the type holds. -/
theorem shift?_isResidue {op : ArithOp} {value : Const} (isLeftward : Bool)
    (isShift : op = if isLeftward then .shiftLeft else .shiftRight)
    (computes : shift? isLeftward left right = some value) :
    ∃ kind, left.type.promote = .integer kind ∧
      value.IsResidue kind (op.onIntegers (kind.wrap leftNumber) (kind.wrap rightNumber)) := by
  rcases exists_denotes isLeft (CType.isInteger_promote (isInteger_of_number? isLeft)) with
    ⟨kind, left', sameType, convertsLeft, leftDenotes⟩
  rcases exists_denotes isRight (CType.isInteger_promote (isInteger_of_number? isRight)) with
    ⟨rightKind, right', _, convertsRight, rightDenotes⟩
  have promoted : (CType.integer kind).IsPromoted := sameType ▸ CType.isPromoted_promote left.type
  rw [← shift?_convert? convertsLeft convertsRight] at computes
  rw [wrap_of_promote isRight convertsRight rightDenotes] at rightDenotes
  rcases leftDenotes.shift? promoted rightDenotes isLeftward isShift computes with
    ⟨defined, denotes⟩
  have amount : 0 ≤ rightNumber ∧ rightNumber < 8 * kind.size := by
    subst isShift
    cases isLeftward <;> simpa [ArithOp.isDefined] using defined
  have sameAmount : kind.wrap rightNumber = rightNumber := by
    cases kind with
    | char | schar | uchar => cases promoted
    | int | uint | long | ulong =>
        simp only [IntType.size] at amount
        simp only [IntType.wrap, IntType.isSigned, IntType.modulus, IntType.size, Int.bmod_def]
        omega
  refine ⟨kind, sameType, ?_⟩
  rw [op.wrap_exact] at denotes
  rw [sameAmount]
  exact denotes.isResidue promoted

/-- Only division, remainder and the shifts may fail. -/
theorem exists_arith? {op : ArithOp} (noShift : op.isShift = false) (noDiv : op ≠ .div)
    (noRem : op ≠ .rem) : ∃ value, arith? op left right = some value := by
  rcases exists_operands isLeft isRight with
    ⟨kind, left', right', sameType, promoted, convertsLeft, convertsRight, _, _⟩
  rw [arith?_eq noShift, convertsLeft, convertsRight, Option.bind_some, Option.bind_some, sameType,
    arithAt?, if_neg (by simp [CType.isDouble])]
  cases op with
  | div => exact absurd rfl noDiv
  | rem => exact absurd rfl noRem
  | shiftLeft | shiftRight => cases noShift
  | _ =>
      split
      all_goals exact ⟨_, rfl⟩

theorem compare?_isResidue (op : CompareOp) : ∃ value kind, compare? op left right = some value ∧
    left.type.common right.type = .integer kind ∧
      value.IsResidue .int (op.holds (kind.wrap leftNumber) (kind.wrap rightNumber)).toInt := by
  rcases exists_operands isLeft isRight with
    ⟨kind, left', right', sameType, promoted, convertsLeft, convertsRight, leftDenotes, rightDenotes⟩
  have folds : ∃ value, compare? op left' right' = some value := by
    rw [compare?_convert? convertsLeft convertsRight]
    simp only [compare?, convertsLeft, convertsRight, Option.bind_eq_bind, Option.bind_some]
    repeat' split
    all_goals exact ⟨_, rfl⟩
  rcases folds with ⟨value, computes⟩
  have denotes := leftDenotes.compare? rightDenotes promoted computes
  rw [← IntType.holds_toInt .int] at denotes
  rw [compare?_convert? convertsLeft convertsRight] at computes
  exact ⟨value, kind, computes, sameType, denotes.isResidue rfl⟩

end Binary

theorem exists_unary? {operand converted : Const} (op : UnaryOp)
    (promotes : operand.type.promote = .integer kind)
    (converts : operand.convert? operand.type.promote = some converted)
    (isNumber : converted.number? = some number) : ∃ value, unary? op operand = some value := by
  cases op with
  | not => exact ⟨_, rfl⟩
  | plus => exact ⟨_, converts⟩
  | negate =>
      rw [promotes] at converts
      simp only [unary?, converts, promotes, Option.bind_eq_bind, Option.bind_some]
      cases converted with
      | double value => cases isNumber
      | _ => exact ⟨_, rfl⟩
  | complement =>
      rw [promotes] at converts
      simp only [unary?, converts, promotes, Option.bind_eq_bind, Option.bind_some]
      exact ⟨_, rfl⟩

theorem unary?_isResidue {operand : Const} (isNumber : operand.number? = some number)
    (op : UnaryOp) : ∃ value kind, unary? op operand = some value ∧
      operand.type.promote = .integer kind ∧
      value.IsResidue (op.foldKind kind) (op.onInteger (kind.wrap number)) := by
  have integer := isInteger_of_number? isNumber
  rcases exists_denotes isNumber (CType.isInteger_promote integer) with
    ⟨kind, converted, promotes, converts, denotes⟩
  have promoted : (CType.integer kind).IsPromoted := promotes ▸ CType.isPromoted_promote operand.type
  rcases exists_unary? op promotes converts denotes.isNumber with ⟨value, computes⟩
  refine ⟨value, kind, computes, promotes, ?_⟩
  by_cases isNot : op = .not
  · subst isNot
    cases computes
    rcases CType.exists_kind integer with ⟨own, sameType⟩
    have isOwn : operand.Denotes own number := ⟨.inl (sameType ▸ operand.hasType_type), isNumber⟩
    have truth := Denotes.ofBool (decide (number = 0))
    rw [← IntType.holds_toInt .int] at truth
    rw [wrap_of_promote isNumber converts denotes, isOwn.isZero_eq]
    exact truth.isResidue rfl
  · rw [← unary?_convert? isNot converts] at computes
    have result := denotes.unary? promoted isNot computes
    have wraps : op.apply kind (kind.wrap number) = kind.wrap (op.onInteger (kind.wrap number)) := by
      cases op with
      | not => exact absurd rfl isNot
      | plus => exact (kind.wrap_wrap number).symm
      | negate | complement => rfl
    rw [wraps] at result
    rw [UnaryOp.foldKind, if_neg isNot]
    exact result.isResidue promoted

end Const

/-! ### Division -/

namespace IntType

variable {kind : IntType}

instance (kind : IntType) (number : Int) : Decidable (kind.Holds number) :=
  inferInstanceAs (Decidable (kind.wrap number = number))

/-- The only quotient that leaves a type is that of the least value by minus one. -/
theorem holds_tdiv_iff {left right : Int} (holdsLeft : kind.Holds left)
    (holdsRight : kind.Holds right) : kind.Holds (left.tdiv right) ↔
      ¬(kind.isSigned ∧ left = -(kind.modulus / 2 : Int) ∧ right = -1) := by
  rw [holds_iff] at holdsLeft holdsRight ⊢
  cases isSigned : kind.isSigned with
  | false =>
      have small := Int.natAbs_tdiv_le_natAbs left right
      simp only [isSigned, Bool.false_eq_true, if_false, false_and, not_false_eq_true,
        iff_true] at holdsLeft holdsRight ⊢
      have nonneg := Int.tdiv_nonneg holdsLeft.1 holdsRight.1
      omega
  | true =>
      simp only [isSigned, if_true, true_and] at holdsLeft ⊢
      by_cases isUnit : right = 0 ∨ right = 1 ∨ right = -1
      · rcases isUnit with rfl | rfl | rfl
        · simp only [Int.tdiv_zero]
          omega
        · simp only [Int.tdiv_one]
          omega
        · simp only [Int.reduceNeg, Int.tdiv_neg, Int.tdiv_one, and_true]
          omega
      · have halved : (left.tdiv right).natAbs ≤ left.natAbs / 2 := by
          rw [Int.natAbs_tdiv]
          exact Nat.div_le_div_left (by omega) (by omega)
        omega

end IntType

namespace Const

variable {kind : IntType} {left right : Const} {leftNumber rightNumber : Int}

/-- The guard of a division is on words: only at the width of a word does it keep the quotient from
leaving the type. -/
theorem divide_eq_none_iff (leftDenotes : left.Denotes kind leftNumber)
    (rightDenotes : right.Denotes kind rightNumber) (promoted : (CType.integer kind).IsPromoted)
    {op : ArithOp} (divides : op = .div ∨ op = .rem) : arith? op left right = none ↔
      rightNumber = 0 ∨ (kind.isSigned ∧ leftNumber = -2 ^ 63 ∧ rightNumber = -1) := by
  have leftType := leftDenotes.type_eq promoted
  have rightType := rightDenotes.type_eq promoted
  have noShift : op.isShift = false := by rcases divides with rfl | rfl <;> rfl
  rw [arith?_eq noShift, leftType, rightType, CType.common_self promoted,
    leftDenotes.convert?_eq promoted, rightDenotes.convert?_eq promoted, Option.bind_some,
    Option.bind_some, arithAt?, if_neg (by simp [CType.isDouble])]
  by_cases isSigned : kind.isSigned
  · have leftSame := toInt_toInt64_of_isSigned leftDenotes.isNumber (by rwa [leftType])
    have rightSame := toInt_toInt64_of_isSigned rightDenotes.isNumber (by rwa [rightType])
    rw [if_pos (show (CType.integer kind).isSigned from isSigned)]
    have guard : (right.toInt64 = 0 ∨ right.toInt64 = -1 ∧ left.toInt64 = Int64.minValue) ↔
        rightNumber = 0 ∨ (kind.isSigned ∧ leftNumber = -2 ^ 63 ∧ rightNumber = -1) := by
      rw [← leftSame, ← rightSame]
      simp [← Int64.toInt_inj, isSigned, and_comm]
    rw [← guard]
    rcases divides with rfl | rfl <;> simp [arithSigned?, ofInt64?, or_iff_not_imp_left]
  · have isUnsigned : right.type.isSigned = false := by
      rw [rightType]
      exact Bool.eq_false_iff.2 isSigned
    have rightSame := toNat_toUInt64_of_isUnsigned rightDenotes.isNumber isUnsigned
    rw [if_neg (show ¬(CType.integer kind).isSigned from isSigned)]
    have guard : right.toUInt64 = 0 ↔ rightNumber = 0 := by
      rw [← rightSame, ← UInt64.toNat_inj]
      simp
    rcases divides with rfl | rfl <;> simp [arithUnsigned?, ofInt64?, guard, isSigned]

/-- Whatever integer constants fold to is the one constant of the type of the operation that is
congruent to the result on the converted operands, taken on the integers. -/
theorem folds_exactly {left right : Const} {leftNumber rightNumber : Int}
    (isLeft : left.number? = some leftNumber) (isRight : right.number? = some rightNumber) :
    (∀ op value, binary? (.arith op) left right = some value →
      ∃ kind, op.foldType left.type right.type = .integer kind ∧
        value.IsResidue kind (op.onIntegers (kind.wrap leftNumber) (kind.wrap rightNumber))) ∧
    (∀ op : ArithOp, op.isShift = false → op ≠ .div → op ≠ .rem →
      ∃ value, binary? (.arith op) left right = some value) ∧
    (∀ op : CompareOp, ∃ value kind, binary? (.compare op) left right = some value ∧
      left.type.common right.type = .integer kind ∧
        value.IsResidue .int (op.holds (kind.wrap leftNumber) (kind.wrap rightNumber)).toInt) ∧
    (∀ op : UnaryOp, ∃ value kind, unary? op left = some value ∧
      left.type.promote = .integer kind ∧
        value.IsResidue (op.foldKind kind) (op.onInteger (kind.wrap leftNumber))) := by
  refine ⟨?_, fun _ => exists_arith? isLeft isRight, compare?_isResidue isLeft isRight,
    unary?_isResidue isLeft⟩
  intro op value computes
  cases op with
  | shiftLeft => exact shift?_isResidue isLeft isRight true rfl computes
  | shiftRight => exact shift?_isResidue isLeft isRight false rfl computes
  | _ => exact arith?_isResidue isLeft isRight rfl computes

/-- The least int divided by an unsigned long: it is converted to a large number first. -/
theorem folds_exactly_large_dividend : ∃ kind,
    ArithOp.foldType .div .int .ulong = .integer kind ∧
      (Const.ulong 6148914690520689322).IsResidue kind
        (ArithOp.onIntegers .div (kind.wrap (-2147483648)) (kind.wrap 3)) := by
  have isLeft : (Const.int (-2147483648)).number? = some (-2147483648) := by decide
  have isRight : (Const.ulong 3).number? = some 3 := by decide
  exact (folds_exactly isLeft isRight).1 .div _ (by decide)

/-- Whether a division or remainder folds, with the guard as it is: at int, where the quotient of
the least value by minus one leaves the type, it folds all the same. -/
theorem division_folds_iff {left right : Const} {leftNumber rightNumber : Int} {kind : IntType}
    {op : ArithOp} (isLeft : left.number? = some leftNumber)
    (isRight : right.number? = some rightNumber)
    (common : left.type.common right.type = .integer kind) (divides : op = .div ∨ op = .rem) :
    (binary? (.arith op) left right = none ↔ kind.wrap rightNumber = 0 ∨
      (kind ≠ .int ∧ ¬kind.Holds ((kind.wrap leftNumber).tdiv (kind.wrap rightNumber)))) ∧
    (kind = .int → ¬kind.Holds ((kind.wrap leftNumber).tdiv (kind.wrap rightNumber)) →
      binary? (.arith op) left right =
        some (if op = .div then .int (-2147483648) else .int 0)) := by
  have noShift : op.isShift = false := by rcases divides with rfl | rfl <;> rfl
  rcases exists_operands isLeft isRight with
    ⟨own, left', right', sameType, promoted, convertsLeft, convertsRight, leftDenotes, rightDenotes⟩
  cases CType.integer.inj (common.symm.trans sameType)
  have overflows := not_congr (IntType.holds_tdiv_iff (kind.holds_wrap leftNumber)
    (kind.holds_wrap rightNumber))
  rw [not_not] at overflows
  have same : binary? (.arith op) left right = arith? op left' right' :=
    (arith?_convert? convertsLeft convertsRight noShift).symm
  have fails := divide_eq_none_iff leftDenotes rightDenotes promoted divides
  rw [same, fails, overflows]
  constructor
  · cases kind with
    | char | schar | uchar => cases promoted
    | int =>
        have bounds := (IntType.holds_iff _ _).1 (IntType.int.holds_wrap leftNumber)
        simp [IntType.isSigned, IntType.modulus, IntType.size] at bounds ⊢
        omega
    | long => simp [IntType.isSigned, IntType.modulus, IntType.size]
    | uint | ulong => simp [IntType.isSigned]
  · rintro rfl ⟨-, isLeast, isMinusOne⟩
    have leastLeft : left' = .int (-2147483648) :=
      eq_of_number? (leftDenotes.type_eq promoted) leftDenotes.isNumber (isLeast ▸ rfl)
    have oneRight : right' = .int (-1) :=
      eq_of_number? (rightDenotes.type_eq promoted) rightDenotes.isNumber (isMinusOne ▸ rfl)
    subst leastLeft oneRight
    rcases divides with rfl | rfl <;> decide

/-- The least value by minus one: the guard stops it at long, and lets it through at int. -/
theorem division_folds_iff_least_values :
    binary? (.arith .div) (.int (-2147483648)) (.int (-1)) = some (.int (-2147483648)) ∧
      binary? (.arith .rem) (.long Int64.minValue) (.int (-1)) = none := by
  have least : (Const.int (-2147483648)).number? = some (-2147483648) := by decide
  have leastLong : (Const.long Int64.minValue).number? = some (-9223372036854775808) := by decide
  have minusOne : (Const.int (-1)).number? = some (-1) := by decide
  constructor
  · exact (division_folds_iff least minusOne rfl (.inl rfl)).2 rfl (by decide)
  · exact (division_folds_iff leastLong minusOne rfl (.inr rfl)).1.2 (.inr ⟨by decide, by decide⟩)

end Const

end SubsetC
