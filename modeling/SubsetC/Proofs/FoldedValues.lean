import SubsetC.Proofs.Folding
import SubsetC.Proofs.ExprSimulation

/-!
# Folded constants are values

Folding computes with words of eight bytes and cuts the result down to its type, while an
expression has its value at the type of each operator. The two agree: wherever folding gives a
constant, the operators are defined, and the value of the expression is the number of the constant.
-/

namespace SubsetC

/-! ### Words -/

namespace IntType

variable (kind : IntType)

theorem wrap_emod_word (number : Int) : kind.wrap (number % 2 ^ 64) = kind.wrap number := by
  have narrow : kind.size ≤ IntType.ulong.size := kind.size_le_eight
  exact wrap_wrap_of_le narrow number

/-- An unsigned word and its signed reading are congruent. -/
theorem wrap_toInt_toInt64 (word : UInt64) : kind.wrap word.toInt64.toInt = kind.wrap word.toNat := by
  have isNumber : (Const.ulong word).number? = some (word.toNat : Int) := rfl
  exact Const.wrap_toInt64 isNumber kind

end IntType

namespace ArithOp

variable {op : ArithOp} {kind : IntType}

/-- Arithmetic on signed words is exact up to a multiple of the number of words. -/
theorem wrap_arithSigned? {left right word : Int64}
    (computes : Const.arithSigned? op left right = some word) :
    op.isDefined kind right.toInt ∧
      kind.wrap word.toInt = kind.wrap (op.exact left.toInt right.toInt) := by
  cases op with
  | add =>
      cases computes
      exact ⟨rfl, by rw [Int64.toInt_add, kind.wrap_bmod, exact]⟩
  | sub =>
      cases computes
      exact ⟨rfl, by rw [Int64.toInt_sub, kind.wrap_bmod, exact]⟩
  | mul =>
      cases computes
      exact ⟨rfl, by rw [Int64.toInt_mul, kind.wrap_bmod, exact]⟩
  | div =>
      simp only [Const.arithSigned?] at computes
      split at computes
      · cases computes
      · rename_i defined
        cases computes
        refine ⟨?_, by rw [Int64.toInt_div, kind.wrap_bmod, exact]⟩
        have notZero : right ≠ 0 := fun isZero => defined (.inl isZero)
        simpa [isDefined, ← Int64.toInt_inj] using notZero
  | rem =>
      simp only [Const.arithSigned?] at computes
      split at computes
      · cases computes
      · rename_i defined
        cases computes
        refine ⟨?_, by rw [Int64.toInt_mod, exact]⟩
        have notZero : right ≠ 0 := fun isZero => defined (.inl isZero)
        simpa [isDefined, ← Int64.toInt_inj] using notZero
  | bitAnd | bitOr | bitXor =>
      cases computes
      refine ⟨rfl, ?_⟩
      simp only [exact, onWords, ← Int64.toInt_toBitVec, BitVec.ofInt_toInt]
      rfl
  | shiftLeft | shiftRight => cases computes

/-- Arithmetic on unsigned words is exact up to a multiple of the number of words. -/
theorem wrap_arithUnsigned? {left right word : UInt64}
    (computes : Const.arithUnsigned? op left right = some word) :
    op.isDefined kind right.toNat ∧
      kind.wrap word.toNat = kind.wrap (op.exact left.toNat right.toNat) := by
  cases op with
  | add =>
      cases computes
      refine ⟨rfl, ?_⟩
      rw [UInt64.toNat_add, exact]
      push_cast
      exact kind.wrap_emod_word _
  | sub =>
      cases computes
      refine ⟨rfl, ?_⟩
      have bound := right.toNat_lt
      rw [UInt64.toNat_sub, exact, ← kind.wrap_emod_word (left.toNat - right.toNat)]
      congr 1
      omega
  | mul =>
      cases computes
      refine ⟨rfl, ?_⟩
      rw [UInt64.toNat_mul, exact]
      push_cast
      exact kind.wrap_emod_word _
  | div =>
      simp only [Const.arithUnsigned?] at computes
      split at computes
      · cases computes
      · rename_i notZero
        cases computes
        refine ⟨?_, by rw [UInt64.toNat_div, exact]; rfl⟩
        simpa [isDefined, ← UInt64.toNat_inj] using notZero
  | rem =>
      simp only [Const.arithUnsigned?] at computes
      split at computes
      · cases computes
      · rename_i notZero
        cases computes
        refine ⟨?_, by rw [UInt64.toNat_mod, exact]; rfl⟩
        simpa [isDefined, ← UInt64.toNat_inj] using notZero
  | bitAnd | bitOr | bitXor =>
      cases computes
      refine ⟨rfl, ?_⟩
      have word : ∀ value : UInt64, BitVec.ofInt 64 value.toNat = value.toBitVec := by
        intro value
        rw [BitVec.ofInt_natCast, ← UInt64.toNat_toBitVec, BitVec.ofNat_toNat, BitVec.setWidth_eq]
      rw [← kind.wrap_toInt_toInt64]
      simp only [exact, onWords, word]
      rfl
  | shiftLeft | shiftRight => cases computes

/-- The amount of a shift by less than the width of a word. -/
theorem toNat_smod_amount {amount : Int64} (low : 0 ≤ amount.toInt) (high : amount.toInt < 64) :
    (amount.toBitVec.smod 64).toNat = amount.toInt.toNat := by
  have same : (amount.toBitVec.smod 64).toInt = amount.toInt := by
    rw [BitVec.toInt_smod, Int64.toInt_toBitVec]
    exact Int.fmod_eq_of_lt low high
  rw [← same, BitVec.toInt_eq_toNat_cond]
  rw [BitVec.toInt_eq_toNat_cond] at same
  split at same
  · rw [if_pos (by assumption)]
    simp
  · omega

theorem wrap_shiftLeft {value amount : Int64} (low : 0 ≤ amount.toInt) (high : amount.toInt < 64) :
    kind.wrap (value <<< amount).toInt = kind.wrap (exact .shiftLeft value.toInt amount.toInt) := by
  have same : (value <<< amount).toInt =
      ((value.toBitVec.toNat * 2 ^ amount.toInt.toNat : Nat) : Int).bmod (2 ^ 64) := by
    rw [← Int64.toInt_toBitVec, Int64.toBitVec_shiftLeft, BitVec.shiftLeft_eq',
      toNat_smod_amount low high, BitVec.toInt_shiftLeft, Nat.shiftLeft_eq]
  rw [same, kind.wrap_bmod, exact, ← kind.wrap_bmod (value.toInt * _), ← Int64.toInt_toBitVec value,
    BitVec.toInt_eq_toNat_bmod, Int.bmod_mul_bmod, kind.wrap_bmod]
  push_cast
  rfl

theorem toInt_shiftRight {value amount : Int64} (low : 0 ≤ amount.toInt)
    (high : amount.toInt < 64) :
    (value >>> amount).toInt = exact .shiftRight value.toInt amount.toInt := by
  rw [← Int64.toInt_toBitVec, Int64.toBitVec_shiftRight, BitVec.sshiftRight_eq',
    toNat_smod_amount low high, BitVec.toInt_sshiftRight, Int.shiftRight_eq_div_pow, exact,
    Int64.toInt_toBitVec]
  push_cast
  rfl

theorem toNat_shiftRight {value amount : Int64} (low : 0 ≤ amount.toInt)
    (high : amount.toInt < 64) :
    ((value.toUInt64 >>> amount.toUInt64).toNat : Int) =
      exact .shiftRight value.toUInt64.toNat amount.toInt := by
  have same : (amount.toUInt64.toNat : Int) = amount.toInt := by
    rw [Const.toNat_toUInt64, Int.emod_eq_of_lt low (by omega)]
  have small : amount.toUInt64.toNat % 64 = amount.toInt.toNat := by omega
  rw [UInt64.toNat_shiftRight, small, Nat.shiftRight_eq_div_pow, exact]
  push_cast
  rfl

end ArithOp

/-! ### Constants -/

theorem IntType.modEq_of_wrap {kind : IntType} {first second : Int}
    (same : kind.wrap first = kind.wrap second) : first ≡ second [ZMOD kind.modulus] := by
  rw [Int.ModEq, ← kind.wrap_emod first, same, kind.wrap_emod]

namespace Const

/-- The constant of an integer type stands for a number. -/
structure Denotes (kind : IntType) (number : Int) (constant : Const) : Prop where
  /-- The constant is built as those of the type, or of the promoted type, to which folding converts
  the branches of a conditional. -/
  hasType : constant.HasType (.integer kind) ∨ constant.HasType (CType.integer kind).promote
  isNumber : constant.number? = some number

variable {kind leftKind rightKind : IntType} {number leftNumber rightNumber : Int}
  {constant left right value : Const}

theorem toInt_toInt64_of_isSigned (isNumber : constant.number? = some number)
    (isSigned : constant.type.isSigned) : constant.toInt64.toInt = number := by
  cases constant with
  | char value | int value | long value =>
      cases isNumber
      simp [toInt64]
  | uchar value | uint value | ulong value => cases isSigned
  | double value => cases isNumber

theorem toNat_toUInt64_of_isUnsigned (isNumber : constant.number? = some number)
    (isUnsigned : constant.type.isSigned = false) : (constant.toUInt64.toNat : Int) = number := by
  cases constant with
  | uchar value | uint value | ulong value =>
      cases isNumber
      simp [toUInt64, toInt64]
  | char value | int value | long value | double value => cases isUnsigned

/-- A word that is not negative is the number itself. -/
theorem toInt_toInt64_of_nonneg (isNumber : constant.number? = some number)
    (nonneg : 0 ≤ constant.toInt64.toInt) : constant.toInt64.toInt = number := by
  by_cases isSigned : constant.type.isSigned
  · exact toInt_toInt64_of_isSigned isNumber isSigned
  · rw [← toNat_toUInt64_of_isUnsigned isNumber (by simpa using isSigned), toUInt64,
      toNat_toUInt64, Int.emod_eq_of_lt nonneg]
    have bound := constant.toInt64.toInt_lt
    omega

/-- The integer promotion keeps the number of a constant. -/
theorem number?_of_promote (converts : constant.convert? constant.type.promote = some value) :
    value.number? = constant.number? := by
  have sameWord := toInt64_of_promote converts
  cases constant with
  | char _ =>
      cases converts
      simp [number?, ofInt64, toInt64]
  | uchar word =>
      have sameType : value.type = .int := type_of_convert? rfl rfl converts
      have isNumber : (uchar word).number? = some (word.toNat : Int) := rfl
      have hasKind : value.type.kind? = some IntType.int := by rw [sameType]; rfl
      rcases exists_number? hasKind with ⟨number, found, _⟩
      rw [found, isNumber, ← toInt_toInt64_of_isSigned found (by rw [sameType]; rfl), sameWord,
        toInt_toInt64_uchar]
  | _ =>
      cases converts.symm.trans (convert?_type _)
      rfl

namespace Denotes

theorem ofInt64? {word : Int64} (found : Const.ofInt64? word (.integer kind) = some value) :
    value.Denotes kind (kind.wrap word.toInt) := by
  cases found
  exact ⟨.inl (hasType_of_ofInt64? rfl), number?_ofInt64 word kind⟩

theorem ofBool (value : Bool) : (Const.ofBool value).Denotes .int value.toInt :=
  ⟨.inl (hasType_ofBool value), number?_ofBool value⟩

theorem convert? (denotes : constant.Denotes leftKind number)
    (converts : constant.convert? (.integer kind) = some value) :
    value.Denotes kind (kind.wrap number) :=
  ⟨.inl (hasType_of_convert? converts), number?_convert? denotes.isNumber converts⟩

theorem isZero_eq (denotes : constant.Denotes kind number) :
    constant.isZero = decide (number = 0) := by
  have isNumber := denotes.isNumber
  have asWord : constant.isZero = decide (constant.toInt64 = 0) := by
    cases constant with
    | double value => cases isNumber
    | _ => rfl
  rw [asWord, decide_eq_decide, ← Int64.toInt_inj, Int64.toInt_zero]
  by_cases isSigned : constant.type.isSigned
  · rw [toInt_toInt64_of_isSigned isNumber isSigned]
  · have asNat := toNat_toUInt64 constant.toInt64
    have same := toNat_toUInt64_of_isUnsigned isNumber (by simpa using isSigned)
    have low := constant.toInt64.le_toInt
    have high := constant.toInt64.toInt_lt
    rw [toUInt64] at same
    omega

/-- At a promoted type, the type of the constant is the type itself. -/
theorem type_eq (denotes : constant.Denotes kind number)
    (promoted : (CType.integer kind).IsPromoted) : constant.type = .integer kind := by
  rcases denotes.hasType with hasType | hasType
  · exact hasType.type_eq rfl promoted
  · rw [promoted] at hasType
    exact hasType.type_eq rfl promoted

theorem promote_eq (denotes : constant.Denotes kind number) :
    constant.type.promote = (CType.integer kind).promote := by
  have promoted := CType.isPromoted_promote (.integer kind)
  rcases denotes.hasType with hasType | hasType
  · exact hasType.promote_eq rfl
  · rw [hasType.promote_eq (CType.isArithmetic_promote rfl), promoted]

theorem convert?_eq (denotes : constant.Denotes kind number)
    (promoted : (CType.integer kind).IsPromoted) :
    constant.convert? (.integer kind) = some constant := by
  rw [← denotes.type_eq promoted]
  exact constant.convert?_type

theorem promote? (denotes : constant.Denotes kind number)
    (converts : constant.convert? (CType.integer kind).promote = some value) :
    value.Denotes kind number := by
  have same : value.number? = constant.number? :=
    number?_of_promote (denotes.promote_eq ▸ converts)
  exact ⟨.inr (hasType_of_convert? converts), same.trans denotes.isNumber⟩

/-- A unary operator other than negation of truth, at the promoted type of its operand. -/
theorem unary? (denotes : constant.Denotes kind number)
    (promoted : (CType.integer kind).IsPromoted) {op : UnaryOp} (notNot : op ≠ .not)
    (computes : Const.unary? op constant = some value) :
    value.Denotes kind (op.apply kind number) := by
  have samePromote : constant.type.promote = .integer kind := by
    rw [denotes.type_eq promoted, promoted]
  have converts := denotes.convert?_eq promoted
  have congruent := IntType.modEq_of_wrap (wrap_toInt64 denotes.isNumber kind)
  cases op with
  | not => exact absurd rfl notNot
  | plus =>
      simp only [Const.unary?, samePromote, converts] at computes
      cases computes
      exact denotes
  | negate =>
      simp only [Const.unary?, samePromote, converts, Option.bind_eq_bind, Option.bind_some]
        at computes
      have found : Const.ofInt64? (-constant.toInt64) (.integer kind) = some value := by
        cases constant with
        | double _ => cases denotes.isNumber
        | _ => exact computes
      have result := Denotes.ofInt64? found
      rw [Int64.toInt_neg, kind.wrap_bmod, IntType.wrap_congr congruent.neg] at result
      exact result
  | complement =>
      simp only [Const.unary?, samePromote, converts, Option.bind_eq_bind, Option.bind_some,
        CType.isDouble, if_neg, Bool.false_eq_true, not_false_eq_true] at computes
      have result := Denotes.ofInt64? computes
      rw [Int64.toInt_not, kind.wrap_bmod, IntType.wrap_congr (congruent.neg.sub_right 1)] at result
      exact result

/-- A shift that folds is by less than the width of its type. -/
theorem shift? (leftDenotes : left.Denotes kind leftNumber)
    (promoted : (CType.integer kind).IsPromoted) (rightDenotes : right.Denotes rightKind rightNumber)
    {op : ArithOp} (isLeft : Bool) (isShift : op = if isLeft then .shiftLeft else .shiftRight)
    (computes : Const.shift? isLeft left right = some value) :
    op.isDefined kind rightNumber ∧
      value.Denotes kind (kind.wrap (op.exact leftNumber rightNumber)) := by
  have sameType := leftDenotes.type_eq promoted
  have samePromote : left.type.promote = .integer kind := by rw [sameType, promoted]
  have converts := leftDenotes.convert?_eq promoted
  have congruent := IntType.modEq_of_wrap (wrap_toInt64 leftDenotes.isNumber kind)
  simp only [Const.shift?, samePromote, converts, Option.bind_eq_bind, Option.bind_some] at computes
  split at computes
  · cases computes
  · split at computes
    · cases computes
    · rename_i inRange
      simp only [not_or, Int64.not_lt, Int64.le_iff_toInt_le, Int64.toInt_zero, not_le] at inRange
      rcases inRange with ⟨low, high⟩
      have narrow := kind.size_le_eight
      have below : right.toInt64.toInt < 8 * kind.size :=
        lt_of_lt_of_eq high (Int.mul_comm kind.size 8)
      rw [← toInt_toInt64_of_nonneg rightDenotes.isNumber low]
      cases isLeft with
      | true =>
          subst isShift
          refine ⟨by simpa [ArithOp.isDefined] using ⟨low, below⟩, ?_⟩
          have result := Denotes.ofInt64? computes
          rw [ArithOp.wrap_shiftLeft low (by omega)] at result
          have same := IntType.wrap_congr (congruent.mul_right (2 ^ right.toInt64.toInt.toNat))
          simp only [ArithOp.exact, same] at result
          exact result
      | false =>
          subst isShift
          refine ⟨by simpa [ArithOp.isDefined] using ⟨low, below⟩, ?_⟩
          simp only [Bool.false_eq_true, if_false] at computes
          split at computes
          · rename_i isSigned
            have result := Denotes.ofInt64? computes
            rw [ArithOp.toInt_shiftRight low (by omega),
              toInt_toInt64_of_isSigned leftDenotes.isNumber (by rwa [sameType])] at result
            exact result
          · rename_i isUnsigned
            have result := Denotes.ofInt64? computes
            rw [IntType.wrap_toInt_toInt64, toUInt64, ArithOp.toNat_shiftRight low (by omega),
              ← toUInt64, toNat_toUInt64_of_isUnsigned leftDenotes.isNumber
                (by simpa [sameType] using isUnsigned)] at result
            exact result

/-- Arithmetic on operands of one promoted type. -/
theorem arith? (leftDenotes : left.Denotes kind leftNumber)
    (rightDenotes : right.Denotes kind rightNumber) (promoted : (CType.integer kind).IsPromoted)
    {op : ArithOp} (noShift : op.isShift = false)
    (computes : Const.arith? op left right = some value) :
    op.isDefined kind rightNumber ∧
      value.Denotes kind (kind.wrap (op.exact leftNumber rightNumber)) := by
  have leftType := leftDenotes.type_eq promoted
  have rightType := rightDenotes.type_eq promoted
  have leftConverts := leftDenotes.convert?_eq promoted
  have rightConverts := rightDenotes.convert?_eq promoted
  rw [arith?_eq noShift, leftType, rightType, CType.common_self promoted, leftConverts,
    rightConverts, Option.bind_some, Option.bind_some, arithAt?, if_neg (by simp [CType.isDouble])]
    at computes
  split at computes
  · rename_i isSigned
    rcases Option.bind_eq_some_iff.1 computes with ⟨word, found, ofWord⟩
    have result := Denotes.ofInt64? ofWord
    rcases ArithOp.wrap_arithSigned? found with ⟨defined, same⟩
    rw [toInt_toInt64_of_isSigned rightDenotes.isNumber (by rwa [rightType])] at defined same
    rw [same, toInt_toInt64_of_isSigned leftDenotes.isNumber (by rwa [leftType])] at result
    exact ⟨defined, result⟩
  · rename_i isUnsigned
    rcases Option.bind_eq_some_iff.1 computes with ⟨word, found, ofWord⟩
    have result := Denotes.ofInt64? ofWord
    rcases ArithOp.wrap_arithUnsigned? found with ⟨defined, same⟩
    rw [toNat_toUInt64_of_isUnsigned rightDenotes.isNumber (by simpa [rightType] using isUnsigned)]
      at defined same
    rw [IntType.wrap_toInt_toInt64, same, toNat_toUInt64_of_isUnsigned leftDenotes.isNumber
      (by simpa [leftType] using isUnsigned)] at result
    exact ⟨defined, result⟩

/-- A comparison of operands of one promoted type. -/
theorem compare? (leftDenotes : left.Denotes kind leftNumber)
    (rightDenotes : right.Denotes kind rightNumber) (promoted : (CType.integer kind).IsPromoted)
    {op : CompareOp} (computes : Const.compare? op left right = some value) :
    value.Denotes .int (op.holds leftNumber rightNumber).toInt := by
  have leftType := leftDenotes.type_eq promoted
  have rightType := rightDenotes.type_eq promoted
  have leftConverts := leftDenotes.convert?_eq promoted
  have rightConverts := rightDenotes.convert?_eq promoted
  simp only [Const.compare?, leftType, rightType, CType.common_self promoted, leftConverts,
    rightConverts, Option.bind_eq_bind, Option.bind_some] at computes
  rw [if_neg (by simp [CType.isDouble])] at computes
  split at computes
  · rename_i isSigned
    cases computes
    have leftSame := toInt_toInt64_of_isSigned leftDenotes.isNumber (by rwa [leftType])
    have rightSame := toInt_toInt64_of_isSigned rightDenotes.isNumber (by rwa [rightType])
    have same : compareSigned op left.toInt64 right.toInt64 = op.holds leftNumber rightNumber := by
      rw [← leftSame, ← rightSame]
      cases op <;> simp [compareSigned, CompareOp.holds, Int64.lt_iff_toInt_lt,
        Int64.le_iff_toInt_le, ← Int64.toInt_inj]
    rw [same]
    exact .ofBool _
  · rename_i isUnsigned
    cases computes
    have leftSame := toNat_toUInt64_of_isUnsigned leftDenotes.isNumber
      (by simpa [leftType] using isUnsigned)
    have rightSame := toNat_toUInt64_of_isUnsigned rightDenotes.isNumber
      (by simpa [rightType] using isUnsigned)
    have same : compareUnsigned op left.toUInt64 right.toUInt64 =
        op.holds leftNumber rightNumber := by
      rw [← leftSame, ← rightSame]
      cases op <;> simp [compareUnsigned, CompareOp.holds, UInt64.lt_iff_toNat_lt,
        UInt64.le_iff_toNat_le, ← UInt64.toNat_inj]
    rw [same]
    exact .ofBool _

end Denotes

end Const

/-! ### Expressions -/

theorem ArithOp.apply_of_isDefined {gaps : Gaps} {op : ArithOp} {kind : IntType} {left right : Int}
    (defined : op.isDefined kind right) :
    op.apply gaps kind left right = some (kind.wrap (op.exact left right)) := if_pos defined

namespace Expr

/-- The value of the expression is the number of a constant, whatever the store. -/
def IsConstantly (kind : IntType) (value : Const) (expr : Expr) : Prop :=
  ∃ number, value.Denotes kind number ∧ ∀ gaps store, expr.eval? gaps store = some number

theorem arith_isConstantly {note : Note} {op : ArithOp} {left right : Expr}
    {leftKind rightKind : IntType} {leftValue rightValue value : Const} {result : CType}
    (types : op.HasTypes (.integer leftKind) (.integer rightKind) result)
    (resultType : note.knownType = result) (leftConstant : left.IsConstantly leftKind leftValue)
    (rightConstant : right.IsConstantly rightKind rightValue)
    (computes : Const.arith? op leftValue rightValue = some value) :
    (Expr.binary note (.arith op) left right).IsConstantly leftKind value := by
  rcases leftConstant with ⟨leftNumber, leftDenotes, leftEvaluates⟩
  rcases rightConstant with ⟨rightNumber, rightDenotes, rightEvaluates⟩
  have same := resultType.trans (exists_kind_of_arith types)
  have applies : op.isDefined leftKind rightNumber ∧
      value.Denotes leftKind (leftKind.wrap (op.exact leftNumber rightNumber)) := by
    cases types with
    | shift isShift _ promoted _ _ =>
        cases op with
        | shiftLeft => exact leftDenotes.shift? promoted rightDenotes true rfl computes
        | shiftRight => exact leftDenotes.shift? promoted rightDenotes false rfl computes
        | _ => cases isShift
    | arithmetic noShift _ promoted _ =>
        exact leftDenotes.arith? rightDenotes promoted noShift computes
    | offset _ complete => cases complete
    | offsetOf complete => cases complete
    | difference complete => cases complete
  refine ⟨_, applies.2, ?_⟩
  intro gaps store
  simp only [eval?, same, CType.kind?, leftEvaluates, rightEvaluates, Option.bind_eq_bind,
    Option.bind_some, ArithOp.apply_of_isDefined applies.1]

theorem compare_isConstantly {note : Note} {op : CompareOp} {left right : Expr} {kind : IntType}
    {leftValue rightValue value : Const} (promoted : (CType.integer kind).IsPromoted)
    (leftConstant : left.IsConstantly kind leftValue)
    (rightConstant : right.IsConstantly kind rightValue)
    (computes : Const.compare? op leftValue rightValue = some value) :
    (Expr.binary note (.compare op) left right).IsConstantly .int value := by
  rcases leftConstant with ⟨leftNumber, leftDenotes, leftEvaluates⟩
  rcases rightConstant with ⟨rightNumber, rightDenotes, rightEvaluates⟩
  refine ⟨_, leftDenotes.compare? rightDenotes promoted computes, ?_⟩
  intro gaps store
  simp only [eval?, leftEvaluates, rightEvaluates, Option.bind_eq_bind, Option.bind_some]

theorem logic_isConstantly {note : Note} {op : LogicOp} {left right : Expr}
    {leftKind rightKind : IntType} {leftValue rightValue value : Const}
    (leftConstant : left.IsConstantly leftKind leftValue)
    (rightConstant : right.IsConstantly rightKind rightValue)
    (computes : Const.binary? (.logic op) leftValue rightValue = some value) :
    (Expr.binary note (.logic op) left right).IsConstantly .int value := by
  rcases leftConstant with ⟨leftNumber, leftDenotes, leftEvaluates⟩
  rcases rightConstant with ⟨rightNumber, rightDenotes, rightEvaluates⟩
  cases op with
  | and =>
      cases computes
      refine ⟨_, .ofBool _, ?_⟩
      intro gaps store
      simp only [eval?, leftEvaluates, rightEvaluates, Option.bind_eq_bind, Option.bind_some,
        leftDenotes.isZero_eq, rightDenotes.isZero_eq]
      by_cases isZero : leftNumber = 0
      · simp [isZero]
      · simp [isZero, bne, BEq.beq]
  | or =>
      cases computes
      refine ⟨_, .ofBool _, ?_⟩
      intro gaps store
      simp only [eval?, leftEvaluates, rightEvaluates, Option.bind_eq_bind, Option.bind_some,
        leftDenotes.isZero_eq, rightDenotes.isZero_eq]
      by_cases isZero : leftNumber = 0
      · simp [isZero, bne, BEq.beq]
      · simp [isZero]

theorem unary_isConstantly {note : Note} {op : UnaryOp} {operand : Expr}
    {operandKind kind : IntType} {operandValue value : Const}
    (types : op.HasTypes (.integer operandKind) (.integer kind))
    (resultType : note.knownType = .integer kind)
    (constant : operand.IsConstantly operandKind operandValue)
    (computes : Const.unary? op operandValue = some value) :
    (Expr.unary note op operand).IsConstantly kind value := by
  rcases constant with ⟨number, denotes, evaluates⟩
  have applies : value.Denotes kind (op.apply kind number) := by
    cases types with
    | not =>
        cases computes
        rw [denotes.isZero_eq]
        exact .ofBool _
    | complement _ promoted => exact denotes.unary? promoted (by simp) computes
    | sign isSign _ promoted =>
        exact denotes.unary? promoted (by rcases isSign with rfl | rfl <;> simp) computes
  refine ⟨_, applies, ?_⟩
  intro gaps store
  simp only [eval?, resultType, CType.kind?, evaluates, Option.bind_eq_bind, Option.bind_some]

/-- Both branches are converted to their common type, which they have already. -/
theorem conditional_isConstantly {note : Note} {condition thenBranch elseBranch : Expr}
    {conditionKind kind : IntType} {decision thenValue elseValue value : Const}
    (conditionConstant : condition.IsConstantly conditionKind decision)
    (thenConstant : thenBranch.IsConstantly kind thenValue)
    (elseConstant : elseBranch.IsConstantly kind elseValue)
    (computes : (if decision.isZero then elseValue.convert? (thenValue.type.common elseValue.type)
      else thenValue.convert? (thenValue.type.common elseValue.type)) = some value) :
    (Expr.conditional note condition thenBranch elseBranch).IsConstantly kind value := by
  rcases conditionConstant with ⟨number, denotes, evaluates⟩
  rcases thenConstant with ⟨thenNumber, thenDenotes, thenEvaluates⟩
  rcases elseConstant with ⟨elseNumber, elseDenotes, elseEvaluates⟩
  have common : thenValue.type.common elseValue.type = (CType.integer kind).promote := by
    have promoted := CType.isPromoted_promote (.integer kind)
    rw [← CType.common_self promoted]
    exact CType.common_congr (thenDenotes.promote_eq.trans promoted.symm)
      (elseDenotes.promote_eq.trans promoted.symm)
  rw [common, denotes.isZero_eq] at computes
  by_cases isZero : number = 0
  · refine ⟨elseNumber, elseDenotes.promote? (by simpa [isZero] using computes), ?_⟩
    intro gaps store
    simp [eval?, evaluates, elseEvaluates, isZero]
  · refine ⟨thenNumber, thenDenotes.promote? (by simpa [isZero] using computes), ?_⟩
    intro gaps store
    simp [eval?, evaluates, thenEvaluates, isZero]

theorem type?_of_explicit {table : SymbolTable} (expr : Expr) (explicit : expr.Explicit table) :
    expr.type? = some expr.type := by
  cases expr <;> exact explicit.1.typed

theorem sizeof_isConstantly {expr : Expr} {type : CType} {value : Const}
    (evaluates : ∀ gaps store, expr.eval? gaps store = some (IntType.ulong.wrap type.size))
    (computes : Const.sizeof? type = some value) : expr.IsConstantly .ulong value := by
  unfold Const.sizeof? at computes
  split at computes
  · cases computes
    exact ⟨_, ⟨.inl (Const.hasType_ofSize _), Const.number?_ofSize _⟩, evaluates⟩
  · cases computes

/-- Whatever a pure expression folds to is its value. -/
theorem isConstantly_of_fold? {table : SymbolTable} : ∀ (expr : Expr) {kind : IntType}
    {value : Const}, expr.Explicit table → expr.isPure → expr.type = .integer kind →
    expr.fold? = some value → expr.IsConstantly kind value
  | .constant note own, kind, value, explicit, isPure, sameType, folds => by
      cases folds
      have sameType : own.type = .integer kind := explicit.2.symm.trans sameType
      have hasKind : own.type.kind? = some kind := by rw [sameType]; rfl
      rcases Const.exists_number? hasKind with ⟨number, found, _⟩
      exact ⟨number, ⟨.inl (sameType ▸ own.hasType_type), found⟩, fun _ _ => found⟩
  | .unary note op operand, kind, value, explicit, isPure, sameType, folds => by
      simp only [fold?, Option.bind_eq_bind, Option.bind_eq_some_iff] at folds
      rcases folds with ⟨operandValue, operandFolds, computes⟩
      rcases exists_kind operand explicit.2.1 isPure with ⟨operandKind, operandType⟩
      have sameType : note.knownType = .integer kind := sameType
      have types := explicit.2.2
      rw [operandType, sameType] at types
      exact unary_isConstantly types sameType
        (isConstantly_of_fold? operand explicit.2.1 isPure operandType operandFolds) computes
  | .binary note op left right, kind, value, explicit, isPure, sameType, folds => by
      simp only [fold?, Option.bind_eq_bind, Option.bind_eq_some_iff] at folds
      rcases folds with ⟨leftValue, leftFolds, rightValue, rightFolds, computes⟩
      simp only [Expr.isPure, Bool.and_eq_true] at isPure
      rcases exists_kind left explicit.2.1 isPure.1 with ⟨leftKind, leftType⟩
      rcases exists_kind right explicit.2.2.1 isPure.2 with ⟨rightKind, rightType⟩
      have leftConstant := isConstantly_of_fold? left explicit.2.1 isPure.1 leftType leftFolds
      have rightConstant := isConstantly_of_fold? right explicit.2.2.1 isPure.2 rightType rightFolds
      have types := explicit.2.2.2
      rw [leftType, rightType] at types
      -- The type of the result is set apart for the cases on what the operator takes and gives.
      generalize resultType : note.knownType = result at types
      cases types with
      | arith types =>
          have sameKind := sameType.symm.trans (resultType.trans (exists_kind_of_arith types))
          cases sameKind
          exact arith_isConstantly types resultType leftConstant rightConstant computes
      | compareArithmetic _ promoted =>
          cases sameType.symm.trans resultType
          exact compare_isConstantly promoted leftConstant rightConstant computes
      | comparePointers isPointer => cases isPointer
      | logic =>
          cases sameType.symm.trans resultType
          exact logic_isConstantly leftConstant rightConstant computes
  | .conditional note condition thenBranch elseBranch, kind, value, explicit, isPure, sameType,
      folds => by
      simp only [fold?, Option.bind_eq_bind, Option.bind_eq_some_iff] at folds
      rcases folds with ⟨decision, conditionFolds, thenValue, thenFolds, elseValue, elseFolds,
        computes⟩
      simp only [Expr.isPure, Bool.and_eq_true] at isPure
      rcases exists_kind condition explicit.2.1 isPure.1.1 with ⟨conditionKind, conditionType⟩
      exact conditional_isConstantly
        (isConstantly_of_fold? condition explicit.2.1 isPure.1.1 conditionType conditionFolds)
        (isConstantly_of_fold? thenBranch explicit.2.2.1 isPure.1.2
          (explicit.2.2.2.2.2.1.trans sameType) thenFolds)
        (isConstantly_of_fold? elseBranch explicit.2.2.2.1 isPure.2
          (explicit.2.2.2.2.2.2.1.trans sameType) elseFolds) computes
  | .cast note target operand _, kind, value, explicit, isPure, sameType, folds => by
      simp only [fold?, Option.bind_eq_bind, Option.bind_eq_some_iff] at folds
      rcases folds with ⟨operandValue, operandFolds, computes⟩
      simp only [Expr.isPure, Bool.and_eq_true] at isPure
      rcases exists_kind operand explicit.2.1 isPure.2 with ⟨operandKind, operandType⟩
      rcases isConstantly_of_fold? operand explicit.2.1 isPure.2 operandType operandFolds with
        ⟨number, denotes, evaluates⟩
      have sameTarget : target = .integer kind := explicit.2.2.1.symm.trans sameType
      subst sameTarget
      rw [if_pos (by rfl)] at computes
      refine ⟨kind.wrap number, denotes.convert? computes, ?_⟩
      intro gaps store
      simp only [eval?, CType.kind?, evaluates, Option.bind_eq_bind, Option.bind_some]
  | .sizeofExpr note operand, kind, value, explicit, _, sameType, folds => by
      cases sameType.symm.trans explicit.2.2.2
      simp only [fold?, operand.type?_of_explicit explicit.2.1] at folds
      exact sizeof_isConstantly (fun _ _ => rfl) folds
  | .sizeofType note operand, kind, value, explicit, _, sameType, folds => by
      cases sameType.symm.trans explicit.2.2
      exact sizeof_isConstantly (fun _ _ => rfl) folds
  | .var _ _, _, _, _, _, _, folds | .string _ _, _, _, _, _, _, folds
  | .assign _ _ _ _ _, _, _, _, _, _, folds | .call _ _ _, _, _, _, _, _, folds
  | .addressOf _ _, _, _, _, _, _, folds | .dereference _ _, _, _, _, _, _, folds
  | .subscript _ _ _, _, _, _, _, _, folds | .step _ _ _ _, _, _, _, _, _, folds
  | .decay _ _, _, _, _, _, _, folds => by cases folds

end Expr

end SubsetC
