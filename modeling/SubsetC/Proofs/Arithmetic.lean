import SubsetC.Instruction
import Mathlib.Data.Int.ModEq

/-!
# Integer arithmetic

The meaning of the operators on integer types. A value of an integer type is a number in the range
of the type, and every operation wraps its exact result around to that range in two's complement.
Trees and machines share these definitions; what they do not share is where the type of an
operation comes from.

C gives no result to a division by zero and to a shift by too many bits. What happens then is left
to a parameter: it may give any number, or none, in which case nothing is executed any more.
-/

namespace SubsetC

namespace IntType

/-- The number of values of an integer type. -/
def modulus (kind : IntType) : Nat := 2 ^ (8 * kind.size)

/-- The value of an integer type that is congruent to a number. -/
def wrap (kind : IntType) (number : Int) : Int :=
  if kind.isSigned then number.bmod kind.modulus else number % kind.modulus

/-- The number is a value of the integer type. -/
def Holds (kind : IntType) (number : Int) : Prop := kind.wrap number = number

theorem wrap_emod (kind : IntType) (number : Int) :
    kind.wrap number % kind.modulus = number % kind.modulus := by
  unfold wrap
  split
  · exact Int.bmod_emod
  · exact Int.emod_emod_of_dvd _ (dvd_refl _)

theorem wrap_congr {kind : IntType} {left right : Int}
    (same : left % kind.modulus = right % kind.modulus) : kind.wrap left = kind.wrap right := by
  unfold wrap
  split
  · rw [← Int.emod_bmod, same, Int.emod_bmod]
  · exact same

theorem modulus_dvd {narrow wide : IntType} (le : narrow.size ≤ wide.size) :
    narrow.modulus ∣ wide.modulus := by
  unfold modulus
  exact Nat.pow_dvd_pow 2 (Nat.mul_le_mul_left 8 le)

/-- Wrapping to a wider type first makes no difference. -/
theorem wrap_wrap_of_le {narrow wide : IntType} (le : narrow.size ≤ wide.size) (number : Int) :
    narrow.wrap (wide.wrap number) = narrow.wrap number := by
  have dvd : (narrow.modulus : Int) ∣ wide.modulus := Int.natCast_dvd_natCast.2 (modulus_dvd le)
  apply wrap_congr
  rw [← Int.emod_emod_of_dvd _ dvd, wrap_emod, Int.emod_emod_of_dvd _ dvd]

theorem wrap_wrap (kind : IntType) (number : Int) :
    kind.wrap (kind.wrap number) = kind.wrap number :=
  wrap_wrap_of_le (Nat.le_refl _) number

theorem holds_wrap (kind : IntType) (number : Int) : kind.Holds (kind.wrap number) :=
  kind.wrap_wrap number

/-- The values of a type are those in its range. -/
theorem holds_iff (kind : IntType) (number : Int) : kind.Holds number ↔
    if kind.isSigned then -(kind.modulus / 2 : Int) ≤ number ∧ number < kind.modulus / 2
    else 0 ≤ number ∧ number < kind.modulus := by
  cases kind <;>
    simp only [Holds, wrap, isSigned, modulus, size, Int.bmod_def, if_true, Bool.false_eq_true,
      if_false] <;> omega

/-- Types of the same size and sign have the same values. -/
theorem wrap_eq_wrap {left right : IntType} (size : left.size = right.size)
    (sign : left.isSigned = right.isSigned) (number : Int) : left.wrap number = right.wrap number := by
  unfold wrap modulus
  rw [size, sign]

theorem size_le_eight (kind : IntType) : kind.size ≤ 8 := by
  cases kind <;> decide

/-- A word of eight bytes determines the value of every integer type. -/
theorem wrap_bmod (kind : IntType) (number : Int) :
    kind.wrap (number.bmod (2 ^ 64)) = kind.wrap number := by
  have narrow : kind.size ≤ IntType.long.size := kind.size_le_eight
  exact wrap_wrap_of_le narrow number

theorem holds_toInt (kind : IntType) (value : Bool) : kind.Holds value.toInt := by
  cases value <;> cases kind <;> rfl

end IntType

/-- The kind of an integer type. -/
def CType.kind? : CType → Option IntType
  | .integer kind => some kind
  | _ => none

/-! ### Constants -/

namespace Const

/-- The number an integer constant stands for. -/
def number? : Const → Option Int
  | .char value => some value.toInt
  | .uchar value => some value.toNat
  | .int value => some value.toInt
  | .uint value => some value.toNat
  | .long value => some value.toInt
  | .ulong value => some value.toNat
  | .double _ => none

theorem toNat_toUInt64 (value : Int64) : (value.toUInt64.toNat : Int) = value.toInt % 2 ^ 64 := by
  have asWord : value.toInt = (value.toUInt64.toNat : Int).bmod (2 ^ 64) :=
    BitVec.toInt_eq_toNat_bmod value.toBitVec
  have bound := value.toUInt64.toNat_lt
  rw [asWord, Int.bmod_eq_emod]
  split <;> omega

theorem number?_ofInt64 (value : Int64) (kind : IntType) :
    (ofInt64 value kind).number? = some (kind.wrap value.toInt) := by
  have unsigned := toNat_toUInt64 value
  cases kind with
  | char | schar =>
      simp [ofInt64, number?, IntType.wrap, IntType.modulus, IntType.isSigned, IntType.size]
  | int =>
      simp [ofInt64, number?, IntType.wrap, IntType.modulus, IntType.isSigned, IntType.size]
  | long =>
      have bounds := value.le_toInt
      have bounds := value.toInt_lt
      simp only [ofInt64, number?, IntType.wrap, IntType.modulus, IntType.isSigned, IntType.size,
        if_true]
      rw [Int.bmod_eq_of_le (by omega) (by omega)]
  | uchar | uint | ulong =>
      simp only [ofInt64, number?, IntType.wrap, IntType.modulus, IntType.isSigned, IntType.size,
        UInt64.toNat_toUInt8, UInt64.toNat_toUInt32]
      simp
      omega

/-- An integer constant is a value of its type. -/
theorem exists_number? {constant : Const} {kind : IntType}
    (hasKind : constant.type.kind? = some kind) :
    ∃ number, constant.number? = some number ∧ kind.Holds number := by
  have viaWord : ∀ value : Int64, ofInt64 value kind = constant →
      ∃ number, constant.number? = some number ∧ kind.Holds number := by
    rintro value rfl
    exact ⟨_, number?_ofInt64 value kind, kind.holds_wrap _⟩
  cases constant with
  | char value =>
      cases hasKind
      exact viaWord value.toInt64 (by simp [ofInt64])
  | uchar value =>
      cases hasKind
      exact viaWord value.toUInt64.toInt64 (by simp [ofInt64])
  | int value =>
      cases hasKind
      exact viaWord value.toInt64 (by simp [ofInt64])
  | uint value =>
      cases hasKind
      exact viaWord value.toUInt64.toInt64 (by simp [ofInt64])
  | long value =>
      cases hasKind
      exact viaWord value rfl
  | ulong value =>
      cases hasKind
      exact viaWord value.toInt64 (by simp [ofInt64])
  | double value => cases hasKind

/-- The word of an integer constant is congruent to its number. -/
theorem wrap_toInt64 {constant : Const} {number : Int} (isNumber : constant.number? = some number)
    (kind : IntType) : kind.wrap constant.toInt64.toInt = kind.wrap number := by
  have ofWord : ∀ value : UInt64, kind.wrap value.toInt64.toInt = kind.wrap value.toNat := by
    intro value
    have asWord : value.toInt64.toInt = (value.toNat : Int).bmod (2 ^ 64) :=
      BitVec.toInt_eq_toNat_bmod value.toBitVec
    rw [asWord, IntType.wrap_bmod]
  cases constant with
  | char value | int value | long value =>
      cases isNumber
      simp [toInt64]
  | uchar value | uint value =>
      cases isNumber
      simpa [toInt64] using ofWord value.toUInt64
  | ulong value =>
      cases isNumber
      exact ofWord value
  | double value => cases isNumber

theorem number?_convert? {constant converted : Const} {number : Int} {kind : IntType}
    (isNumber : constant.number? = some number)
    (converts : constant.convert? (.integer kind) = some converted) :
    converted.number? = some (kind.wrap number) := by
  unfold convert? at converts
  split at converts
  · rename_i sameType
    cases converts
    have hasKind : constant.type.kind? = some kind := by simp [sameType, CType.kind?]
    rcases exists_number? hasKind with ⟨own, isOwn, holds⟩
    cases isNumber.symm.trans isOwn
    rw [isOwn, holds]
  · rw [if_neg (by simp [CType.isDouble])] at converts
    cases constant with
    | double value => cases isNumber
    | _ =>
        cases converts
        rw [number?_ofInt64, wrap_toInt64 isNumber]

theorem number?_ofSize (size : Size) : (ofSize size).number? = some (IntType.ulong.wrap size) := by
  have viaWord := number?_ofInt64 (Int64.ofInt size) .ulong
  rw [Int64.toInt_ofInt] at viaWord
  exact viaWord.trans (congrArg some (IntType.wrap_bmod .ulong size))

theorem number?_ofBool (value : Bool) : (ofBool value).number? = some value.toInt := by
  cases value <;> rfl

end Const

/-! ### Operators -/

/-- What is executed for an operation on operands for which C defines no result: it gives a number,
or stops. -/
abbrev Gaps := ArithOp → IntType → (left right : Int) → Option Int

namespace ArithOp

/-- Whether C defines the result: no division by zero, and no shift by a negative amount or by at
least the width of the type. -/
def isDefined (op : ArithOp) (kind : IntType) (right : Int) : Bool :=
  match op with
  | .div | .rem => right ≠ 0
  | .shiftLeft | .shiftRight => 0 ≤ right ∧ right < 8 * kind.size
  | _ => true

/-- A bitwise operation on numbers, as words of eight bytes. -/
def onWords (op : BitVec 64 → BitVec 64 → BitVec 64) (left right : Int) : Int :=
  (op (.ofInt 64 left) (.ofInt 64 right)).toInt

/-- The result before it is wrapped around. Division truncates toward zero, and a shift to the right
keeps the sign. -/
def exact (op : ArithOp) (left right : Int) : Int :=
  match op with
  | .add => left + right
  | .sub => left - right
  | .mul => left * right
  | .div => left.tdiv right
  | .rem => left.tmod right
  | .bitAnd => onWords (· &&& ·) left right
  | .bitOr => onWords (· ||| ·) left right
  | .bitXor => onWords (· ^^^ ·) left right
  | .shiftLeft => left * 2 ^ right.toNat
  | .shiftRight => left / 2 ^ right.toNat

/-- The result of an operation at an integer type. -/
def apply (gaps : Gaps) (op : ArithOp) (kind : IntType) (left right : Int) : Option Int :=
  if op.isDefined kind right then some (kind.wrap (op.exact left right))
  else (gaps op kind left right).map kind.wrap

theorem holds_of_apply {gaps : Gaps} {op : ArithOp} {kind : IntType} {left right number : Int}
    (applies : op.apply gaps kind left right = some number) : kind.Holds number := by
  unfold apply at applies
  split at applies
  · cases applies
    exact kind.holds_wrap _
  · rcases Option.map_eq_some_iff.1 applies with ⟨given, _, rfl⟩
    exact kind.holds_wrap given

end ArithOp

/-- The truth of a comparison. -/
def CompareOp.holds (op : CompareOp) (left right : Int) : Bool :=
  match op with
  | .less => left < right
  | .lessEqual => left ≤ right
  | .greater => right < left
  | .greaterEqual => right ≤ left
  | .equal => left = right
  | .notEqual => left ≠ right

end SubsetC
