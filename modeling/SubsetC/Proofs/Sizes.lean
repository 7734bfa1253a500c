import SubsetC.Const
import Mathlib.Algebra.Order.Ring.Int
import Mathlib.Tactic.Ring

/-!
# Sizes that do not wrap around

`CType.byteCount` is the size of a type as a number without bounds. A type fits if this number is
within the range of sizes; then it is the size of the type.
-/

namespace SubsetC

theorem Size.wrap_eq_self {value : Int} (lower : -9223372036854775808 ≤ value)
    (upper : value < 9223372036854775808) : Size.wrap value = value :=
  Int.bmod_eq_of_le (by omega) (by omega)

namespace CType

/-- The number of bytes of an object, without bounds. -/
def byteCount : CType → Int
  | .array size element => size * element.byteCount
  | type => type.size

/-- The number of bytes is within the range of sizes. -/
structure Fits (type : CType) : Prop where
  nonneg : 0 ≤ type.byteCount
  lt : type.byteCount < 9223372036854775808

/-- The first of the objects in a row, and the others. -/
theorem add_length_cons_mul {α : Type} (first : α) (rest : List α) (total byteCount : Int) :
    total + (first :: rest).length * byteCount =
      total + byteCount + rest.length * byteCount := by
  rw [List.length_cons]
  push_cast
  ring

/-- An array of characters has as many bytes as elements. -/
theorem byteCount_of_isCharacter {size : Int} {element : CType} (character : element.isCharacter) :
    (array size element).byteCount = size := by
  have oneByte : element.byteCount = 1 := by
    cases element with
    | integer kind => cases kind <;> first | rfl | cases character
    | void | double | pointer | array | function => cases character
  rw [byteCount, oneByte, Int.mul_one]

theorem size_eq_wrap : ∀ type : CType, type.size = Size.wrap type.byteCount
  | .integer kind => by cases kind <;> rfl
  | .void | .function _ _ | .double | .pointer _ => rfl
  | .array size element => by
      rw [CType.size, byteCount, size_eq_wrap element, Size.mul, Size.wrap, Size.wrap,
        Int.mul_bmod_bmod]
      rfl

variable {type item : CType} {size count : Int}

theorem Fits.size_eq (fits : type.Fits) : type.size = type.byteCount := by
  rw [size_eq_wrap]
  exact Size.wrap_eq_self (by have := fits.nonneg; omega) fits.lt

/-- An array that has elements is as large as each of them, or larger. -/
theorem Fits.element (fits : (array size item).Fits) (positive : 0 < size) : item.Fits := by
  have nonneg : 0 ≤ size * item.byteCount := fits.nonneg
  have lt : size * item.byteCount < 9223372036854775808 := fits.lt
  have itemNonneg : 0 ≤ item.byteCount := nonneg_of_mul_nonneg_right nonneg positive
  exact ⟨itemNonneg, lt_of_le_of_lt (le_mul_of_one_le_left itemNonneg positive) lt⟩

/-- An array is made up of some of its elements and the others, however many there are. -/
theorem Fits.split_array (fits : (array size item).Fits) (nonneg : 0 ≤ count)
    (enough : count ≤ size) :
    (array size item).byteCount = count * item.byteCount + (size - count) * item.byteCount ∧
      0 ≤ count * item.byteCount ∧ 0 ≤ (size - count) * item.byteCount ∧
      Size.mul (size - count) item.size = (size - count) * item.byteCount := by
  have parts : size * item.byteCount =
      count * item.byteCount + (size - count) * item.byteCount := by ring
  rcases Int.lt_or_le 0 size with positive | none
  · have itemFits := fits.element positive
    have itemNonneg := itemFits.nonneg
    have lt : size * item.byteCount < 9223372036854775808 := fits.lt
    have first : 0 ≤ count * item.byteCount := Int.mul_nonneg nonneg itemNonneg
    have second : 0 ≤ (size - count) * item.byteCount := Int.mul_nonneg (by omega) itemNonneg
    refine ⟨parts, first, second, ?_⟩
    rw [Size.mul, itemFits.size_eq]
    exact Size.wrap_eq_self (by omega) (by omega)
  · have noElements : size = 0 ∧ count = 0 := by omega
    simp [noElements, byteCount, Size.mul, Size.wrap]

/-- An object that has a size can be aligned. -/
theorem alignment_pos : ∀ {type : CType}, type.isComplete → 0 < type.alignment
  | .integer kind, _ => by cases kind <;> decide
  | .double, _ | .pointer _, _ => by simp [alignment, size]
  | .array _ element, complete => by
      rw [alignment]
      have complete : element.isComplete := complete
      exact alignment_pos complete

/-- Where an aligned object ends, the next one of its type is aligned. -/
theorem alignment_dvd : ∀ type : CType, type.alignment ∣ type.byteCount
  | .array _ element => dvd_mul_of_dvd_right (alignment_dvd element) _
  | .void | .function _ _ | .integer _ | .double | .pointer _ => dvd_refl _

end CType

end SubsetC
