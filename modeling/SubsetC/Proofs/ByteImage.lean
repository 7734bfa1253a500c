import SubsetC.Lowering.Stmt
import SubsetC.Proofs.Sizes
import Mathlib.Tactic.NormNum

/-!
# Bytes of objects

What constants, items of static initializers and code leave in memory, byte by byte. A constant
lies there with its least significant byte first. Code that only writes constants to an object
turns the bytes of the object into others; `Code.Writes` says that it replaces a part of them and
leaves the rest alone, and `writeBytes_writes` that a string is written as it is, whatever the words
it is cut into.
-/

namespace SubsetC

/-! ### Constants -/

namespace Text

/-- A number of bytes of a number, the least significant first. -/
def ofWord : (width number : Nat) → Text
  | 0, _ => []
  | width + 1, number => UInt8.ofNat number :: ofWord width (number / 256)

@[simp]
theorem length_ofWord (width number : Nat) : (ofWord width number).length = width := by
  induction width generalizing number with
  | zero => rfl
  | succ width ih => simp [ofWord, ih]

@[simp]
theorem ofWord_zero (width : Nat) : ofWord width 0 = List.replicate width 0 := by
  induction width with
  | zero => rfl
  | succ width ih => simp [ofWord, ih, List.replicate_succ]

theorem littleEndian_lt (bytes : Text) : bytes.littleEndian < 256 ^ bytes.length := by
  induction bytes with
  | nil => exact Nat.one_pos
  | cons byte bytes ih =>
      have bound := byte.toNat_lt
      rw [littleEndian, List.length_cons, Nat.pow_succ]
      omega

theorem ofWord_littleEndian (bytes : Text) : ofWord bytes.length bytes.littleEndian = bytes := by
  induction bytes with
  | nil => rfl
  | cons byte bytes ih =>
      have bound := byte.toNat_lt
      have first : UInt8.ofNat (byte.toNat + 256 * littleEndian bytes) = byte := by
        rw [← UInt8.toNat_inj, UInt8.toNat_ofNat']
        omega
      have rest : (byte.toNat + 256 * littleEndian bytes) / 256 = littleEndian bytes := by omega
      rw [littleEndian, List.length_cons, ofWord, first, rest, ih]

end Text

namespace Const

/-- The word in which a constant is represented. -/
def word : Const → Nat
  | .char value => value.toUInt8.toNat
  | .uchar value => value.toNat
  | .int value => value.toUInt32.toNat
  | .uint value => value.toNat
  | .long value => value.toUInt64.toNat
  | .ulong value => value.toNat
  | .double value => value.bits.toNat

/-- The bytes of a constant in memory. -/
def bytes (constant : Const) : Text := Text.ofWord constant.type.size.toNat constant.word

theorem size_type_nonneg (constant : Const) : (0 : Int) ≤ constant.type.size := by
  cases constant <;> simp [type, CType.size, IntType.size]

theorem length_bytes (constant : Const) : (constant.bytes.length : Int) = constant.type.size := by
  rw [bytes, Text.length_ofWord]
  exact Int.toNat_of_nonneg constant.size_type_nonneg

/-- Every word of memory is that of the constant it is read as. -/
theorem bytes_ofWord {word : Text}
    (width : word.length = 8 ∨ word.length = 4 ∨ word.length = 1) : (ofWord word).bytes = word := by
  have bound := word.littleEndian_lt
  have inverse := word.ofWord_littleEndian
  rcases width with width | width | width
  · rw [width] at bound inverse
    have same : (Int64.ofNat word.littleEndian).toUInt64.toNat = word.littleEndian :=
      Nat.mod_eq_of_lt bound
    simp only [ofWord, width, if_true]
    exact (congrArg (Text.ofWord 8) same).trans inverse
  · rw [width] at bound inverse
    have same : (Int32.ofNat word.littleEndian).toUInt32.toNat = word.littleEndian :=
      Nat.mod_eq_of_lt bound
    simp only [ofWord, width, if_true]
    exact (congrArg (Text.ofWord 4) same).trans inverse
  · rw [width] at bound inverse
    have same : (Int8.ofNat word.littleEndian).toUInt8.toNat = word.littleEndian :=
      Nat.mod_eq_of_lt bound
    simp only [ofWord, width]
    exact (congrArg (Text.ofWord 1) same).trans inverse

theorem word_of_toInt64 {constant : Const} (noDouble : constant.type.isDouble = false)
    (zero : constant.toInt64 = 0) : constant.word = 0 := by
  have signed := congrArg Int64.toInt zero
  have unsigned := congrArg Int64.toUInt64 zero
  cases constant with
  | char value =>
      rw [toInt64, Int8.toInt_toInt64] at signed
      have same : value = 0 := Int8.toInt_inj.1 signed
      rw [same]
      rfl
  | int value =>
      rw [toInt64, Int32.toInt_toInt64] at signed
      have same : value = 0 := Int32.toInt_inj.1 signed
      rw [same]
      rfl
  | long value =>
      rw [toInt64] at zero
      rw [zero]
      rfl
  | uchar | uint | ulong =>
      rw [toInt64, UInt64.toUInt64_toInt64] at unsigned
      exact congrArg UInt64.toNat unsigned
  | double => cases noDouble

/-- A zero has no bit set, unless it is negative. -/
theorem bytes_of_isZero {constant : Const} (zero : constant.isZero)
    (positive : constant.isNegativeZero = false) :
    constant.bytes = List.replicate constant.type.size.toNat 0 := by
  have noWord : constant.word = 0 := by
    cases constant with
    | double value =>
        have noMagnitude : value.magnitude = 0 := of_decide_eq_true zero
        have noSign : ¬Double.signBit ≤ value.bits.toNat := by
          simpa [isNegativeZero, Double.isZero, noMagnitude, Double.isNegative] using positive
        rw [Double.magnitude, Nat.mod_eq_of_lt (Nat.lt_of_not_le noSign)] at noMagnitude
        exact noMagnitude
    | char | uchar | int | uint | long | ulong => exact word_of_toInt64 rfl (of_decide_eq_true zero)
  rw [bytes, noWord, Text.ofWord_zero]

end Const

/-! ### Static items -/

namespace StaticItem

/-- The bytes of an item. Those of an address are not known before the program is linked. -/
def bytes? : StaticItem → Option Text
  | .scalar value => some value.bytes
  | .zero size => some (List.replicate size.toNat 0)
  | .string bytes terminated => some (bytes ++ if terminated then [0] else [])
  | .pointer _ => none

/-- The bytes of items that lie one after the other. -/
def image? : List StaticItem → Option Text
  | [] => some []
  | item :: items => do
    let bytes ← item.bytes?
    pure (bytes ++ (← image? items))

theorem image?_append {first second : List StaticItem} {image : Text} :
    image? (first ++ second) = some image ↔
      ∃ left right, image? first = some left ∧ image? second = some right ∧
        image = left ++ right := by
  induction first generalizing image with
  | nil => simp [image?, eq_comm]
  | cons item items ih =>
      simp only [List.cons_append, image?, Option.bind_eq_bind, Option.bind_eq_some_iff,
        Option.pure_def, Option.some.injEq]
      constructor
      · rintro ⟨bytes, isBytes, rest, isRest, rfl⟩
        rcases ih.1 isRest with ⟨left, right, isLeft, isRight, rfl⟩
        exact ⟨bytes ++ left, right, ⟨bytes, isBytes, left, isLeft, rfl⟩, isRight, by simp⟩
      · rintro ⟨_, right, ⟨bytes, isBytes, left, isLeft, rfl⟩, isRight, rfl⟩
        exact ⟨bytes, isBytes, left ++ right, ih.2 ⟨left, right, isLeft, isRight, rfl⟩, by simp⟩

theorem image?_concat {items : List StaticItem} {item : StaticItem} {image : Text} :
    image? (items ++ [item]) = some image ↔
      ∃ left right, image? items = some left ∧ item.bytes? = some right ∧
        image = left ++ right := by
  rw [image?_append]
  simp [image?]

end StaticItem

/-! ### Code -/

namespace Text

/-- The bytes of an object with some of them overwritten from an offset on, if they lie within the
object. -/
def write? (memory : Text) (offset : Size) (bytes : Text) : Option Text :=
  if 0 ≤ offset ∧ offset + bytes.length ≤ memory.length then
    some (memory.take offset.toNat ++ bytes ++ memory.drop (offset.toNat + bytes.length))
  else none

theorem write?_append {front old bytes : Text} (same : old.length = bytes.length) (rest : Text) :
    write? (front ++ old ++ rest) front.length bytes = some (front ++ bytes ++ rest) := by
  have inside : (0 : Int) ≤ front.length ∧
      (front.length : Int) + bytes.length ≤ ((front ++ old ++ rest).length : Nat) := by
    simp only [List.length_append, same]
    omega
  rw [write?, if_pos inside, Int.toNat_natCast, ← same, ← List.length_append, List.drop_left',
    List.append_assoc front old, List.take_left']
  · rfl
  · rfl

end Text

/-- The bytes of an object after an instruction that writes a constant to the object or a part of
it; other instructions are not among those that initialize the object. -/
def Instruction.overwrite? (name memory : Text) : Instruction → Option Text
  | .copy (.constant value) (.var target) =>
    if target = name then memory.write? 0 value.bytes else none
  | .copyToOffset (.constant value) target offset =>
    if target = name then memory.write? offset value.bytes else none
  | _ => none

namespace Code

/-- The bytes of an object after code that writes constants to it. -/
def overwrite? (name : Text) : Code → Text → Option Text
  | [], memory => some memory
  | instruction :: code, memory => do overwrite? name code (← instruction.overwrite? name memory)

theorem overwrite?_append {name memory middle : Text} {first second : Code}
    (runs : overwrite? name first memory = some middle) :
    overwrite? name (first ++ second) memory = overwrite? name second middle := by
  induction first generalizing memory with
  | nil =>
      cases runs
      rfl
  | cons instruction code ih =>
      simp only [overwrite?, Option.bind_eq_bind, Option.bind_eq_some_iff] at runs
      rcases runs with ⟨between, head, tail⟩
      simp [overwrite?, head, ih tail]

/-- The code replaces the bytes of an object from an offset on by others, and only those. -/
def Writes (name : Text) (offset : Int) (bytes : Text) (code : Code) : Prop :=
  ∀ front old rest : Text, (front.length : Int) = offset → old.length = bytes.length →
    code.overwrite? name (front ++ old ++ rest) = some (front ++ bytes ++ rest)

namespace Writes

variable {name bytes more : Text} {offset : Int} {first second : Code}

theorem nil : Writes name offset [] [] := by
  intro front old rest _ same
  simp [List.length_eq_zero_iff.1 same, overwrite?]

theorem append (left : first.Writes name offset bytes)
    (right : second.Writes name (offset + bytes.length) more) :
    Writes name offset (bytes ++ more) (first ++ second) := by
  intro front old rest start same
  rw [List.length_append] at same
  have short : (old.take bytes.length).length = bytes.length := by simp [same]
  have long : (old.drop bytes.length).length = more.length := by simp [same]
  have run := left front (old.take bytes.length) (old.drop bytes.length ++ rest) start short
  have next := right (front ++ bytes) (old.drop bytes.length) rest (by simp [start]) long
  rw [← List.append_assoc, List.append_assoc front, List.take_append_drop] at run
  rw [overwrite?_append run, ← List.append_assoc, next, List.append_assoc front]

/-- One constant, written to a part of the object. -/
theorem copyToOffset (name : Text) (offset : Int) (value : Const) :
    Writes name offset value.bytes [.copyToOffset (.constant value) name offset] := by
  intro front old rest start same
  have written : Text.write? (front ++ old ++ rest) front.length value.bytes =
      some (front ++ value.bytes ++ rest) := Text.write?_append same rest
  rw [start] at written
  simp only [overwrite?, Instruction.overwrite?, if_true, written]
  rfl

end Writes

end Code

theorem wordSize_spec {count : Nat} (positive : 0 < count) :
    wordSize count ≤ count ∧ 0 < wordSize count ∧
      (wordSize count = 8 ∨ wordSize count = 4 ∨ wordSize count = 1) := by
  unfold wordSize
  split <;> (try split) <;> omega

/-- The words a string is cut into leave its bytes in memory. -/
theorem writeBytes_writes (name : Text) {offset : Int} (bytes : Text) (nonneg : 0 ≤ offset)
    (room : offset + bytes.length < 9223372036854775808) :
    (writeBytes name offset bytes).Writes name offset bytes := by
  induction length : bytes.length using Nat.strong_induction_on generalizing offset bytes with
  | _ count ih =>
      rw [writeBytes]
      split
      · rename_i empty
        rw [empty]
        exact .nil
      · rename_i nonempty
        rcases wordSize_spec (List.length_pos_iff.2 nonempty) with ⟨le, positive, width⟩
        dsimp only
        generalize wordSize bytes.length = size at le positive width ⊢
        have taken : (bytes.take size).length = size := List.length_take_of_le le
        have next : Size.add offset size = offset + size :=
          Size.wrap_eq_self (by omega) (by omega)
        have word := Code.Writes.copyToOffset name offset (.ofWord (bytes.take size))
        rw [Const.bytes_ofWord (by rwa [taken])] at word
        have shorter : (bytes.drop size).length < count := by
          rw [List.length_drop]
          omega
        have rest : Code.Writes name (offset + (bytes.take size).length) (bytes.drop size)
            (writeBytes name (offset + size) (bytes.drop size)) := by
          rw [taken]
          exact ih _ shorter _ (by omega) (by rw [List.length_drop]; omega) rfl
        have whole := word.append rest
        rw [List.take_append_drop] at whole
        rw [next]
        exact whole

end SubsetC
