import SubsetC.TopLevel
import SubsetC.Proofs.Explicit
import Mathlib.Data.List.Forall2

/-!
# Typed instructions

What it means for an instruction to be well typed against a symbol table. An object has the type of
its symbol, and a constant the types whose constants are built as it is. The rules for operations
are stated on types alone; `Instruction.WellTyped` applies them to the operands of each kind of
instruction. Code stays well typed when the table grows.
-/

namespace SubsetC

/-! ### Operands -/

/-- A constant is built as the constants of a type are: those of signed char as those of char, and
those of pointers as those of unsigned long. -/
def Const.HasType (constant : Const) (type : CType) : Prop :=
  (Const.zero? type).map Const.type = some constant.type

namespace Operand

/-- The operand is an object of a type. -/
def IsObject (table : SymbolTable) (type : CType) (operand : Operand) : Prop :=
  ∃ name, operand = .var name ∧ table.HasType name type

/-- The operand is a constant or an object of a type. -/
def HasType (table : SymbolTable) (type : CType) : Operand → Prop
  | .constant value => value.HasType type
  | .var name => table.HasType name type
  | .absent => False

end Operand

/-! ### Rules for operations -/

/-- The types between which a change of representation leads. -/
inductive ConvertOp.HasTypes : ConvertOp → (source target : CType) → Prop where
  | signExtend {source target : CType} (noDouble : source.isDouble = false ∧ target.isDouble = false)
      (widens : source.size < target.size) (signed : source.isSigned) :
      HasTypes .signExtend source target
  | zeroExtend {source target : CType} (noDouble : source.isDouble = false ∧ target.isDouble = false)
      (widens : source.size < target.size) (unsigned : source.isSigned = false) :
      HasTypes .zeroExtend source target
  | truncate {source target : CType} (noDouble : source.isDouble = false ∧ target.isDouble = false)
      (narrows : target.size < source.size) : HasTypes .truncate source target
  | doubleToInt {target : CType} (integer : target.isInteger) (signed : target.isSigned) :
      HasTypes .doubleToInt .double target
  | doubleToUInt {target : CType} (integer : target.isInteger) (unsigned : target.isSigned = false) :
      HasTypes .doubleToUInt .double target
  | intToDouble {source : CType} (integer : source.isInteger) (signed : source.isSigned) :
      HasTypes .intToDouble source .double
  | uintToDouble {source : CType} (integer : source.isInteger) (unsigned : source.isSigned = false) :
      HasTypes .uintToDouble source .double

/-- The types of the operand and the target of an operation. -/
inductive OneOp.HasTypes : OneOp → (source target : CType) → Prop where
  | not {source : CType} (scalar : source.isScalar) : HasTypes .not source .int
  | negate {type : CType} (arithmetic : type.isArithmetic) : HasTypes .negate type type
  | complement {type : CType} (integer : type.isInteger) : HasTypes .complement type type

/-- The types of the operands and the target of an operation. -/
inductive TwoOp.HasTypes : TwoOp → (left right target : CType) → Prop where
  | shift {op : ArithOp} {type amount : CType} (isShift : op.isShift)
      (integer : type.isInteger) (promoted : type.IsPromoted)
      (integerAmount : amount.isInteger) (promotedAmount : amount.IsPromoted) :
      HasTypes (.arith op) type amount type
  | arithmetic {op : ArithOp} {type : CType} (noShift : op.isShift = false)
      (arithmetic : type.isArithmetic) (promoted : type.IsPromoted)
      (integral : op.isIntegral → type.isInteger) : HasTypes (.arith op) type type type
  | difference {pointer : CType} (isPointer : pointer.isPointer) :
      HasTypes (.arith .sub) pointer pointer .long
  | compare {op : CompareOp} {type : CType} (scalar : type.isScalar) :
      HasTypes (.compare op) type type .int

/-- A value of one type can be copied to an object of another: they have the same size, and both or
neither are double. -/
structure CType.CopiesTo (source target : CType) : Prop where
  /-- The source holds one value. -/
  scalarSource : source.isScalar
  scalarTarget : target.isScalar
  size : source.size = target.size
  /-- Doubles are kept apart. -/
  isDouble : source.isDouble = target.isDouble

/-- The address of an object of a type has the type of a pointer to it, or to its elements. -/
def CType.IsAddressOf (pointer type : CType) : Prop :=
  pointer = .pointer type ∨ ∃ size element, type = .array size element ∧ pointer = .pointer element

/-! ### Instructions -/

/-- The instruction is well typed, in a function with a result type. -/
def Instruction.WellTyped (table : SymbolTable) (result : CType) : Instruction → Prop
  | .ret value =>
      result.isVoid ∧ value = .absent ∨ result.isVoid = false ∧ value.HasType table result
  | .convert op source target =>
      ∃ sourceType targetType, source.HasType table sourceType ∧
        target.IsObject table targetType ∧ op.HasTypes sourceType targetType
  | .unary op source target =>
      ∃ sourceType targetType, source.HasType table sourceType ∧
        target.IsObject table targetType ∧ op.HasTypes sourceType targetType
  | .binary op left right target =>
      ∃ leftType rightType targetType, left.HasType table leftType ∧
        right.HasType table rightType ∧ target.IsObject table targetType ∧
        op.HasTypes leftType rightType targetType
  | .copy source target =>
      ∃ sourceType targetType, source.HasType table sourceType ∧
        target.IsObject table targetType ∧ sourceType.CopiesTo targetType
  | .getAddress source target =>
      ∃ type pointer, source.IsObject table type ∧ target.IsObject table pointer ∧
        pointer.IsAddressOf type
  | .load pointer target =>
      ∃ type, pointer.HasType table (.pointer type) ∧ target.IsObject table type
  | .store source pointer =>
      ∃ type, source.HasType table type ∧ pointer.HasType table (.pointer type)
  | .addPointer pointer index scale target =>
      ∃ element, pointer.HasType table (.pointer element) ∧ index.HasType table .long ∧
        scale = element.size ∧ target.IsObject table (.pointer element)
  | .copyToOffset source target _ =>
      ∃ type object, source.HasType table type ∧ type.isScalar ∧ table.HasType target object ∧
        object.isArray
  | .copyFromOffset source _ target =>
      ∃ type object, target.IsObject table type ∧ type.isScalar ∧ table.HasType source object ∧
        object.isArray
  | .jump _ | .label _ => True
  | .jumpIfZero condition _ | .jumpIfNotZero condition _ =>
      ∃ type, condition.HasType table type ∧ type.isScalar
  | .call function arguments target =>
      ∃ parameters callResult, table.HasFunction function parameters callResult ∧
        List.Forall₂ (fun argument type => argument.HasType table type) arguments parameters ∧
        (callResult.isVoid ∧ target = .absent ∨
          callResult.isVoid = false ∧ target.IsObject table callResult)

/-- All instructions of the code are well typed. -/
def Code.WellTyped (table : SymbolTable) (result : CType) (code : Code) : Prop :=
  ∀ instruction ∈ code, instruction.WellTyped table result

/-- The function has a symbol, its parameters have the types the symbol gives them, and its code is
well typed. -/
def Function.WellTyped (table : SymbolTable) (function : Function) : Prop :=
  ∃ parameters result, table.HasFunction function.name parameters result ∧
    List.Forall₂ table.HasType function.params parameters ∧
    Code.WellTyped table result function.body

/-! ### Constants -/

namespace Const

theorem hasType_type (constant : Const) : constant.HasType constant.type := by
  cases constant <;> simp [HasType, zero?, ofInt64?, ofInt64, type]

theorem hasType_of_ofInt64? {value : Int64} {type : CType} {constant : Const}
    (found : ofInt64? value type = some constant) : constant.HasType type := by
  cases type with
  | integer kind =>
      cases found
      cases kind <;> simp [HasType, zero?, ofInt64?, ofInt64, type]
  | double | pointer =>
      cases found
      simp [HasType, zero?, ofInt64?, type]
  | void | array | function => cases found

/-- A converted constant has the type it is converted to. -/
theorem hasType_of_convert? {constant converted : Const} {type : CType}
    (found : constant.convert? type = some converted) : converted.HasType type := by
  unfold convert? at found
  split at found
  · rename_i same
    cases found
    exact same ▸ hasType_type constant
  · split at found
    · rename_i isDouble
      cases found
      cases type <;> simp [CType.isDouble] at isDouble
      simp [HasType, zero?, ofInt64?, Const.type]
    · split at found
      · split at found
        · exact hasType_of_ofInt64? found
        · exact hasType_of_ofInt64? found
      · exact hasType_of_ofInt64? found

end Const

/-! ### Growth of the symbol table -/

theorem Operand.IsObject.hasType {table : SymbolTable} {type : CType} {operand : Operand}
    (object : operand.IsObject table type) : operand.HasType table type := by
  rcases object with ⟨name, rfl, hasType⟩
  exact hasType

section Growth

variable {earlier later : SymbolTable} (extension : later.Extends earlier)

include extension

namespace Operand

theorem IsObject.extend {type : CType} {operand : Operand} (object : operand.IsObject earlier type) :
    operand.IsObject later type := by
  rcases object with ⟨name, rfl, hasType⟩
  exact ⟨name, rfl, hasType.extend extension⟩

theorem HasType.extend {type : CType} {operand : Operand} (hasType : operand.HasType earlier type) :
    operand.HasType later type := by
  cases operand with
  | constant value => exact hasType
  | var name => exact SymbolTable.HasType.extend hasType extension
  | absent => exact hasType

end Operand

/-- A well-typed instruction stays so when symbols are added. -/
theorem Instruction.WellTyped.extend {result : CType} {instruction : Instruction}
    (wellTyped : instruction.WellTyped earlier result) : instruction.WellTyped later result := by
  cases instruction with
  | ret value =>
      rcases wellTyped with isAbsent | ⟨notVoid, hasValue⟩
      · exact .inl isAbsent
      · exact .inr ⟨notVoid, hasValue.extend extension⟩
  | convert op source target | unary op source target | copy source target =>
      rcases wellTyped with ⟨sourceType, targetType, hasSource, hasTarget, types⟩
      exact ⟨sourceType, targetType, hasSource.extend extension, hasTarget.extend extension, types⟩
  | binary op left right target =>
      rcases wellTyped with ⟨leftType, rightType, targetType, hasLeft, hasRight, hasTarget, types⟩
      exact ⟨leftType, rightType, targetType, hasLeft.extend extension, hasRight.extend extension,
        hasTarget.extend extension, types⟩
  | getAddress source target =>
      rcases wellTyped with ⟨type, pointer, hasSource, hasTarget, isAddress⟩
      exact ⟨type, pointer, hasSource.extend extension, hasTarget.extend extension, isAddress⟩
  | load pointer target =>
      rcases wellTyped with ⟨type, hasPointer, hasTarget⟩
      exact ⟨type, hasPointer.extend extension, hasTarget.extend extension⟩
  | store source pointer =>
      rcases wellTyped with ⟨type, hasSource, hasPointer⟩
      exact ⟨type, hasSource.extend extension, hasPointer.extend extension⟩
  | addPointer pointer index scale target =>
      rcases wellTyped with ⟨element, hasPointer, hasIndex, sameScale, hasTarget⟩
      exact ⟨element, hasPointer.extend extension, hasIndex.extend extension, sameScale,
        hasTarget.extend extension⟩
  | copyToOffset source target offset =>
      rcases wellTyped with ⟨type, object, hasSource, scalar, hasObject, isArray⟩
      exact ⟨type, object, hasSource.extend extension, scalar, hasObject.extend extension, isArray⟩
  | copyFromOffset source offset target =>
      rcases wellTyped with ⟨type, object, hasTarget, scalar, hasObject, isArray⟩
      exact ⟨type, object, hasTarget.extend extension, scalar, hasObject.extend extension, isArray⟩
  | jump | label => trivial
  | jumpIfZero condition target | jumpIfNotZero condition target =>
      rcases wellTyped with ⟨type, hasCondition, scalar⟩
      exact ⟨type, hasCondition.extend extension, scalar⟩
  | call function arguments target =>
      rcases wellTyped with ⟨parameters, callResult, hasFunction, hasArguments, hasTarget⟩
      refine ⟨parameters, callResult, hasFunction.extend extension, ?_, ?_⟩
      · exact hasArguments.imp fun argument type hasType => hasType.extend extension
      · rcases hasTarget with isAbsent | ⟨notVoid, hasTarget⟩
        · exact .inl isAbsent
        · exact .inr ⟨notVoid, hasTarget.extend extension⟩

theorem Code.WellTyped.extend {result : CType} {code : Code}
    (wellTyped : Code.WellTyped earlier result code) : Code.WellTyped later result code :=
  fun instruction mem => (wellTyped instruction mem).extend extension

theorem Function.WellTyped.extend {function : Function} (wellTyped : function.WellTyped earlier) :
    function.WellTyped later := by
  rcases wellTyped with ⟨parameters, result, hasFunction, hasTypes, body⟩
  refine ⟨parameters, result, hasFunction.extend extension, ?_, body.extend extension⟩
  exact hasTypes.imp fun name type hasType => hasType.extend extension

end Growth

namespace Code.WellTyped

variable {table : SymbolTable} {result : CType} {first second : Code} {instruction : Instruction}

theorem nil : Code.WellTyped table result [] := by simp [Code.WellTyped]

theorem append (left : Code.WellTyped table result first)
    (right : Code.WellTyped table result second) : Code.WellTyped table result (first ++ second) :=
  List.forall_mem_append.2 ⟨left, right⟩

theorem cons (head : instruction.WellTyped table result)
    (tail : Code.WellTyped table result first) :
    Code.WellTyped table result (instruction :: first) :=
  List.forall_mem_cons.2 ⟨head, tail⟩

theorem single (wellTyped : instruction.WellTyped table result) :
    Code.WellTyped table result [instruction] :=
  cons wellTyped nil

end Code.WellTyped

end SubsetC
