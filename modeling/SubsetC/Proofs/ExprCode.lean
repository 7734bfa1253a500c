import SubsetC.Lowering.Expr
import SubsetC.Proofs.ExprTyping
import SubsetC.Proofs.TypedCode

/-!
# Typed code of expressions

The code of an explicit expression is well typed, and leaves a value of the type of the expression.
There is a statement for each block of lowering, and `Expr.lower_yields` puts them together. Since
temporaries get names drawn for them, code that is well typed when it is made stays so.
-/

namespace SubsetC

/-! ### What blocks of code leave behind -/

/-- A part of lowering has made well-typed code, in a function with a result type, and has entered
nothing but temporaries and strings. -/
structure Context.Emits (result : CType) (context : Context) (code : Code) (after : Context) :
    Prop where
  grows : context.Grows [] after
  wellTyped : Code.WellTyped after.symbols result code

/-- A part of lowering has made well-typed code that computes a value of a type. -/
structure Context.Computes (result type : CType) (context : Context) (made : Code × Operand)
    (after : Context) : Prop where
  emits : context.Emits result made.1 after
  hasType : made.2.HasType after.symbols type

/-- What the place of an expression of a type holds. -/
def Place.Holds (table : SymbolTable) (type : CType) : Place → Prop
  | .nowhere => type.isVoid
  | .value operand => operand.HasType table type
  | .behind pointer => pointer.HasType table (.pointer type)

/-- The place is an object, which can be written. -/
def Place.IsObject : Place → Prop
  | .value (.var _) | .behind _ => True
  | _ => False

namespace Context.Emits

variable {result : CType} {first second third : Context} {code more : Code}

theorem nil (context : Context) : context.Emits result [] context := ⟨.refl _ _, .nil⟩

theorem append (earlier : first.Emits result code second)
    (later : second.Emits result more third) : first.Emits result (code ++ more) third :=
  ⟨earlier.grows.append later.grows,
    (earlier.wellTyped.extend later.grows.extends_).append later.wellTyped⟩

/-- Instructions that need nothing to be entered. -/
theorem add (earlier : first.Emits result code second)
    (wellTyped : Code.WellTyped second.symbols result more) :
    first.Emits result (code ++ more) second :=
  ⟨earlier.grows, earlier.wellTyped.append wellTyped⟩

theorem grow (grows : first.Grows [] second) (later : second.Emits result code third) :
    first.Emits result code third :=
  ⟨grows.append later.grows, later.wellTyped⟩

theorem wait (earlier : first.Emits result code second) (grows : second.Grows [] third) :
    first.Emits result code third :=
  ⟨earlier.grows.append grows, earlier.wellTyped.extend grows.extends_⟩

theorem tidy (emits : first.Emits result code second) (tidy : first.Tidy) : second.Tidy :=
  emits.grows.tidy tidy (by simp)

theorem extends_ (emits : first.Emits result code second) :
    second.symbols.Extends first.symbols :=
  emits.grows.extends_

end Context.Emits

theorem Place.Holds.extend {earlier later : SymbolTable} (extension : later.Extends earlier)
    {type : CType} {place : Place} (holds : place.Holds earlier type) : place.Holds later type := by
  cases place with
  | nowhere => exact holds
  | value operand => exact Operand.HasType.extend extension holds
  | behind pointer => exact Operand.HasType.extend extension holds

theorem Context.Grows.draw (context : Context) :
    context.Grows [] { context with nextName := context.nextName + 1 } :=
  ⟨Nat.le_succ _, .refl _, fun name absent present => by simp [absent] at present⟩

/-! ### Places -/

section Places

variable (result : CType) {type : CType} {context : Context}

theorem Pass.newTemporary_yields (tidy : context.Tidy) (type : CType) :
    Yields (Pass.newTemporary type) context fun operand after =>
      context.Grows [] after ∧ operand.IsObject after.symbols type := by
  unfold Pass.newTemporary
  refine Ensures.bind_ok (Pass.run_uniqueName _ _) ?_
  refine Ensures.bind_ok (Pass.run_setSymbol _ _ _ _) ?_
  refine Ensures.pure ⟨tidy.enterFresh "tmp" type .automatic, _, rfl, ?_⟩
  exact ⟨_, SymbolTable.find?_set _ _ _ _ _ |>.trans (if_pos rfl), rfl⟩

theorem Pass.newString_yields (tidy : context.Tidy) (bytes : Text) :
    Yields (Pass.newString bytes) context fun name after =>
      context.Grows [] after ∧
        after.symbols.HasType name (.array (bytes.length + 1) .char) := by
  unfold Pass.newString
  refine Ensures.bind_ok (Pass.run_uniqueName _ _) ?_
  refine Ensures.bind_ok (Pass.run_setSymbol _ _ _ _) ?_
  refine Ensures.pure ⟨tidy.enterFresh "string" _ _, ?_⟩
  exact ⟨_, SymbolTable.find?_set _ _ _ _ _ |>.trans (if_pos rfl), rfl⟩

namespace Place

theorem load_yields (tidy : context.Tidy) {place : Place}
    (holds : place.Holds context.symbols type) :
    Yields (place.load type) context (context.Computes result type) := by
  cases place with
  | nowhere => exact Ensures.throw trivial
  | value operand => exact Ensures.pure ⟨.nil _, holds⟩
  | behind pointer =>
      refine (Pass.newTemporary_yields tidy type).bind ?_
      rintro target after ⟨grows, object⟩
      refine Ensures.pure ⟨⟨grows, .single ?_⟩, object.hasType⟩
      exact ⟨type, Operand.HasType.extend grows.extends_ holds, object⟩

theorem loaded_yields {start : Context} {lowered : Code × Place}
    (emits : start.Emits result lowered.1 context) (tidy : context.Tidy)
    (holds : lowered.2.Holds context.symbols type) :
    Yields (Place.loaded type lowered) context (start.Computes result type) := by
  unfold loaded
  refine (load_yields result tidy holds).bind ?_
  rintro ⟨loadCode, operand⟩ after ⟨loadEmits, hasType⟩
  exact Ensures.pure ⟨emits.append loadEmits, hasType⟩

theorem copies_self {table : SymbolTable} {source target : Operand} (scalar : type.isScalar)
    (hasSource : source.HasType table type) (hasTarget : target.IsObject table type) :
    Code.WellTyped table result [.copy source target] :=
  .single ⟨type, type, hasSource, hasTarget, scalar, scalar, rfl, rfl⟩

theorem store_yields {place : Place} {source : Operand} (scalar : type.isScalar)
    (hasSource : source.HasType context.symbols type) (holds : place.Holds context.symbols type)
    (object : place.IsObject) :
    Yields (place.store source) context fun code after =>
      context = after ∧ Code.WellTyped context.symbols result code := by
  cases place with
  | nowhere => exact object.elim
  | value operand =>
      cases operand with
      | constant | absent => exact object.elim
      | var name => exact Ensures.pure ⟨rfl, copies_self result scalar hasSource ⟨name, rfl, holds⟩⟩
  | behind pointer => exact Ensures.pure ⟨rfl, .single ⟨type, hasSource, holds⟩⟩

theorem addressOf_yields (tidy : context.Tidy) {pointerType : CType} {name : Text}
    (hasType : context.symbols.HasType name type) (isAddress : pointerType.IsAddressOf type) :
    Yields (addressOf pointerType (.var name)) context (context.Computes result pointerType) := by
  unfold addressOf
  refine (Pass.newTemporary_yields tidy pointerType).bind ?_
  rintro target after ⟨grows, object⟩
  refine Ensures.pure ⟨⟨grows, .single ?_⟩, object.hasType⟩
  exact ⟨type, pointerType, ⟨name, rfl, hasType.extend grows.extends_⟩, object, isAddress⟩

theorem address_yields (tidy : context.Tidy) {place : Place}
    (holds : place.Holds context.symbols type) (object : place.IsObject) :
    Yields (place.address (.pointer type)) context (context.Computes result (.pointer type)) := by
  cases place with
  | nowhere => exact object.elim
  | value operand =>
      cases operand with
      | constant | absent => exact object.elim
      | var name => exact addressOf_yields result tidy holds (.inl rfl)
  | behind pointer => exact Ensures.pure ⟨.nil _, holds⟩

theorem firstElement_yields (tidy : context.Tidy) {place : Place} {size : Int} {element : CType}
    (holds : place.Holds context.symbols (.array size element)) :
    Yields (place.firstElement (.pointer element)) context
      (context.Computes result (.pointer element)) := by
  cases place with
  | nowhere => exact Ensures.throw trivial
  | value operand =>
      cases operand with
      | constant value => simp [Holds, Operand.HasType, Const.HasType, Const.zero?, Const.ofInt64?]
          at holds
      | absent => exact holds.elim
      | var name => exact addressOf_yields result tidy holds (.inr ⟨size, element, rfl, rfl⟩)
  | behind pointer =>
      refine (Pass.newTemporary_yields tidy (.pointer element)).bind ?_
      rintro target after ⟨grows, object⟩
      refine Ensures.pure ⟨⟨grows, .single ?_⟩, object.hasType⟩
      exact ⟨_, _, Operand.HasType.extend grows.extends_ holds, object, rfl, rfl, rfl, rfl⟩

end Place

end Places

/-! ### Operations -/

namespace CType

/-- Scalars that need no change of representation can be copied. -/
theorem copiesTo_of_between? {source target : CType} (converts : source.ConvertsTo target)
    (scalar : target.isScalar) (none : ConvertOp.between? source target = none) :
    source.CopiesTo target := by
  unfold ConvertOp.between? at none
  split at none
  · cases none
  · rename_i targetDouble
    split at none
    · cases none
    · rename_i sourceDouble
      split at none
      · rename_i sameSize
        cases converts with
        | toVoid => simp [isScalar, isArithmetic, isInteger, isDouble, isPointer] at scalar
        | scalar scalarSource scalarTarget =>
            exact ⟨scalarSource, scalarTarget, sameSize, by simp [targetDouble, sourceDouble]⟩
      · split at none
        · cases none
        · split at none <;> cases none

theorem eq_double_of_isDouble {type : CType} (isDouble : type.isDouble) : type = .double := by
  cases type with
  | double => rfl
  | _ => cases isDouble

/-- A change of representation leads between the types it is chosen for. -/
theorem hasTypes_of_between? {source target : CType} (differ : source ≠ target)
    (converts : source.ConvertsTo target) (scalar : target.isScalar) {op : ConvertOp}
    (found : ConvertOp.between? source target = some op) : op.HasTypes source target := by
  cases converts with
  | toVoid => simp [isScalar, isArithmetic, isInteger, isDouble, isPointer] at scalar
  | scalar scalarSource _ noPointer noDouble =>
      have integer : ∀ {type : CType}, type.isScalar → type.isDouble = false →
          type.isPointer = false → type.isInteger := by
        intro type scalar notDouble notPointer
        simpa [isScalar, isArithmetic, notDouble, notPointer] using scalar
      unfold ConvertOp.between? at found
      split at found
      · rename_i targetDouble
        obtain rfl := eq_double_of_isDouble targetDouble
        have sourceInteger : source.isInteger := by
          refine integer scalarSource ?_ (by simpa [isDouble] using noDouble)
          exact Bool.eq_false_iff.2 fun sourceDouble => differ (eq_double_of_isDouble sourceDouble)
        cases found
        split
        · exact .intToDouble sourceInteger ‹_›
        · exact .uintToDouble sourceInteger (by simpa using ‹¬source.isSigned = true›)
      · rename_i targetDouble
        have targetDouble : target.isDouble = false := by simpa using targetDouble
        split at found
        · rename_i sourceDouble
          obtain rfl := eq_double_of_isDouble sourceDouble
          have targetInteger : target.isInteger :=
            integer scalar targetDouble (by simpa [isDouble] using noPointer)
          cases found
          split
          · exact .doubleToInt targetInteger ‹_›
          · exact .doubleToUInt targetInteger (by simpa using ‹¬target.isSigned = true›)
        · rename_i sourceDouble
          have noDoubles := And.intro (by simpa using sourceDouble) targetDouble
          split at found
          · cases found
          · rename_i differSize
            split at found
            · cases found
              exact .truncate noDoubles ‹_›
            · rename_i notNarrow
              have widens : source.size < target.size :=
                Int.lt_iff_le_and_ne.2 ⟨Int.not_lt.1 notNarrow, differSize⟩
              split at found
              · cases found
                exact .signExtend noDoubles widens ‹_›
              · cases found
                exact .zeroExtend noDoubles widens (by simpa using ‹¬source.isSigned = true›)

end CType

namespace Operand

variable (result : CType) {context : Context}

theorem convertObject_yields (tidy : context.Tidy) {source target : CType} {operand : Operand}
    (hasType : operand.HasType context.symbols source) (differ : source ≠ target)
    (converts : source.ConvertsTo target) (scalar : target.isScalar) :
    Yields (convertObject source target operand) context (context.Computes result target) := by
  unfold convertObject
  refine (Pass.newTemporary_yields tidy target).bind ?_
  rintro temporary after ⟨grows, object⟩
  have hasType := hasType.extend grows.extends_
  split
  · rename_i op found
    refine Ensures.pure ⟨⟨grows, .single ?_⟩, object.hasType⟩
    exact ⟨source, target, hasType, object,
      CType.hasTypes_of_between? differ converts scalar found⟩
  · rename_i none
    refine Ensures.pure ⟨⟨grows, .single ?_⟩, object.hasType⟩
    exact ⟨source, target, hasType, object, CType.copiesTo_of_between? converts scalar none⟩

theorem convertConst_yields {constant : Const} {type target : CType}
    (shares : ∀ value : Const, value.HasType type → value.HasType target) :
    Yields (do pure (ofConst (← constant.convert type))) context
      (context.Computes result target) := by
  unfold Const.convert
  split
  · rename_i value found
    exact Ensures.pure ⟨.nil _, shares value (Const.hasType_of_convert? found)⟩
  · exact Ensures.bind (Ensures.throw trivial) fun _ _ impossible => impossible

/-- A converted value has the type it is converted to. -/
theorem convert_yields (tidy : context.Tidy) {source target : CType} {operand : Operand}
    (hasType : operand.HasType context.symbols source)
    (converts : source ≠ target → source.ConvertsTo target) (scalar : target.isScalar) :
    Yields (convert source target operand) context (context.Computes result target) := by
  unfold convert
  refine Ensures.ite ?_ ?_
  · rintro rfl
    exact Ensures.pure ⟨.nil _, hasType⟩
  · intro differ
    have object := convertObject_yields result tidy hasType differ (converts differ) scalar
    split
    · refine Ensures.ite (fun _ => convertConst_yields result fun _ => id) (fun _ => ?_)
      refine Ensures.ite ?_ (fun _ => object)
      intro isPointer
      refine convertConst_yields result ?_
      intro value isULong
      cases target <;> simp_all [CType.isPointer]
      exact isULong
    · exact object

/-- A pointer moved by an index is a pointer of the same type. -/
theorem addPointer_yields (tidy : context.Tidy) {element : CType} {pointer index : Operand}
    (hasPointer : pointer.HasType context.symbols (.pointer element))
    (hasIndex : index.HasType context.symbols .long) :
    Yields (pointer.addPointer (.pointer element) index) context
      (context.Computes result (.pointer element)) := by
  unfold addPointer
  refine (Pass.newTemporary_yields tidy (.pointer element)).bind ?_
  rintro target after ⟨grows, object⟩
  refine Ensures.pure ⟨⟨grows, .single ?_⟩, object.hasType⟩
  exact ⟨element, hasPointer.extend grows.extends_, hasIndex.extend grows.extends_, rfl, object⟩

theorem negateIndex_yields (tidy : context.Tidy) {index : Operand}
    (hasIndex : index.HasType context.symbols .long) :
    Yields index.negateIndex context (context.Computes result .long) := by
  unfold negateIndex
  split
  · exact Ensures.pure ⟨.nil _, rfl⟩
  · refine (Pass.newTemporary_yields tidy .long).bind ?_
    rintro target after ⟨grows, object⟩
    refine Ensures.pure ⟨⟨grows, .single ?_⟩, object.hasType⟩
    exact ⟨.long, .long, hasIndex.extend grows.extends_, object, .negate rfl⟩

theorem subPointer_yields (tidy : context.Tidy) {element : CType} {pointer index : Operand}
    (hasPointer : pointer.HasType context.symbols (.pointer element))
    (hasIndex : index.HasType context.symbols .long) :
    Yields (pointer.subPointer (.pointer element) index) context
      (context.Computes result (.pointer element)) := by
  unfold subPointer
  refine (negateIndex_yields result tidy hasIndex).bind ?_
  rintro ⟨negateCode, negated⟩ between ⟨negateEmits, hasNegated⟩
  have hasPointer := hasPointer.extend negateEmits.extends_
  refine (addPointer_yields result (negateEmits.tidy tidy) hasPointer hasNegated).bind ?_
  rintro ⟨addCode, target⟩ after ⟨addEmits, hasTarget⟩
  exact Ensures.pure ⟨negateEmits.append addEmits, hasTarget⟩

/-- The difference of two pointers is a long, and so is the number of elements between them. -/
theorem pointerDifference_yields (tidy : context.Tidy) {pointer : CType} {left right : Operand}
    (isPointer : pointer.isPointer) (hasLeft : left.HasType context.symbols pointer)
    (hasRight : right.HasType context.symbols pointer) :
    Yields (left.pointerDifference pointer right) context (context.Computes result .long) := by
  unfold pointerDifference
  refine (Pass.newTemporary_yields tidy .long).bind ?_
  rintro difference between ⟨first, hasDifference⟩
  refine (Pass.newTemporary_yields (first.tidy tidy (by simp)) .long).bind ?_
  rintro target after ⟨second, hasTarget⟩
  have grows := first.append second
  have hasDifference := hasDifference.extend second.extends_
  refine Ensures.pure ⟨⟨grows, .cons ?_ (.single ?_)⟩, hasTarget.hasType⟩
  · exact ⟨pointer, pointer, .long, hasLeft.extend grows.extends_, hasRight.extend grows.extends_,
      hasDifference, .difference isPointer⟩
  · exact ⟨.long, .long, .long, hasDifference.hasType, rfl, hasTarget,
      .arithmetic rfl rfl rfl fun _ => rfl⟩

theorem combine_yields (tidy : context.Tidy) {op : TwoOp} {leftType rightType type : CType}
    {left right : Operand} (hasLeft : left.HasType context.symbols leftType)
    (hasRight : right.HasType context.symbols rightType)
    (types : op.HasTypes leftType rightType type) :
    Yields (left.combine op type right) context (context.Computes result type) := by
  unfold combine
  refine (Pass.newTemporary_yields tidy type).bind ?_
  rintro target after ⟨grows, object⟩
  refine Ensures.pure ⟨⟨grows, .single ?_⟩, object.hasType⟩
  exact ⟨leftType, rightType, type, hasLeft.extend grows.extends_, hasRight.extend grows.extends_,
    object, types⟩

end Operand

/-! ### Operators -/

namespace Expr

variable (result : CType) {context : Context}

theorem unaryCode_yields (tidy : context.Tidy) {op : UnaryOp} {operandType type : CType}
    {value : Operand} (hasValue : value.HasType context.symbols operandType)
    (types : op.HasTypes operandType type) :
    Yields (unaryCode op type value) context (context.Computes result type) := by
  have computes : ∀ one : OneOp, one.HasTypes operandType type →
      Yields (do
        let target ← Pass.newTemporary type
        pure ([.unary one value target], target)) context (context.Computes result type) := by
    intro one types
    refine (Pass.newTemporary_yields tidy type).bind ?_
    rintro target after ⟨grows, object⟩
    refine Ensures.pure ⟨⟨grows, .single ?_⟩, object.hasType⟩
    exact ⟨operandType, type, hasValue.extend grows.extends_, object, types⟩
  cases types with
  | not scalar => exact computes .not (.not scalar)
  | complement integer => exact computes .complement (.complement integer)
  | sign isSign arithmetic =>
      rcases isSign with rfl | rfl
      · exact computes .negate (.negate arithmetic)
      · exact Ensures.pure ⟨.nil _, hasValue⟩

theorem exists_pointer {type : CType} (complete : type.isPointerToComplete) :
    ∃ element, type = .pointer element := by
  cases type with
  | pointer element => exact ⟨element, rfl⟩
  | void | integer | double | array | function => simp [CType.isPointerToComplete] at complete

/-- A sum or difference of pointers, by the three rules for it. -/
theorem pointerCode_yields (tidy : context.Tidy) {op : ArithOp} {leftType rightType type : CType}
    {left right : Operand} (hasLeft : left.HasType context.symbols leftType)
    (hasRight : right.HasType context.symbols rightType)
    (types : op.HasTypes leftType rightType type)
    (pointer : leftType.isPointer ∨ rightType.isPointer) :
    Yields (pointerCode op leftType rightType left right) context
      (context.Computes result type) := by
  have notPointer : ∀ {type : CType}, type.isArithmetic → type.isPointer = false := by
    intro type arithmetic
    cases type <;> simp_all [CType.isArithmetic, CType.isInteger, CType.isDouble, CType.isPointer]
  unfold pointerCode
  cases types with
  | shift _ integer _ integerAmount =>
      have arithmetic : ∀ {type : CType}, type.isInteger → type.isArithmetic := by
        simp +contextual [CType.isArithmetic]
      simp [notPointer (arithmetic integer), notPointer (arithmetic integerAmount)] at pointer
  | arithmetic _ arithmetic => simp [notPointer arithmetic] at pointer
  | offset isSum complete =>
      rcases exists_pointer complete with ⟨element, rfl⟩
      rcases isSum with rfl | rfl
      · exact Operand.addPointer_yields result tidy hasLeft hasRight
      · exact Operand.subPointer_yields result tidy hasLeft hasRight
  | offsetOf complete =>
      rcases exists_pointer complete with ⟨element, rfl⟩
      exact Operand.addPointer_yields result tidy hasRight hasLeft
  | difference complete =>
      have isPointer := CType.isPointer_of_isPointerToComplete complete
      simp only [isPointer, if_true, reduceCtorEq, if_false]
      exact Operand.pointerDifference_yields result tidy isPointer hasLeft hasRight

theorem isPointer_of_isArithmetic {type : CType} (arithmetic : type.isArithmetic) :
    type.isPointer = false := by
  cases type <;> simp_all [CType.isArithmetic, CType.isInteger, CType.isDouble, CType.isPointer]

theorem arithCode_yields (tidy : context.Tidy) {op : ArithOp} {leftType rightType type : CType}
    {left right : Operand} (hasLeft : left.HasType context.symbols leftType)
    (hasRight : right.HasType context.symbols rightType)
    (types : op.HasTypes leftType rightType type) :
    Yields (binaryCode (.arith op) type leftType rightType left right) context
      (context.Computes result type) := by
  unfold binaryCode
  refine Ensures.ite ?_ ?_
  · intro pointer
    exact pointerCode_yields result tidy hasLeft hasRight types (by simpa using pointer)
  · intro noPointer
    refine Operand.combine_yields result tidy hasLeft hasRight ?_
    cases types with
    | shift isShift integer promoted integerAmount promotedAmount =>
        exact .shift isShift integer promoted integerAmount promotedAmount
    | arithmetic noShift arithmetic promoted integral =>
        exact .arithmetic noShift arithmetic promoted integral
    | offset _ complete | offsetOf complete | difference complete =>
        simp [CType.isPointer_of_isPointerToComplete complete] at noPointer

theorem compareCode_yields (tidy : context.Tidy) {op : CompareOp} {type : CType}
    {left right : Operand} (hasLeft : left.HasType context.symbols type)
    (hasRight : right.HasType context.symbols type) (scalar : type.isScalar) :
    Yields (binaryCode (.compare op) .int type type left right) context
      (context.Computes result .int) :=
  Operand.combine_yields result tidy hasLeft hasRight (.compare scalar)

/-- An object is widened to the type of an operation, and the outcome is narrowed back. -/
theorem widened_yields (tidy : context.Tidy) {op : ArithOp} {type opType rightType : CType}
    {current right : Operand} (hasCurrent : current.HasType context.symbols type)
    (hasRight : right.HasType context.symbols rightType) (arithmetic : type.isArithmetic)
    (arithmeticOp : opType.isArithmetic)
    (types : (TwoOp.arith op).HasTypes opType rightType opType) :
    Yields (compoundCode op type opType current right) context (context.Computes result type) := by
  unfold compoundCode
  rw [if_neg (by simp [isPointer_of_isArithmetic arithmetic])]
  refine (Operand.convert_yields result tidy hasCurrent
    (fun _ => .of_arithmetic arithmetic arithmeticOp)
    (CType.isScalar_of_isArithmetic arithmeticOp)).bind ?_
  rintro ⟨widenCode, widened⟩ first ⟨widenEmits, hasWidened⟩
  have tidy := widenEmits.tidy tidy
  refine (Operand.combine_yields result tidy hasWidened (hasRight.extend widenEmits.extends_)
    types).bind ?_
  rintro ⟨computeCode, computed⟩ second ⟨computeEmits, hasComputed⟩
  refine (Operand.convert_yields result (computeEmits.tidy tidy) hasComputed
    (fun _ => .of_arithmetic arithmeticOp arithmetic)
    (CType.isScalar_of_isArithmetic arithmetic)).bind ?_
  rintro ⟨narrowCode, narrowed⟩ after ⟨narrowEmits, hasNarrowed⟩
  exact Ensures.pure ⟨(widenEmits.append computeEmits).append narrowEmits, hasNarrowed⟩

theorem compoundCode_yields (tidy : context.Tidy) {op : ArithOp} {type rightType : CType}
    {opType : Option CType} {current right : Operand}
    (hasCurrent : current.HasType context.symbols type)
    (hasRight : right.HasType context.symbols rightType)
    (types : (AssignOp.compound op).HasTypes type rightType opType) :
    Yields (compoundCode op type (opType.getD .void) current right) context
      (context.Computes result type) := by
  cases types with
  | offset isSum complete =>
      rcases exists_pointer complete with ⟨element, rfl⟩
      unfold compoundCode
      rcases isSum with rfl | rfl
      · exact Operand.addPointer_yields result tidy hasCurrent hasRight
      · exact Operand.subPointer_yields result tidy hasCurrent hasRight
  | shift isShift integer integerAmount promotedAmount =>
      have arithmetic : type.isArithmetic := by simp [CType.isArithmetic, integer]
      exact widened_yields result tidy hasCurrent hasRight arithmetic
        (CType.isArithmetic_promote arithmetic)
        (.shift isShift (CType.isInteger_promote integer) (CType.isPromoted_promote type)
          integerAmount promotedAmount)
  | arithmetic noShift arithmetic arithmeticOp promoted integral =>
      exact widened_yields result tidy hasCurrent hasRight arithmetic arithmeticOp
        (.arithmetic noShift arithmeticOp promoted integral)

theorem stepCode_yields (tidy : context.Tidy) {op : StepOp} {type : CType} {current : Operand}
    (hasCurrent : current.HasType context.symbols type)
    (steps : type.isArithmetic ∨ type.isPointerToComplete) :
    Yields (stepCode op type current) context (context.Computes result type) := by
  unfold stepCode
  rcases steps with arithmetic | complete
  · rw [if_neg (by simp [isPointer_of_isArithmetic arithmetic])]
    unfold Const.convert
    split
    · rename_i one found
      rw [pure_bind]
      refine widened_yields result tidy hasCurrent (Const.hasType_of_convert? found) arithmetic
        (CType.isArithmetic_promote arithmetic) ?_
      have promoted := CType.isPromoted_promote type
      have arithmetic := CType.isArithmetic_promote arithmetic
      split
      · exact .arithmetic rfl arithmetic promoted fun integral => nomatch integral
      · exact .arithmetic rfl arithmetic promoted fun integral => nomatch integral
    · exact Ensures.bind (Ensures.throw trivial) fun _ _ impossible => impossible
  · rcases exists_pointer complete with ⟨element, rfl⟩
    exact Operand.addPointer_yields result tidy hasCurrent rfl

/-- A step leaves the object with a new value of its type, and yields one of that type. -/
theorem stepPlace_yields (tidy : context.Tidy) {form : StepForm} {op : StepOp} {type : CType}
    {place : Place} (holds : place.Holds context.symbols type) (object : place.IsObject)
    (steps : type.isArithmetic ∨ type.isPointerToComplete) :
    Yields (stepPlace form op type place) context (context.Computes result type) := by
  have scalar : type.isScalar := by
    rcases steps with arithmetic | complete
    · exact CType.isScalar_of_isArithmetic arithmetic
    · exact CType.isScalar_of_isPointer (CType.isPointer_of_isPointerToComplete complete)
  unfold stepPlace
  refine (Place.load_yields result tidy holds).bind ?_
  rintro ⟨loadCode, current⟩ first ⟨loadEmits, hasCurrent⟩
  have tidy := loadEmits.tidy tidy
  have finish : ∀ (keepCode : Code) (old : Operand) (second : Context),
      first.Computes result type (keepCode, old) second →
      Yields (do
        let stepped ← stepCode op type current
        let storeCode ← place.store stepped.2
        pure (loadCode ++ keepCode ++ stepped.1 ++ storeCode,
          if form = .after then old else stepped.2))
        second (context.Computes result type) := by
    rintro keepCode old second ⟨keepEmits, hasOld⟩
    have hasCurrent := Operand.HasType.extend keepEmits.extends_ hasCurrent
    refine (stepCode_yields result (keepEmits.tidy tidy) hasCurrent steps).bind ?_
    rintro ⟨code, new⟩ third ⟨emits, hasNew⟩
    have all := (loadEmits.append keepEmits).append emits
    refine (Place.store_yields result scalar hasNew (holds.extend all.extends_) object).bind ?_
    rintro storeCode _ ⟨rfl, stores⟩
    refine Ensures.pure ⟨all.add stores, ?_⟩
    dsimp only
    split
    · exact Operand.HasType.extend emits.extends_ hasOld
    · exact hasNew
  dsimp only
  split
  · refine (Pass.newTemporary_yields tidy type).bind ?_
    rintro old after ⟨grows, isObject⟩
    have hasCurrent := Operand.HasType.extend grows.extends_ hasCurrent
    exact finish _ _ _ ⟨⟨grows, Place.copies_self result scalar hasCurrent isObject⟩,
      isObject.hasType⟩
  · exact finish _ _ _ ⟨.nil _, hasCurrent⟩

theorem callCode_yields (tidy : context.Tidy) {name : Text} {parameters : List CType}
    {type : CType} {arguments : List Operand}
    (hasFunction : context.symbols.HasFunction name parameters type)
    (hasArguments : List.Forall₂ (fun argument type => argument.HasType context.symbols type)
      arguments parameters) :
    Yields (callCode name type arguments) context fun made after =>
      context.Emits result made.1 after ∧ made.2.Holds after.symbols type := by
  unfold callCode
  refine Ensures.ite ?_ ?_
  · intro isVoid
    refine Ensures.pure ⟨⟨.refl _ _, .single ?_⟩, isVoid⟩
    exact ⟨parameters, type, hasFunction, hasArguments, .inl ⟨isVoid, rfl⟩⟩
  · intro notVoid
    refine (Pass.newTemporary_yields tidy type).bind ?_
    rintro target after ⟨grows, object⟩
    have extension := grows.extends_
    refine Ensures.pure ⟨⟨grows, .single ?_⟩, object.hasType⟩
    exact ⟨parameters, type, hasFunction.extend extension,
      hasArguments.imp fun argument type hasType => hasType.extend extension,
      .inr ⟨by simpa using notVoid, object⟩⟩

/-! ### Expressions -/

/-- A run of lowering leads to well-typed code, and to a place that holds what the expression is;
where the expression designates an object, so does the place. -/
abbrev LowersFrom (result : CType) (expr : Expr) (context : Context) : Prop :=
  Yields expr.lower context fun made after =>
    context.Emits result made.1 after ∧ made.2.Holds after.symbols expr.type ∧
      (expr.isLvalue → made.2.IsObject)

theorem value_yields {expr : Expr} (tidy : context.Tidy) (lowers : expr.LowersFrom result context) :
    Yields (expr.lower >>= Place.loaded expr.type) context (context.Computes result expr.type) := by
  refine lowers.bind ?_
  rintro made between ⟨emits, holds, _⟩
  exact Place.loaded_yields result emits (emits.tidy tidy) holds

/-- Nothing is asked of the place of an expression that designates no object. -/
theorem isObject_of_marks {note : Note} (marks : note.Marks false) (place : Place) :
    note.isLvalue → place.IsObject :=
  fun isLvalue => nomatch marks.category.symm.trans isLvalue

/-- A block that computes the value of an expression that designates no object. -/
theorem lowered_of_computes {start after : Context} {note : Note} {code : Code} {value : Operand}
    (marks : note.Marks false) (emits : start.Emits result code after)
    (hasType : value.HasType after.symbols note.knownType) :
    start.Emits result code after ∧ (Place.value value).Holds after.symbols note.knownType ∧
      (note.isLvalue → (Place.value value).IsObject) :=
  ⟨emits, hasType, isObject_of_marks marks _⟩

theorem logicExit_wellTyped {table : SymbolTable} {op : LogicOp} {value : Operand} {type : CType}
    {label : Text} (hasValue : value.HasType table type) (scalar : type.isScalar) :
    Code.WellTyped table result [op.exit value label] := by
  cases op with
  | and | or => exact .single ⟨type, hasValue, scalar⟩

theorem isScalar_of_unary {op : UnaryOp} {operand type : CType} (types : op.HasTypes operand type) :
    operand.isScalar := by
  cases types with
  | not scalar => exact scalar
  | complement integer => exact CType.isScalar_of_isInteger integer
  | sign _ arithmetic => exact CType.isScalar_of_isArithmetic arithmetic

theorem logicTypes {op : LogicOp} {left right type : CType}
    (types : (BinaryOp.logic op).HasTypes left right type) :
    left.isScalar ∧ right.isScalar ∧ type = .int := by
  cases types with
  | logic scalarLeft scalarRight => exact ⟨scalarLeft, scalarRight, rfl⟩

theorem compareTypes {op : CompareOp} {left right type : CType}
    (types : (BinaryOp.compare op).HasTypes left right type) :
    left = right ∧ left.isScalar ∧ type = .int := by
  cases types with
  | compareArithmetic arithmetic => exact ⟨rfl, CType.isScalar_of_isArithmetic arithmetic, rfl⟩
  | comparePointers pointer => exact ⟨rfl, CType.isScalar_of_isPointer pointer, rfl⟩

theorem plainTypes {left right : CType} {opType : Option CType}
    (types : AssignOp.plain.HasTypes left right opType) : left = right ∧ left.isScalar := by
  cases types with
  | plain scalar => exact ⟨rfl, scalar⟩

theorem compoundScalar {op : ArithOp} {left right : CType} {opType : Option CType}
    (types : (AssignOp.compound op).HasTypes left right opType) : left.isScalar := by
  cases types with
  | offset _ complete =>
      exact CType.isScalar_of_isPointer (CType.isPointer_of_isPointerToComplete complete)
  | shift _ integer => exact CType.isScalar_of_isInteger integer
  | arithmetic _ arithmetic => exact CType.isScalar_of_isArithmetic arithmetic

/-- Wherever names are in order, an explicit expression is lowered to well-typed code. -/
abbrev LowersTyped (result : CType) (expr : Expr) : Prop :=
  ∀ {context : Context}, context.Tidy → expr.Explicit context.symbols →
    expr.LowersFrom result context

/-- Both operands of a logical operator lead to a jump, and both results are written to the same
temporary. -/
theorem logic_lowers {note : Note} {op : LogicOp} {left right : Expr}
    (lowersLeft : left.LowersTyped result) (lowersRight : right.LowersTyped result) :
    (binary note (.logic op) left right).LowersTyped result := by
  intro context tidy explicit
  rcases explicit with ⟨marks, leftExplicit, rightExplicit, types⟩
  rcases logicTypes types with ⟨scalarLeft, scalarRight, isInt⟩
  rw [LowersFrom, lower]
  refine Ensures.bind_ok (Pass.run_newLabelPair _ _ _) ?_
  have drawn := Context.Grows.draw context
  refine (Pass.newTemporary_yields (drawn.tidy tidy (by simp)) .int).bind ?_
  rintro target first ⟨entered, isTarget⟩
  -- Labels and temporary come before the operands, and what holds of the operands is extended.
  have start := drawn.append entered
  have tidy := start.tidy tidy (by simp)
  refine (value_yields result tidy (lowersLeft tidy
    (Explicit.extend start.extends_ left leftExplicit))).bind ?_
  rintro ⟨leftCode, leftValue⟩ second ⟨leftEmits, hasLeft⟩
  have tidy := leftEmits.tidy tidy
  have rightExplicit := Explicit.extend start.extends_ right rightExplicit
  refine (value_yields result tidy (lowersRight tidy
    (Explicit.extend leftEmits.extends_ right rightExplicit))).bind ?_
  rintro ⟨rightCode, rightValue⟩ after ⟨rightEmits, hasRight⟩
  have isTarget := isTarget.extend (leftEmits.append rightEmits).extends_
  have copies : ∀ value, Code.WellTyped after.symbols result
      [.copy (LogicOp.result value) target] :=
    fun value => Place.copies_self result rfl (Const.hasType_type (Const.ofBool value)) isTarget
  refine Ensures.pure (lowered_of_computes result marks
    (.grow start (((leftEmits.add ?_).append rightEmits).add ?_)) ?_)
  · exact logicExit_wellTyped result hasLeft scalarLeft
  · exact .append (logicExit_wellTyped result hasRight scalarRight)
      ((copies _).append (.cons trivial (.cons trivial ((copies _).append (.single trivial)))))
  · exact isInt ▸ isTarget.hasType

/-- The branches of a conditional write their values to the same temporary, unless these have no
values. -/
theorem conditional_lowers {note : Note} {condition thenBranch elseBranch : Expr}
    (lowersCondition : condition.LowersTyped result) (lowersThen : thenBranch.LowersTyped result)
    (lowersElse : elseBranch.LowersTyped result) :
    (conditional note condition thenBranch elseBranch).LowersTyped result := by
  intro context tidy explicit
  rcases explicit with ⟨marks, conditionExplicit, thenExplicit, elseExplicit, scalar, thenType,
    elseType, isValue⟩
  rw [LowersFrom, lower]
  refine Ensures.bind_ok (Pass.run_newLabelPair _ _ _) ?_
  have drawn := Context.Grows.draw context
  have tidy := drawn.tidy tidy (by simp)
  refine (value_yields result tidy (lowersCondition tidy
    (Explicit.extend drawn.extends_ condition conditionExplicit))).bind ?_
  rintro ⟨conditionCode, value⟩ first ⟨conditionEmits, hasValue⟩
  have tidy := conditionEmits.tidy tidy
  have start := drawn.append conditionEmits.grows
  have tests : ∀ label, Code.WellTyped first.symbols result [.jumpIfZero value label] :=
    fun label => .single ⟨condition.type, hasValue, scalar⟩
  refine Ensures.ite ?_ ?_
  · intro isVoid
    refine (lowersThen tidy
      (Explicit.extend start.extends_ thenBranch thenExplicit)).bind ?_
    rintro ⟨thenCode, _⟩ second ⟨thenEmits, _⟩
    have tidy := thenEmits.tidy tidy
    refine (lowersElse tidy (Explicit.extend
      (start.append thenEmits.grows).extends_ elseBranch elseExplicit)).bind ?_
    rintro ⟨elseCode, _⟩ after ⟨elseEmits, _⟩
    refine Ensures.pure ⟨.grow drawn (((((conditionEmits.add (tests _)).append thenEmits).add
      ?_).append elseEmits).add ?_), isVoid, ?_⟩
    · exact .cons trivial (.single trivial)
    · exact .single trivial
    · exact isObject_of_marks marks _
  · intro notVoid
    have scalarType := CType.isScalar_of_isValue isValue (by simpa using notVoid)
    -- The temporary is entered between the test and the branches, which both write to it.
    refine (Pass.newTemporary_yields tidy note.knownType).bind ?_
    rintro target second ⟨entered, isTarget⟩
    have start := start.append entered
    have tidy := entered.tidy tidy (by simp)
    refine (value_yields result tidy (lowersThen tidy
      (Explicit.extend start.extends_ thenBranch thenExplicit))).bind ?_
    rintro ⟨thenCode, thenValue⟩ third ⟨thenEmits, hasThen⟩
    have tidy := thenEmits.tidy tidy
    refine (value_yields result tidy (lowersElse tidy (Explicit.extend
      (start.append thenEmits.grows).extends_ elseBranch elseExplicit))).bind ?_
    rintro ⟨elseCode, elseValue⟩ after ⟨elseEmits, hasElse⟩
    rw [thenType] at hasThen
    rw [elseType] at hasElse
    have thenTarget := isTarget.extend thenEmits.extends_
    have elseTarget := thenTarget.extend elseEmits.extends_
    refine Ensures.pure (lowered_of_computes result marks (.grow drawn
      ((((((conditionEmits.add (tests _)).wait entered).append thenEmits).add ?_).append
        elseEmits).add ?_)) elseTarget.hasType)
    · exact .append (Place.copies_self result scalarType hasThen thenTarget)
        (.cons trivial (.single trivial))
    · exact .append (Place.copies_self result scalarType hasElse elseTarget) (.single trivial)

mutual

/-- The code of an explicit expression is well typed, and leaves what the expression is. -/
theorem lower_yields : ∀ (expr : Expr) {context : Context}, context.Tidy →
    expr.Explicit context.symbols → expr.LowersFrom result context
  | .constant note value, context, tidy, explicit => by
      rw [LowersFrom, lower]
      refine Ensures.pure (lowered_of_computes result explicit.1 (.nil _) ?_)
      exact explicit.2 ▸ value.hasType_type
  | .string note bytes, context, tidy, explicit => by
      rw [LowersFrom, lower]
      refine (Pass.newString_yields tidy bytes).bind ?_
      rintro name after ⟨grows, hasType⟩
      refine Ensures.pure ⟨⟨grows, .nil⟩, ?_, fun _ => trivial⟩
      have sameType : (Expr.string note bytes).type = .array (bytes.length + 1) .char := explicit.2
      rw [sameType]
      exact hasType
  | .var note name, context, tidy, explicit => by
      rw [LowersFrom, lower]
      exact Ensures.pure ⟨.nil _, explicit.2.2, fun _ => trivial⟩
  | .unary note op operand, context, tidy, explicit => by
      rw [LowersFrom, lower]
      refine (value_yields result tidy (lower_yields operand tidy explicit.2.1)).bind ?_
      rintro ⟨operandCode, value⟩ between ⟨emits, hasValue⟩
      refine (unaryCode_yields result (emits.tidy tidy) hasValue explicit.2.2).bind ?_
      rintro ⟨code, computed⟩ after ⟨codeEmits, hasComputed⟩
      exact Ensures.pure
        (lowered_of_computes result explicit.1 (emits.append codeEmits) hasComputed)
  | .binary note (.logic op) left right, context, tidy, explicit =>
      logic_lowers result (lower_yields left) (lower_yields right) tidy explicit
  | .binary note (.arith op) left right, context, tidy, explicit => by
      rcases explicit with ⟨marks, leftExplicit, rightExplicit, types⟩
      rw [LowersFrom, lower]
      refine (value_yields result tidy (lower_yields left tidy leftExplicit)).bind ?_
      rintro ⟨leftCode, leftValue⟩ first ⟨leftEmits, hasLeft⟩
      have tidy := leftEmits.tidy tidy
      refine (value_yields result tidy (lower_yields right tidy
        (Explicit.extend leftEmits.extends_ right rightExplicit))).bind ?_
      rintro ⟨rightCode, rightValue⟩ second ⟨rightEmits, hasRight⟩
      have hasLeft := Operand.HasType.extend rightEmits.extends_ hasLeft
      cases types with
      | arith types =>
          refine (arithCode_yields result (rightEmits.tidy tidy) hasLeft hasRight types).bind ?_
          rintro ⟨code, computed⟩ after ⟨emits, hasComputed⟩
          exact Ensures.pure (lowered_of_computes result marks
            ((leftEmits.append rightEmits).append emits) hasComputed)
  | .binary note (.compare op) left right, context, tidy, explicit => by
      rcases explicit with ⟨marks, leftExplicit, rightExplicit, types⟩
      rcases compareTypes types with ⟨sameType, scalar, isInt⟩
      rw [LowersFrom, lower]
      refine (value_yields result tidy (lower_yields left tidy leftExplicit)).bind ?_
      rintro ⟨leftCode, leftValue⟩ first ⟨leftEmits, hasLeft⟩
      have tidy := leftEmits.tidy tidy
      refine (value_yields result tidy (lower_yields right tidy
        (Explicit.extend leftEmits.extends_ right rightExplicit))).bind ?_
      rintro ⟨rightCode, rightValue⟩ second ⟨rightEmits, hasRight⟩
      have hasLeft := Operand.HasType.extend rightEmits.extends_ hasLeft
      rw [sameType] at hasLeft scalar ⊢
      rw [isInt]
      refine (compareCode_yields result (rightEmits.tidy tidy) hasLeft hasRight scalar).bind ?_
      rintro ⟨code, computed⟩ after ⟨emits, hasComputed⟩
      exact Ensures.pure (lowered_of_computes result marks
        ((leftEmits.append rightEmits).append emits) (isInt ▸ hasComputed))
  | .assign note .plain left right opType, context, tidy, explicit => by
      rcases explicit with ⟨marks, leftExplicit, rightExplicit, isLvalue, sameType, types⟩
      rw [LowersFrom, lower]
      refine (lower_yields left tidy leftExplicit).bind ?_
      rintro ⟨leftCode, place⟩ first ⟨leftEmits, holds, object⟩
      have tidy := leftEmits.tidy tidy
      refine (value_yields result tidy (lower_yields right tidy
        (Explicit.extend leftEmits.extends_ right rightExplicit))).bind ?_
      rintro ⟨rightCode, value⟩ second ⟨rightEmits, hasValue⟩
      rcases plainTypes types with ⟨sameSides, scalar⟩
      rw [← sameSides] at hasValue
      refine (Place.store_yields result scalar hasValue (holds.extend rightEmits.extends_)
        (object isLvalue)).bind ?_
      rintro storeCode _ ⟨rfl, stores⟩
      exact Ensures.pure (lowered_of_computes result marks
        ((leftEmits.append rightEmits).add stores) (sameType ▸ hasValue))
  | .assign note (.compound op) left right opType, context, tidy, explicit => by
      rcases explicit with ⟨marks, leftExplicit, rightExplicit, isLvalue, sameType, types⟩
      rw [LowersFrom, lower]
      refine (lower_yields left tidy leftExplicit).bind ?_
      rintro ⟨leftCode, place⟩ first ⟨leftEmits, holds, object⟩
      have tidy := leftEmits.tidy tidy
      refine (Place.load_yields result tidy holds).bind ?_
      rintro ⟨loadCode, current⟩ second ⟨loadEmits, hasCurrent⟩
      have tidy := loadEmits.tidy tidy
      have emits := leftEmits.append loadEmits
      refine (value_yields result tidy (lower_yields right tidy
        (Explicit.extend emits.extends_ right rightExplicit))).bind ?_
      rintro ⟨rightCode, value⟩ third ⟨rightEmits, hasValue⟩
      have hasCurrent := Operand.HasType.extend rightEmits.extends_ hasCurrent
      refine (compoundCode_yields result (rightEmits.tidy tidy) hasCurrent hasValue types).bind ?_
      rintro ⟨code, computed⟩ fourth ⟨codeEmits, hasComputed⟩
      have holds := holds.extend ((loadEmits.append rightEmits).append codeEmits).extends_
      refine (Place.store_yields result (compoundScalar types) hasComputed holds
        (object isLvalue)).bind ?_
      rintro storeCode _ ⟨rfl, stores⟩
      exact Ensures.pure (lowered_of_computes result marks
        (((emits.append rightEmits).append codeEmits).add stores) (sameType ▸ hasComputed))
  | .conditional note condition thenBranch elseBranch, context, tidy, explicit =>
      conditional_lowers result (lower_yields condition) (lower_yields thenBranch)
        (lower_yields elseBranch) tidy explicit
  | .call note name arguments, context, tidy, explicit => by
      rcases explicit with ⟨marks, argumentsExplicit, _, hasFunction⟩
      rw [LowersFrom, lower]
      refine (lowerArguments_yields arguments tidy argumentsExplicit).bind ?_
      rintro ⟨argumentsCode, values⟩ between ⟨emits, hasValues⟩
      refine (callCode_yields result (emits.tidy tidy) (hasFunction.extend emits.extends_)
        hasValues).bind ?_
      rintro ⟨code, place⟩ after ⟨codeEmits, holds⟩
      refine Ensures.pure ⟨emits.append codeEmits, holds, ?_⟩
      exact isObject_of_marks marks _
  | .cast note target operand isImplicit, context, tidy, explicit => by
      rcases explicit with ⟨marks, operandExplicit, sameType, converts⟩
      rw [LowersFrom, lower]
      refine Ensures.ite ?_ ?_
      · intro isVoid
        refine (lower_yields operand tidy operandExplicit).bind ?_
        rintro ⟨code, _⟩ after ⟨emits, _⟩
        refine Ensures.pure ⟨emits, sameType.symm ▸ isVoid, ?_⟩
        exact isObject_of_marks marks _
      · intro notVoid
        have scalar := CType.isScalar_of_isValue converts.isValue (by simpa using notVoid)
        refine (value_yields result tidy (lower_yields operand tidy operandExplicit)).bind ?_
        rintro ⟨operandCode, value⟩ between ⟨emits, hasValue⟩
        refine (Operand.convert_yields result (emits.tidy tidy) hasValue (fun _ => converts)
          scalar).bind ?_
        rintro ⟨code, converted⟩ after ⟨codeEmits, hasConverted⟩
        exact Ensures.pure (lowered_of_computes result marks (emits.append codeEmits)
          (sameType.symm ▸ hasConverted))
  | .addressOf note operand, context, tidy, explicit => by
      rcases explicit with ⟨marks, operandExplicit, isLvalue, isPointer⟩
      rw [LowersFrom, lower]
      refine (lower_yields operand tidy operandExplicit).bind ?_
      rintro ⟨operandCode, place⟩ between ⟨emits, holds, object⟩
      rw [isPointer]
      refine (Place.address_yields result (emits.tidy tidy) holds (object isLvalue)).bind ?_
      rintro ⟨code, pointer⟩ after ⟨codeEmits, hasPointer⟩
      exact Ensures.pure (lowered_of_computes result marks (emits.append codeEmits)
        (isPointer ▸ hasPointer))
  | .dereference note operand, context, tidy, explicit => by
      rcases explicit with ⟨marks, operandExplicit, isPointer, _⟩
      rw [LowersFrom, lower]
      refine (value_yields result tidy (lower_yields operand tidy operandExplicit)).bind ?_
      rintro ⟨code, pointer⟩ after ⟨emits, hasPointer⟩
      rw [isPointer] at hasPointer
      exact Ensures.pure ⟨emits, hasPointer, fun _ => trivial⟩
  | .subscript note array index, context, tidy, explicit => by
      rcases explicit with ⟨marks, arrayExplicit, indexExplicit, complete, types⟩
      rw [LowersFrom, lower]
      refine (value_yields result tidy (lower_yields array tidy arrayExplicit)).bind ?_
      rintro ⟨arrayCode, arrayValue⟩ first ⟨arrayEmits, hasArray⟩
      have tidy := arrayEmits.tidy tidy
      refine (value_yields result tidy (lower_yields index tidy
        (Explicit.extend arrayEmits.extends_ index indexExplicit))).bind ?_
      rintro ⟨indexCode, indexValue⟩ second ⟨indexEmits, hasIndex⟩
      have hasArray := Operand.HasType.extend indexEmits.extends_ hasArray
      have sums : ArithOp.add.HasTypes array.type index.type (.pointer note.knownType) ∧
          (array.type.isPointer ∨ index.type.isPointer) := by
        rcases types with ⟨arrayType, indexType⟩ | ⟨arrayType, indexType⟩
        · rw [arrayType, indexType]
          exact ⟨.offset (.inl rfl) complete, .inl rfl⟩
        · rw [arrayType, indexType]
          exact ⟨.offsetOf complete, .inr rfl⟩
      refine (pointerCode_yields result (indexEmits.tidy tidy) hasArray hasIndex sums.1
        sums.2).bind ?_
      rintro ⟨code, pointer⟩ after ⟨emits, hasPointer⟩
      exact Ensures.pure ⟨(arrayEmits.append indexEmits).append emits, hasPointer,
        fun _ => trivial⟩
  | .step note form op operand, context, tidy, explicit => by
      rcases explicit with ⟨marks, operandExplicit, isLvalue, sameType, steps⟩
      rw [LowersFrom, lower]
      refine (lower_yields operand tidy operandExplicit).bind ?_
      rintro ⟨operandCode, place⟩ between ⟨emits, holds, object⟩
      refine (stepPlace_yields result (emits.tidy tidy) holds (object isLvalue) steps).bind ?_
      rintro ⟨code, value⟩ after ⟨codeEmits, hasValue⟩
      exact Ensures.pure (lowered_of_computes result marks (emits.append codeEmits)
        (sameType ▸ hasValue))
  | .sizeofExpr note operand, context, tidy, explicit => by
      rw [LowersFrom, lower]
      refine Ensures.pure (lowered_of_computes result explicit.1 (.nil _) ?_)
      exact explicit.2.2.2 ▸ rfl
  | .sizeofType note operand, context, tidy, explicit => by
      rw [LowersFrom, lower]
      refine Ensures.pure (lowered_of_computes result explicit.1 (.nil _) ?_)
      exact explicit.2.2 ▸ rfl
  | .decay note operand, context, tidy, explicit => by
      rcases explicit with ⟨marks, operandExplicit, size, element, isArray, isPointer⟩
      rw [LowersFrom, lower]
      refine (lower_yields operand tidy operandExplicit).bind ?_
      rintro ⟨operandCode, place⟩ between ⟨emits, holds, _⟩
      rw [isPointer]
      rw [isArray] at holds
      refine (Place.firstElement_yields result (emits.tidy tidy) holds).bind ?_
      rintro ⟨code, pointer⟩ after ⟨codeEmits, hasPointer⟩
      exact Ensures.pure (lowered_of_computes result marks (emits.append codeEmits)
        (isPointer ▸ hasPointer))

/-- The values of explicit arguments have their types. -/
theorem lowerArguments_yields : ∀ (arguments : List Expr) {context : Context}, context.Tidy →
    ExplicitList context.symbols arguments →
    Yields (lowerArguments arguments) context fun made after =>
      context.Emits result made.1 after ∧
        List.Forall₂ (fun value type => value.HasType after.symbols type) made.2
          (arguments.map type)
  | [], context, tidy, _ => by
      rw [lowerArguments]
      exact Ensures.pure ⟨.nil _, .nil⟩
  | argument :: arguments, context, tidy, explicit => by
      rw [lowerArguments]
      refine (value_yields result tidy (lower_yields argument tidy explicit.1)).bind ?_
      rintro ⟨code, value⟩ between ⟨emits, hasValue⟩
      refine (lowerArguments_yields arguments (emits.tidy tidy)
        (ExplicitList.extend emits.extends_ arguments explicit.2)).bind ?_
      rintro ⟨restCode, values⟩ after ⟨restEmits, hasValues⟩
      exact Ensures.pure ⟨emits.append restEmits,
        .cons (Operand.HasType.extend restEmits.extends_ hasValue) hasValues⟩

end

end Expr

end SubsetC
