import SubsetC.Analysis.Typing
import SubsetC.Proofs.Explicit
import SubsetC.Proofs.Outcome
import SubsetC.Proofs.TreeNames

/-!
# Typed expressions

Checking an expression of a source makes it explicit, or fails with a diagnostic. It can fail in
one other way: where the expression mentions a name that has no symbol. There is a statement for
each rule, and `Expr.check_ensures` puts them together.

An expression of function type is the one thing that may come out of a rule without being explicit:
the rule for the operator around it refuses it.
-/

namespace SubsetC

/-! ### Types -/

namespace CType

theorem isValue_of {type : CType} (notArray : type.isArray = false)
    (notFunction : type.isFunction = false) : type.IsValue := by
  cases type <;> simp_all [IsValue, isVoid, isScalar, isArithmetic, isInteger, isDouble, isPointer,
    isArray, isFunction]

theorem isScalar_of_isValue {type : CType} (value : type.IsValue) (notVoid : type.isVoid = false) :
    type.isScalar := by
  simpa [IsValue, notVoid] using value

theorem isScalar_of_isArithmetic {type : CType} (arithmetic : type.isArithmetic) :
    type.isScalar := by
  simp [isScalar, arithmetic]

theorem isScalar_of_isInteger {type : CType} (integer : type.isInteger) : type.isScalar := by
  simp [isScalar, isArithmetic, integer]

theorem isScalar_of_isPointer {type : CType} (pointer : type.isPointer) : type.isScalar := by
  simp [isScalar, pointer]

theorem isPointer_of_isPointerToComplete {type : CType} (complete : type.isPointerToComplete) :
    type.isPointer := by
  cases type <;> simp_all [isPointerToComplete, isPointer]

theorem isFunction_of_isScalar {type : CType} (scalar : type.isScalar) :
    type.isFunction = false := by
  cases type <;> simp_all [isScalar, isArithmetic, isInteger, isDouble, isPointer, isFunction]

theorem isFunction_of_isValue {type : CType} (value : type.IsValue) :
    type.isFunction = false := by
  rcases value with isVoid | isScalar
  · cases type <;> simp_all [CType.isVoid, isFunction]
  · exact isFunction_of_isScalar isScalar

theorem isArray_of_isScalar {type : CType} (scalar : type.isScalar) : type.isArray = false := by
  cases type <;> simp_all [isScalar, isArithmetic, isInteger, isDouble, isPointer, isArray]

theorem ConvertsTo.of_arithmetic {source target : CType} (arithmetic : source.isArithmetic)
    (arithmeticTarget : target.isArithmetic) : source.ConvertsTo target := by
  refine .scalar (isScalar_of_isArithmetic arithmetic) (isScalar_of_isArithmetic arithmeticTarget)
    ?_ ?_
  · cases target <;> simp_all [isPointer, isArithmetic, isInteger, isDouble]
  · cases source <;> simp_all [isPointer, isArithmetic, isInteger, isDouble]

theorem ConvertsTo.of_pointers {source target : CType} (pointer : source.isPointer)
    (pointerTarget : target.isPointer) : source.ConvertsTo target := by
  refine .scalar (isScalar_of_isPointer pointer) (isScalar_of_isPointer pointerTarget) ?_ ?_
  · cases source <;> simp_all [isPointer, isDouble]
  · cases target <;> simp_all [isPointer, isDouble]

theorem ConvertsTo.of_integer_pointer {source target : CType} (integer : source.isInteger)
    (pointer : target.isPointer) : source.ConvertsTo target := by
  refine .scalar (isScalar_of_isInteger integer) (isScalar_of_isPointer pointer) ?_ ?_
  · cases source <;> simp_all [isInteger, isDouble]
  · cases source <;> simp_all [isInteger, isPointer]

theorem ConvertsTo.isValue {source target : CType} (converts : source.ConvertsTo target) :
    target.IsValue := by
  cases converts with
  | toVoid => exact .inl rfl
  | scalar _ scalarTarget => exact .inr scalarTarget

theorem isArithmetic_promote {type : CType} (arithmetic : type.isArithmetic) :
    type.promote.isArithmetic := by
  unfold promote
  split
  · rfl
  · exact arithmetic

theorem isInteger_promote {type : CType} (integer : type.isInteger) : type.promote.isInteger := by
  unfold promote
  split
  · rfl
  · exact integer

theorem isPromoted_promote (type : CType) : type.promote.IsPromoted := by
  unfold IsPromoted promote
  by_cases character : type.isCharacter
  · simp only [character, if_true]
    rfl
  · simp only [character, if_false, Bool.false_eq_true]

/-- The common type of arithmetic types is one of them, promoted, or double. -/
theorem common_mem (left right : CType) : left.common right = left.promote ∨
    left.common right = right.promote ∨ left.common right = .double := by
  simp only [common]
  repeat' split
  all_goals simp

theorem isArithmetic_common {left right : CType} (arithmeticLeft : left.isArithmetic)
    (arithmeticRight : right.isArithmetic) : (left.common right).isArithmetic := by
  rcases common_mem left right with same | same | same
  · exact same ▸ isArithmetic_promote arithmeticLeft
  · exact same ▸ isArithmetic_promote arithmeticRight
  · simp [same, isArithmetic, isDouble]

theorem isPromoted_common (left right : CType) : (left.common right).IsPromoted := by
  rcases common_mem left right with same | same | same
  · exact same ▸ isPromoted_promote left
  · exact same ▸ isPromoted_promote right
  · rw [same]
    rfl

theorem isInteger_of_isArithmetic {type : CType} (arithmetic : type.isArithmetic)
    (notDouble : type.isDouble = false) : type.isInteger := by
  simpa [isArithmetic, notDouble] using arithmetic

end CType

/-! ### What a check may rely on -/

/-- The shared state after tree nodes have been numbered. -/
def Context.Renumbered (context after : Context) : Prop :=
  ∃ lastId, after = { context with lastId }

namespace Context.Renumbered

theorem refl (context : Context) : context.Renumbered context := ⟨context.lastId, rfl⟩

theorem next (context : Context) :
    context.Renumbered { context with lastId := context.lastId + 1 } := ⟨_, rfl⟩

theorem trans {first second third : Context} (earlier : first.Renumbered second)
    (later : second.Renumbered third) : first.Renumbered third := by
  rcases earlier with ⟨_, rfl⟩
  rcases later with ⟨lastId, rfl⟩
  exact ⟨lastId, rfl⟩

theorem symbols {context after : Context} (renumbered : context.Renumbered after) :
    after.symbols = context.symbols := by
  rcases renumbered with ⟨_, rfl⟩
  rfl

end Context.Renumbered

/-- The failures of checking an expression that mentions some names: diagnostics, and names without
a symbol. -/
structure Admits (allowed : Failure → Prop) (table : SymbolTable) (names : List Text) : Prop where
  diagnostics : ∀ failure, Failure.IsDiagnostic failure → allowed failure
  /-- A mentioned name without a symbol may be reported. -/
  undeclared : ∀ name ∈ names, table.find? name = none → allowed (.internal (.undeclared name))

theorem Admits.mono {allowed : Failure → Prop} {table : SymbolTable} {names more : List Text}
    (admits : Admits allowed table more) (subset : names ⊆ more) : Admits allowed table names :=
  ⟨admits.diagnostics, fun name mem => admits.undeclared name (subset mem)⟩

theorem Note.marks_typed (note : Note) (type : CType) (isLvalue : Bool)
    (notFunction : type.isFunction = false) : (note.typed type isLvalue).Marks isLvalue :=
  ⟨rfl, rfl, notFunction⟩

namespace Expr

variable {table : SymbolTable} {context : Context} {allowed : Failure → Prop}
  (diagnostics : ∀ failure, Failure.IsDiagnostic failure → allowed failure)

/-! ### Conversions -/

/-- A conversion gives a value of the type that is asked for. -/
theorem convertTo_ensures {expr : Expr} {target : CType} (value : expr.IsValue table)
    (converts : expr.type ≠ target → expr.type.ConvertsTo target) :
    Ensures (expr.convertTo target) context allowed fun converted after =>
      context.Renumbered after ∧ converted.IsValue table ∧ converted.type = target := by
  unfold convertTo
  refine Ensures.ite ?_ ?_
  · intro same
    exact Ensures.pure ⟨.refl _, value, same⟩
  · intro differ
    have converts := converts differ
    have notFunction := CType.isFunction_of_isValue converts.isValue
    refine Ensures.bind_ok (Pass.run_newLoc _ _) ?_
    exact Ensures.pure
      ⟨.next _, ⟨⟨⟨rfl, rfl, notFunction⟩, value.1, rfl, converts⟩, converts.isValue⟩, rfl⟩

theorem isInteger_of_isNullPointer {expr : Expr} (explicit : expr.Explicit table)
    (null : expr.isNullPointer) : expr.type.isInteger := by
  cases expr with
  | constant note constant =>
      simp only [isNullPointer, Bool.and_eq_true] at null
      simp only [Explicit] at explicit
      have sameType : type (.constant note constant) = constant.type := explicit.2
      exact sameType ▸ null.1
  | _ => simp [isNullPointer] at null

theorem convertsTo_of_isAssignableTo {expr : Expr} {target : CType} (explicit : expr.Explicit table)
    (assignable : expr.isAssignableTo target) (differ : expr.type ≠ target) :
    expr.type.ConvertsTo target := by
  have pointerOfVoid : ∀ {type : CType}, type.isVoidPointer → type.isPointer := by
    intro type isVoidPointer
    cases type <;> simp_all [CType.isVoidPointer, CType.isPointer]
  simp only [isAssignableTo, Bool.or_eq_true, Bool.and_eq_true, decide_eq_true_eq, differ,
    false_or] at assignable
  rcases assignable with ((⟨source, goal⟩ | ⟨goal, null⟩) | ⟨goal, source⟩) | ⟨source, goal⟩
  · exact .of_arithmetic source goal
  · exact .of_integer_pointer (isInteger_of_isNullPointer explicit null) goal
  · exact .of_pointers source (pointerOfVoid goal)
  · exact .of_pointers (pointerOfVoid source) goal

include diagnostics

/-- Where a value is used, arrays are replaced by pointers and functions are refused. -/
theorem toValue_ensures {expr : Expr}
    (explicit : expr.type.isFunction = false → expr.Explicit table) :
    Ensures expr.toValue context allowed fun value after =>
      context.Renumbered after ∧ value.IsValue table := by
  unfold toValue
  split
  · rename_i size element isArray
    have explicit := explicit (by simp [isArray, CType.isFunction])
    refine Ensures.bind_ok (Pass.run_newLoc _ _) ?_
    exact Ensures.pure
      ⟨.next _, ⟨⟨rfl, rfl, rfl⟩, explicit, size, element, isArray, rfl⟩, .inr rfl⟩
  · exact Ensures.typeError diagnostics
  · rename_i notArray notFunction
    have isArray : expr.type.isArray = false := by
      cases shape : expr.type <;> simp_all [CType.isArray]
    have isFunction : expr.type.isFunction = false := by
      cases shape : expr.type <;> simp_all [CType.isFunction]
    exact Ensures.pure ⟨.refl _, explicit isFunction, CType.isValue_of isArray isFunction⟩

theorem assignTo_ensures {expr : Expr} {target : CType} (value : expr.IsValue table) :
    Ensures (expr.assignTo target) context allowed fun converted after =>
      context.Renumbered after ∧ converted.IsValue table ∧ converted.type = target := by
  unfold assignTo
  refine Ensures.ite ?_ (fun _ => Ensures.typeError diagnostics)
  intro assignable
  exact convertTo_ensures value (convertsTo_of_isAssignableTo value.1 assignable)

/-- The type two values agree on, one of which is a pointer, is a pointer type that both convert
to. -/
theorem commonPointer_ensures {span : Span} {left right : Expr} (leftValue : left.IsValue table)
    (rightValue : right.IsValue table)
    (onePointer : left.type.isPointer ∨ right.type.isPointer) :
    Ensures (commonPointer span left right) context allowed fun common after =>
      context = after ∧ common.isPointer ∧ (left.type ≠ common → left.type.ConvertsTo common) ∧
        (right.type ≠ common → right.type.ConvertsTo common) := by
  have notBoth : ∀ {type : CType}, type.isInteger → ¬type.isPointer := by
    intro type integer
    cases type <;> simp_all [CType.isInteger, CType.isPointer]
  unfold commonPointer commonPointer?
  by_cases same : left.type = right.type
  · simp only [same, if_true]
    refine Ensures.pure ⟨rfl, ?_, fun differ => absurd rfl differ, fun differ => absurd rfl differ⟩
    simpa [same] using onePointer
  · rw [if_neg same]
    by_cases leftNull : left.isNullPointer
    · have integer := isInteger_of_isNullPointer leftValue.1 leftNull
      have pointer := onePointer.resolve_left (notBoth integer)
      simp only [leftNull, if_true]
      exact Ensures.pure
        ⟨rfl, pointer, fun _ => .of_integer_pointer integer pointer, fun differ => absurd rfl differ⟩
    · rw [if_neg leftNull]
      by_cases rightNull : right.isNullPointer
      · have integer := isInteger_of_isNullPointer rightValue.1 rightNull
        have pointer := onePointer.resolve_right (notBoth integer)
        simp only [rightNull, if_true]
        exact Ensures.pure ⟨rfl, pointer, fun differ => absurd rfl differ,
          fun _ => .of_integer_pointer integer pointer⟩
      · rw [if_neg rightNull]
        by_cases absorbs : (left.type.isVoidPointer && right.type.isPointer ||
            right.type.isVoidPointer && left.type.isPointer) = true
        · have pointers : left.type.isPointer ∧ right.type.isPointer := by
            cases leftShape : left.type <;> cases rightShape : right.type <;>
              simp_all [CType.isVoidPointer, CType.isPointer]
          simp only [absorbs, if_true]
          exact Ensures.pure
            ⟨rfl, rfl, fun _ => .of_pointers pointers.1 rfl, fun _ => .of_pointers pointers.2 rfl⟩
        · rw [if_neg absorbs]
          exact Ensures.typeError diagnostics

/-! ### Operators -/

omit diagnostics in
theorem ofConverted_ensures {note : Note} {op : BinaryOp} {type leftType rightType : CType}
    {left right : Expr} (leftValue : left.IsValue table) (rightValue : right.IsValue table)
    (leftConverts : left.type ≠ leftType → left.type.ConvertsTo leftType)
    (rightConverts : right.type ≠ rightType → right.type.ConvertsTo rightType)
    (types : op.HasTypes leftType rightType type) (notFunction : type.isFunction = false) :
    Ensures (ofConverted note op type leftType rightType left right) context allowed
      fun typed after => context.Renumbered after ∧ typed.Explicit table := by
  unfold ofConverted
  refine (convertTo_ensures leftValue leftConverts).bind ?_
  rintro left' between ⟨first, leftValue', rfl⟩
  refine (convertTo_ensures rightValue rightConverts).bind ?_
  rintro right' after ⟨second, rightValue', rfl⟩
  exact Ensures.pure ⟨first.trans second,
    note.marks_typed type false notFunction, leftValue'.1, rightValue'.1, types⟩

theorem ofUnary_ensures {note : Note} {op : UnaryOp} {operand : Expr}
    (value : operand.IsValue table) :
    Ensures (ofUnary note op operand) context allowed fun typed after =>
      context.Renumbered after ∧ typed.Explicit table := by
  have promotes : operand.type.isArithmetic → operand.type ≠ operand.type.promote →
      operand.type.ConvertsTo operand.type.promote :=
    fun arithmetic _ => .of_arithmetic arithmetic (CType.isArithmetic_promote arithmetic)
  have promoted := CType.isPromoted_promote operand.type
  unfold ofUnary
  refine Ensures.ite (fun _ => Ensures.typeError diagnostics) ?_
  intro accepts
  simp only [Bool.not_eq_true', Bool.not_eq_false] at accepts
  refine Ensures.ite ?_ ?_
  · rintro rfl
    exact Ensures.pure ⟨.refl _, note.marks_typed _ _ rfl, value.1, .not accepts⟩
  · intro notNot
    have arithmetic : operand.type.isArithmetic := by
      cases op <;> simp_all [acceptsOperand, CType.isArithmetic]
    refine (convertTo_ensures value (promotes arithmetic)).bind ?_
    rintro operand' after ⟨renumbered, value', sameType⟩
    have scalar := CType.isScalar_of_isArithmetic (CType.isArithmetic_promote arithmetic)
    refine Ensures.pure ⟨renumbered,
      note.marks_typed _ _ (CType.isFunction_of_isScalar scalar), value'.1, ?_⟩
    rw [sameType]
    cases op with
    | not => exact absurd rfl notNot
    | complement => exact .complement (CType.isInteger_promote accepts) promoted
    | negate => exact .sign (.inl rfl) (CType.isArithmetic_promote accepts) promoted
    | plus => exact .sign (.inr rfl) (CType.isArithmetic_promote accepts) promoted

section Binary

variable {note : Note} {left right : Expr} (leftValue : left.IsValue table)
  (rightValue : right.IsValue table)

include leftValue rightValue

theorem ofShift_ensures {op : ArithOp} (isShift : op.isShift) :
    Ensures (ofShift note op left right) context allowed fun typed after =>
      context.Renumbered after ∧ typed.Explicit table := by
  unfold ofShift
  refine Ensures.ite ?_ (fun _ => Ensures.typeError diagnostics)
  intro integers
  rcases Bool.and_eq_true_iff.1 integers with ⟨leftInteger, rightInteger⟩
  have promotes : ∀ {type : CType}, type.isInteger → type.ConvertsTo type.promote := by
    intro type integer
    exact .of_arithmetic (by simp [CType.isArithmetic, integer])
      (by simp [CType.isArithmetic, CType.isInteger_promote integer])
  refine ofConverted_ensures leftValue rightValue (fun _ => promotes leftInteger)
    (fun _ => promotes rightInteger) (.arith (.shift isShift ?_ ?_ ?_ ?_)) ?_
  · exact CType.isInteger_promote leftInteger
  · exact CType.isPromoted_promote _
  · exact CType.isInteger_promote rightInteger
  · exact CType.isPromoted_promote _
  · exact CType.isFunction_of_isScalar
      (CType.isScalar_of_isInteger (CType.isInteger_promote leftInteger))

theorem ofArithmetic_ensures {op : ArithOp} (noShift : op.isShift = false)
    (leftArithmetic : left.type.isArithmetic) (rightArithmetic : right.type.isArithmetic) :
    Ensures (ofArithmetic note op left right) context allowed fun typed after =>
      context.Renumbered after ∧ typed.Explicit table := by
  have arithmetic := CType.isArithmetic_common leftArithmetic rightArithmetic
  unfold ofArithmetic
  refine Ensures.ite (fun _ => Ensures.typeError diagnostics) ?_
  intro accepted
  refine ofConverted_ensures leftValue rightValue (fun _ => .of_arithmetic leftArithmetic arithmetic)
    (fun _ => .of_arithmetic rightArithmetic arithmetic)
    (.arith (.arithmetic noShift arithmetic (CType.isPromoted_common _ _) ?_)) ?_
  · intro integral
    refine CType.isInteger_of_isArithmetic arithmetic ?_
    simpa [integral] using accepted
  · exact CType.isFunction_of_isScalar (CType.isScalar_of_isArithmetic arithmetic)

theorem ofPointerArithmetic_ensures {op : ArithOp} :
    Ensures (ofPointerArithmetic note op left right) context allowed fun typed after =>
      context.Renumbered after ∧ typed.Explicit table := by
  have long : ∀ {type : CType}, type.isInteger → type.ConvertsTo .long := by
    intro type integer
    exact .of_arithmetic (by simp [CType.isArithmetic, integer]) rfl
  have noFunction : ∀ {type : CType}, type.isPointerToComplete → type.isFunction = false :=
    fun complete => CType.isFunction_of_isScalar
      (CType.isScalar_of_isPointer (CType.isPointer_of_isPointerToComplete complete))
  unfold ofPointerArithmetic
  refine Ensures.ite ?_ ?_
  · intro condition
    simp only [Bool.and_eq_true, Bool.or_eq_true, decide_eq_true_eq] at condition
    rcases condition with ⟨⟨isSum, complete⟩, integer⟩
    exact ofConverted_ensures leftValue rightValue (fun differ => absurd rfl differ)
      (fun _ => long integer) (.arith (.offset isSum complete)) (noFunction complete)
  intro _
  refine Ensures.ite ?_ ?_
  · intro condition
    simp only [Bool.and_eq_true, decide_eq_true_eq] at condition
    rcases condition with ⟨⟨rfl, integer⟩, complete⟩
    exact ofConverted_ensures leftValue rightValue (fun _ => long integer)
      (fun differ => absurd rfl differ) (.arith (.offsetOf complete)) (noFunction complete)
  intro _
  refine Ensures.ite ?_ (fun _ => Ensures.typeError diagnostics)
  intro condition
  simp only [Bool.and_eq_true, decide_eq_true_eq] at condition
  rcases condition with ⟨⟨rfl, complete⟩, same⟩
  refine ofConverted_ensures leftValue rightValue (fun differ => absurd rfl differ)
    (fun differ => absurd rfl differ) ?_ rfl
  rw [← same]
  exact .arith (.difference complete)

theorem ofPointerComparison_ensures {op : CompareOp}
    (notBoth : ¬(left.type.isArithmetic ∧ right.type.isArithmetic)) :
    Ensures (ofPointerComparison note op left right) context allowed fun typed after =>
      context.Renumbered after ∧ typed.Explicit table := by
  have arithmeticOfNull : ∀ {expr : Expr}, expr.IsValue table → expr.isPointerOperand op →
      expr.type.isPointer ∨ expr.type.isArithmetic := by
    intro expr value operand
    simp only [isPointerOperand, Bool.or_eq_true, Bool.and_eq_true] at operand
    rcases operand with pointer | ⟨_, null⟩
    · exact .inl pointer
    · exact .inr (by simp [CType.isArithmetic, isInteger_of_isNullPointer value.1 null])
  unfold ofPointerComparison
  refine Ensures.ite ?_ (fun _ => Ensures.typeError diagnostics)
  intro operands
  rcases Bool.and_eq_true_iff.1 operands with ⟨leftOperand, rightOperand⟩
  have onePointer : left.type.isPointer ∨ right.type.isPointer := by
    rcases arithmeticOfNull leftValue leftOperand with pointer | leftArithmetic
    · exact .inl pointer
    · rcases arithmeticOfNull rightValue rightOperand with pointer | rightArithmetic
      · exact .inr pointer
      · exact absurd ⟨leftArithmetic, rightArithmetic⟩ notBoth
  refine (commonPointer_ensures diagnostics leftValue rightValue onePointer).bind ?_
  rintro common after ⟨rfl, pointer, leftConverts, rightConverts⟩
  exact ofConverted_ensures leftValue rightValue leftConverts rightConverts
    (.comparePointers pointer) rfl

theorem ofBinary_ensures {op : BinaryOp} :
    Ensures (ofBinary note op left right) context allowed fun typed after =>
      context.Renumbered after ∧ typed.Explicit table := by
  unfold ofBinary
  cases op with
  | logic op =>
      refine Ensures.ite ?_ (fun _ => Ensures.typeError diagnostics)
      intro scalars
      rcases Bool.and_eq_true_iff.1 scalars with ⟨leftScalar, rightScalar⟩
      exact Ensures.pure ⟨.refl _, note.marks_typed _ _ rfl, leftValue.1, rightValue.1,
        .logic leftScalar rightScalar⟩
  | arith op =>
      refine Ensures.ite (ofShift_ensures diagnostics leftValue rightValue) ?_
      intro noShift
      refine Ensures.ite ?_ (fun _ => ofPointerArithmetic_ensures diagnostics leftValue rightValue)
      intro arithmetic
      rcases Bool.and_eq_true_iff.1 arithmetic with ⟨leftArithmetic, rightArithmetic⟩
      exact ofArithmetic_ensures diagnostics leftValue rightValue (by simpa using noShift)
        leftArithmetic rightArithmetic
  | compare op =>
      refine Ensures.ite ?_ ?_
      · intro both
        rcases Bool.and_eq_true_iff.1 both with ⟨leftArithmetic, rightArithmetic⟩
        have arithmetic := CType.isArithmetic_common leftArithmetic rightArithmetic
        exact ofConverted_ensures leftValue rightValue
          (fun _ => .of_arithmetic leftArithmetic arithmetic)
          (fun _ => .of_arithmetic rightArithmetic arithmetic)
          (.compareArithmetic arithmetic (CType.isPromoted_common _ _)) rfl
      · intro notBoth
        refine ofPointerComparison_ensures diagnostics leftValue rightValue ?_
        simpa [Bool.and_eq_true] using notBoth

end Binary

/-! ### Objects -/

omit diagnostics in
/-- An object that an explicit expression designates has a size, unless it lies behind a pointer to
something that has none; it is never void. -/
theorem isVoid_of_isLvalue {expr : Expr} (explicit : expr.Explicit table)
    (isLvalue : expr.isLvalue) : expr.type.isVoid = false := by
  have ofComplete : ∀ {type : CType}, type.isComplete → type.isVoid = false := by
    intro type complete
    cases type <;> simp_all [CType.isComplete, CType.isVoid]
  cases expr with
  | string note bytes =>
      simp only [Explicit] at explicit
      have sameType : type (.string note bytes) = .array (bytes.length + 1) .char := explicit.2
      rw [sameType]
      rfl
  | var note name =>
      simp only [Explicit] at explicit
      exact ofComplete explicit.2.1
  | dereference note operand =>
      simp only [Explicit] at explicit
      exact explicit.2.2.2
  | subscript note array index =>
      simp only [Explicit] at explicit
      exact ofComplete explicit.2.2.2.1
  | constant | unary | binary | assign | conditional | call | cast | addressOf | step | sizeofExpr
  | sizeofType | decay =>
      simp only [Explicit] at explicit
      have category := explicit.1.category
      simp_all [Expr.isLvalue, Expr.note]

theorem checkAssignable_ensures {span : Span} {expr : Expr} :
    Ensures (expr.checkAssignable span) context allowed fun _ after =>
      context = after ∧ expr.type.isArray = false ∧ expr.isLvalue := by
  unfold checkAssignable
  refine Ensures.ite (fun _ => Ensures.typeError diagnostics) ?_
  intro notArray
  refine Ensures.ite (fun _ => Ensures.typeError diagnostics) ?_
  intro isLvalue
  exact Ensures.pure ⟨rfl, by simpa using notArray, by simpa using isLvalue⟩

omit diagnostics in
theorem hasTypes_of_compoundTypes? {op : ArithOp} {type rightType opType target : CType}
    (found : compoundTypes? op type rightType = some (opType, target)) :
    AssignOp.HasTypes (.compound op) type target (some opType) ∧ rightType.isArithmetic ∧
      target.isArithmetic := by
  simp only [compoundTypes?] at found
  split at found
  · split at found
    · rename_i pointer condition
      simp only [Bool.and_eq_true, Bool.or_eq_true, decide_eq_true_eq] at condition
      cases found
      exact ⟨.offset condition.1.1 condition.2, by simp [CType.isArithmetic, condition.1.2], rfl⟩
    · cases found
  · split at found
    · cases found
    rename_i notPointer arithmetic
    simp only [Bool.or_eq_true, Bool.not_eq_true', not_or, Bool.not_eq_false] at arithmetic
    split at found
    · split at found
      · rename_i isShift integers
        rcases Bool.and_eq_true_iff.1 integers with ⟨leftInteger, rightInteger⟩
        cases found
        exact ⟨.shift isShift leftInteger (CType.isInteger_promote rightInteger)
          (CType.isPromoted_promote _), arithmetic.2, CType.isArithmetic_promote arithmetic.2⟩
      · cases found
    · rename_i noShift
      split at found
      · cases found
      · rename_i accepted
        cases found
        have common := CType.isArithmetic_common arithmetic.1 arithmetic.2
        refine ⟨.arithmetic (by simpa using noShift) arithmetic.1 common
          (CType.isPromoted_common _ _) ?_, arithmetic.2, common⟩
        intro integral
        refine CType.isInteger_of_isArithmetic common ?_
        simpa [integral] using accepted

/-- An object of function type cannot be assigned to, since no value has such a type. -/
theorem ofAssign_ensures {note : Note} {op : AssignOp} {left right : Expr}
    {opType : Option CType} (explicit : left.type.isFunction = false → left.Explicit table)
    (notArray : left.type.isArray = false) (isLvalue : left.isLvalue)
    (rightValue : right.IsValue table) :
    Ensures (ofAssign note op left right opType) context allowed fun typed after =>
      context.Renumbered after ∧ typed.Explicit table := by
  have marks : left.type.isFunction = false → (note.typed left.type false).Marks false :=
    note.marks_typed left.type false
  have scalar : left.type.isFunction = false → left.type.isScalar := fun notFunction =>
    CType.isScalar_of_isValue (CType.isValue_of notArray notFunction)
      (isVoid_of_isLvalue (explicit notFunction) isLvalue)
  unfold ofAssign
  cases op with
  | plain =>
      refine (assignTo_ensures diagnostics rightValue).bind ?_
      rintro right' after ⟨renumbered, rightValue', sameType⟩
      have notFunction : left.type.isFunction = false :=
        CType.isFunction_of_isValue (sameType ▸ rightValue'.2)
      refine Ensures.pure ⟨renumbered, marks notFunction, explicit notFunction, rightValue'.1,
        isLvalue, rfl, ?_⟩
      rw [sameType]
      exact .plain (scalar notFunction)
  | compound arith =>
      dsimp only
      split
      · exact Ensures.typeError diagnostics
      · rename_i opType target found
        rcases hasTypes_of_compoundTypes? found with ⟨types, source, goal⟩
        have notFunction : left.type.isFunction = false := by
          cases shape : left.type <;>
            simp_all [compoundTypes?, CType.isPointer, CType.isArithmetic, CType.isInteger,
              CType.isDouble, CType.isFunction]
        refine (convertTo_ensures rightValue fun _ => .of_arithmetic source goal).bind ?_
        rintro right' after ⟨renumbered, rightValue', sameType⟩
        refine Ensures.pure ⟨renumbered, marks notFunction, explicit notFunction, rightValue'.1,
          isLvalue, rfl, ?_⟩
        rw [sameType]
        exact types

theorem branchType_ensures {span : Span} {thenBranch elseBranch : Expr}
    (thenValue : thenBranch.IsValue table) (elseValue : elseBranch.IsValue table) :
    Ensures (branchType span thenBranch elseBranch) context allowed fun common after =>
      context = after ∧ common.IsValue ∧
        (thenBranch.type ≠ common → thenBranch.type.ConvertsTo common) ∧
        (elseBranch.type ≠ common → elseBranch.type.ConvertsTo common) := by
  have void : ∀ {type : CType}, type.isVoid → type = .void := by
    intro type isVoid
    cases type <;> simp_all [CType.isVoid]
  unfold branchType
  refine Ensures.ite ?_ ?_
  · intro voids
    rcases Bool.and_eq_true_iff.1 voids with ⟨thenVoid, elseVoid⟩
    exact Ensures.pure ⟨rfl, .inl rfl, fun differ => absurd (void thenVoid) differ,
      fun differ => absurd (void elseVoid) differ⟩
  intro _
  refine Ensures.ite ?_ ?_
  · intro both
    rcases Bool.and_eq_true_iff.1 both with ⟨thenArithmetic, elseArithmetic⟩
    have arithmetic := CType.isArithmetic_common thenArithmetic elseArithmetic
    exact Ensures.pure ⟨rfl, .inr (CType.isScalar_of_isArithmetic arithmetic),
      fun _ => .of_arithmetic thenArithmetic arithmetic,
      fun _ => .of_arithmetic elseArithmetic arithmetic⟩
  intro _
  refine Ensures.ite ?_ (fun _ => Ensures.typeError diagnostics)
  intro onePointer
  refine (commonPointer_ensures diagnostics thenValue elseValue
    (by simpa using onePointer)).mono ?_
  rintro common after ⟨rfl, pointer, converts⟩
  exact ⟨rfl, .inr (CType.isScalar_of_isPointer pointer), converts⟩

theorem ofConditional_ensures {note : Note} {condition thenBranch elseBranch : Expr}
    (isCondition : condition.IsCondition table) (thenValue : thenBranch.IsValue table)
    (elseValue : elseBranch.IsValue table) :
    Ensures (ofConditional note condition thenBranch elseBranch) context allowed
      fun typed after => context.Renumbered after ∧ typed.Explicit table := by
  unfold ofConditional
  refine (branchType_ensures diagnostics thenValue elseValue).bind ?_
  rintro common after ⟨rfl, value, thenConverts, elseConverts⟩
  refine (convertTo_ensures thenValue thenConverts).bind ?_
  rintro thenBranch' between ⟨first, thenValue', thenType⟩
  refine (convertTo_ensures elseValue elseConverts).bind ?_
  rintro elseBranch' after ⟨second, elseValue', elseType⟩
  exact Ensures.pure ⟨first.trans second,
    note.marks_typed _ _ (CType.isFunction_of_isValue value), isCondition.1,
    thenValue'.1, elseValue'.1, isCondition.2, thenType, elseType, value⟩

theorem checkCondition_ensures {expr : Expr} (value : expr.IsValue table) :
    Ensures expr.checkCondition context allowed fun condition after =>
      context = after ∧ condition.IsCondition table := by
  unfold checkCondition
  refine Ensures.ite ?_ (fun _ => Ensures.typeError diagnostics)
  intro scalar
  exact Ensures.pure ⟨rfl, value.1, scalar⟩

theorem calleeTypes_ensures {span : Span} {name : Text} {count : Nat}
    (undeclared : context.symbols.find? name = none → allowed (.internal (.undeclared name))) :
    Ensures (calleeTypes span name count) context allowed fun callee after =>
      context = after ∧ (context.symbols.find? name).isSome ∧ callee.1.length = count ∧
        context.symbols.HasFunction name callee.1 callee.2 := by
  unfold calleeTypes
  refine Ensures.bind_ok (Pass.run_findSymbol? _ _) ?_
  split
  · rename_i absent
    exact Ensures.throw (undeclared absent)
  · rename_i found
    refine Ensures.ite ?_ (fun _ => Ensures.typeError diagnostics)
    intro count
    exact Ensures.pure ⟨rfl, by simp [found], count, _, found, rfl, rfl⟩
  · exact Ensures.typeError diagnostics

end Expr

mutual

/-- The types that pass have elements with a size in all arrays inside. -/
theorem CType.checkElements_ensures {span : Span} {context : Context} {allowed : Failure → Prop}
    (diagnostics : ∀ failure, Failure.IsDiagnostic failure → allowed failure) :
    ∀ type : CType, Ensures (type.checkElements span) context allowed fun _ after =>
      context = after ∧ (type.isVoid = false → type.isComplete ∨ type.isFunction)
  | .void => by
      rw [CType.checkElements]
      exact Ensures.pure ⟨rfl, fun notVoid => by simp [CType.isVoid] at notVoid⟩
  | .integer _ | .double => by
      rw [CType.checkElements]
      exact Ensures.pure ⟨rfl, fun _ => .inl rfl⟩
  | .pointer element => by
      rw [CType.checkElements]
      refine (CType.checkElements_ensures diagnostics element).mono ?_
      rintro _ after ⟨rfl, _⟩
      exact ⟨rfl, fun _ => .inl rfl⟩
  | .array size element => by
      rw [CType.checkElements]
      refine Ensures.ite ?_ (fun _ => Ensures.typeError diagnostics)
      intro complete
      refine (CType.checkElements_ensures diagnostics element).mono ?_
      rintro _ after ⟨rfl, _⟩
      exact ⟨rfl, fun _ => .inl complete⟩
  | .function parameters result => by
      rw [CType.checkElements]
      refine (CType.checkElementsList_ensures diagnostics parameters).bind ?_
      rintro _ after rfl
      refine (CType.checkElements_ensures diagnostics result).mono ?_
      rintro _ after ⟨rfl, _⟩
      exact ⟨rfl, fun _ => .inr rfl⟩

theorem CType.checkElementsList_ensures {span : Span} {context : Context}
    {allowed : Failure → Prop}
    (diagnostics : ∀ failure, Failure.IsDiagnostic failure → allowed failure) :
    ∀ types : List CType, Ensures (CType.checkElements.checkList span types) context allowed
      fun _ after => context = after
  | [] => by
      rw [CType.checkElements.checkList]
      exact Ensures.pure rfl
  | type :: types => by
      rw [CType.checkElements.checkList]
      refine (CType.checkElements_ensures diagnostics type).bind ?_
      rintro _ after ⟨rfl, _⟩
      exact CType.checkElementsList_ensures diagnostics types

end

namespace Expr

variable {table : SymbolTable} {context : Context} {allowed : Failure → Prop}
  (diagnostics : ∀ failure, Failure.IsDiagnostic failure → allowed failure)

include diagnostics

theorem checkCastTarget_ensures {span : Span} {target : CType} :
    Ensures (checkCastTarget span target) context allowed fun _ after =>
      context = after ∧ target.IsValue := by
  unfold checkCastTarget
  refine Ensures.ite (fun _ => Ensures.typeError diagnostics) ?_
  intro notArray
  refine Ensures.ite (fun _ => Ensures.typeError diagnostics) ?_
  intro notFunction
  refine (CType.checkElements_ensures diagnostics target).mono ?_
  rintro _ after ⟨rfl, _⟩
  exact ⟨rfl, CType.isValue_of (by simpa using notArray) (by simpa using notFunction)⟩

theorem ofCast_ensures {note : Note} {target : CType} {operand : Expr} {isImplicit : Bool}
    (targetValue : target.IsValue) (value : operand.IsValue table) :
    Ensures (ofCast note target operand isImplicit) context allowed fun typed after =>
      context.Renumbered after ∧ typed.Explicit table := by
  have notFunction := CType.isFunction_of_isValue targetValue
  unfold ofCast
  refine Ensures.ite (fun _ => Ensures.typeError diagnostics) ?_
  intro notFromVoid
  refine Ensures.ite (fun _ => Ensures.typeError diagnostics) ?_
  intro notBetween
  refine Ensures.pure ⟨.refl _, note.marks_typed _ _ notFunction, value.1, rfl, ?_⟩
  cases isVoid : target.isVoid with
  | true =>
      obtain rfl : target = .void := by
        cases target <;> simp_all [CType.isVoid]
      exact .toVoid value.2
  | false =>
      simp only [isVoid, Bool.not_false, Bool.true_and] at notFromVoid
      simp only [Bool.or_eq_true, Bool.and_eq_true, not_or] at notBetween
      exact .scalar (CType.isScalar_of_isValue value.2 (by simpa using notFromVoid))
        (CType.isScalar_of_isValue targetValue isVoid) notBetween.1 notBetween.2

theorem ofAddress_ensures {note : Note} {operand : Expr}
    (explicit : operand.type.isFunction = false → operand.Explicit table) :
    Ensures (ofAddress note operand) context allowed fun typed after =>
      context.Renumbered after ∧ typed.Explicit table := by
  unfold ofAddress
  refine Ensures.ite (fun _ => Ensures.typeError diagnostics) ?_
  intro notFunction
  refine Ensures.ite (fun _ => Ensures.typeError diagnostics) ?_
  intro isLvalue
  exact Ensures.pure ⟨.refl _, note.marks_typed _ _ rfl, explicit (by simpa using notFunction),
    by simpa using isLvalue, rfl⟩

theorem ofDereference_ensures {note : Note} {operand : Expr} (value : operand.IsValue table) :
    Ensures (ofDereference note operand) context allowed fun typed after =>
      context.Renumbered after ∧ (typed.type.isFunction = false → typed.Explicit table) := by
  unfold ofDereference
  split
  · exact Ensures.typeError diagnostics
  · rename_i element notVoid isPointer
    refine Ensures.pure ⟨.refl _, fun notFunction => ?_⟩
    refine ⟨note.marks_typed _ _ notFunction, value.1, isPointer, ?_⟩
    change element.isVoid = false
    cases element <;> simp_all [CType.isVoid]
  · exact Ensures.typeError diagnostics

theorem ofSubscript_ensures {note : Note} {array index : Expr} (arrayValue : array.IsValue table)
    (indexValue : index.IsValue table) :
    Ensures (ofSubscript note array index) context allowed fun typed after =>
      context.Renumbered after ∧ (typed.type.isFunction = false → typed.Explicit table) := by
  have long : ∀ {type : CType}, type.isInteger → type.ConvertsTo .long := by
    intro type integer
    exact .of_arithmetic (by simp [CType.isArithmetic, integer]) rfl
  have pointee : ∀ {type : CType}, type.isPointerToComplete →
      ∃ element, type = .pointer element ∧ element.isComplete := by
    intro type complete
    cases type <;> simp_all [CType.isPointerToComplete]
  unfold ofSubscript
  refine Ensures.ite ?_ ?_
  · intro condition
    rcases Bool.and_eq_true_iff.1 condition with ⟨complete, integer⟩
    rcases pointee complete with ⟨element, isPointer, completeElement⟩
    refine (convertTo_ensures indexValue fun _ => long integer).bind ?_
    rintro index' after ⟨renumbered, indexValue', indexType⟩
    refine Ensures.pure ⟨renumbered, fun notFunction => ?_⟩
    simp only [isPointer, CType.element?, Option.getD_some] at notFunction ⊢
    exact ⟨note.marks_typed _ _ notFunction, arrayValue.1, indexValue'.1, completeElement,
      .inl ⟨isPointer, indexType⟩⟩
  intro _
  refine Ensures.ite ?_ (fun _ => Ensures.typeError diagnostics)
  intro condition
  rcases Bool.and_eq_true_iff.1 condition with ⟨integer, complete⟩
  rcases pointee complete with ⟨element, isPointer, completeElement⟩
  refine (convertTo_ensures arrayValue fun _ => long integer).bind ?_
  rintro array' after ⟨renumbered, arrayValue', arrayType⟩
  refine Ensures.pure ⟨renumbered, fun notFunction => ?_⟩
  simp only [isPointer, CType.element?, Option.getD_some] at notFunction ⊢
  exact ⟨note.marks_typed _ _ notFunction, arrayValue'.1, indexValue.1, completeElement,
    .inr ⟨arrayType, isPointer⟩⟩

theorem ofStep_ensures {note : Note} {form : StepForm} {op : StepOp} {operand : Expr}
    (explicit : operand.type.isFunction = false → operand.Explicit table) :
    Ensures (ofStep note form op operand) context allowed fun typed after =>
      context.Renumbered after ∧ typed.Explicit table := by
  unfold ofStep
  refine (checkAssignable_ensures diagnostics).bind ?_
  rintro _ after ⟨rfl, _, isLvalue⟩
  refine Ensures.ite ?_ (fun _ => Ensures.typeError diagnostics)
  intro steps
  simp only [Bool.or_eq_true] at steps
  have notFunction : operand.type.isFunction = false := by
    refine CType.isFunction_of_isScalar ?_
    rcases steps with arithmetic | complete
    · exact CType.isScalar_of_isArithmetic arithmetic
    · exact CType.isScalar_of_isPointer (CType.isPointer_of_isPointerToComplete complete)
  exact Ensures.pure ⟨.refl _, note.marks_typed _ _ notFunction, explicit notFunction, isLvalue, rfl,
    steps⟩

theorem checkSized_ensures {span : Span} {type : CType} :
    Ensures (checkSized span type) context allowed fun _ after =>
      context = after ∧ type.isComplete := by
  unfold checkSized
  refine Ensures.ite (fun complete => Ensures.pure ⟨rfl, complete⟩) ?_
  exact fun _ => Ensures.typeError diagnostics

end Expr

/-! ### Expressions -/

/-- Where a check of a part of a tree that mentions some names leaves the shared state: only nodes
have been numbered, and all the names have symbols. -/
structure Context.Checks (table : SymbolTable) (names : List Text) (context after : Context) :
    Prop where
  /-- Nodes have been numbered. -/
  renumbered : context.Renumbered after
  /-- The names have symbols. -/
  known : ∀ name ∈ names, (table.find? name).isSome

namespace Context.Checks

variable {table : SymbolTable} {first second third : Context} {names more : List Text}

theorem nil (context : Context) : context.Checks table [] context := ⟨.refl _, by simp⟩

theorem append (earlier : first.Checks table names second) (later : second.Checks table more third) :
    first.Checks table (names ++ more) third :=
  ⟨earlier.renumbered.trans later.renumbered,
    List.forall_mem_append.2 ⟨earlier.known, later.known⟩⟩

theorem renumber (earlier : first.Checks table names second) (later : second.Renumbered third) :
    first.Checks table names third :=
  ⟨earlier.renumbered.trans later, earlier.known⟩

theorem symbols (checks : first.Checks table names second) (same : first.symbols = table) :
    second.symbols = table :=
  checks.renumbered.symbols.trans same

end Context.Checks

namespace Expr

variable {table : SymbolTable} {allowed : Failure → Prop}

/-- A run of a check leads to an explicit expression, unless it is a function. -/
abbrev ChecksFrom (table : SymbolTable) (allowed : Failure → Prop) (expr : Expr)
    (context : Context) : Prop :=
  Ensures expr.check context allowed fun typed after =>
    context.Checks table expr.mentioned after ∧
      (typed.type.isFunction = false → typed.Explicit table)

section Uses

variable {expr : Expr} {context : Context}
  (diagnostics : ∀ failure, Failure.IsDiagnostic failure → allowed failure)
  (checked : expr.ChecksFrom table allowed context)

include diagnostics checked

theorem value_ensures :
    Ensures (expr.check >>= toValue) context allowed fun value after =>
      context.Checks table expr.mentioned after ∧ value.IsValue table := by
  refine checked.bind ?_
  rintro typed between ⟨checks, explicit⟩
  refine (toValue_ensures diagnostics explicit).mono ?_
  rintro value after ⟨renumbered, isValue⟩
  exact ⟨checks.renumber renumbered, isValue⟩

theorem condition_ensures :
    Ensures (expr.check >>= toValue >>= checkCondition) context allowed fun condition after =>
      context.Checks table expr.mentioned after ∧ condition.IsCondition table := by
  refine (value_ensures diagnostics checked).bind ?_
  rintro value between ⟨checks, isValue⟩
  refine (checkCondition_ensures diagnostics isValue).mono ?_
  rintro condition after ⟨rfl, isCondition⟩
  exact ⟨checks, isCondition⟩

theorem assigned_ensures (target : CType) :
    Ensures (expr.check >>= toValue >>= assignTo target) context allowed fun value after =>
      context.Checks table expr.mentioned after ∧ value.IsValue table ∧ value.type = target := by
  refine (value_ensures diagnostics checked).bind ?_
  rintro value between ⟨checks, isValue⟩
  refine (assignTo_ensures diagnostics isValue).mono ?_
  rintro converted after ⟨renumbered, converts⟩
  exact ⟨checks.renumber renumbered, converts⟩

end Uses

variable (sound : table.Sound)

-- The recursive calls of a mutual block hide that its theorems use the hypothesis.
set_option linter.unusedSectionVars false

include sound

mutual

/-- A checked expression is explicit, unless it is a function, and all names it mentions have
symbols. -/
theorem check_ensures : ∀ (expr : Expr) {context : Context}, context.symbols = table →
    expr.IsSource → Admits allowed table expr.mentioned → expr.ChecksFrom table allowed context
  | .constant note value, context, _, _, _ => by
      rw [ChecksFrom, check]
      refine Ensures.pure ⟨.nil _, fun notFunction => ?_⟩
      exact ⟨note.marks_typed _ _ notFunction, rfl⟩
  | .string note bytes, context, _, _, _ => by
      rw [ChecksFrom, check]
      exact Ensures.pure ⟨.nil _, fun notFunction => ⟨note.marks_typed _ _ rfl, rfl⟩⟩
  | .var note name, context, same, _, admits => by
      rw [ChecksFrom, check]
      refine Ensures.bind_ok (Pass.run_findSymbol? _ _) ?_
      rw [same]
      split
      · rename_i absent
        exact Ensures.throw (admits.undeclared name (by simp [mentioned]) absent)
      · rename_i symbol found
        refine Ensures.pure ⟨⟨.refl _, by simp [mentioned, found]⟩, fun notFunction => ?_⟩
        have notFunction : symbol.type.isFunction = false := notFunction
        have complete : symbol.type.isComplete :=
          (sound name symbol found).resolve_right
            fun signature => by simpa [notFunction] using CType.isFunction_of_isSignature signature.1
        rw [notFunction]
        exact ⟨note.marks_typed _ _ notFunction, complete, symbol, found, rfl⟩
  | .unary note op operand, context, same, isSource, admits => by
      rw [ChecksFrom, check]
      refine (value_ensures admits.diagnostics
        (check_ensures operand same isSource.2 admits)).bind ?_
      rintro operand' between ⟨checks, value⟩
      refine (ofUnary_ensures admits.diagnostics value).mono ?_
      rintro typed after ⟨renumbered, explicit⟩
      exact ⟨checks.renumber renumbered, fun _ => explicit⟩
  | .binary note op left right, context, same, isSource, admits => by
      rw [ChecksFrom, check]
      refine (value_ensures admits.diagnostics (check_ensures left same isSource.2.1
        (admits.mono (List.subset_append_left _ _)))).bind ?_
      rintro left' middle ⟨leftChecks, leftValue⟩
      refine (value_ensures admits.diagnostics (check_ensures right (leftChecks.symbols same)
        isSource.2.2 (admits.mono (List.subset_append_right _ _)))).bind ?_
      rintro right' between ⟨rightChecks, rightValue⟩
      refine (ofBinary_ensures admits.diagnostics leftValue rightValue).mono ?_
      rintro typed after ⟨renumbered, explicit⟩
      exact ⟨(leftChecks.append rightChecks).renumber renumbered, fun _ => explicit⟩
  | .assign note op left right opType, context, same, isSource, admits => by
      rw [ChecksFrom, check]
      refine (check_ensures left same isSource.2.1
        (admits.mono (List.subset_append_left _ _))).bind ?_
      rintro left' middle ⟨leftChecks, leftExplicit⟩
      refine (checkAssignable_ensures admits.diagnostics).bind ?_
      rintro _ _ ⟨rfl, notArray, isLvalue⟩
      refine (value_ensures admits.diagnostics (check_ensures right (leftChecks.symbols same)
        isSource.2.2 (admits.mono (List.subset_append_right _ _)))).bind ?_
      rintro right' between ⟨rightChecks, rightValue⟩
      refine (ofAssign_ensures admits.diagnostics leftExplicit notArray isLvalue rightValue).mono ?_
      rintro typed after ⟨renumbered, explicit⟩
      exact ⟨(leftChecks.append rightChecks).renumber renumbered, fun _ => explicit⟩
  | .conditional note condition thenBranch elseBranch, context, same, isSource, admits => by
      have branchAdmits := admits.mono (List.subset_append_right condition.mentioned _)
      rw [ChecksFrom, check]
      refine (condition_ensures admits.diagnostics (check_ensures condition same isSource.2.1
        (admits.mono (List.subset_append_left _ _)))).bind ?_
      rintro condition' first ⟨conditionChecks, isCondition⟩
      have same := conditionChecks.symbols same
      refine (value_ensures admits.diagnostics (check_ensures thenBranch same isSource.2.2.1
        (branchAdmits.mono (List.subset_append_left _ _)))).bind ?_
      rintro thenBranch' second ⟨thenChecks, thenValue⟩
      refine (value_ensures admits.diagnostics (check_ensures elseBranch (thenChecks.symbols same)
        isSource.2.2.2 (branchAdmits.mono (List.subset_append_right _ _)))).bind ?_
      rintro elseBranch' between ⟨elseChecks, elseValue⟩
      refine (ofConditional_ensures admits.diagnostics isCondition thenValue elseValue).mono ?_
      rintro typed after ⟨renumbered, explicit⟩
      exact ⟨(conditionChecks.append (thenChecks.append elseChecks)).renumber renumbered,
        fun _ => explicit⟩
  | .call note name arguments, context, same, isSource, admits => by
      have undeclared := admits.undeclared name List.mem_cons_self
      rw [← same] at undeclared
      rw [ChecksFrom, check]
      refine (calleeTypes_ensures admits.diagnostics undeclared).bind ?_
      rintro ⟨parameters, result⟩ _ ⟨rfl, known, count, function⟩
      rw [same] at known function
      refine (checkArguments_ensures arguments parameters same isSource.2
        (admits.mono (List.subset_cons_self _ _)) count).bind ?_
      rintro arguments' after ⟨checks, explicit, values, types⟩
      refine Ensures.pure ⟨⟨checks.renumbered, ?_⟩, fun notFunction => ?_⟩
      · exact List.forall_mem_cons.2 ⟨known, checks.known⟩
      · exact ⟨note.marks_typed _ _ notFunction, explicit, values, types ▸ function⟩
  | .cast note target operand isImplicit, context, same, isSource, admits => by
      rw [ChecksFrom, check]
      refine (checkCastTarget_ensures admits.diagnostics).bind ?_
      rintro _ _ ⟨rfl, targetValue⟩
      refine (value_ensures admits.diagnostics
        (check_ensures operand same isSource.2 admits)).bind ?_
      rintro operand' between ⟨checks, value⟩
      refine (ofCast_ensures admits.diagnostics targetValue value).mono ?_
      rintro typed after ⟨renumbered, explicit⟩
      exact ⟨checks.renumber renumbered, fun _ => explicit⟩
  | .addressOf note operand, context, same, isSource, admits => by
      rw [ChecksFrom, check]
      refine (check_ensures operand same isSource.2 admits).bind ?_
      rintro operand' between ⟨checks, explicit⟩
      refine (ofAddress_ensures admits.diagnostics explicit).mono ?_
      rintro typed after ⟨renumbered, explicit⟩
      exact ⟨checks.renumber renumbered, fun _ => explicit⟩
  | .dereference note operand, context, same, isSource, admits => by
      rw [ChecksFrom, check]
      refine (value_ensures admits.diagnostics
        (check_ensures operand same isSource.2 admits)).bind ?_
      rintro operand' between ⟨checks, value⟩
      refine (ofDereference_ensures admits.diagnostics value).mono ?_
      rintro typed after ⟨renumbered, explicit⟩
      exact ⟨checks.renumber renumbered, explicit⟩
  | .subscript note array index, context, same, isSource, admits => by
      rw [ChecksFrom, check]
      refine (value_ensures admits.diagnostics (check_ensures array same isSource.2.1
        (admits.mono (List.subset_append_left _ _)))).bind ?_
      rintro array' middle ⟨arrayChecks, arrayValue⟩
      refine (value_ensures admits.diagnostics (check_ensures index (arrayChecks.symbols same)
        isSource.2.2 (admits.mono (List.subset_append_right _ _)))).bind ?_
      rintro index' between ⟨indexChecks, indexValue⟩
      refine (ofSubscript_ensures admits.diagnostics arrayValue indexValue).mono ?_
      rintro typed after ⟨renumbered, explicit⟩
      exact ⟨(arrayChecks.append indexChecks).renumber renumbered, explicit⟩
  | .step note form op operand, context, same, isSource, admits => by
      rw [ChecksFrom, check]
      refine (check_ensures operand same isSource.2 admits).bind ?_
      rintro operand' between ⟨checks, explicit⟩
      refine (ofStep_ensures admits.diagnostics explicit).mono ?_
      rintro typed after ⟨renumbered, explicit⟩
      exact ⟨checks.renumber renumbered, fun _ => explicit⟩
  | .sizeofExpr note operand, context, same, isSource, admits => by
      rw [ChecksFrom, check]
      refine (check_ensures operand same isSource.2 admits).bind ?_
      rintro operand' between ⟨checks, explicit⟩
      refine (checkSized_ensures admits.diagnostics).bind ?_
      rintro _ _ ⟨rfl, complete⟩
      have notFunction : operand'.type.isFunction = false := by
        cases shape : operand'.type <;> simp_all [CType.isComplete, CType.isFunction]
      exact Ensures.pure ⟨checks, fun _ =>
        ⟨note.marks_typed _ _ rfl, explicit notFunction, complete, rfl⟩⟩
  | .sizeofType note operand, context, _, _, admits => by
      rw [ChecksFrom, check]
      refine (CType.checkElements_ensures admits.diagnostics operand).bind ?_
      rintro _ _ ⟨rfl, _⟩
      refine (checkSized_ensures admits.diagnostics).bind ?_
      rintro _ _ ⟨rfl, complete⟩
      exact Ensures.pure ⟨.nil _, fun _ => ⟨note.marks_typed _ _ rfl, complete, rfl⟩⟩
  | .decay _ _, _, _, isSource, _ => isSource.elim

/-- Checked arguments have the types of the parameters. -/
theorem checkArguments_ensures : ∀ (arguments : List Expr) (parameters : List CType)
    {context : Context}, context.symbols = table → IsSourceList arguments →
    Admits allowed table (mentionedList arguments) → parameters.length = arguments.length →
    Ensures (checkArguments parameters arguments) context allowed fun typed after =>
      context.Checks table (mentionedList arguments) after ∧ ExplicitList table typed ∧
        (∀ argument ∈ typed, argument.type.IsValue) ∧ parameters = typed.map type
  | [], [], context, _, _, _, _ => by
      rw [checkArguments]
      · exact Ensures.pure ⟨.nil _, trivial, by simp, rfl⟩
      · simp
  | argument :: arguments, parameter :: parameters, context, same, isSource, admits, count => by
      rw [checkArguments]
      refine (assigned_ensures admits.diagnostics (check_ensures argument same isSource.1
        (admits.mono (List.subset_append_left _ _))) parameter).bind ?_
      rintro argument' middle ⟨checks, value, rfl⟩
      refine (checkArguments_ensures arguments parameters (checks.symbols same) isSource.2
        (admits.mono (List.subset_append_right _ _)) (Nat.succ.inj count)).bind ?_
      rintro arguments' after ⟨restChecks, explicitRest, valuesRest, rfl⟩
      exact Ensures.pure ⟨checks.append restChecks, ⟨value.1, explicitRest⟩,
        List.forall_mem_cons.2 ⟨value.2, valuesRest⟩, rfl⟩
  | [], _ :: _, _, _, _, _, count | _ :: _, [], _, _, _, _, count => nomatch count

end

end Expr

end SubsetC
