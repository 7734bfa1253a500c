import SubsetC.Proofs.ControlFlow
import SubsetC.Proofs.ExprProgress
import SubsetC.Proofs.FunctionSimulation

/-!
# Code of constant expressions

An integer constant expression has its value computed twice over: folding computes it from the tree,
on words of sixty-four bits that are cut to size afterwards, and the code it is lowered to computes
it at run time, by instructions that act on operands of their own types. Both values are the same.

Checking keeps an integer constant expression one of integers, so the code consists of instructions
on integers alone, and it always reaches its end.
-/

namespace SubsetC

namespace Expr

/-- Whether the expression is built from integer constants and sizes by operators, conditionals and
casts to integer types. The operand of sizeof is not evaluated and may be anything. -/
def isIntegerConstant : Expr → Bool
  | .constant _ value => value.type.isInteger
  | .unary _ _ operand => operand.isIntegerConstant
  | .binary _ _ left right => left.isIntegerConstant && right.isIntegerConstant
  | .conditional _ condition thenBranch elseBranch =>
    condition.isIntegerConstant && thenBranch.isIntegerConstant && elseBranch.isIntegerConstant
  | .cast _ target operand _ => target.isInteger && operand.isIntegerConstant
  | .sizeofExpr _ _ | .sizeofType _ _ => true
  | _ => false

end Expr

/-! ### Checked integer expressions -/

theorem CType.isInteger_common {left right : CType} (integerLeft : left.isInteger)
    (integerRight : right.isInteger) : (left.common right).isInteger := by
  rcases CType.exists_kind integerLeft with ⟨leftKind, rfl⟩
  rcases CType.exists_kind integerRight with ⟨rightKind, rfl⟩
  cases leftKind <;> cases rightKind <;> rfl

namespace Expr

/-- A typed expression that computes an integer from constants and integer objects alone. -/
structure IsPureInteger (expr : Expr) : Prop where
  /-- All of its operands are integers. -/
  isPure : expr.isPure
  /-- So is its value. -/
  integer : expr.type.isInteger

section Rules

variable {context : Context} {expr left right : Expr}

theorem IsPureInteger.toValue_eq (pureInteger : expr.IsPureInteger) : expr.toValue = pure expr := by
  rcases CType.exists_kind pureInteger.integer with ⟨kind, sameType⟩
  rw [toValue, sameType]

theorem IsPureInteger.convertTo_yields (pureInteger : expr.IsPureInteger) {target : CType}
    (integer : target.isInteger) :
    Yields (expr.convertTo target) context fun converted _ => converted.IsPureInteger := by
  unfold convertTo
  refine Ensures.ite (fun _ => Ensures.pure pureInteger) fun _ => ?_
  refine Ensures.bind_ok (Pass.run_newLoc _ _) (Ensures.pure ⟨?_, integer⟩)
  simp [Expr.isPure, integer, pureInteger.isPure]

theorem IsPureInteger.unary_yields (pureInteger : expr.IsPureInteger) {note : Note} {op : UnaryOp} :
    Yields (ofUnary note op expr) context fun typed _ => typed.IsPureInteger := by
  unfold ofUnary
  refine Ensures.ite (fun _ => Ensures.typeError fun _ _ => trivial) fun _ => ?_
  refine Ensures.ite (fun _ => Ensures.pure ⟨pureInteger.isPure, rfl⟩) fun _ => ?_
  have integer := CType.isInteger_promote pureInteger.integer
  refine (pureInteger.convertTo_yields integer).bind ?_
  intro operand _ converted
  exact Ensures.pure ⟨converted.isPure, integer⟩

theorem IsPureInteger.converted_yields (leftPure : left.IsPureInteger)
    (rightPure : right.IsPureInteger) {note : Note} {op : BinaryOp}
    {type leftType rightType : CType} (integer : type.isInteger)
    (leftInteger : leftType.isInteger) (rightInteger : rightType.isInteger) :
    Yields (ofConverted note op type leftType rightType left right) context
      fun typed _ => typed.IsPureInteger := by
  unfold ofConverted
  refine (leftPure.convertTo_yields leftInteger).bind ?_
  intro left' _ leftConverted
  refine (rightPure.convertTo_yields rightInteger).bind ?_
  intro right' _ rightConverted
  refine Ensures.pure ⟨?_, integer⟩
  simp [Expr.isPure, leftConverted.isPure, rightConverted.isPure]

/-- Integers are never combined as pointers are. -/
theorem IsPureInteger.binary_yields (leftPure : left.IsPureInteger)
    (rightPure : right.IsPureInteger) {note : Note} {op : BinaryOp} :
    Yields (ofBinary note op left right) context fun typed _ => typed.IsPureInteger := by
  have common := CType.isInteger_common leftPure.integer rightPure.integer
  have arithmetic : left.type.isArithmetic && right.type.isArithmetic := by
    simp [CType.isArithmetic, leftPure.integer, rightPure.integer]
  unfold ofBinary
  cases op with
  | logic op =>
      refine Ensures.ite (fun _ => Ensures.pure ⟨?_, rfl⟩) fun _ => Ensures.typeError
        fun _ _ => trivial
      simp [Expr.isPure, leftPure.isPure, rightPure.isPure]
  | arith op =>
      refine Ensures.ite (fun _ => ?_) fun _ => ?_
      · have leftPromoted := CType.isInteger_promote leftPure.integer
        unfold ofShift
        refine Ensures.ite (fun _ => ?_) fun _ => Ensures.typeError fun _ _ => trivial
        exact leftPure.converted_yields rightPure leftPromoted leftPromoted
          (CType.isInteger_promote rightPure.integer)
      · rw [if_pos arithmetic, ofArithmetic]
        refine Ensures.ite (fun _ => Ensures.typeError fun _ _ => trivial) fun _ => ?_
        exact leftPure.converted_yields rightPure common common common
  | compare op =>
      simp only [arithmetic, if_true]
      exact leftPure.converted_yields rightPure rfl common common

theorem IsPureInteger.conditional_yields {condition : Expr}
    (conditionPure : condition.IsPureInteger)
    (leftPure : left.IsPureInteger) (rightPure : right.IsPureInteger) {note : Note} :
    Yields (ofConditional note condition left right) context
      fun typed _ => typed.IsPureInteger := by
  have common := CType.isInteger_common leftPure.integer rightPure.integer
  have sameType : branchType note.loc.span left right = pure (left.type.common right.type) := by
    rcases CType.exists_kind leftPure.integer with ⟨leftKind, leftType⟩
    rcases CType.exists_kind rightPure.integer with ⟨rightKind, rightType⟩
    rw [branchType, leftType, rightType]
    rfl
  unfold ofConditional
  rw [sameType, pure_bind]
  refine (leftPure.convertTo_yields common).bind ?_
  intro left' _ leftConverted
  refine (rightPure.convertTo_yields common).bind ?_
  intro right' _ rightConverted
  refine Ensures.pure ⟨?_, common⟩
  simp [Expr.isPure, conditionPure.isPure, leftConverted.isPure, rightConverted.isPure]

end Rules

/-- The value of an operand that is an integer is the operand itself. -/
theorem value_isPureInteger {expr : Expr} {context : Context}
    (checks : Yields expr.check context fun typed _ => typed.IsPureInteger) :
    Yields (expr.check >>= toValue) context fun typed _ => typed.IsPureInteger := by
  refine checks.bind ?_
  intro typed after pureInteger
  rw [pureInteger.toValue_eq]
  exact Ensures.pure pureInteger

/-- An integer constant expression that is checked computes with integers only. -/
theorem check_isPureInteger : ∀ (expr : Expr) {context : Context}, expr.isIntegerConstant →
    Yields expr.check context fun typed _ => typed.IsPureInteger
  | .constant note value, context, isConstant => by
      rw [check]
      exact Ensures.pure ⟨isConstant, isConstant⟩
  | .unary note op operand, context, isConstant => by
      rw [check]
      refine (value_isPureInteger (check_isPureInteger operand isConstant)).bind ?_
      intro operand' _ operandPure
      exact operandPure.unary_yields
  | .binary note op left right, context, isConstant => by
      simp only [isIntegerConstant, Bool.and_eq_true] at isConstant
      rw [check]
      refine (value_isPureInteger (check_isPureInteger left isConstant.1)).bind ?_
      intro left' _ leftPure
      refine (value_isPureInteger (check_isPureInteger right isConstant.2)).bind ?_
      intro right' _ rightPure
      exact leftPure.binary_yields rightPure
  | .conditional note condition thenBranch elseBranch, context, isConstant => by
      simp only [isIntegerConstant, Bool.and_eq_true] at isConstant
      rw [check]
      have conditionChecks : Yields (condition.check >>= toValue >>= checkCondition) context
          fun typed _ => typed.IsPureInteger := by
        refine (value_isPureInteger (check_isPureInteger condition isConstant.1.1)).bind ?_
        intro condition' _ conditionPure
        rw [checkCondition, if_pos (CType.isScalar_of_isInteger conditionPure.integer)]
        exact Ensures.pure conditionPure
      refine conditionChecks.bind ?_
      intro condition' _ conditionPure
      refine (value_isPureInteger (check_isPureInteger thenBranch isConstant.1.2)).bind ?_
      intro thenBranch' _ thenPure
      refine (value_isPureInteger (check_isPureInteger elseBranch isConstant.2)).bind ?_
      intro elseBranch' _ elsePure
      exact conditionPure.conditional_yields thenPure elsePure
  | .cast note target operand isImplicit, context, isConstant => by
      simp only [isIntegerConstant, Bool.and_eq_true] at isConstant
      rw [check]
      refine Ensures.bind_any fun _ between => ?_
      refine (value_isPureInteger (check_isPureInteger operand isConstant.2)).bind ?_
      intro operand' _ operandPure
      unfold ofCast
      refine Ensures.ite (fun _ => Ensures.typeError fun _ _ => trivial) fun _ => ?_
      refine Ensures.ite (fun _ => Ensures.typeError fun _ _ => trivial) fun _ => ?_
      refine Ensures.pure ⟨?_, isConstant.1⟩
      simp [Expr.isPure, isConstant.1, operandPure.isPure]
  | .sizeofExpr note operand, context, _ => by
      rw [check]
      refine Ensures.bind_any fun _ _ => ?_
      exact Ensures.bind_any fun _ _ => Ensures.pure ⟨rfl, rfl⟩
  | .sizeofType note operand, context, _ => by
      rw [check]
      refine Ensures.bind_any fun _ _ => ?_
      exact Ensures.bind_any fun _ _ => Ensures.pure ⟨rfl, rfl⟩
  | .string _ _, _, isConstant | .var _ _, _, isConstant | .assign _ _ _ _ _, _, isConstant
  | .call _ _ _, _, isConstant | .addressOf _ _, _, isConstant | .dereference _ _, _, isConstant
  | .subscript _ _ _, _, isConstant | .step _ _ _ _, _, isConstant | .decay _ _, _, isConstant =>
      nomatch isConstant

/-- Labels are drawn once, so those of the code of an expression are all different. -/
theorem lowerValue_nodup (expr : Expr) {context : Context} :
    Yields expr.lowerValue context fun made _ => (Code.labels made.1).Nodup := by
  refine expr.lowerValue_branches.mono ?_
  rintro made after ⟨⟨drawn, marked, count⟩, _⟩
  have perm : (Code.labels made.1).Perm drawn := by
    refine List.perm_iff_count.2 fun label => ?_
    simpa using count label
  exact perm.nodup_iff.2 marked.nodup

end Expr

/-! ### Values at run time -/

/-- Code that computes a number, followed by its return, returns the number. -/
theorem Machine.Evaluates.returns {machine : Machine} {known : SymbolTable} {code : Code}
    {operand : Operand} {value? : Store → Option Int}
    (evaluates : machine.Evaluates known (code, operand) value?)
    (nodup : (Code.labels code).Nodup) {store : Store} {number : Int}
    (isNumber : value? store = some number) :
    machine.Returns (code ++ [Instruction.ret operand]) store (.number number) := by
  have labels : (Code.labels (code ++ [Instruction.ret operand])).Nodup := by
    simpa [Code.label?] using nodup
  have gives := evaluates _ [.ret operand] store labels List.suffix_rfl
  rw [isNumber] at gives
  rcases gives with ⟨after, leads, _, reads⟩
  have answers : machine.run (code ++ [Instruction.ret operand]) 1 ([.ret operand], after) =
      some (.number number) := by
    simp [run, step?, answer?_of_read? reads]
  exact leads.run_eq_some answers

namespace Expr

/-- The code of an expression with a constant value ends, and returns that value. -/
theorem IsConstantly.returns {expr : Expr} {kind : IntType} {value : Const}
    (constantly : expr.IsConstantly kind value) {context : Context} (valid : context.Valid)
    (explicit : expr.Explicit context.symbols) (isPure : expr.isPure)
    (sameType : expr.type = .integer kind) :
    ∃ code operand final number,
      expr.lowerValue.run context = .ok ((code, operand), final) ∧
      value.number? = some number ∧
      ∀ machine : Machine, machine.table.Extends final.symbols → ∀ store,
        machine.Returns (code ++ [Instruction.ret operand]) store (.number number) := by
  rcases constantly with ⟨number, denotes, evaluates⟩
  have succeeds := lowerValue_succeeds valid.sound explicit (sameType ▸ rfl)
  rcases (succeeds context valid.sound).exists_ok with ⟨⟨code, operand⟩, final, lowers, _⟩
  have simulates := (value_simulates (lower_simulates expr valid.tidy explicit isPure
    sameType)).of_ok lowers
  have nodup := expr.lowerValue_nodup.of_ok lowers
  refine ⟨code, operand, final, number, lowers, denotes.isNumber, ?_⟩
  intro machine extension store
  exact (simulates.evaluates machine extension).returns nodup (evaluates machine.gaps store)

/-- If an accepted integer constant expression folds to a constant, then the code it is lowered to
ends, and returns the number that the constant is, on every machine that knows its temporaries. -/
theorem returns_of_fold {expr typed : Expr} {context between : Context} {value : Const}
    (isSource : expr.IsSource) (isConstant : expr.isIntegerConstant) (valid : context.Valid)
    (accepts : expr.checkValue.run context = .ok (typed, between))
    (folds : typed.fold? = some value) :
    ∃ code operand final number,
      typed.lowerValue.run between = .ok ((code, operand), final) ∧
      value.number? = some number ∧
      ∀ machine : Machine, machine.table.Extends final.symbols → ∀ store,
        machine.Returns (code ++ [.ret operand]) store (.number number) := by
  have admits : Admits (fun _ => True) context.symbols expr.mentioned :=
    ⟨fun _ _ => trivial, fun _ _ _ => trivial⟩
  have checked := value_ensures (fun _ _ => trivial)
    (check_ensures valid.sound expr rfl isSource admits)
  rcases checked.of_ok accepts with ⟨checks, explicit, _⟩
  rcases (value_isPureInteger (check_isPureInteger expr isConstant)).of_ok accepts with
    ⟨isPure, integer⟩
  rcases CType.exists_kind integer with ⟨kind, sameType⟩
  have constantly := isConstantly_of_fold? typed explicit isPure sameType folds
  rcases checks.renumbered with ⟨lastId, rfl⟩
  have validBetween : ({ context with lastId } : Context).Valid := ⟨valid.tidy, valid.sound⟩
  exact constantly.returns validBetween explicit isPure sameType

/-- The expression `(char) 200 + (1 ? ~0 : sizeof (int))`: a negative char and a complement are
converted to unsigned long. -/
def wrappingSum : Expr :=
  let note := Note.untyped ⟨0, .none⟩
  .binary note (.arith .add) (.cast note .char (.constant note (.int 200)) false)
    (.conditional note (.constant note (.int 1))
      (.unary note .complement (.constant note (.int 0))) (.sizeofType note .int))

theorem returns_of_fold_wrappingSum :
    ∃ typed between, wrappingSum.checkValue.run .empty = .ok (typed, between) ∧
      typed.fold? = some (.ulong 18446744073709551559) ∧
      ∃ code operand final, typed.lowerValue.run between = .ok ((code, operand), final) ∧
        ∀ machine : Machine, machine.table.Extends final.symbols → ∀ store,
          machine.Returns (code ++ [.ret operand]) store (.number 18446744073709551559) := by
  have computed : succeedsWith (fun checked => checked.1.fold? = some (.ulong 18446744073709551559))
      (wrappingSum.checkValue.run .empty) := by
    decide +kernel
  have isSource : wrappingSum.IsSource := by simp [wrappingSum, IsSource, Note.untyped]
  have valid : Context.empty.Valid := ⟨nofun, nofun⟩
  rcases exists_of_succeedsWith computed with ⟨⟨typed, between⟩, accepts, computed⟩
  have folds : typed.fold? = some (.ulong 18446744073709551559) := of_decide_eq_true computed
  rcases returns_of_fold isSource rfl valid accepts folds with
    ⟨code, operand, final, number, lowers, isNumber, returns⟩
  cases isNumber
  exact ⟨typed, between, accepts, folds, code, operand, final, lowers, returns⟩

end Expr

end SubsetC
