import SubsetC.Lowering.Stmt
import SubsetC.Proofs.Outcome

/-!
# Pieces of objects

The code of an initializer writes an array piece by piece. The code of an expression writes objects
only as a whole, so that the pieces of an array are those that its initializer writes, whatever is
computed in between.
-/

namespace SubsetC

/-! ### Pieces -/

/-- The number of bytes of an operand. -/
def Operand.width (table : SymbolTable) : Operand → Int
  | .constant value => value.type.size
  | .var name => (table.find? name).elim 0 fun symbol => symbol.type.size
  | .absent => 0

/-- The first byte of an object that an instruction writes if it writes a piece of the object, and
the number of bytes. -/
def Instruction.piece? (table : SymbolTable) (name : Text) : Instruction → Option (Int × Int)
  | .copyToOffset source target offset =>
      if target = name then some (offset, source.width table) else none
  | _ => none

namespace Code

/-- The pieces of an object that code writes, in order. -/
def pieces (table : SymbolTable) (name : Text) (code : Code) : List (Int × Int) :=
  code.filterMap (Instruction.piece? table name)

@[simp]
theorem pieces_append (table : SymbolTable) (name : Text) (first second : Code) :
    pieces table name (first ++ second) = pieces table name first ++ pieces table name second :=
  List.filterMap_append

/-- The code writes no pieces of objects. -/
def IsWhole (code : Code) : Prop := ∀ table name, pieces table name code = []

theorem IsWhole.nil : IsWhole [] := fun _ _ => rfl

theorem IsWhole.append {first second : Code} (isFirst : first.IsWhole) (isSecond : second.IsWhole) :
    (first ++ second).IsWhole := by
  intro table name
  rw [pieces_append, isFirst, isSecond, List.append_nil]

end Code

/-! ### Blocks of lowering -/

section

variable {context : Context}

namespace Place

theorem load_whole {type : CType} (place : Place) :
    Yields (place.load type) context fun made _ => made.1.IsWhole := by
  cases place with
  | nowhere => exact Ensures.throw trivial
  | value operand => exact Ensures.pure .nil
  | behind pointer => exact Ensures.bind_any fun _ _ => Ensures.pure fun _ _ => rfl

theorem loaded_whole {type : CType} {made : Code × Place} (isWhole : made.1.IsWhole) :
    Yields (loaded type made) context fun made _ => made.1.IsWhole :=
  (load_whole made.2).bind fun _ _ loads => Ensures.pure (isWhole.append loads)

theorem store_whole {source : Operand} (place : Place) :
    Yields (place.store source) context fun code _ => code.IsWhole := by
  cases place with
  | nowhere => exact Ensures.throw trivial
  | value operand | behind pointer => exact Ensures.pure fun _ _ => rfl

theorem addressOf_whole {type : CType} (operand : Operand) :
    Yields (addressOf type operand) context fun made _ => made.1.IsWhole :=
  Ensures.bind_any fun _ _ => Ensures.pure fun _ _ => rfl

theorem address_whole {type : CType} (place : Place) :
    Yields (place.address type) context fun made _ => made.1.IsWhole := by
  cases place with
  | nowhere => exact Ensures.throw trivial
  | value operand => exact addressOf_whole operand
  | behind pointer => exact Ensures.pure .nil

theorem firstElement_whole {type : CType} (place : Place) :
    Yields (place.firstElement type) context fun made _ => made.1.IsWhole := by
  cases place with
  | nowhere => exact Ensures.throw trivial
  | value operand => exact addressOf_whole operand
  | behind pointer => exact Ensures.bind_any fun _ _ => Ensures.pure fun _ _ => rfl

end Place

namespace Operand

variable {operand : Operand}

theorem convertObject_whole {source target : CType} :
    Yields (operand.convertObject source target) context fun made _ => made.1.IsWhole := by
  unfold convertObject
  refine Ensures.bind_any fun _ _ => ?_
  split <;> exact Ensures.pure fun _ _ => rfl

theorem convert_whole {source target : CType} :
    Yields (operand.convert source target) context fun made _ => made.1.IsWhole := by
  unfold convert
  split
  · exact Ensures.pure .nil
  · split
    · split
      · exact Ensures.bind_any fun _ _ => Ensures.pure .nil
      · split
        · exact Ensures.bind_any fun _ _ => Ensures.pure .nil
        · exact convertObject_whole
    · exact convertObject_whole

theorem addPointer_whole {type : CType} {index : Operand} :
    Yields (operand.addPointer type index) context fun made _ => made.1.IsWhole :=
  Ensures.bind_any fun _ _ => Ensures.pure fun _ _ => rfl

theorem negateIndex_whole :
    Yields operand.negateIndex context fun made _ => made.1.IsWhole := by
  unfold negateIndex
  split
  · exact Ensures.pure .nil
  · exact Ensures.bind_any fun _ _ => Ensures.pure fun _ _ => rfl

theorem subPointer_whole {type : CType} {index : Operand} :
    Yields (operand.subPointer type index) context fun made _ => made.1.IsWhole := by
  unfold subPointer
  refine negateIndex_whole.bind fun _ _ negates => ?_
  exact addPointer_whole.bind fun _ _ adds => Ensures.pure (negates.append adds)

theorem pointerDifference_whole {type : CType} {right : Operand} :
    Yields (operand.pointerDifference type right) context fun made _ => made.1.IsWhole :=
  Ensures.bind_any fun _ _ => Ensures.bind_any fun _ _ => Ensures.pure fun _ _ => rfl

theorem combine_whole {op : TwoOp} {type : CType} {right : Operand} :
    Yields (operand.combine op type right) context fun made _ => made.1.IsWhole :=
  Ensures.bind_any fun _ _ => Ensures.pure fun _ _ => rfl

end Operand

namespace Expr

theorem unaryCode_whole {op : UnaryOp} {type : CType} {value : Operand} :
    Yields (unaryCode op type value) context fun made _ => made.1.IsWhole := by
  unfold unaryCode
  split
  · exact Ensures.pure .nil
  · exact Ensures.bind_any fun _ _ => Ensures.pure fun _ _ => rfl

theorem pointerCode_whole {op : ArithOp} {leftType rightType : CType} {left right : Operand} :
    Yields (pointerCode op leftType rightType left right) context fun made _ =>
      made.1.IsWhole := by
  unfold pointerCode
  split
  · split <;> exact Operand.addPointer_whole
  · split
    · exact Operand.pointerDifference_whole
    · exact Operand.subPointer_whole

theorem binaryCode_whole {op : TwoOp} {type leftType rightType : CType} {left right : Operand} :
    Yields (binaryCode op type leftType rightType left right) context fun made _ =>
      made.1.IsWhole := by
  unfold binaryCode
  split
  · exact Operand.combine_whole
  · split
    · exact pointerCode_whole
    · exact Operand.combine_whole

theorem compoundCode_whole {op : ArithOp} {type opType : CType} {current right : Operand} :
    Yields (compoundCode op type opType current right) context fun made _ => made.1.IsWhole := by
  unfold compoundCode
  split
  · split
    · exact Operand.subPointer_whole
    · exact Operand.addPointer_whole
  · refine Operand.convert_whole.bind fun _ _ widens => ?_
    refine Operand.combine_whole.bind fun _ _ computes => ?_
    refine Operand.convert_whole.bind fun _ _ narrows => ?_
    exact Ensures.pure ((widens.append computes).append narrows)

theorem stepCode_whole {op : StepOp} {type : CType} {current : Operand} :
    Yields (stepCode op type current) context fun made _ => made.1.IsWhole := by
  unfold stepCode
  split
  · exact Operand.addPointer_whole
  · exact Ensures.bind_any fun _ _ => compoundCode_whole

theorem stepPlace_whole {form : StepForm} {op : StepOp} {type : CType} {place : Place} :
    Yields (stepPlace form op type place) context fun made _ => made.1.IsWhole := by
  unfold stepPlace
  refine (Place.load_whole place).bind ?_
  rintro ⟨loadCode, current⟩ first loads
  have finish : ∀ (keepCode : Code) (old : Operand) (second : Context), keepCode.IsWhole →
      Yields (do
        let stepped ← stepCode op type current
        let storeCode ← place.store stepped.2
        pure (loadCode ++ keepCode ++ stepped.1 ++ storeCode,
          if form = .after then old else stepped.2))
        second fun made _ => made.1.IsWhole := by
    intro keepCode old second keeps
    refine stepCode_whole.bind fun _ _ steps => ?_
    refine (Place.store_whole place).bind fun _ _ stores => ?_
    exact Ensures.pure (((loads.append keeps).append steps).append stores)
  dsimp only
  split
  · refine Ensures.bind_any fun old _ => ?_
    rw [pure_bind]
    exact finish [.copy current old] old _ fun _ _ => rfl
  · exact finish _ _ _ .nil

theorem callCode_whole {name : Text} {type : CType} {arguments : List Operand} :
    Yields (callCode name type arguments) context fun made _ => made.1.IsWhole := by
  unfold callCode
  split
  · exact Ensures.pure fun _ _ => rfl
  · exact Ensures.bind_any fun _ _ => Ensures.pure fun _ _ => rfl

end Expr

end

theorem LogicOp.exit_whole (op : LogicOp) (operand : Operand) (label : Text) :
    Code.IsWhole [op.exit operand label] := by
  cases op <;> exact fun _ _ => rfl

/-! ### Expressions -/

namespace Expr

theorem loaded_whole {expr : Expr} {context : Context}
    (lowers : Yields expr.lower context fun made _ => made.1.IsWhole) :
    Yields (expr.lower >>= Place.loaded expr.type) context fun made _ => made.1.IsWhole :=
  lowers.bind fun _ _ isWhole => Place.loaded_whole isWhole

mutual

/-- The code of an expression writes objects as a whole. -/
theorem lower_whole : ∀ (expr : Expr) {context : Context},
    Yields expr.lower context fun made _ => made.1.IsWhole
  | .constant _ _, context | .var _ _, context | .sizeofExpr _ _, context
  | .sizeofType _ _, context => by
      rw [lower]
      exact Ensures.pure .nil
  | .string _ bytes, context => by
      rw [lower]
      exact Ensures.bind_any fun _ _ => Ensures.pure .nil
  | .unary _ op operand, context => by
      rw [lower]
      refine (loaded_whole (lower_whole operand)).bind fun _ _ operands => ?_
      exact unaryCode_whole.bind fun _ _ computes => Ensures.pure (operands.append computes)
  | .binary _ op left right, context => by
      rw [lower]
      split
      · rename_i op _
        refine Ensures.bind_any fun labels _ => Ensures.bind_any fun target _ => ?_
        refine (loaded_whole (lower_whole left)).bind fun _ _ lefts => ?_
        refine (loaded_whole (lower_whole right)).bind fun _ _ rights => ?_
        have ends : Code.IsWhole [.copy (LogicOp.result !op.decided) target, .jump labels.2,
            .label labels.1, .copy (LogicOp.result op.decided) target, .label labels.2] :=
          fun _ _ => rfl
        exact Ensures.pure (((lefts.append (op.exit_whole _ _)).append rights).append
          ((op.exit_whole _ _).append ends))
      · refine (loaded_whole (lower_whole left)).bind fun _ _ lefts => ?_
        refine (loaded_whole (lower_whole right)).bind fun _ _ rights => ?_
        refine binaryCode_whole.bind fun _ _ computes => ?_
        exact Ensures.pure ((lefts.append rights).append computes)
  | .assign _ op left right opType, context => by
      rw [lower]
      refine (lower_whole left).bind fun _ _ lefts => ?_
      cases op with
      | plain =>
          refine (loaded_whole (lower_whole right)).bind fun _ _ rights => ?_
          refine (Place.store_whole _).bind fun _ _ stores => ?_
          exact Ensures.pure ((lefts.append rights).append stores)
      | compound op =>
          refine (Place.load_whole _).bind fun _ _ loads => ?_
          refine (loaded_whole (lower_whole right)).bind fun _ _ rights => ?_
          refine compoundCode_whole.bind fun _ _ computes => ?_
          refine (Place.store_whole _).bind fun _ _ stores => ?_
          exact Ensures.pure ((((lefts.append loads).append rights).append computes).append stores)
  | .conditional note condition thenBranch elseBranch, context => by
      rw [lower]
      refine Ensures.bind_any fun labels _ => ?_
      refine (loaded_whole (lower_whole condition)).bind ?_
      rintro ⟨conditionCode, value⟩ _ conditions
      have tests : Code.IsWhole (conditionCode ++ [Instruction.jumpIfZero value labels.1]) :=
        conditions.append fun _ _ => rfl
      dsimp only
      refine Ensures.ite ?_ ?_
      · intro _
        refine (lower_whole thenBranch).bind fun _ _ thens => ?_
        refine (lower_whole elseBranch).bind fun _ _ elses => ?_
        exact Ensures.pure ((((tests.append thens).append fun _ _ => rfl).append elses).append
          fun _ _ => rfl)
      · intro _
        refine Ensures.bind_any fun _ _ => ?_
        refine (loaded_whole (lower_whole thenBranch)).bind fun _ _ thens => ?_
        refine (loaded_whole (lower_whole elseBranch)).bind fun _ _ elses => ?_
        exact Ensures.pure ((((tests.append thens).append fun _ _ => rfl).append elses).append
          fun _ _ => rfl)
  | .call note name arguments, context => by
      rw [lower]
      refine (lowerArguments_whole arguments).bind fun _ _ isWhole => ?_
      exact callCode_whole.bind fun _ _ calls => Ensures.pure (isWhole.append calls)
  | .cast _ target operand _, context => by
      rw [lower]
      split
      · exact (lower_whole operand).bind fun _ _ isWhole => Ensures.pure isWhole
      · refine (loaded_whole (lower_whole operand)).bind fun _ _ operands => ?_
        exact Operand.convert_whole.bind fun _ _ converts =>
          Ensures.pure (operands.append converts)
  | .addressOf note operand, context => by
      rw [lower]
      refine (lower_whole operand).bind fun _ _ operands => ?_
      exact (Place.address_whole _).bind fun _ _ addresses =>
        Ensures.pure (operands.append addresses)
  | .dereference _ operand, context => by
      rw [lower]
      exact (loaded_whole (lower_whole operand)).bind fun _ _ isWhole => Ensures.pure isWhole
  | .subscript _ array index, context => by
      rw [lower]
      refine (loaded_whole (lower_whole array)).bind fun _ _ arrays => ?_
      refine (loaded_whole (lower_whole index)).bind fun _ _ indices => ?_
      exact pointerCode_whole.bind fun _ _ computes =>
        Ensures.pure ((arrays.append indices).append computes)
  | .step _ form op operand, context => by
      rw [lower]
      refine (lower_whole operand).bind fun _ _ operands => ?_
      exact stepPlace_whole.bind fun _ _ steps => Ensures.pure (operands.append steps)
  | .decay note operand, context => by
      rw [lower]
      refine (lower_whole operand).bind fun _ _ operands => ?_
      exact (Place.firstElement_whole _).bind fun _ _ decays =>
        Ensures.pure (operands.append decays)

theorem lowerArguments_whole : ∀ (arguments : List Expr) {context : Context},
    Yields (lowerArguments arguments) context fun made _ => made.1.IsWhole
  | [], context => by
      rw [lowerArguments]
      exact Ensures.pure .nil
  | argument :: arguments, context => by
      rw [lowerArguments]
      refine (loaded_whole (lower_whole argument)).bind fun _ _ isWhole => ?_
      exact (lowerArguments_whole arguments).bind fun _ _ rest =>
        Ensures.pure (isWhole.append rest)

end

theorem lowerValue_whole (expr : Expr) {context : Context} :
    Yields expr.lowerValue context fun made _ => made.1.IsWhole :=
  loaded_whole (lower_whole expr)

end Expr

end SubsetC
