import SubsetC.Lowering
import SubsetC.Proofs.RenamedSymbols

/-!
# Renamed trees and their code

The code of a tree with other names is the code of the tree with the other names: temporaries,
strings and labels keep theirs. The main statement is `Program.lower_mirrored`.
-/

namespace SubsetC

open Pass (Mirrored)

-- The recursive calls of a mutual block hide that its theorems use the hypothesis.
set_option linter.unusedSectionVars false

/-! ### Code with changed names -/

section

variable (change : Text → Text)

/-- The operand with its name changed. -/
def Operand.rename : Operand → Operand
  | .constant value => .constant value
  | .var name => .var (change name)
  | .absent => .absent

/-- The instruction with the names of objects and functions changed. -/
def Instruction.rename : Instruction → Instruction
  | .ret value => .ret (value.rename change)
  | .convert op source target => .convert op (source.rename change) (target.rename change)
  | .unary op source target => .unary op (source.rename change) (target.rename change)
  | .binary op left right target =>
      .binary op (left.rename change) (right.rename change) (target.rename change)
  | .copy source target => .copy (source.rename change) (target.rename change)
  | .getAddress source target => .getAddress (source.rename change) (target.rename change)
  | .load pointer target => .load (pointer.rename change) (target.rename change)
  | .store source pointer => .store (source.rename change) (pointer.rename change)
  | .addPointer pointer index scale target =>
      .addPointer (pointer.rename change) (index.rename change) scale (target.rename change)
  | .copyToOffset source target offset =>
      .copyToOffset (source.rename change) (change target) offset
  | .copyFromOffset source offset target =>
      .copyFromOffset (change source) offset (target.rename change)
  | .jump target => .jump target
  | .jumpIfZero condition target => .jumpIfZero (condition.rename change) target
  | .jumpIfNotZero condition target => .jumpIfNotZero (condition.rename change) target
  | .label name => .label name
  | .call function arguments target =>
      .call (change function) (arguments.map (Operand.rename change)) (target.rename change)

/-- The code with the names of objects and functions changed. -/
def Code.rename (code : Code) : Code := code.map (Instruction.rename change)

/-- The place with its name changed. -/
def Place.rename : Place → Place
  | .nowhere => .nowhere
  | .value operand => .value (operand.rename change)
  | .behind pointer => .behind (pointer.rename change)

/-- The function with the names in it changed. -/
def Function.rename (function : Function) : Function :=
  ⟨change function.name, function.isGlobal, function.params.map change,
    Code.rename change function.body⟩

/-- The static object with the names in it changed. -/
def StaticObject.rename (object : StaticObject) : StaticObject :=
  { object with
    name := change object.name
    items := object.items.map (StaticItem.rename change) }

/-- The read-only object with the names in it changed. -/
def StaticConstant.rename (constant : StaticConstant) : StaticConstant :=
  { constant with name := change constant.name, item := constant.item.rename change }

/-- The item with the names in it changed. -/
def TopLevel.rename : TopLevel → TopLevel
  | .function item => .function (item.rename change)
  | .object item => .object (item.rename change)
  | .constant item => .constant (item.rename change)

/-- The lowered compilation unit with its names changed. -/
def LinearProgram.rename (program : LinearProgram) : LinearProgram :=
  program.map (TopLevel.rename change)

/-- Code and the operand with its result, with changed names. -/
def Operand.renameResult : Code × Operand → Code × Operand :=
  Prod.map (Code.rename change) (Operand.rename change)

/-- Code and the place of its result, with changed names. -/
def Place.renameResult : Code × Place → Code × Place :=
  Prod.map (Code.rename change) (Place.rename change)

end

namespace Code

variable (change : Text → Text)

@[simp]
theorem rename_nil : rename change [] = [] := rfl

@[simp]
theorem rename_cons (instruction : Instruction) (code : Code) :
    rename change (instruction :: code) = instruction.rename change :: rename change code := rfl

@[simp]
theorem rename_append (first second : Code) :
    rename change (first ++ second) = rename change first ++ rename change second :=
  List.map_append

end Code

variable {names : NameChange} (spares : names.Spares)

/-! ### Places and values -/

section

include spares

theorem Pass.newTemporary_mirrored (type : CType) :
    Mirrored names (Pass.newTemporary type) (Pass.newTemporary type)
      (Operand.rename names.internal) :=
  (spares.uniqueName_mirrored Text.isPlain_tmp).bind fun name =>
    (spares.setSymbol_mirrored name type .automatic).bind fun _ => .pure rfl

namespace Place

theorem load_mirrored (type : CType) (place : Place) :
    Mirrored names (place.load type) ((place.rename names.internal).load type)
      (Operand.renameResult names.internal) := by
  cases place with
  | nowhere => exact .throw (.refl _)
  | value operand => exact .pure rfl
  | behind pointer => exact (Pass.newTemporary_mirrored spares type).bind fun _ => .pure rfl

theorem loaded_mirrored (type : CType) (lowered : Code × Place) :
    Mirrored names (loaded type lowered) (loaded type (renameResult names.internal lowered))
      (Operand.renameResult names.internal) :=
  (load_mirrored spares type lowered.2).bind fun _ =>
    .pure (by simp [Operand.renameResult, renameResult])

omit spares in
theorem store_mirrored (source : Operand) (place : Place) :
    Mirrored names (place.store source)
      ((place.rename names.internal).store (source.rename names.internal))
      (Code.rename names.internal) := by
  cases place with
  | nowhere => exact .throw (.refl _)
  | value operand | behind pointer => exact .pure rfl

theorem addressOf_mirrored (pointerType : CType) (operand : Operand) :
    Mirrored names (addressOf pointerType operand)
      (addressOf pointerType (operand.rename names.internal))
      (Operand.renameResult names.internal) :=
  (Pass.newTemporary_mirrored spares pointerType).bind fun _ => .pure rfl

theorem address_mirrored (pointerType : CType) (place : Place) :
    Mirrored names (place.address pointerType)
      ((place.rename names.internal).address pointerType)
      (Operand.renameResult names.internal) := by
  cases place with
  | nowhere => exact .throw (.refl _)
  | value operand => exact addressOf_mirrored spares pointerType operand
  | behind pointer => exact .pure rfl

theorem firstElement_mirrored (pointerType : CType) (place : Place) :
    Mirrored names (place.firstElement pointerType)
      ((place.rename names.internal).firstElement pointerType)
      (Operand.renameResult names.internal) := by
  cases place with
  | nowhere => exact .throw (.refl _)
  | value operand => exact addressOf_mirrored spares pointerType operand
  | behind pointer =>
      exact (Pass.newTemporary_mirrored spares pointerType).bind fun _ => .pure rfl

end Place

omit spares in
theorem Const.convert_mirrored (constant : Const) (type : CType) :
    Mirrored names (constant.convert type) (constant.convert type) id := by
  unfold convert
  split
  · exact .pure rfl
  · exact .throw (.refl _)

namespace Operand

theorem convertObject_mirrored (source target : CType) (operand : Operand) :
    Mirrored names (convertObject source target operand)
      (convertObject source target (operand.rename names.internal))
      (renameResult names.internal) := by
  refine (Pass.newTemporary_mirrored spares target).bind fun temporary => ?_
  split <;> exact .pure rfl

theorem convert_mirrored (source target : CType) (operand : Operand) :
    Mirrored names (operand.convert source target)
      ((operand.rename names.internal).convert source target) (renameResult names.internal) := by
  refine .ite (.pure rfl) ?_
  cases operand with
  | constant value =>
      refine .ite ?_ (.ite ?_ (convertObject_mirrored spares source target _))
      · exact (value.convert_mirrored target).bind fun _ => .pure rfl
      · exact (value.convert_mirrored .ulong).bind fun _ => .pure rfl
  | var name => exact convertObject_mirrored spares source target (.var name)
  | absent => exact convertObject_mirrored spares source target .absent

theorem addPointer_mirrored (pointerType : CType) (pointer index : Operand) :
    Mirrored names (pointer.addPointer pointerType index)
      ((pointer.rename names.internal).addPointer pointerType (index.rename names.internal))
      (renameResult names.internal) :=
  (Pass.newTemporary_mirrored spares pointerType).bind fun _ => .pure rfl

theorem negateIndex_mirrored (index : Operand) :
    Mirrored names index.negateIndex (index.rename names.internal).negateIndex
      (renameResult names.internal) := by
  cases index with
  | constant value => exact .pure rfl
  | var | absent => exact (Pass.newTemporary_mirrored spares .long).bind fun _ => .pure rfl

theorem subPointer_mirrored (pointerType : CType) (pointer index : Operand) :
    Mirrored names (pointer.subPointer pointerType index)
      ((pointer.rename names.internal).subPointer pointerType (index.rename names.internal))
      (renameResult names.internal) :=
  (negateIndex_mirrored spares index).bind fun negated =>
    (addPointer_mirrored spares pointerType pointer negated.2).bind fun _ =>
      .pure (by simp [renameResult])

theorem pointerDifference_mirrored (pointerType : CType) (left right : Operand) :
    Mirrored names (left.pointerDifference pointerType right)
      ((left.rename names.internal).pointerDifference pointerType (right.rename names.internal))
      (renameResult names.internal) :=
  (Pass.newTemporary_mirrored spares .long).bind fun _ =>
    (Pass.newTemporary_mirrored spares .long).bind fun _ => .pure rfl

theorem combine_mirrored (op : TwoOp) (type : CType) (left right : Operand) :
    Mirrored names (left.combine op type right)
      ((left.rename names.internal).combine op type (right.rename names.internal))
      (renameResult names.internal) :=
  (Pass.newTemporary_mirrored spares type).bind fun _ => .pure rfl

end Operand

/-! ### Expressions -/

namespace Expr

theorem unaryCode_mirrored (op : UnaryOp) (type : CType) (value : Operand) :
    Mirrored names (unaryCode op type value) (unaryCode op type (value.rename names.internal))
      (Operand.renameResult names.internal) := by
  unfold unaryCode
  split
  · exact .pure rfl
  · exact (Pass.newTemporary_mirrored spares type).bind fun _ => .pure rfl

theorem pointerCode_mirrored (op : ArithOp) (leftType rightType : CType) (left right : Operand) :
    Mirrored names (pointerCode op leftType rightType left right)
      (pointerCode op leftType rightType (left.rename names.internal)
        (right.rename names.internal)) (Operand.renameResult names.internal) := by
  refine .ite (.ite ?_ ?_) (.ite ?_ ?_)
  · exact Operand.addPointer_mirrored spares leftType left right
  · exact Operand.addPointer_mirrored spares rightType right left
  · exact Operand.pointerDifference_mirrored spares leftType left right
  · exact Operand.subPointer_mirrored spares leftType left right

theorem binaryCode_mirrored (op : TwoOp) (type leftType rightType : CType)
    (left right : Operand) :
    Mirrored names (binaryCode op type leftType rightType left right)
      (binaryCode op type leftType rightType (left.rename names.internal)
        (right.rename names.internal)) (Operand.renameResult names.internal) := by
  have combined := Operand.combine_mirrored spares op type left right
  cases op with
  | compare op => exact combined
  | arith op => exact .ite (pointerCode_mirrored spares op leftType rightType left right) combined

theorem compoundCode_mirrored (op : ArithOp) (type opType : CType) (current right : Operand) :
    Mirrored names (compoundCode op type opType current right)
      (compoundCode op type opType (current.rename names.internal)
        (right.rename names.internal)) (Operand.renameResult names.internal) := by
  refine .ite (.ite ?_ ?_) ?_
  · exact Operand.subPointer_mirrored spares type current right
  · exact Operand.addPointer_mirrored spares type current right
  · exact (Operand.convert_mirrored spares type opType current).bind fun widened =>
      (Operand.combine_mirrored spares (.arith op) opType widened.2 right).bind fun computed =>
        (Operand.convert_mirrored spares opType type computed.2).bind fun _ =>
          .pure (by simp [Operand.renameResult])

theorem stepCode_mirrored (op : StepOp) (type : CType) (current : Operand) :
    Mirrored names (stepCode op type current) (stepCode op type (current.rename names.internal))
      (Operand.renameResult names.internal) :=
  .ite (Operand.addPointer_mirrored spares type current _)
    ((Const.convert_mirrored _ _).bind fun one =>
      compoundCode_mirrored spares _ type _ current (.constant one))

theorem stepPlace_mirrored (form : StepForm) (op : StepOp) (type : CType) (place : Place) :
    Mirrored names (stepPlace form op type place)
      (stepPlace form op type (place.rename names.internal))
      (Operand.renameResult names.internal) := by
  have finish (loadCode keepCode : Code) (current old : Operand) : Mirrored names (do
      let stepped ← stepCode op type current
      let storeCode ← place.store stepped.2
      pure (loadCode ++ keepCode ++ stepped.1 ++ storeCode,
        if form = .after then old else stepped.2)) (do
      let stepped ← stepCode op type (current.rename names.internal)
      let storeCode ← (place.rename names.internal).store stepped.2
      pure (Code.rename names.internal loadCode ++ Code.rename names.internal keepCode ++
          stepped.1 ++ storeCode,
        if form = .after then old.rename names.internal else stepped.2))
      (Operand.renameResult names.internal) :=
    (stepCode_mirrored spares op type current).bind fun stepped =>
      (Place.store_mirrored stepped.2 place).bind fun _ =>
        .pure (by cases form <;> simp [Operand.renameResult])
  refine (Place.load_mirrored spares type place).bind fun loaded => ?_
  cases form with
  | before => exact finish loaded.1 [] loaded.2 loaded.2
  | after =>
      cases place with
      | nowhere | behind _ => exact finish loaded.1 [] loaded.2 loaded.2
      | value _ =>
          exact (Pass.newTemporary_mirrored spares type).bind fun old =>
            finish loaded.1 [.copy loaded.2 old] loaded.2 old

theorem callCode_mirrored (name : Text) (type : CType) (arguments : List Operand) :
    Mirrored names (callCode name type arguments)
      (callCode (names.internal name) type (arguments.map (Operand.rename names.internal)))
      (Place.renameResult names.internal) :=
  .ite (.pure rfl) ((Pass.newTemporary_mirrored spares type).bind fun _ => .pure rfl)

omit spares in
@[simp]
theorem exit_rename (op : LogicOp) (operand : Operand) (label : Text) :
    op.exit (operand.rename names.internal) label =
      (op.exit operand label).rename names.internal := by
  cases op <;> rfl

omit spares in
@[simp]
theorem result_rename (value : Bool) :
    (LogicOp.result value).rename names.internal = LogicOp.result value := rfl

theorem value_mirrored {expr : Expr}
    (lowers : Mirrored names expr.lower (expr.rename names.internal).lower
      (Place.renameResult names.internal)) :
    Mirrored names expr.lowerValue (expr.rename names.internal).lowerValue
      (Operand.renameResult names.internal) := by
  rw [lowerValue, lowerValue, type_rename]
  exact lowers.bind fun lowered => Place.loaded_mirrored spares _ lowered

mutual

theorem lower_mirrored : ∀ expr : Expr,
    Mirrored names expr.lower (expr.rename names.internal).lower
      (Place.renameResult names.internal)
  | .constant _ _ | .var _ _ | .sizeofType _ _ => .pure rfl
  | .sizeofExpr _ operand => by
      rw [rename, lower, lower, type_rename]
      exact .pure rfl
  | .string _ bytes => (spares.newString_mirrored bytes).bind fun _ => .pure rfl
  | .unary _ op operand => by
      rw [rename, lower, lower]
      exact (value_mirrored spares (lower_mirrored operand)).bind fun value =>
        (unaryCode_mirrored spares op _ value.2).bind fun _ =>
          .pure (by simp [Place.renameResult, Place.rename])
  | .binary _ op left right => by
      rw [rename, lower, lower]
      split
      · exact (Mirrored.newLabelPair _ _).bind fun labels =>
          (Pass.newTemporary_mirrored spares .int).bind fun target =>
            (value_mirrored spares (lower_mirrored left)).bind fun leftValue =>
              (value_mirrored spares (lower_mirrored right)).bind fun rightValue => .pure (by
                simp [Place.renameResult, Place.rename, Instruction.rename])
      · refine (value_mirrored spares (lower_mirrored left)).bind fun leftValue =>
          (value_mirrored spares (lower_mirrored right)).bind fun rightValue => ?_
        simp only [type_rename]
        exact (binaryCode_mirrored spares _ _ _ _ leftValue.2 rightValue.2).bind fun _ =>
          .pure (by simp [Place.renameResult, Place.rename, Operand.renameResult])
  | .assign _ op left right opType => by
      rw [rename, lower, lower]
      refine (lower_mirrored left).bind fun place => ?_
      cases op with
      | plain =>
          exact (value_mirrored spares (lower_mirrored right)).bind fun value =>
            (Place.store_mirrored value.2 place.2).bind fun _ =>
              .pure (by simp [Place.renameResult, Place.rename])
      | compound op =>
          have leftType : (left.rename names.internal).type = left.type := type_rename _ left
          rw [leftType]
          exact (Place.load_mirrored spares _ place.2).bind fun loaded =>
            (value_mirrored spares (lower_mirrored right)).bind fun value =>
              (compoundCode_mirrored spares op _ _ loaded.2 value.2).bind fun computed =>
                (Place.store_mirrored computed.2 place.2).bind fun _ =>
                  .pure (by simp [Place.renameResult, Place.rename])
  | .conditional note condition thenBranch elseBranch => by
      rw [rename, lower, lower]
      refine (Mirrored.newLabelPair _ _).bind fun labels =>
        (value_mirrored spares (lower_mirrored condition)).bind fun value => .ite ?_ ?_
      · exact (lower_mirrored thenBranch).bind fun _ =>
          (lower_mirrored elseBranch).bind fun _ => .pure (by
            simp [Place.renameResult, Place.rename, Instruction.rename])
      · exact (Pass.newTemporary_mirrored spares _).bind fun target =>
          (value_mirrored spares (lower_mirrored thenBranch)).bind fun _ =>
            (value_mirrored spares (lower_mirrored elseBranch)).bind fun _ => .pure (by
              simp [Place.renameResult, Place.rename, Instruction.rename])
  | .call _ name arguments =>
      (lowerArguments_mirrored arguments).bind fun values =>
        (callCode_mirrored spares name _ values.2).bind fun _ =>
          .pure (by simp [Place.renameResult])
  | .cast _ target operand _ => by
      rw [rename, lower, lower]
      refine .ite ((lower_mirrored operand).bind fun _ => .pure rfl)
        ((value_mirrored spares (lower_mirrored operand)).bind fun value => ?_)
      simp only [type_rename]
      exact (Operand.convert_mirrored spares _ target value.2).bind fun _ =>
        .pure (by simp [Place.renameResult, Place.rename, Operand.renameResult])
  | .addressOf _ operand =>
      (lower_mirrored operand).bind fun place =>
        (Place.address_mirrored spares _ place.2).bind fun _ =>
          .pure (by simp [Place.renameResult, Place.rename])
  | .dereference _ operand =>
      (value_mirrored spares (lower_mirrored operand)).bind fun _ => .pure rfl
  | .subscript _ array index => by
      rw [rename, lower, lower]
      refine (value_mirrored spares (lower_mirrored array)).bind fun arrayValue =>
        (value_mirrored spares (lower_mirrored index)).bind fun indexValue => ?_
      simp only [type_rename]
      exact (pointerCode_mirrored spares .add _ _ arrayValue.2 indexValue.2).bind fun _ =>
        .pure (by simp [Place.renameResult, Place.rename, Operand.renameResult])
  | .step _ form op operand => by
      rw [rename, lower, lower, type_rename]
      exact (lower_mirrored operand).bind fun place =>
        (stepPlace_mirrored spares form op _ place.2).bind fun _ =>
          .pure (by simp [Place.renameResult, Place.rename])
  | .decay _ operand =>
      (lower_mirrored operand).bind fun place =>
        (Place.firstElement_mirrored spares _ place.2).bind fun _ =>
          .pure (by simp [Place.renameResult, Place.rename])

theorem lowerArguments_mirrored : ∀ arguments : List Expr,
    Mirrored names (lowerArguments arguments)
      (lowerArguments (renameList names.internal arguments))
      (Prod.map (Code.rename names.internal) (List.map (Operand.rename names.internal)))
  | [] => .pure rfl
  | argument :: arguments => by
      rw [renameList, lowerArguments, lowerArguments]
      exact (value_mirrored spares (lower_mirrored argument)).bind fun _ =>
        (lowerArguments_mirrored arguments).bind fun _ =>
          .pure (by simp)

end

theorem lowerValue_mirrored (expr : Expr) :
    Mirrored names expr.lowerValue (expr.rename names.internal).lowerValue
      (Operand.renameResult names.internal) :=
  value_mirrored spares (lower_mirrored spares expr)

theorem lowerEffect_mirrored (expr : Expr) :
    Mirrored names expr.lowerEffect (expr.rename names.internal).lowerEffect
      (Code.rename names.internal) :=
  (lower_mirrored spares expr).bind fun _ => .pure rfl

theorem lowerEffectOption_mirrored (value : Option Expr) :
    Mirrored names (lowerEffectOption value)
      (lowerEffectOption (value.map (rename names.internal))) (Code.rename names.internal) := by
  cases value with
  | none => exact .pure rfl
  | some value => exact lowerEffect_mirrored spares value

theorem lowerTest_mirrored (target : Text) (condition : Option Expr) :
    Mirrored names (lowerTest target condition)
      (lowerTest target (condition.map (rename names.internal))) (Code.rename names.internal) := by
  cases condition with
  | none => exact .pure rfl
  | some condition =>
      exact (lowerValue_mirrored spares condition).bind fun _ =>
        .pure (by simp [Instruction.rename])

end Expr

/-! ### Declarations -/

omit spares in
theorem writeBytes_rename (change : Text → Text) (name : Text) (offset : Size) (bytes : Text) :
    writeBytes (change name) offset bytes = Code.rename change (writeBytes name offset bytes) := by
  induction offset, bytes using writeBytes.induct with
  | case1 offset => simp [writeBytes]
  | case2 offset bytes nonempty width ih =>
      rw [writeBytes, writeBytes, if_neg nonempty, if_neg nonempty, Code.rename_cons, ← ih]
      rfl

namespace Initializer

mutual

theorem lowerAt_mirrored (name : Text) (type : CType) (offset : Size) : ∀ init : Initializer,
    Mirrored names (init.lowerAt name type offset)
      ((init.rename names.internal).lowerAt (names.internal name) type offset)
      (Code.rename names.internal)
  | .single _ value => by
      have copies : Mirrored names (do
          let (code, operand) ← value.lowerValue
          pure (code ++ [.copyToOffset operand name offset])) (do
          let (code, operand) ← (value.rename names.internal).lowerValue
          pure (code ++ [.copyToOffset operand (names.internal name) offset]))
          (Code.rename names.internal) :=
        (value.lowerValue_mirrored spares).bind fun _ =>
          .pure (by simp [Instruction.rename])
      rw [rename]
      unfold lowerAt
      cases type with
      | array size element =>
          cases value with
          | string note bytes =>
              exact .ite (.throw (.refl _)) (.pure (writeBytes_rename names.internal name _ _))
          | _ => exact copies
      | _ => exact copies
  | .compound _ items => lowerElements_mirrored name _ offset items

theorem lowerElements_mirrored (name : Text) (element : CType) : ∀ (offset : Size)
    (items : List Initializer), Mirrored names (lowerElements name element offset items)
      (lowerElements (names.internal name) element offset (renameList names.internal items))
      (Code.rename names.internal)
  | _, [] => .pure rfl
  | offset, item :: items => by
      rw [renameList, lowerElements, lowerElements]
      exact (lowerAt_mirrored name element offset item).bind fun _ =>
        (lowerElements_mirrored name element _ items).bind fun _ => .pure (by simp)

end

end Initializer

namespace VarDecl

theorem lower_mirrored (decl : VarDecl) :
    Mirrored names decl.lower (decl.rename names.internal).lower (Code.rename names.internal) := by
  rcases decl with ⟨_, name, type, _ | _, _ | init⟩
  case none.some =>
    have pieces := init.lowerAt_mirrored spares name type 0
    cases type with
    | array => exact pieces
    | _ =>
        cases init with
        | compound => exact pieces
        | single _ value =>
            exact (value.lowerValue_mirrored spares).bind fun _ =>
              .pure (by simp [Instruction.rename, Operand.rename, rename])
  all_goals exact .pure rfl

theorem lowerList_mirrored : ∀ decls : List VarDecl,
    Mirrored names (lowerList decls) (lowerList (decls.map (VarDecl.rename names.internal)))
      (Code.rename names.internal)
  | [] => .pure rfl
  | decl :: decls => by
      rw [List.map_cons, lowerList, lowerList]
      exact (lower_mirrored spares decl).bind fun _ =>
        (lowerList_mirrored decls).bind fun _ => .pure (by simp)

end VarDecl

/-! ### Statements -/

theorem ForInit.lower_mirrored (init : ForInit) :
    Mirrored names init.lower (init.map (.renamed names.internal)).lower
      (Code.rename names.internal) := by
  cases init with
  | declarations _ decls => exact VarDecl.lowerList_mirrored spares decls
  | expression _ value => exact Expr.lowerEffectOption_mirrored spares value

theorem SwitchCase.lowerList_mirrored (value : Operand) (type : CType) :
    ∀ cases : List SwitchCase, Mirrored names (SwitchCase.lowerList value type cases)
      (SwitchCase.lowerList (value.rename names.internal) type cases) (Code.rename names.internal)
  | [] => .pure rfl
  | case :: cases => by
      unfold lowerList
      split
      · exact lowerList_mirrored value type cases
      · exact (Pass.newTemporary_mirrored spares .int).bind fun _ =>
          (Const.convert_mirrored _ type).bind fun _ =>
            (lowerList_mirrored value type cases).bind fun _ =>
              .pure (by simp [Instruction.rename, Operand.rename])

mutual

theorem Stmt.lower_mirrored : ∀ stmt : Stmt,
    Mirrored names stmt.lower (stmt.map (.renamed names.internal)).lower
      (Code.rename names.internal)
  | .ret _ none | .break _ _ | .continue _ _ | .null _ => .pure rfl
  | .ret _ (some value) =>
      (value.lowerValue_mirrored spares).bind fun _ =>
        .pure (by simp [Instruction.rename])
  | .expr _ value => value.lowerEffect_mirrored spares
  | .ifThen _ condition thenBranch =>
      (Mirrored.newLabelPair _ _).bind fun _ =>
        (condition.lowerValue_mirrored spares).bind fun _ =>
          (Stmt.lower_mirrored thenBranch).bind fun _ =>
            .pure (by simp [Instruction.rename])
  | .ifElse _ condition thenBranch elseBranch =>
      (Mirrored.newLabelPair _ _).bind fun _ =>
        (condition.lowerValue_mirrored spares).bind fun _ =>
          (Stmt.lower_mirrored thenBranch).bind fun _ =>
            (Stmt.lower_mirrored elseBranch).bind fun _ =>
              .pure (by simp [Instruction.rename])
  | .block _ items => Item.lowerList_mirrored items
  | .whileLoop _ _ condition body =>
      (condition.lowerValue_mirrored spares).bind fun _ =>
        (Stmt.lower_mirrored body).bind fun _ =>
          .pure (by simp [Instruction.rename, TreeMap.renamed])
  | .doWhile _ _ body condition =>
      (Stmt.lower_mirrored body).bind fun _ =>
        (condition.lowerValue_mirrored spares).bind fun _ =>
          .pure (by simp [Instruction.rename, TreeMap.renamed])
  | .forLoop _ label init condition post body =>
      (init.lower_mirrored spares).bind fun _ =>
        (Expr.lowerTest_mirrored spares _ condition).bind fun _ =>
          (Stmt.lower_mirrored body).bind fun _ =>
            (Expr.lowerEffectOption_mirrored spares post).bind fun _ =>
              .pure (by simp [Instruction.rename, TreeMap.renamed])
  | .switch _ _ value body cases => by
      rw [Stmt.map, Stmt.lower, Stmt.lower]
      refine (value.lowerValue_mirrored spares).bind fun lowered => ?_
      simp only [TreeMap.renamed, Expr.type_rename]
      exact (SwitchCase.lowerList_mirrored spares lowered.2 _ cases).bind fun _ =>
        (Stmt.lower_mirrored body).bind fun _ =>
          .pure (by simp [Operand.renameResult, Instruction.rename])
  | .case _ _ _ body | .default _ _ body =>
      (Stmt.lower_mirrored body).bind fun _ =>
        .pure (by simp [Instruction.rename, TreeMap.renamed])

theorem Item.lowerList_mirrored : ∀ items : List Item,
    Mirrored names (Item.lowerList items)
      (Item.lowerList (Item.mapList (.renamed names.internal) items)) (Code.rename names.internal)
  | [] => .pure rfl
  | .stmt stmt :: items =>
      (Stmt.lower_mirrored stmt).bind fun _ =>
        (Item.lowerList_mirrored items).bind fun _ => .pure (by simp)
  | .decl (.object decl) :: items =>
      (decl.lower_mirrored spares).bind fun _ =>
        (Item.lowerList_mirrored items).bind fun _ => .pure (by simp)
  | .decl (.function _) :: items | .decl (.definition _ _ _) :: items =>
      Item.lowerList_mirrored items

end

/-! ### Compilation units -/

theorem FunDecl.lower_mirrored (decl : FunDecl) (body : List Item) :
    Mirrored names (decl.lower body)
      ((decl.rename names.internal).lower (Item.mapList (.renamed names.internal) body))
      (Function.rename names.internal) := by
  have isGlobal : Mirrored names (Pass.functionIsGlobal decl.name)
      (Pass.functionIsGlobal (names.internal decl.name)) id := by
    refine (spares.findSymbol?_mirrored decl.name).bind fun found => ?_
    rcases found with _ | ⟨_, _, _ | _ | _ | _⟩
    case some.function => exact .pure rfl
    all_goals exact .throw ⟨rfl, rfl, rfl⟩
  have ends : Mirrored names decl.result.lowerEnd decl.result.lowerEnd
      (Code.rename names.internal) := by
    refine .ite (.pure rfl) ?_
    split
    · exact .pure rfl
    · exact .throw (.refl _)
  have params : (decl.params.map (Param.rename names.internal)).map Param.name =
      (decl.params.map Param.name).map names.internal := by
    rw [List.map_map, List.map_map]
    refine List.map_congr_left fun param _ => ?_
    rw [Function.comp_apply, param.rename_eq spares.empty]
    rfl
  refine isGlobal.bind fun _ => (Item.lowerList_mirrored spares body).bind fun _ =>
    ends.bind fun _ => .pure ?_
  rw [Function.rename, Code.rename_append, ← params]
  rfl

namespace Symbol

omit spares in
theorem staticObject?_rename (change : Text → Text) (symbol : Symbol) :
    (symbol.rename change).staticObject? =
      symbol.staticObject?.map (StaticObject.rename change) := by
  rcases symbol with ⟨_, type, _ | ⟨_ | _ | _, _⟩ | _ | _⟩
  case static.tentative =>
    have zeros := StaticItem.appendZero_rename change [] type.size
    simp [rename, staticObject?, Storage.rename, InitialValue.rename, StaticObject.rename, ← zeros]
  all_goals rfl

omit spares in
theorem staticConstant?_rename (change : Text → Text) (symbol : Symbol) :
    (symbol.rename change).staticConstant? =
      symbol.staticConstant?.map (StaticConstant.rename change) := by
  rcases symbol with ⟨_, _, _ | _ | _ | _⟩ <;> rfl

end Symbol

namespace Program

theorem lowerFunctions_mirrored : ∀ program : Program,
    Mirrored names program.lowerFunctions
      (program.mapParts (.renamed names.internal)).lowerFunctions
      (List.map (Function.rename names.internal))
  | [] => .pure rfl
  | .definition decl _ body :: decls => by
      rw [mapParts, List.map_cons, Decl.map, lowerFunctions, lowerFunctions]
      exact (decl.lower_mirrored spares body).bind fun _ =>
        (lowerFunctions_mirrored decls).bind fun _ => .pure rfl
  | .object _ :: decls | .function _ :: decls => lowerFunctions_mirrored decls

/-- The code of a tree with other names is the code of the tree with the other names. -/
theorem lower_mirrored (program : Program) :
    Mirrored names program.lower (program.mapParts (.renamed names.internal)).lower
      (LinearProgram.rename names.internal) := by
  refine (lowerFunctions_mirrored spares program).bind fun functions =>
    Mirrored.get.bind fun context => .pure ?_
  have objects := Symbol.staticObject?_rename names.internal
  have constants := Symbol.staticConstant?_rename names.internal
  simp only [LinearProgram.rename, Context.rename, SymbolTable.rename, List.map_append,
    List.map_map, List.filterMap_map, List.map_filterMap, Function.comp_def, objects, constants,
    Option.map_map, TopLevel.rename]

end Program

end

end SubsetC
