import SubsetC.Lowering
import SubsetC.Proofs.Acceptance

/-!
# What passes enter into the symbol table

Typing and lowering enter symbols of few kinds: objects and functions as they are declared, static
objects with the items their initializer is computed into, temporaries, and strings. `Permits` says
of a property of symbols that it holds of each of these kinds. The main statement, `symbols_valid`,
says that every symbol of an analysed and lowered compilation unit then has the property.

Resolution and labelling enter nothing, so the walk is through typing and lowering only. It needs to
know nothing about the trees. On the way through lowering, it also finds that no failure there is
the user's (`Pass.Preserves`).
-/

namespace SubsetC

/-- A property holds of the symbols of every kind that passes enter. -/
structure Symbol.Permits (valid : Symbol → Prop) : Prop where
  /-- Automatic objects and temporaries. -/
  automatic : ∀ name type, valid ⟨name, type, .automatic⟩
  function : ∀ name type defined isGlobal, valid ⟨name, type, .function defined isGlobal⟩
  /-- Static objects without an initializer. -/
  uninitialized : ∀ name type init isGlobal, (∀ items, init ≠ .initial items) →
    valid ⟨name, type, .static init isGlobal⟩
  /-- Static objects of a block without an initializer. -/
  zeros : ∀ name type isGlobal,
    valid ⟨name, type, .static (.initial (StaticItem.appendZero [] type.size)) isGlobal⟩
  /-- Static objects with an initializer. -/
  computed : ∀ name type isGlobal context after (init typed : Initializer) items,
    (init.checkStatic type []).run context = .ok ((typed, items), after) →
      valid ⟨name, type, .static (.initial items) isGlobal⟩
  /-- Strings. -/
  string : ∀ name (bytes : Text),
    valid ⟨name, .array (bytes.length + 1) .char, .constant (.string bytes true)⟩

/-- All symbols of the context have a property. -/
def Context.All (valid : Symbol → Prop) (context : Context) : Prop :=
  ∀ symbol ∈ context.symbols.symbols, valid symbol

/-- Wherever all symbols have a property before a run, they have it after the run, and the result
is as wanted. -/
def Pass.KeepsWith {α : Type} (valid : Symbol → Prop) (action : Pass α) (wanted : α → Prop) :
    Prop :=
  ∀ context : Context, context.All valid →
    Yields action context fun result after => after.All valid ∧ wanted result

/-- Wherever all symbols have a property before a run, they have it after the run. -/
def Pass.Keeps {α : Type} (valid : Symbol → Prop) (action : Pass α) : Prop :=
  ∀ context : Context, context.All valid → Yields action context fun _ after => after.All valid

/-- The failure is no error of the user's. -/
def Failure.IsInternal (failure : Failure) : Prop := failure.diagnostic.kind = .internal

/-- Wherever all symbols have a property before a run, they have it after the run, and the run fails
only internally. -/
def Pass.Preserves {α : Type} (valid : Symbol → Prop) (action : Pass α) : Prop :=
  ∀ context : Context, context.All valid →
    Ensures action context Failure.IsInternal fun _ after => after.All valid

/-! ### Rules -/

namespace SymbolTable

theorem mem_put {symbol entered : Symbol} {symbols : List Symbol}
    (mem : symbol ∈ put entered symbols) : symbol = entered ∨ symbol ∈ symbols := by
  induction symbols with
  | nil => exact .inl (List.mem_singleton.1 mem)
  | cons row rows ih =>
      rw [put] at mem
      split at mem
      · exact (List.mem_cons.1 mem).imp_right (List.mem_cons_of_mem row)
      · rcases List.mem_cons.1 mem with rfl | mem
        · exact .inr List.mem_cons_self
        · exact (ih mem).imp_right (List.mem_cons_of_mem row)

end SymbolTable

namespace Pass.Preserves

variable {α β : Type} {valid : Symbol → Prop} {action : Pass α} {next : α → Pass β}

theorem keeps (preserves : action.Preserves valid) : action.Keeps valid :=
  fun context all => (preserves context all).allow fun _ _ => trivial

theorem pure {result : α} : (Pure.pure result : Pass α).Preserves valid :=
  fun _ all => Ensures.pure all

theorem throw {failure : Failure} (isInternal : failure.IsInternal) :
    (MonadExcept.throw failure : Pass α).Preserves valid :=
  fun _ _ => Ensures.throw isInternal

theorem bind (first : action.Preserves valid) (rest : ∀ result, (next result).Preserves valid) :
    (action >>= next).Preserves valid :=
  fun context all => (first context all).bind fun result after => rest result after

theorem ite {condition : Prop} [Decidable condition] {whenTrue whenFalse : Pass α}
    (isTrue : whenTrue.Preserves valid) (isFalse : whenFalse.Preserves valid) :
    (if condition then whenTrue else whenFalse).Preserves valid :=
  fun context all => Ensures.ite (fun _ => isTrue context all) fun _ => isFalse context all

theorem get : (MonadState.get : Pass Context).Preserves valid := fun _ all => all

theorem uniqueName (base : Text) : (Pass.uniqueName base).Preserves valid := fun _ all => all

theorem newLabelPair (first second : Text) : (Pass.newLabelPair first second).Preserves valid :=
  fun _ all => all

theorem findSymbol? (name : Text) : (Pass.findSymbol? name).Preserves valid := fun _ all => all

theorem setSymbol {name : Text} {type : CType} {storage : Storage}
    (entered : valid ⟨name, type, storage⟩) :
    (Pass.setSymbol name type storage).Preserves valid := by
  intro context all symbol mem
  rcases SymbolTable.mem_put mem with rfl | mem
  · exact entered
  · exact all symbol mem

end Pass.Preserves

namespace Pass.Keeps

variable {α β : Type} {valid : Symbol → Prop} {action : Pass α} {next : α → Pass β}

theorem pure {result : α} : (Pure.pure result : Pass α).Keeps valid :=
  fun _ all => Ensures.pure all

theorem throw {failure : Failure} : (MonadExcept.throw failure : Pass α).Keeps valid :=
  fun _ _ => Ensures.throw trivial

theorem bind (first : action.Keeps valid) (rest : ∀ result, (next result).Keeps valid) :
    (action >>= next).Keeps valid :=
  fun context all => (first context all).bind fun result after => rest result after

theorem ite {condition : Prop} [Decidable condition] {whenTrue whenFalse : Pass α}
    (isTrue : whenTrue.Keeps valid) (isFalse : whenFalse.Keeps valid) :
    (if condition then whenTrue else whenFalse).Keeps valid :=
  fun context all => Ensures.ite (fun _ => isTrue context all) fun _ => isFalse context all

theorem typeError {span : Span} {error : TypeError} :
    (Pass.typeError span error : Pass α).Keeps valid := throw

theorem flowError {span : Span} {error : FlowError} :
    (Pass.flowError span error : Pass α).Keeps valid := throw

theorem get : (MonadState.get : Pass Context).Keeps valid := fun _ all => all

theorem newLoc (span : Span) : (Pass.newLoc span).Keeps valid := fun _ all => all

theorem findSymbol? (name : Text) : (Pass.findSymbol? name).Keeps valid := fun _ all => all

theorem setSymbol {name : Text} {type : CType} {storage : Storage}
    (entered : valid ⟨name, type, storage⟩) : (Pass.setSymbol name type storage).Keeps valid :=
  (Preserves.setSymbol entered).keeps

theorem times (keeps : action.Keeps valid) (count : Nat) : (action.times count).Keeps valid := by
  induction count with
  | zero => exact pure
  | succ count ih => exact keeps.bind fun _ => ih.bind fun _ => pure

end Pass.Keeps

/-- What is known of the result of a first action may be used after it. -/
theorem Pass.KeepsWith.bind {α β : Type} {valid : Symbol → Prop} {action : Pass α}
    {next : α → Pass β} {wanted : α → Prop} (first : action.KeepsWith valid wanted)
    (rest : ∀ result, wanted result → (next result).Keeps valid) :
    (action >>= next).Keeps valid :=
  fun context all => (first context all).bind fun result after holds =>
    rest result holds.2 after holds.1

-- The recursive calls of a mutual block hide that its theorems use the hypothesis.
set_option linter.unusedSectionVars false

section

variable {valid : Symbol → Prop} (permits : Symbol.Permits valid)

include permits in
theorem Pass.newString_preserves (bytes : Text) : (Pass.newString bytes).Preserves valid :=
  (Preserves.uniqueName _).bind fun _ =>
    (Preserves.setSymbol (permits.string _ _)).bind fun _ => .pure

include permits in
theorem Pass.newString_keeps (bytes : Text) : (Pass.newString bytes).Keeps valid :=
  (newString_preserves permits bytes).keeps

include permits in
theorem Pass.newTemporary_preserves (type : CType) : (Pass.newTemporary type).Preserves valid :=
  (Preserves.uniqueName _).bind fun _ =>
    (Preserves.setSymbol (permits.automatic _ _)).bind fun _ => .pure

/-! ### Typing of expressions -/

mutual

theorem CType.checkElements_keeps (span : Span) :
    (type : CType) → (type.checkElements span).Keeps valid
  | .array _ element => by
      unfold checkElements
      exact .ite (element.checkElements_keeps span) .typeError
  | .pointer element => by
      unfold checkElements
      exact element.checkElements_keeps span
  | .function parameters result => by
      unfold checkElements
      exact (checkElementsList_keeps span parameters).bind fun _ => result.checkElements_keeps span
  | .void | .integer _ | .double => by
      unfold checkElements
      exact .pure

theorem CType.checkElementsList_keeps (span : Span) :
    (types : List CType) → (checkElements.checkList span types).Keeps valid
  | [] => .pure
  | type :: types =>
      (type.checkElements_keeps span).bind fun _ => checkElementsList_keeps span types

end

theorem CType.checkObject_keeps (span : Span) (ifVoid : TypeError) (type : CType) :
    (type.checkObject span ifVoid).Keeps valid :=
  .ite .typeError (type.checkElements_keeps span)

namespace Expr

theorem convertTo_keeps (target : CType) (expr : Expr) : (expr.convertTo target).Keeps valid :=
  .ite .pure ((Pass.Keeps.newLoc _).bind fun _ => .pure)

theorem toValue_keeps (expr : Expr) : expr.toValue.Keeps valid := by
  unfold toValue
  split
  · exact (Pass.Keeps.newLoc _).bind fun _ => .pure
  · exact .typeError
  · exact .pure

theorem assignTo_keeps (target : CType) (expr : Expr) : (expr.assignTo target).Keeps valid :=
  .ite (convertTo_keeps target expr) .typeError

theorem commonPointer_keeps (span : Span) (left right : Expr) :
    (commonPointer span left right).Keeps valid := by
  unfold commonPointer
  split
  · exact .pure
  · exact .typeError

theorem ofUnary_keeps (note : Note) (op : UnaryOp) (operand : Expr) :
    (ofUnary note op operand).Keeps valid :=
  .ite .typeError (.ite .pure ((convertTo_keeps _ _).bind fun _ => .pure))

theorem ofConverted_keeps (note : Note) (op : BinaryOp) (type leftType rightType : CType)
    (left right : Expr) : (ofConverted note op type leftType rightType left right).Keeps valid :=
  (convertTo_keeps _ _).bind fun _ => (convertTo_keeps _ _).bind fun _ => .pure

theorem ofBinary_keeps (note : Note) (op : BinaryOp) (left right : Expr) :
    (ofBinary note op left right).Keeps valid := by
  have converts : ∀ op type leftType rightType,
      (ofConverted note op type leftType rightType left right).Keeps valid :=
    fun op type leftType rightType => ofConverted_keeps note op type leftType rightType left right
  unfold ofBinary
  split
  · exact .ite .pure .typeError
  · refine .ite (.ite (converts _ _ _ _) .typeError) (.ite (.ite .typeError (converts _ _ _ _)) ?_)
    exact .ite (converts _ _ _ _) (.ite (converts _ _ _ _) (.ite (converts _ _ _ _) .typeError))
  · refine .ite (converts _ _ _ _) (.ite ?_ .typeError)
    exact (commonPointer_keeps _ _ _).bind fun _ => converts _ _ _ _

theorem checkAssignable_keeps (span : Span) (expr : Expr) :
    (expr.checkAssignable span).Keeps valid :=
  .ite .typeError (.ite .typeError .pure)

theorem ofAssign_keeps (note : Note) (op : AssignOp) (left right : Expr)
    (opType : Option CType) : (ofAssign note op left right opType).Keeps valid := by
  unfold ofAssign
  split
  · exact (assignTo_keeps _ _).bind fun _ => .pure
  · dsimp only
    split
    · exact .typeError
    · exact (convertTo_keeps _ _).bind fun _ => .pure

theorem ofConditional_keeps (note : Note) (condition thenBranch elseBranch : Expr) :
    (ofConditional note condition thenBranch elseBranch).Keeps valid := by
  have branchType_keeps : (branchType note.loc.span thenBranch elseBranch).Keeps valid :=
    .ite .pure (.ite .pure (.ite (commonPointer_keeps _ _ _) .typeError))
  exact branchType_keeps.bind fun _ =>
    (convertTo_keeps _ _).bind fun _ => (convertTo_keeps _ _).bind fun _ => .pure

theorem checkCondition_keeps (expr : Expr) : expr.checkCondition.Keeps valid :=
  .ite .pure .typeError

theorem calleeTypes_keeps (span : Span) (name : Text) (count : Nat) :
    (calleeTypes span name count).Keeps valid := by
  refine (Pass.Keeps.findSymbol? name).bind fun symbol => ?_
  split
  · exact .throw
  · exact .ite .pure .typeError
  · exact .typeError

theorem ofSubscript_keeps (note : Note) (array index : Expr) :
    (ofSubscript note array index).Keeps valid := by
  refine .ite ?_ (.ite ?_ .typeError)
  · exact (convertTo_keeps _ _).bind fun _ => .pure
  · exact (convertTo_keeps _ _).bind fun _ => .pure

theorem ofDereference_keeps (note : Note) (operand : Expr) :
    (ofDereference note operand).Keeps valid := by
  unfold ofDereference
  split
  · exact .typeError
  · exact .pure
  · exact .typeError

theorem value_keeps {expr : Expr} (checks : expr.check.Keeps valid) :
    expr.checkValue.Keeps valid :=
  checks.bind fun value => value.toValue_keeps

mutual

theorem check_keeps : (expr : Expr) → expr.check.Keeps valid
  | .constant _ _ | .string _ _ | .decay _ _ => by
      unfold check
      exact .pure
  | .var _ name => by
      unfold check
      refine (Pass.Keeps.findSymbol? name).bind fun symbol => ?_
      split
      · exact .throw
      · exact .pure
  | .unary _ _ operand => by
      unfold check
      exact (value_keeps operand.check_keeps).bind fun _ => ofUnary_keeps _ _ _
  | .binary _ _ left right => by
      unfold check
      exact (value_keeps left.check_keeps).bind fun _ =>
        (value_keeps right.check_keeps).bind fun _ => ofBinary_keeps _ _ _ _
  | .assign _ _ left right _ => by
      unfold check
      exact left.check_keeps.bind fun _ => (checkAssignable_keeps _ _).bind fun _ =>
        (value_keeps right.check_keeps).bind fun _ => ofAssign_keeps _ _ _ _ _
  | .conditional _ condition thenBranch elseBranch => by
      unfold check
      refine Pass.Keeps.bind ?_ fun _ => (value_keeps thenBranch.check_keeps).bind fun _ =>
        (value_keeps elseBranch.check_keeps).bind fun _ => ofConditional_keeps _ _ _ _
      exact (value_keeps condition.check_keeps).bind fun _ => checkCondition_keeps _
  | .call _ _ arguments => by
      unfold check
      refine (calleeTypes_keeps _ _ _).bind ?_
      rintro ⟨parameters, _⟩
      exact (checkArguments_keeps parameters arguments).bind fun _ => .pure
  | .cast _ target operand _ => by
      unfold check
      refine Pass.Keeps.bind ?_ fun _ => (value_keeps operand.check_keeps).bind fun _ =>
        .ite .typeError (.ite .typeError .pure)
      exact .ite .typeError (.ite .typeError (target.checkElements_keeps _))
  | .addressOf _ operand => by
      unfold check
      exact operand.check_keeps.bind fun _ => .ite .typeError (.ite .typeError .pure)
  | .dereference _ operand => by
      unfold check
      exact (value_keeps operand.check_keeps).bind fun _ => ofDereference_keeps _ _
  | .subscript _ array index => by
      unfold check
      exact (value_keeps array.check_keeps).bind fun _ =>
        (value_keeps index.check_keeps).bind fun _ => ofSubscript_keeps _ _ _
  | .step _ _ _ operand => by
      unfold check
      exact operand.check_keeps.bind fun _ =>
        (checkAssignable_keeps _ _).bind fun _ => .ite .pure .typeError
  | .sizeofExpr _ operand => by
      unfold check
      exact operand.check_keeps.bind fun _ =>
        Pass.Keeps.bind (.ite .pure .typeError) fun _ => .pure
  | .sizeofType _ operand => by
      unfold check
      exact (operand.checkElements_keeps _).bind fun _ =>
        Pass.Keeps.bind (.ite .pure .typeError) fun _ => .pure

theorem checkArguments_keeps : (parameters : List CType) → (arguments : List Expr) →
    (checkArguments parameters arguments).Keeps valid
  | parameter :: parameters, argument :: arguments => by
      unfold checkArguments
      refine Pass.Keeps.bind ?_ fun _ =>
        (checkArguments_keeps parameters arguments).bind fun _ => .pure
      exact (value_keeps argument.check_keeps).bind fun _ => assignTo_keeps _ _
  | [], _ | _ :: _, [] => by
      unfold checkArguments
      exact .pure

end

theorem checkValue_keeps (expr : Expr) : expr.checkValue.Keeps valid :=
  value_keeps expr.check_keeps

theorem checkConditionValue_keeps (expr : Expr) : expr.checkConditionValue.Keeps valid :=
  expr.checkValue_keeps.bind fun _ => checkCondition_keeps _

theorem checkOption_keeps {check : Expr → Pass Expr}
    (keeps : ∀ expr : Expr, (check expr).Keeps valid) :
    (expr : Option Expr) → (checkOption check expr).Keeps valid
  | none => .pure
  | some expr => (keeps expr).bind fun _ => .pure

theorem checkSwitch_keeps (expr : Expr) : expr.checkSwitch.Keeps valid :=
  expr.checkValue_keeps.bind fun _ => .ite (convertTo_keeps _ _) .typeError

theorem checkReturn_keeps (result : CType) (span : Span) :
    (expr : Option Expr) → (checkReturn result span expr).Keeps valid
  | none => .ite .pure .typeError
  | some expr =>
      .ite .typeError (expr.checkValue_keeps.bind fun _ =>
        (assignTo_keeps _ _).bind fun _ => .pure)

end Expr

/-! ### Typing of initializers -/

/-- The items followed by one for an object of a size, which becomes a run of zero bytes if it is a
zero without a sign. -/
def StaticItem.append (items : List StaticItem) (size : Size) : StaticItem → List StaticItem
  | .scalar value =>
    if value.isZero && !value.isNegativeZero then appendZero items size
    else items ++ [.scalar value]
  | item => items ++ [item]

namespace Expr

/-- The item that stands for a value depends on the type, and so does how it is appended. -/
theorem appendValue_eq (type : CType) (items : List StaticItem) (expr : Expr) :
    expr.appendValue type items =
      (if type.isPointer then expr.pointerItem else expr.scalarItem type) >>=
        fun item => pure (StaticItem.append items type.size item) := by
  have appends : ∀ item : StaticItem, (match item with
      | .scalar value =>
        if value.isZero && !value.isNegativeZero then
          pure (StaticItem.appendZero items type.size)
        else pure (items ++ [item])
      | _ => pure (items ++ [item]) : Pass (List StaticItem)) =
        pure (StaticItem.append items type.size item) := by
    intro item
    cases item with
    | scalar value =>
        simp only [StaticItem.append]
        split <;> rfl
    | zero | string | pointer => rfl
  unfold appendValue
  split <;> exact bind_congr appends

theorem checkInitial_keeps (type : CType) (span : Span) (expr : Expr) :
    (expr.checkInitial type span).Keeps valid := by
  unfold checkInitial
  split
  · split
    · exact .ite .typeError (.ite .typeError (check_keeps _))
    · exact .typeError
  · exact expr.checkValue_keeps.bind fun value => value.assignTo_keeps _

include permits in
theorem pointerItem_keeps (expr : Expr) : expr.pointerItem.Keeps valid := by
  have address : ∀ name, (staticAddress expr.span name).Keeps valid :=
    fun name => Pass.Keeps.get.bind fun _ => .ite .pure .typeError
  unfold pointerItem
  split
  · split
    · exact .ite .pure .typeError
    · exact .typeError
  · exact address _
  · exact address _
  · exact (Pass.newString_keeps permits _).bind fun _ => .pure
  · exact .typeError

theorem scalarItem_keeps (type : CType) (expr : Expr) : (expr.scalarItem type).Keeps valid := by
  unfold scalarItem
  split
  · exact .typeError
  · split
    · exact .throw
    · exact .pure

include permits in
theorem appendItems_keeps (type : CType) (items : List StaticItem) (expr : Expr) :
    (expr.appendItems type items).Keeps valid := by
  unfold appendItems
  split
  · exact .pure
  · rw [appendValue_eq]
    refine Pass.Keeps.bind ?_ fun _ => .pure
    exact .ite (pointerItem_keeps permits _) (scalarItem_keeps _ _)

end Expr

namespace Initializer

theorem zero_keeps (span : Span) : (type : CType) → (zero span type).Keeps valid
  | .array size element => by
      unfold zero
      exact (Pass.Keeps.newLoc _).bind fun _ =>
        ((zero_keeps span element).times _).bind fun _ => .pure
  | .void | .function _ _ => by
      unfold zero
      exact .throw
  | .integer _ | .double | .pointer _ => by
      unfold zero
      exact (Pass.Keeps.newLoc _).bind fun _ => (Pass.Keeps.newLoc _).bind fun _ => .pure

mutual

theorem checkAutomatic_keeps (type : CType) :
    (init : Initializer) → (init.checkAutomatic type).Keeps valid
  | .single _ value => by
      unfold checkAutomatic
      exact (value.checkInitial_keeps _ _).bind fun _ => .pure
  | .compound _ items => by
      unfold checkAutomatic
      split
      · refine .ite .typeError ((checkAutomaticList_keeps _ items).bind fun _ => ?_)
        exact ((zero_keeps _ _).times _).bind fun _ => .pure
      · split
        · exact (Expr.checkInitial_keeps _ _ _).bind fun _ => .pure
        · exact .typeError

theorem checkAutomaticList_keeps (element : CType) :
    (items : List Initializer) → (checkAutomaticList element items).Keeps valid
  | [] => .pure
  | item :: items => by
      unfold checkAutomaticList
      exact (item.checkAutomatic_keeps element).bind fun _ =>
        (checkAutomaticList_keeps element items).bind fun _ => .pure

end

include permits

mutual

theorem checkStatic_keeps (type : CType) (items : List StaticItem) :
    (init : Initializer) → (init.checkStatic type items).Keeps valid
  | .single _ value => by
      unfold checkStatic
      exact (value.checkInitial_keeps _ _).bind fun _ =>
        (Expr.appendItems_keeps permits _ _ _).bind fun _ => .pure
  | .compound _ elements => by
      unfold checkStatic
      split
      · exact .ite .typeError ((checkStaticList_keeps _ _ elements).bind fun _ => .pure)
      · split
        · exact (Expr.checkInitial_keeps _ _ _).bind fun _ =>
            (Expr.appendItems_keeps permits _ _ _).bind fun _ => .pure
        · exact .typeError

theorem checkStaticList_keeps (element : CType) (items : List StaticItem) :
    (elements : List Initializer) → (checkStaticList element items elements).Keeps valid
  | [] => .pure
  | first :: rest => by
      unfold checkStaticList
      exact (first.checkStatic_keeps element items).bind fun _ =>
        (checkStaticList_keeps element _ rest).bind fun _ => .pure

end

end Initializer

/-! ### Typing of declarations and statements -/

theorem Param.checkList_keeps : (params : List Param) → (checkList params).Keeps valid
  | [] => .pure
  | param :: params => by
      unfold checkList
      refine Pass.Keeps.bind ?_ fun _ => (checkList_keeps params).bind fun _ => .pure
      exact (CType.checkObject_keeps _ _ _).bind fun _ => .pure

include permits

theorem Param.declareList_keeps : (params : List Param) → (declareList params).Keeps valid
  | [] => .pure
  | param :: params => by
      unfold declareList
      exact (Pass.Keeps.setSymbol (permits.automatic _ _)).bind fun _ => declareList_keeps params

namespace FunDecl

theorem mergeStorage_keeps (decl : FunDecl) (isDefinition : Bool) :
    (decl.mergeStorage isDefinition).KeepsWith valid
      fun storage => valid ⟨decl.name, decl.type, storage⟩ := by
  intro context all
  unfold mergeStorage
  refine Ensures.bind_ok (Pass.run_findSymbol? _ _) ?_
  split
  · exact .pure ⟨all, permits.function _ _ _ _⟩
  · refine .ite (fun _ => .throw trivial) fun _ => .ite (fun _ => .throw trivial) fun _ => ?_
    exact .ite (fun _ => .throw trivial) fun _ => .pure ⟨all, permits.function _ _ _ _⟩
  · exact .throw trivial

theorem check_keeps (decl : FunDecl) (isDefinition : Bool) :
    (decl.check isDefinition).Keeps valid := by
  refine (CType.checkElements_keeps _ _).bind fun _ => (Param.checkList_keeps _).bind fun _ => ?_
  exact (mergeStorage_keeps permits _ _).bind fun _ entered =>
    (Pass.Keeps.setSymbol entered).bind fun _ => .pure

end FunDecl

namespace VarDecl

/-- An object may start out in a way, whether other compilation units see it or not. -/
def MayStart (valid : Symbol → Prop) (decl : VarDecl) (init : InitialValue) : Prop :=
  ∀ isGlobal, valid ⟨decl.name, decl.type, .static init isGlobal⟩

theorem initialValue_keeps {decl : VarDecl} {ifMissing : InitialValue}
    (missing : decl.MayStart valid ifMissing) :
    (decl.initialValue ifMissing).KeepsWith valid
      fun result => result.1.MayStart valid result.2 := by
  intro context all
  unfold initialValue
  split
  · exact .pure ⟨all, missing⟩
  · rename_i init _
    have keeps := Initializer.checkStatic_keeps permits decl.type [] init context all
    refine (keeps.with_run fun result after runs all => And.intro all runs).bind ?_
    rintro ⟨typed, items⟩ after ⟨all, runs⟩
    exact .pure ⟨all, fun isGlobal => permits.computed _ _ _ _ _ _ _ _ runs⟩

omit permits in
theorem mergeStorage_keeps {decl : VarDecl} {next : InitialValue}
    (starts : decl.MayStart valid next) :
    (decl.mergeStorage next).KeepsWith valid
      fun storage => valid ⟨decl.name, decl.type, storage⟩ := by
  intro context all
  unfold mergeStorage
  refine Ensures.bind_ok (Pass.run_findSymbol? _ _) ?_
  split
  · exact .pure ⟨all, starts _⟩
  · rename_i name type previous wasGlobal found
    refine .ite (fun _ => .throw trivial) fun sameType => .ite (fun _ => .throw trivial) fun _ => ?_
    have known : valid ⟨decl.name, decl.type, .static previous wasGlobal⟩ := by
      have sameName : name = decl.name := by simpa using List.find?_some found
      have sameType : type = decl.type := by simpa using sameType
      exact sameName ▸ sameType ▸ all _ (List.mem_of_find?_eq_some found)
    split
    · exact .throw trivial
    · rename_i merged
      refine .pure ⟨all, ?_⟩
      cases previous <;> cases next <;> cases merged <;> first | exact known | exact starts _
  · exact .throw trivial

theorem checkFile_keeps (decl : VarDecl) : decl.checkFile.Keeps valid := by
  refine (CType.checkObject_keeps _ _ _).bind fun _ => ?_
  have missing : decl.MayStart valid
      (if decl.storageClass = some .external then .absent else .tentative) := by
    intro isGlobal
    split <;> exact permits.uninitialized _ _ _ _ nofun
  refine (initialValue_keeps permits missing).bind ?_
  rintro ⟨checked, next⟩ starts
  exact (mergeStorage_keeps starts).bind fun _ entered =>
    (Pass.Keeps.setSymbol entered).bind fun _ => .pure

theorem checkExternal_keeps (decl : VarDecl) : decl.checkExternal.Keeps valid := by
  refine .ite .typeError ((Pass.Keeps.findSymbol? _).bind fun symbol => ?_)
  split
  · exact .setSymbol (permits.uninitialized _ _ _ _ nofun)
  · exact .ite .typeError .pure
  · exact .typeError

theorem checkLocal_keeps (decl : VarDecl) : decl.checkLocal.Keeps valid := by
  refine (CType.checkObject_keeps _ _ _).bind fun _ => ?_
  split
  · exact (checkExternal_keeps permits decl).bind fun _ => .pure
  · have missing : decl.MayStart valid (.initial (StaticItem.appendZero [] decl.type.size)) :=
      fun isGlobal => permits.zeros _ _ _
    refine (initialValue_keeps permits missing).bind ?_
    rintro ⟨checked, next⟩ starts
    exact (Pass.Keeps.setSymbol (starts _)).bind fun _ => .pure
  · refine (Pass.Keeps.setSymbol (permits.automatic _ _)).bind fun _ => ?_
    split
    · exact .pure
    · exact (Initializer.checkAutomatic_keeps _ _).bind fun _ => .pure

theorem checkForList_keeps : (decls : List VarDecl) → (checkForList decls).Keeps valid
  | [] => .pure
  | decl :: decls => by
      refine .ite .typeError ?_
      exact (checkLocal_keeps permits decl).bind fun _ =>
        (checkForList_keeps decls).bind fun _ => .pure

end VarDecl

theorem Decl.checkLocal_keeps (decl : Decl) : decl.checkLocal.Keeps valid := by
  cases decl with
  | object decl => exact (decl.checkLocal_keeps permits).bind fun _ => .pure
  | function decl =>
      exact .ite .typeError ((decl.check_keeps permits false).bind fun _ => .pure)
  | definition => exact .typeError

theorem ForInit.check_keeps : (init : ForInit) → init.check.Keeps valid
  | .declarations _ decls => (VarDecl.checkForList_keeps permits decls).bind fun _ => .pure
  | .expression _ value => (Expr.checkOption_keeps Expr.checkValue_keeps value).bind fun _ => .pure

omit permits in
theorem SwitchCase.checkList_keeps (type : CType) : (seen : List Int64) →
    (cases : List SwitchCase) → (SwitchCase.checkList type seen cases).Keeps valid
  | _, [] => .pure
  | seen, case :: cases => by
      unfold checkList
      split
      · exact (checkList_keeps type seen cases).bind fun _ => .pure
      · refine .ite .typeError ?_
        split
        · exact .throw
        · exact .ite .flowError ((checkList_keeps type _ cases).bind fun _ => .pure)

mutual

theorem Stmt.check_keeps (result : CType) : (stmt : Stmt) → (stmt.check result).Keeps valid
  | .ret _ value => by
      unfold Stmt.check
      exact (Expr.checkReturn_keeps _ _ value).bind fun _ => .pure
  | .expr _ value => by
      unfold Stmt.check
      exact value.checkValue_keeps.bind fun _ => .pure
  | .ifThen _ condition thenBranch => by
      unfold Stmt.check
      exact condition.checkConditionValue_keeps.bind fun _ =>
        (thenBranch.check_keeps result).bind fun _ => .pure
  | .ifElse _ condition thenBranch elseBranch => by
      unfold Stmt.check
      exact condition.checkConditionValue_keeps.bind fun _ =>
        (thenBranch.check_keeps result).bind fun _ =>
          (elseBranch.check_keeps result).bind fun _ => .pure
  | .block _ items => by
      unfold Stmt.check
      exact (Item.checkList_keeps result items).bind fun _ => .pure
  | .whileLoop _ _ condition body => by
      unfold Stmt.check
      exact condition.checkConditionValue_keeps.bind fun _ =>
        (body.check_keeps result).bind fun _ => .pure
  | .doWhile _ _ body condition => by
      unfold Stmt.check
      exact (body.check_keeps result).bind fun _ =>
        condition.checkConditionValue_keeps.bind fun _ => .pure
  | .forLoop _ _ init condition post body => by
      unfold Stmt.check
      exact (init.check_keeps permits).bind fun _ =>
        (Expr.checkOption_keeps Expr.checkConditionValue_keeps condition).bind fun _ =>
          (Expr.checkOption_keeps Expr.checkValue_keeps post).bind fun _ =>
            (body.check_keeps result).bind fun _ => .pure
  | .switch _ _ value body _ => by
      unfold Stmt.check
      exact value.checkSwitch_keeps.bind fun _ =>
        (SwitchCase.checkList_keeps _ _ _).bind fun _ =>
          (body.check_keeps result).bind fun _ => .pure
  | .case _ _ value body => by
      unfold Stmt.check
      exact value.checkValue_keeps.bind fun _ => (body.check_keeps result).bind fun _ => .pure
  | .default _ _ body => by
      unfold Stmt.check
      exact (body.check_keeps result).bind fun _ => .pure
  | .break _ _ | .continue _ _ | .null _ => by
      unfold Stmt.check
      exact .pure

theorem Item.checkList_keeps (result : CType) :
    (items : List Item) → (Item.checkList result items).Keeps valid
  | [] => by
      unfold Item.checkList
      exact .pure
  | .stmt stmt :: items => by
      unfold Item.checkList
      exact (stmt.check_keeps result).bind fun _ =>
        (Item.checkList_keeps result items).bind fun _ => .pure
  | .decl decl :: items => by
      unfold Item.checkList
      exact (decl.checkLocal_keeps permits).bind fun _ =>
        (Item.checkList_keeps result items).bind fun _ => .pure

end

theorem Decl.checkFile_keeps (decl : Decl) : decl.checkFile.Keeps valid := by
  cases decl with
  | object decl => exact (decl.checkFile_keeps permits).bind fun _ => .pure
  | function decl => exact (decl.check_keeps permits false).bind fun _ => .pure
  | definition decl _ body =>
      exact (decl.check_keeps permits true).bind fun decl =>
        (Param.declareList_keeps permits decl.params).bind fun _ =>
          (Item.checkList_keeps permits decl.result body).bind fun _ => .pure

theorem Program.check_keeps : (program : Program) → program.check.Keeps valid
  | [] => .pure
  | decl :: decls =>
      (decl.checkFile_keeps permits).bind fun _ => (check_keeps decls).bind fun _ => .pure

/-! ### Lowering of expressions -/

namespace Place

theorem load_preserves (type : CType) : (place : Place) → (place.load type).Preserves valid
  | .nowhere => .throw rfl
  | .value _ => .pure
  | .behind _ => (Pass.newTemporary_preserves permits type).bind fun _ => .pure

theorem loaded_preserves (type : CType) (lowered : Code × Place) :
    (loaded type lowered).Preserves valid :=
  (load_preserves permits type lowered.2).bind fun _ => .pure

omit permits in
theorem store_preserves (source : Operand) :
    (place : Place) → (place.store source).Preserves valid
  | .nowhere => .throw rfl
  | .value _ | .behind _ => .pure

theorem address_preserves (pointerType : CType) :
    (place : Place) → (place.address pointerType).Preserves valid
  | .nowhere => .throw rfl
  | .value _ => (Pass.newTemporary_preserves permits pointerType).bind fun _ => .pure
  | .behind _ => .pure

theorem firstElement_preserves (pointerType : CType) :
    (place : Place) → (place.firstElement pointerType).Preserves valid
  | .nowhere => .throw rfl
  | .value _ | .behind _ => (Pass.newTemporary_preserves permits pointerType).bind fun _ => .pure

end Place

omit permits in
theorem Const.convert_preserves (constant : Const) (type : CType) :
    (constant.convert type).Preserves valid := by
  unfold convert
  split
  · exact .pure
  · exact .throw rfl

namespace Operand

theorem convert_preserves (source target : CType) (operand : Operand) :
    (operand.convert source target).Preserves valid := by
  have converts : ∀ operand, (convertObject source target operand).Preserves valid := by
    intro operand
    refine (Pass.newTemporary_preserves permits target).bind fun _ => ?_
    split <;> exact .pure
  refine .ite .pure ?_
  split
  · refine .ite ?_ (.ite ?_ (converts _))
    · exact (Const.convert_preserves _ _).bind fun _ => .pure
    · exact (Const.convert_preserves _ _).bind fun _ => .pure
  · exact converts _

theorem addPointer_preserves (pointerType : CType) (pointer index : Operand) :
    (pointer.addPointer pointerType index).Preserves valid :=
  (Pass.newTemporary_preserves permits pointerType).bind fun _ => .pure

theorem subPointer_preserves (pointerType : CType) (pointer index : Operand) :
    (pointer.subPointer pointerType index).Preserves valid := by
  have negates : index.negateIndex.Preserves valid := by
    unfold negateIndex
    split
    · exact .pure
    · exact (Pass.newTemporary_preserves permits .long).bind fun _ => .pure
  exact negates.bind fun _ => (addPointer_preserves permits _ _ _).bind fun _ => .pure

theorem pointerDifference_preserves (pointerType : CType) (left right : Operand) :
    (left.pointerDifference pointerType right).Preserves valid :=
  (Pass.newTemporary_preserves permits .long).bind fun _ =>
    (Pass.newTemporary_preserves permits .long).bind fun _ => .pure

theorem combine_preserves (op : TwoOp) (type : CType) (left right : Operand) :
    (left.combine op type right).Preserves valid :=
  (Pass.newTemporary_preserves permits type).bind fun _ => .pure

end Operand

namespace Expr

theorem unaryCode_preserves (op : UnaryOp) (type : CType) (value : Operand) :
    (unaryCode op type value).Preserves valid := by
  unfold unaryCode
  split
  · exact .pure
  · exact (Pass.newTemporary_preserves permits type).bind fun _ => .pure

theorem pointerCode_preserves (op : ArithOp) (leftType rightType : CType) (left right : Operand) :
    (pointerCode op leftType rightType left right).Preserves valid := by
  refine .ite (.ite ?_ ?_) (.ite ?_ ?_)
  · exact Operand.addPointer_preserves permits _ _ _
  · exact Operand.addPointer_preserves permits _ _ _
  · exact Operand.pointerDifference_preserves permits _ _ _
  · exact Operand.subPointer_preserves permits _ _ _

theorem binaryCode_preserves (op : TwoOp) (type leftType rightType : CType) (left right : Operand) :
    (binaryCode op type leftType rightType left right).Preserves valid := by
  unfold binaryCode
  split
  · exact Operand.combine_preserves permits _ _ _ _
  · exact .ite (pointerCode_preserves permits _ _ _ _ _)
      (Operand.combine_preserves permits _ _ _ _)

theorem compoundCode_preserves (op : ArithOp) (type opType : CType) (current right : Operand) :
    (compoundCode op type opType current right).Preserves valid := by
  refine .ite (.ite ?_ ?_) ?_
  · exact Operand.subPointer_preserves permits _ _ _
  · exact Operand.addPointer_preserves permits _ _ _
  · exact (Operand.convert_preserves permits _ _ _).bind fun _ =>
      (Operand.combine_preserves permits _ _ _ _).bind fun _ =>
        (Operand.convert_preserves permits _ _ _).bind fun _ => .pure

theorem stepPlace_preserves (form : StepForm) (op : StepOp) (type : CType) (place : Place) :
    (stepPlace form op type place).Preserves valid := by
  have steps : ∀ current, (stepCode op type current).Preserves valid := by
    intro current
    refine .ite (Operand.addPointer_preserves permits _ _ _) ?_
    exact (Const.convert_preserves _ _).bind fun _ => compoundCode_preserves permits _ _ _ _ _
  have finish : ∀ (loadCode keepCode : Code) (current old : Operand), Pass.Preserves valid (do
      let stepped ← stepCode op type current
      let storeCode ← place.store stepped.2
      pure (loadCode ++ keepCode ++ stepped.1 ++ storeCode,
        if form = .after then old else stepped.2)) :=
    fun _ _ current _ => (steps current).bind fun _ =>
      (Place.store_preserves _ place).bind fun _ => .pure
  refine (Place.load_preserves permits type place).bind ?_
  rintro ⟨loadCode, current⟩
  dsimp only
  split
  · exact (Pass.newTemporary_preserves permits type).bind fun old => finish _ _ _ old
  · exact finish _ [] _ _

theorem callCode_preserves (name : Text) (type : CType) (arguments : List Operand) :
    (callCode name type arguments).Preserves valid :=
  .ite .pure ((Pass.newTemporary_preserves permits type).bind fun _ => .pure)

theorem value_preserves {expr : Expr} (lowers : expr.lower.Preserves valid) :
    expr.lowerValue.Preserves valid :=
  lowers.bind fun _ => Place.loaded_preserves permits _ _

mutual

theorem lower_preserves : (expr : Expr) → expr.lower.Preserves valid
  | .constant _ _ | .var _ _ | .sizeofExpr _ _ | .sizeofType _ _ => by
      unfold lower
      exact .pure
  | .string _ bytes => by
      unfold lower
      exact (Pass.newString_preserves permits bytes).bind fun _ => .pure
  | .unary _ _ operand => by
      unfold lower
      exact (value_preserves permits operand.lower_preserves).bind fun _ =>
        (unaryCode_preserves permits _ _ _).bind fun _ => .pure
  | .binary _ op left right => by
      unfold lower
      split
      · exact (Pass.Preserves.newLabelPair _ _).bind fun _ =>
          (Pass.newTemporary_preserves permits .int).bind fun _ =>
            (value_preserves permits left.lower_preserves).bind fun _ =>
              (value_preserves permits right.lower_preserves).bind fun _ => .pure
      · exact (value_preserves permits left.lower_preserves).bind fun _ =>
          (value_preserves permits right.lower_preserves).bind fun _ =>
            (binaryCode_preserves permits _ _ _ _ _ _).bind fun _ => .pure
  | .assign _ op left right _ => by
      unfold lower
      refine left.lower_preserves.bind fun _ => ?_
      dsimp only
      split
      · exact (value_preserves permits right.lower_preserves).bind fun _ =>
          (Place.store_preserves _ _).bind fun _ => .pure
      · exact (Place.load_preserves permits _ _).bind fun _ =>
          (value_preserves permits right.lower_preserves).bind fun _ =>
            (compoundCode_preserves permits _ _ _ _ _).bind fun _ =>
              (Place.store_preserves _ _).bind fun _ => .pure
  | .conditional _ condition thenBranch elseBranch => by
      unfold lower
      refine (Pass.Preserves.newLabelPair _ _).bind fun _ =>
        (value_preserves permits condition.lower_preserves).bind fun _ => .ite ?_ ?_
      · exact thenBranch.lower_preserves.bind fun _ =>
          elseBranch.lower_preserves.bind fun _ => .pure
      · exact (Pass.newTemporary_preserves permits _).bind fun _ =>
          (value_preserves permits thenBranch.lower_preserves).bind fun _ =>
            (value_preserves permits elseBranch.lower_preserves).bind fun _ => .pure
  | .call _ _ arguments => by
      unfold lower
      exact (lowerArguments_preserves arguments).bind fun _ =>
        (callCode_preserves permits _ _ _).bind fun _ => .pure
  | .cast _ _ operand _ => by
      unfold lower
      refine .ite (operand.lower_preserves.bind fun _ => .pure) ?_
      exact (value_preserves permits operand.lower_preserves).bind fun _ =>
        (Operand.convert_preserves permits _ _ _).bind fun _ => .pure
  | .addressOf _ operand => by
      unfold lower
      exact operand.lower_preserves.bind fun _ =>
        (Place.address_preserves permits _ _).bind fun _ => .pure
  | .dereference _ operand => by
      unfold lower
      exact (value_preserves permits operand.lower_preserves).bind fun _ => .pure
  | .subscript _ array index => by
      unfold lower
      exact (value_preserves permits array.lower_preserves).bind fun _ =>
        (value_preserves permits index.lower_preserves).bind fun _ =>
          (pointerCode_preserves permits _ _ _ _ _).bind fun _ => .pure
  | .step _ _ _ operand => by
      unfold lower
      exact operand.lower_preserves.bind fun _ =>
        (stepPlace_preserves permits _ _ _ _).bind fun _ => .pure
  | .decay _ operand => by
      unfold lower
      exact operand.lower_preserves.bind fun _ =>
        (Place.firstElement_preserves permits _ _).bind fun _ => .pure

theorem lowerArguments_preserves :
    (arguments : List Expr) → (lowerArguments arguments).Preserves valid
  | [] => by
      unfold lowerArguments
      exact .pure
  | argument :: arguments => by
      unfold lowerArguments
      exact (value_preserves permits argument.lower_preserves).bind fun _ =>
        (lowerArguments_preserves arguments).bind fun _ => .pure

end

theorem lowerValue_preserves (expr : Expr) : expr.lowerValue.Preserves valid :=
  value_preserves permits (expr.lower_preserves permits)

theorem lowerEffectOption_preserves :
    (expr : Option Expr) → (lowerEffectOption expr).Preserves valid
  | none => .pure
  | some expr => (lower_preserves permits expr).bind fun _ => .pure

theorem lowerTest_preserves (target : Text) :
    (condition : Option Expr) → (lowerTest target condition).Preserves valid
  | none => .pure
  | some condition => (lowerValue_preserves permits condition).bind fun _ => .pure

end Expr

/-! ### Lowering of declarations and statements -/

namespace Initializer

mutual

theorem lowerAt_preserves (name : Text) (type : CType) (offset : Size) :
    (init : Initializer) → (init.lowerAt name type offset).Preserves valid
  | .single _ value => by
      unfold lowerAt
      split
      · exact .ite (.throw rfl) .pure
      · exact (value.lowerValue_preserves permits).bind fun _ => .pure
  | .compound _ items => by
      unfold lowerAt
      exact lowerElements_preserves name _ offset items

theorem lowerElements_preserves (name : Text) (element : CType) (offset : Size) :
    (items : List Initializer) → (lowerElements name element offset items).Preserves valid
  | [] => by
      unfold lowerElements
      exact .pure
  | item :: items => by
      unfold lowerElements
      exact (item.lowerAt_preserves name element offset).bind fun _ =>
        (lowerElements_preserves name element _ items).bind fun _ => .pure

end

end Initializer

namespace VarDecl

theorem lower_preserves (decl : VarDecl) : decl.lower.Preserves valid := by
  unfold lower
  split
  · split
    · exact Initializer.lowerAt_preserves permits _ _ _ _
    · exact (Expr.lowerValue_preserves permits _).bind fun _ => .pure
    · exact Initializer.lowerAt_preserves permits _ _ _ _
  · exact .pure

theorem lowerList_preserves : (decls : List VarDecl) → (lowerList decls).Preserves valid
  | [] => .pure
  | decl :: decls =>
      (lower_preserves permits decl).bind fun _ => (lowerList_preserves decls).bind fun _ => .pure

end VarDecl

theorem ForInit.lower_preserves : (init : ForInit) → init.lower.Preserves valid
  | .declarations _ decls => VarDecl.lowerList_preserves permits decls
  | .expression _ value => Expr.lowerEffectOption_preserves permits value

theorem SwitchCase.lowerList_preserves (value : Operand) (type : CType) :
    (cases : List SwitchCase) → (SwitchCase.lowerList value type cases).Preserves valid
  | [] => .pure
  | case :: cases => by
      unfold lowerList
      split
      · exact lowerList_preserves value type cases
      · exact (Pass.newTemporary_preserves permits .int).bind fun _ =>
          (Const.convert_preserves _ _).bind fun _ =>
            (lowerList_preserves value type cases).bind fun _ => .pure

mutual

theorem Stmt.lower_preserves : (stmt : Stmt) → stmt.lower.Preserves valid
  | .ret _ none | .break _ _ | .continue _ _ | .null _ => by
      unfold Stmt.lower
      exact .pure
  | .ret _ (some value) => by
      unfold Stmt.lower
      exact (value.lowerValue_preserves permits).bind fun _ => .pure
  | .expr _ value => by
      unfold Stmt.lower
      exact (value.lower_preserves permits).bind fun _ => .pure
  | .ifThen _ condition thenBranch => by
      unfold Stmt.lower
      exact (Pass.Preserves.newLabelPair _ _).bind fun _ =>
        (condition.lowerValue_preserves permits).bind fun _ =>
          thenBranch.lower_preserves.bind fun _ => .pure
  | .ifElse _ condition thenBranch elseBranch => by
      unfold Stmt.lower
      exact (Pass.Preserves.newLabelPair _ _).bind fun _ =>
        (condition.lowerValue_preserves permits).bind fun _ =>
          thenBranch.lower_preserves.bind fun _ => elseBranch.lower_preserves.bind fun _ => .pure
  | .block _ items => by
      unfold Stmt.lower
      exact Item.lowerList_preserves items
  | .whileLoop _ _ condition body => by
      unfold Stmt.lower
      exact (condition.lowerValue_preserves permits).bind fun _ =>
        body.lower_preserves.bind fun _ => .pure
  | .doWhile _ _ body condition => by
      unfold Stmt.lower
      exact body.lower_preserves.bind fun _ =>
        (condition.lowerValue_preserves permits).bind fun _ => .pure
  | .forLoop _ _ init condition post body => by
      unfold Stmt.lower
      exact (init.lower_preserves permits).bind fun _ =>
        (Expr.lowerTest_preserves permits _ condition).bind fun _ =>
          body.lower_preserves.bind fun _ =>
            (Expr.lowerEffectOption_preserves permits post).bind fun _ => .pure
  | .switch _ _ value body cases => by
      unfold Stmt.lower
      exact (value.lowerValue_preserves permits).bind fun _ =>
        (SwitchCase.lowerList_preserves permits _ _ cases).bind fun _ =>
          body.lower_preserves.bind fun _ => .pure
  | .case _ _ _ body | .default _ _ body => by
      unfold Stmt.lower
      exact body.lower_preserves.bind fun _ => .pure

theorem Item.lowerList_preserves : (items : List Item) → (Item.lowerList items).Preserves valid
  | [] => by
      unfold Item.lowerList
      exact .pure
  | .stmt stmt :: items => by
      unfold Item.lowerList
      exact stmt.lower_preserves.bind fun _ => (Item.lowerList_preserves items).bind fun _ => .pure
  | .decl (.object decl) :: items => by
      unfold Item.lowerList
      exact (decl.lower_preserves permits).bind fun _ =>
        (Item.lowerList_preserves items).bind fun _ => .pure
  | .decl (.function _) :: items | .decl (.definition _ _ _) :: items => by
      unfold Item.lowerList
      exact Item.lowerList_preserves items

end

theorem FunDecl.lower_preserves (decl : FunDecl) (body : List Item) :
    (decl.lower body).Preserves valid := by
  have isGlobal : (Pass.functionIsGlobal decl.name).Preserves valid := by
    refine (Pass.Preserves.findSymbol? _).bind fun symbol => ?_
    split
    · exact .throw rfl
    · exact .pure
    · exact .throw rfl
  have ends : decl.result.lowerEnd.Preserves valid := by
    refine .ite .pure ?_
    split
    · exact .pure
    · exact .throw rfl
  exact isGlobal.bind fun _ => (Item.lowerList_preserves permits body).bind fun _ =>
    ends.bind fun _ => .pure

namespace Program

theorem lowerFunctions_preserves : (program : Program) → program.lowerFunctions.Preserves valid
  | [] => .pure
  | .definition decl _ body :: decls =>
      (decl.lower_preserves permits body).bind fun _ =>
        (lowerFunctions_preserves decls).bind fun _ => .pure
  | .object _ :: decls | .function _ :: decls => lowerFunctions_preserves decls

theorem lower_preserves (program : Program) : program.lower.Preserves valid :=
  (lowerFunctions_preserves permits program).bind fun _ => Pass.Preserves.get.bind fun _ => .pure

/-! ### Compilation units -/

omit permits in
theorem prepare_symbols {program : Program} {context : Context} (isSource : program.IsSource)
    (fresh : context.symbols = .empty) :
    Yields (program.resolve >>= label) context fun _ after => after.symbols = .empty := by
  refine ((resolve_ensures isSource).allow fun _ _ => trivial).bind ?_
  rintro resolved first ⟨resolution, _⟩
  refine ((label_ensures resolved).allow fun _ _ => trivial).mono ?_
  rintro labelled second ⟨draws, _⟩
  rw [draws.symbols, resolution.symbols, fresh]

omit permits in
/-- The functions come first; the other items are those of the symbols after lowering. -/
theorem exists_symbol_of_lower {analysed : Program} {linear : LinearProgram}
    {context final : Context} (lowers : analysed.lower.run context = .ok (linear, final)) :
    (∃ functions, analysed.lowerFunctions.run context = .ok (functions, final)) ∧
      (∀ object, .object object ∈ linear →
        ∃ symbol ∈ final.symbols.symbols, symbol.staticObject? = some object) ∧
      ∀ constant, .constant constant ∈ linear →
        ∃ symbol ∈ final.symbols.symbols, symbol.staticConstant? = some constant := by
  unfold lower at lowers
  rw [StateT.run_bind] at lowers
  cases runs : analysed.lowerFunctions.run context with
  | error failure => simp [runs, bind, Except.bind] at lowers
  | ok made =>
      rcases made with ⟨functions, after⟩
      rw [runs] at lowers
      cases lowers
      exact ⟨⟨functions, rfl⟩, by simp, by simp⟩

/-- Every symbol of an analysed and lowered compilation unit has the property. -/
theorem symbols_valid {program analysed : Program} {linear : LinearProgram}
    {fresh context final : Context} (isSource : program.IsSource)
    (noSymbols : fresh.symbols = .empty)
    (accepts : program.analyze.run fresh = .ok (analysed, context))
    (lowers : analysed.lower.run context = .ok (linear, final)) :
    final.All valid := by
  have checks : Yields program.analyze fresh fun _ after => after.All valid := by
    rw [analyze_eq]
    refine (prepare_symbols isSource noSymbols).bind fun labelled between empty => ?_
    refine check_keeps permits labelled between fun symbol mem => ?_
    simp [empty, SymbolTable.empty] at mem
  exact (lower_preserves permits analysed context (checks.of_ok accepts)).of_ok lowers

end Program

end

end SubsetC
