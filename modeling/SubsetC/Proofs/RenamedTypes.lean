import SubsetC.Analysis
import SubsetC.Proofs.Entries
import SubsetC.Proofs.RenamedScopes

/-!
# Renamed trees, their labels and types

Labels and types do not depend on names, apart from the types that symbols have. A tree with other
names gets the same labels, and its expressions get the same types from symbols with the other
names. The main statements are `Program.label_mirrored` and `Expr.check_mirrored`.
-/

namespace SubsetC

open Pass (Mirrored)

variable {names : NameChange}

/-! ### What does not depend on names -/

namespace Expr

variable (change : Text → Text)

@[simp]
theorem note_rename (expr : Expr) : (expr.rename change).note = expr.note := by
  cases expr <;> rfl

@[simp]
theorem span_rename (expr : Expr) : (expr.rename change).span = expr.span := by
  rw [span, note_rename, span]

@[simp]
theorem type?_rename (expr : Expr) : (expr.rename change).type? = expr.type? := by
  rw [type?, note_rename, type?]

@[simp]
theorem type_rename (expr : Expr) : (expr.rename change).type = expr.type := by
  rw [type, note_rename, type]

@[simp]
theorem isLvalue_rename (expr : Expr) : (expr.rename change).isLvalue = expr.isLvalue := by
  rw [isLvalue, note_rename, isLvalue]

@[simp]
theorem isNullPointer_rename (expr : Expr) :
    (expr.rename change).isNullPointer = expr.isNullPointer := by
  cases expr <;> rfl

@[simp]
theorem length_renameList (exprs : List Expr) :
    (renameList change exprs).length = exprs.length := by
  induction exprs with
  | nil => rfl
  | cons _ _ sameLength => exact congrArg (· + 1) sameLength

@[simp]
theorem fold?_rename : ∀ expr : Expr, (expr.rename change).fold? = expr.fold?
  | .constant _ _ | .string _ _ | .sizeofType _ _ | .var _ _ | .assign _ _ _ _ _ | .call _ _ _
  | .addressOf _ _ | .dereference _ _ | .subscript _ _ _ | .step _ _ _ _ | .decay _ _ => rfl
  | .unary _ _ operand | .cast _ _ operand _ => by
      rw [rename, fold?, fold?, fold?_rename operand]
  | .sizeofExpr _ operand => by
      rw [rename, fold?, fold?, fold?_rename operand, type?_rename]
  | .binary _ _ left right => by
      rw [rename, fold?, fold?, fold?_rename left, fold?_rename right]
  | .conditional _ condition thenBranch elseBranch => by
      rw [rename, fold?, fold?, fold?_rename condition, fold?_rename thenBranch,
        fold?_rename elseBranch]

theorem stripPointers_rename : ∀ expr : Expr,
    (expr.rename change).stripPointers = expr.stripPointers.rename change
  | .constant _ _ | .string _ _ | .sizeofType _ _ | .var _ _ | .assign _ _ _ _ _ | .call _ _ _
  | .addressOf _ _ | .dereference _ _ | .subscript _ _ _ | .step _ _ _ _ | .decay _ _
  | .unary _ _ _ | .sizeofExpr _ _ | .binary _ _ _ _ | .conditional _ _ _ _ => rfl
  | .cast _ _ operand _ => by
      rw [rename, stripPointers, stripPointers, type_rename, stripPointers_rename operand]
      split <;> rfl

end Expr

theorem Initializer.length_renameList (change : Text → Text) (items : List Initializer) :
    (renameList change items).length = items.length := by
  induction items with
  | nil => rfl
  | cons _ _ sameLength => exact congrArg (· + 1) sameLength

/-! ### Labels -/

theorem SwitchCase.ofValue_mirrored (targets : Targets) (loc : Loc) (value : Expr)
    (cases : List SwitchCase) :
    Mirrored names (SwitchCase.ofValue targets loc value cases)
      (SwitchCase.ofValue targets loc (value.rename names.internal) cases) id := by
  rw [ofValue, ofValue, Expr.fold?_rename, Expr.span_rename]
  split
  · exact .throw (.refl _)
  · split
    · exact .throw (.refl _)
    · exact .pure rfl

theorem SwitchCase.ofDefault_mirrored (targets : Targets) (loc : Loc) (cases : List SwitchCase) :
    Mirrored names (SwitchCase.ofDefault targets loc cases)
      (SwitchCase.ofDefault targets loc cases) id := by
  unfold ofDefault
  split
  · exact .throw (.refl _)
  · exact .ite (.throw (.refl _)) (.pure rfl)

mutual

theorem Stmt.label_mirrored : ∀ (stmt : Stmt) (targets : Targets) (cases : List SwitchCase),
    Mirrored names (stmt.label targets cases)
      ((stmt.map (.renamed names.internal)).label targets cases)
      (Prod.map (Stmt.map (.renamed names.internal)) id)
  | .ret _ _, _, _ | .expr _ _, _, _ | .null _, _, _ => .pure rfl
  | .ifThen _ _ thenBranch, targets, cases =>
      (Stmt.label_mirrored thenBranch targets cases).bind fun _ => .pure rfl
  | .ifElse _ _ thenBranch elseBranch, targets, cases =>
      (Stmt.label_mirrored thenBranch targets cases).bind fun _ =>
        (Stmt.label_mirrored elseBranch targets _).bind fun _ => .pure rfl
  | .block _ items, targets, cases =>
      (Item.labelList_mirrored items targets cases).bind fun _ => .pure rfl
  | .whileLoop _ _ _ body, _, cases | .doWhile _ _ body _, _, cases
  | .forLoop _ _ _ _ _ body, _, cases =>
      (Mirrored.newLabel _).bind fun _ =>
        (Stmt.label_mirrored body _ cases).bind fun _ => .pure rfl
  | .switch _ _ _ body _, _, _ =>
      (Mirrored.newLabel _).bind fun _ => (Stmt.label_mirrored body _ []).bind fun _ => .pure rfl
  | .case loc _ value body, targets, cases =>
      (SwitchCase.ofValue_mirrored targets loc value cases).bind fun _ =>
        (Stmt.label_mirrored body targets _).bind fun _ => .pure rfl
  | .default loc _ body, targets, cases =>
      (SwitchCase.ofDefault_mirrored targets loc cases).bind fun _ =>
        (Stmt.label_mirrored body targets _).bind fun _ => .pure rfl
  | .break _ _, _, _ | .continue _ _, _, _ => by
      rw [Stmt.map, Stmt.label, Stmt.label]
      split
      · exact .pure rfl
      · exact .throw (.refl _)

theorem Decl.label_mirrored (isFile : Bool) : ∀ decl : Decl, Mirrored names decl.label
    (decl.map (.renamed names.internal) isFile).label (Decl.map (.renamed names.internal) isFile)
  | .object _ | .function _ => .pure rfl
  | .definition _ _ body => (Item.labelList_mirrored body .none []).bind fun _ => .pure rfl

theorem Item.labelList_mirrored : ∀ (items : List Item) (targets : Targets)
    (cases : List SwitchCase), Mirrored names (Item.labelList targets cases items)
      (Item.labelList targets cases (Item.mapList (.renamed names.internal) items))
      (Prod.map (Item.mapList (.renamed names.internal)) id)
  | [], _, _ => .pure rfl
  | .stmt stmt :: items, targets, cases =>
      (Stmt.label_mirrored stmt targets cases).bind fun _ =>
        (Item.labelList_mirrored items targets _).bind fun _ => .pure rfl
  | .decl decl :: items, targets, cases =>
      (Decl.label_mirrored false decl).bind fun _ =>
        (Item.labelList_mirrored items targets cases).bind fun _ => .pure rfl

end

theorem Program.label_mirrored : ∀ program : Program, Mirrored names program.label
    (program.mapParts (.renamed names.internal)).label (Program.mapParts (.renamed names.internal))
  | [] => .pure rfl
  | decl :: decls => by
      have rest : Mirrored names (List.mapM Decl.label decls)
          (List.mapM Decl.label (Program.mapParts (.renamed names.internal) decls))
          (Program.mapParts (.renamed names.internal)) := Program.label_mirrored decls
      rw [Program.mapParts, List.map_cons, label, label, List.mapM_cons, List.mapM_cons]
      exact (Decl.label_mirrored true decl).bind fun _ => rest.bind fun _ => .pure rfl

/-! ### Rules for expressions -/

mutual

theorem CType.checkElements_mirrored (span : Span) : ∀ type : CType,
    Mirrored names (type.checkElements span) (type.checkElements span) id
  | .array _ element => by
      unfold checkElements
      exact .ite (element.checkElements_mirrored span) .typeError
  | .pointer element => by
      unfold checkElements
      exact element.checkElements_mirrored span
  | .function parameters result => by
      unfold checkElements
      exact (checkElementsList_mirrored span parameters).bind fun _ =>
        result.checkElements_mirrored span
  | .void | .integer _ | .double => by
      unfold checkElements
      exact .pure rfl

theorem CType.checkElementsList_mirrored (span : Span) : ∀ types : List CType,
    Mirrored names (checkElements.checkList span types) (checkElements.checkList span types) id
  | [] => .pure rfl
  | type :: types =>
      (type.checkElements_mirrored span).bind fun _ => checkElementsList_mirrored span types

end

theorem CType.checkObject_mirrored (span : Span) (ifVoid other : TypeError) (type : CType) :
    Mirrored names (type.checkObject span ifVoid) (type.checkObject span other) id :=
  .ite .typeError (type.checkElements_mirrored span)

namespace Expr

theorem convertTo_mirrored (target : CType) (expr : Expr) :
    Mirrored names (expr.convertTo target) ((expr.rename names.internal).convertTo target)
      (rename names.internal) := by
  rw [convertTo, convertTo, type_rename, span_rename]
  exact .ite (.pure rfl) ((Mirrored.newLoc _).bind fun _ => .pure rfl)

theorem toValue_mirrored (expr : Expr) :
    Mirrored names expr.toValue (expr.rename names.internal).toValue (rename names.internal) := by
  rw [toValue, toValue, type_rename, span_rename]
  split
  · exact (Mirrored.newLoc _).bind fun _ => .pure rfl
  · exact .typeError
  · exact .pure rfl

theorem assignTo_mirrored (target : CType) (expr : Expr) :
    Mirrored names (expr.assignTo target) ((expr.rename names.internal).assignTo target)
      (rename names.internal) := by
  have same : (expr.rename names.internal).isAssignableTo target = expr.isAssignableTo target := by
    rw [isAssignableTo, type_rename, isNullPointer_rename, isAssignableTo]
  rw [assignTo, assignTo, same, span_rename]
  exact .ite (convertTo_mirrored target expr) .typeError

theorem commonPointer_mirrored (span : Span) (left right : Expr) :
    Mirrored names (commonPointer span left right)
      (commonPointer span (left.rename names.internal) (right.rename names.internal)) id := by
  have same : commonPointer? (left.rename names.internal) (right.rename names.internal) =
      commonPointer? left right := by
    simp only [commonPointer?, type_rename, isNullPointer_rename]
  rw [commonPointer, commonPointer, same]
  split
  · exact .pure rfl
  · exact .typeError

theorem ofUnary_mirrored (note : Note) (op : UnaryOp) (operand : Expr) :
    Mirrored names (ofUnary note op operand) (ofUnary note op (operand.rename names.internal))
      (rename names.internal) := by
  rw [ofUnary, ofUnary, type_rename]
  exact .ite .typeError
    (.ite (.pure rfl) ((convertTo_mirrored _ operand).bind fun _ => .pure rfl))

theorem ofConverted_mirrored (note : Note) (op : BinaryOp) (type leftType rightType : CType)
    (left right : Expr) :
    Mirrored names (ofConverted note op type leftType rightType left right)
      (ofConverted note op type leftType rightType (left.rename names.internal)
        (right.rename names.internal)) (rename names.internal) :=
  (convertTo_mirrored leftType left).bind fun _ =>
    (convertTo_mirrored rightType right).bind fun _ => .pure rfl

theorem ofBinary_mirrored (note : Note) (op : BinaryOp) (left right : Expr) :
    Mirrored names (ofBinary note op left right)
      (ofBinary note op (left.rename names.internal) (right.rename names.internal))
      (rename names.internal) := by
  have converted (op : BinaryOp) (type leftType rightType : CType) :
      Mirrored names (ofConverted note op type leftType rightType left right)
        (ofConverted note op type leftType rightType (left.rename names.internal)
          (right.rename names.internal)) (rename names.internal) :=
    ofConverted_mirrored note op type leftType rightType left right
  have operand (expr : Expr) (compare : CompareOp) :
      (expr.rename names.internal).isPointerOperand compare = expr.isPointerOperand compare := by
    rw [isPointerOperand, isPointerOperand, type_rename, isNullPointer_rename]
  have refused : Mirrored names (refuseOperands note op left right)
      (refuseOperands note op (left.rename names.internal) (right.rename names.internal))
      (rename names.internal) := .typeError
  cases op with
  | logic op =>
      simp only [ofBinary, type_rename]
      exact .ite (.pure rfl) refused
  | arith op =>
      simp only [ofBinary, ofShift, ofArithmetic, ofPointerArithmetic, type_rename]
      refine .ite (.ite (converted _ _ _ _) refused)
        (.ite (.ite refused (converted _ _ _ _)) ?_)
      exact .ite (converted _ _ _ _) (.ite (converted _ _ _ _)
        (.ite (converted _ _ _ _) refused))
  | compare op =>
      simp only [ofBinary, ofPointerComparison, operand, type_rename]
      refine .ite (converted _ _ _ _) (.ite ?_ refused)
      exact (commonPointer_mirrored _ left right).bind fun _ => converted _ _ _ _

theorem checkAssignable_mirrored (span : Span) (expr : Expr) :
    Mirrored names (expr.checkAssignable span)
      ((expr.rename names.internal).checkAssignable span) id := by
  rw [checkAssignable, checkAssignable, type_rename, isLvalue_rename]
  exact .ite .typeError (.ite .typeError (.pure rfl))

theorem ofAssign_mirrored (note : Note) (op : AssignOp) (left right : Expr)
    (opType : Option CType) :
    Mirrored names (ofAssign note op left right opType)
      (ofAssign note op (left.rename names.internal) (right.rename names.internal) opType)
      (rename names.internal) := by
  cases op with
  | plain =>
      simp only [ofAssign, type_rename]
      exact (assignTo_mirrored _ right).bind fun _ => .pure rfl
  | compound op =>
      simp only [ofAssign, type_rename]
      split
      · exact .typeError
      · exact (convertTo_mirrored _ right).bind fun _ => .pure rfl

theorem ofConditional_mirrored (note : Note) (condition thenBranch elseBranch : Expr) :
    Mirrored names (ofConditional note condition thenBranch elseBranch)
      (ofConditional note (condition.rename names.internal) (thenBranch.rename names.internal)
        (elseBranch.rename names.internal)) (rename names.internal) := by
  have agreed : Mirrored names (branchType note.loc.span thenBranch elseBranch)
      (branchType note.loc.span (thenBranch.rename names.internal)
        (elseBranch.rename names.internal)) id := by
    simp only [branchType, type_rename]
    exact .ite (.pure rfl) (.ite (.pure rfl)
      (.ite (commonPointer_mirrored _ thenBranch elseBranch) .typeError))
  exact agreed.bind fun type => (convertTo_mirrored type thenBranch).bind fun _ =>
    (convertTo_mirrored type elseBranch).bind fun _ => .pure rfl

theorem checkCondition_mirrored (expr : Expr) :
    Mirrored names expr.checkCondition (expr.rename names.internal).checkCondition
      (rename names.internal) := by
  rw [checkCondition, checkCondition, type_rename, span_rename]
  exact .ite (.pure rfl) .typeError

theorem ofCast_mirrored (note : Note) (target : CType) (operand : Expr) (isImplicit : Bool) :
    Mirrored names (ofCast note target operand isImplicit)
      (ofCast note target (operand.rename names.internal) isImplicit) (rename names.internal) := by
  simp only [ofCast, type_rename]
  exact .ite .typeError (.ite .typeError (.pure rfl))

theorem ofAddress_mirrored (note : Note) (operand : Expr) :
    Mirrored names (ofAddress note operand) (ofAddress note (operand.rename names.internal))
      (rename names.internal) := by
  rw [ofAddress, ofAddress, type_rename, isLvalue_rename]
  exact .ite .typeError (.ite .typeError (.pure rfl))

theorem ofDereference_mirrored (note : Note) (operand : Expr) :
    Mirrored names (ofDereference note operand)
      (ofDereference note (operand.rename names.internal)) (rename names.internal) := by
  rw [ofDereference, ofDereference, type_rename]
  split
  · exact .typeError
  · exact .pure rfl
  · exact .typeError

theorem ofSubscript_mirrored (note : Note) (array index : Expr) :
    Mirrored names (ofSubscript note array index)
      (ofSubscript note (array.rename names.internal) (index.rename names.internal))
      (rename names.internal) := by
  simp only [ofSubscript, type_rename]
  exact .ite ((convertTo_mirrored _ index).bind fun _ => .pure rfl)
    (.ite ((convertTo_mirrored _ array).bind fun _ => .pure rfl) .typeError)

theorem ofStep_mirrored (note : Note) (form : StepForm) (op : StepOp) (operand : Expr) :
    Mirrored names (ofStep note form op operand)
      (ofStep note form op (operand.rename names.internal)) (rename names.internal) := by
  rw [ofStep, ofStep, type_rename]
  exact (checkAssignable_mirrored _ operand).bind fun _ => .ite (.pure rfl) .typeError

theorem checkSized_mirrored (span : Span) (type : CType) :
    Mirrored names (checkSized span type) (checkSized span type) id :=
  .ite (.pure rfl) .typeError

theorem checkCastTarget_mirrored (span : Span) (target : CType) :
    Mirrored names (checkCastTarget span target) (checkCastTarget span target) id :=
  .ite .typeError (.ite .typeError (target.checkElements_mirrored span))

end Expr

/-! ### Expressions -/

-- The recursive calls of a mutual block hide that its theorems use the hypothesis.
set_option linter.unusedSectionVars false

section

variable (spares : names.Spares)

include spares

namespace Expr

theorem calleeTypes_mirrored (span : Span) (name : Text) (count : Nat) :
    Mirrored names (calleeTypes span name count) (calleeTypes span (names.internal name) count)
      id := by
  refine (spares.findSymbol?_mirrored name).bind fun found => ?_
  rcases found with _ | ⟨_, type, storage⟩
  · exact .throw ⟨rfl, rfl, rfl⟩
  · cases type <;> cases storage <;>
      first | exact .typeError | exact .ite (.pure rfl) .typeError

mutual

theorem check_mirrored : ∀ expr : Expr, Mirrored names expr.check
    (expr.rename names.internal).check (rename names.internal)
  | .constant _ _ | .string _ _ | .decay _ _ => .pure rfl
  | .var _ name => by
      rw [rename, check, check]
      refine (spares.findSymbol?_mirrored name).bind fun found => ?_
      cases found with
      | none => exact .throw ⟨rfl, rfl, rfl⟩
      | some symbol => exact .pure rfl
  | .unary note op operand =>
      ((check_mirrored operand).bind toValue_mirrored).bind fun _ => ofUnary_mirrored note op _
  | .binary note op left right =>
      ((check_mirrored left).bind toValue_mirrored).bind fun _ =>
        ((check_mirrored right).bind toValue_mirrored).bind fun _ =>
          ofBinary_mirrored note op _ _
  | .assign note op left right opType =>
      (check_mirrored left).bind fun left =>
        (checkAssignable_mirrored _ left).bind fun _ =>
          ((check_mirrored right).bind toValue_mirrored).bind fun _ =>
            ofAssign_mirrored note op _ _ opType
  | .conditional note condition thenBranch elseBranch =>
      (((check_mirrored condition).bind toValue_mirrored).bind checkCondition_mirrored).bind
        fun _ => ((check_mirrored thenBranch).bind toValue_mirrored).bind fun _ =>
          ((check_mirrored elseBranch).bind toValue_mirrored).bind fun _ =>
            ofConditional_mirrored note _ _ _
  | .call note name arguments => by
      rw [rename, check, check, length_renameList]
      exact (calleeTypes_mirrored spares _ name _).bind fun types =>
        (checkArguments_mirrored types.1 arguments).bind fun _ => .pure rfl
  | .cast note target operand isImplicit =>
      (checkCastTarget_mirrored _ target).bind fun _ =>
        ((check_mirrored operand).bind toValue_mirrored).bind fun _ =>
          ofCast_mirrored note target _ isImplicit
  | .addressOf note operand =>
      (check_mirrored operand).bind fun _ => ofAddress_mirrored note _
  | .dereference note operand =>
      ((check_mirrored operand).bind toValue_mirrored).bind fun _ =>
        ofDereference_mirrored note _
  | .subscript note array index =>
      ((check_mirrored array).bind toValue_mirrored).bind fun _ =>
        ((check_mirrored index).bind toValue_mirrored).bind fun _ =>
          ofSubscript_mirrored note _ _
  | .step note form op operand =>
      (check_mirrored operand).bind fun _ => ofStep_mirrored note form op _
  | .sizeofExpr note operand => by
      rw [rename, check, check]
      refine (check_mirrored operand).bind fun typed => ?_
      rw [type_rename]
      exact (checkSized_mirrored _ _).bind fun _ => .pure rfl
  | .sizeofType note operand =>
      (operand.checkElements_mirrored _).bind fun _ =>
        (checkSized_mirrored _ operand).bind fun _ => .pure rfl

theorem checkArguments_mirrored : ∀ (parameters : List CType) (arguments : List Expr),
    Mirrored names (checkArguments parameters arguments)
      (checkArguments parameters (renameList names.internal arguments))
      (renameList names.internal)
  | [], [] | [], _ :: _ | _ :: _, [] => .pure rfl
  | parameter :: parameters, argument :: arguments =>
      (((check_mirrored argument).bind toValue_mirrored).bind (assignTo_mirrored parameter)).bind
        fun _ => (checkArguments_mirrored parameters arguments).bind fun _ => .pure rfl

end

theorem checkValue_mirrored (expr : Expr) : Mirrored names expr.checkValue
    (expr.rename names.internal).checkValue (rename names.internal) :=
  (check_mirrored spares expr).bind toValue_mirrored

theorem checkConditionValue_mirrored (expr : Expr) : Mirrored names expr.checkConditionValue
    (expr.rename names.internal).checkConditionValue (rename names.internal) :=
  (checkValue_mirrored spares expr).bind checkCondition_mirrored

omit spares in
theorem checkOption_mirrored {check : Expr → Pass Expr}
    (mirrored : ∀ expr, Mirrored names (check expr) (check (expr.rename names.internal))
      (rename names.internal)) (value : Option Expr) :
    Mirrored names (checkOption check value)
      (checkOption check (value.map (rename names.internal)))
        (Option.map (rename names.internal)) := by
  cases value with
  | none => exact .pure rfl
  | some value => exact (mirrored value).bind fun _ => .pure rfl

theorem checkSwitch_mirrored (expr : Expr) : Mirrored names expr.checkSwitch
    (expr.rename names.internal).checkSwitch (rename names.internal) := by
  refine (checkValue_mirrored spares expr).bind fun value => ?_
  rw [type_rename, span_rename]
  exact .ite (convertTo_mirrored _ value) .typeError

theorem checkReturn_mirrored (result : CType) (span : Span) (value : Option Expr) :
    Mirrored names (checkReturn result span value)
      (checkReturn result span (value.map (rename names.internal)))
        (Option.map (rename names.internal)) := by
  cases value with
  | none => exact .ite (.pure rfl) .typeError
  | some value =>
      exact .ite .typeError ((checkValue_mirrored spares value).bind fun checked =>
        (assignTo_mirrored result checked).bind fun _ => .pure rfl)

end Expr

end

end SubsetC
