import SubsetC.Proofs.Delivery
import SubsetC.Proofs.ExprTyping

/-!
# What the check of types adds to expressions

The check of types marks expressions with their types and writes conversions out, and does nothing
else to a tree. Erasure takes that away again: the erased form of a checked expression is that of
the expression. So the calls it makes and the objects it uses are the same, in the same order. The
check enters no symbols.
-/

namespace SubsetC

namespace Expr

/-! ### Erasure -/

mutual

/-- The expression without what the check of types adds to it: types and value categories, decays
and implicit conversions, and the types in which compound assignments compute. -/
def erased : Expr → Expr
  | .constant note value => .constant (.untyped note.loc) value
  | .string note bytes => .string (.untyped note.loc) bytes
  | .var note name => .var (.untyped note.loc) name
  | .unary note op operand => .unary (.untyped note.loc) op operand.erased
  | .binary note op left right => .binary (.untyped note.loc) op left.erased right.erased
  | .assign note op left right _ => .assign (.untyped note.loc) op left.erased right.erased none
  | .conditional note condition thenBranch elseBranch =>
      .conditional (.untyped note.loc) condition.erased thenBranch.erased elseBranch.erased
  | .call note name arguments => .call (.untyped note.loc) name (erasedList arguments)
  | .cast note target operand isImplicit =>
      if isImplicit then operand.erased else .cast (.untyped note.loc) target operand.erased false
  | .addressOf note operand => .addressOf (.untyped note.loc) operand.erased
  | .dereference note operand => .dereference (.untyped note.loc) operand.erased
  | .subscript note array index => .subscript (.untyped note.loc) array.erased index.erased
  | .step note form op operand => .step (.untyped note.loc) form op operand.erased
  | .sizeofExpr note operand => .sizeofExpr (.untyped note.loc) operand.erased
  | .sizeofType note operand => .sizeofType (.untyped note.loc) operand
  | .decay _ operand => operand.erased

def erasedList : List Expr → List Expr
  | [] => []
  | expr :: exprs => expr.erased :: erasedList exprs

end

mutual

/-- What is erased calls nothing. -/
theorem calls_erased : ∀ expr : Expr, expr.erased.calls = expr.calls
  | .constant _ _ | .string _ _ | .var _ _ | .sizeofExpr _ _ | .sizeofType _ _ => rfl
  | .unary _ _ operand | .addressOf _ operand | .dereference _ operand | .step _ _ _ operand
  | .decay _ operand => calls_erased operand
  | .cast _ _ operand isImplicit => by
      cases isImplicit <;> exact calls_erased operand
  | .binary _ _ left right | .assign _ _ left right _ | .subscript _ left right =>
      congrArg₂ List.append (calls_erased left) (calls_erased right)
  | .conditional _ condition thenBranch elseBranch =>
      congrArg₂ List.append (calls_erased condition)
        (congrArg₂ List.append (calls_erased thenBranch) (calls_erased elseBranch))
  | .call _ name arguments => congrArg (· ++ [name]) (callsList_erased arguments)

theorem callsList_erased : ∀ exprs : List Expr, callsList (erasedList exprs) = callsList exprs
  | [] => rfl
  | expr :: exprs => congrArg₂ List.append (calls_erased expr) (callsList_erased exprs)

end

mutual

/-- What is erased uses no object. -/
theorem objects_erased : ∀ expr : Expr, expr.erased.objects = expr.objects
  | .constant _ _ | .string _ _ | .var _ _ | .sizeofExpr _ _ | .sizeofType _ _ => rfl
  | .unary _ _ operand | .addressOf _ operand | .dereference _ operand | .step _ _ _ operand
  | .decay _ operand => objects_erased operand
  | .cast _ _ operand isImplicit => by
      cases isImplicit <;> exact objects_erased operand
  | .binary _ _ left right | .assign _ _ left right _ | .subscript _ left right =>
      congrArg₂ List.append (objects_erased left) (objects_erased right)
  | .conditional _ condition thenBranch elseBranch =>
      congrArg₂ List.append (objects_erased condition)
        (congrArg₂ List.append (objects_erased thenBranch) (objects_erased elseBranch))
  | .call _ _ arguments => objectsList_erased arguments

theorem objectsList_erased : ∀ exprs : List Expr,
    objectsList (erasedList exprs) = objectsList exprs
  | [] => rfl
  | expr :: exprs => congrArg₂ List.append (objects_erased expr) (objectsList_erased exprs)

end

/-- An expression with the same erased form makes the same calls and uses the same objects. -/
theorem same_of_erased {expr checked : Expr} (same : checked.erased = expr.erased) :
    checked.calls = expr.calls ∧ checked.objects = expr.objects :=
  ⟨by rw [← calls_erased, same, calls_erased], by rw [← objects_erased, same, objects_erased]⟩

end Expr

/-- Nodes have been numbered, and the erased form of an expression is as given. -/
structure Context.Erases (erased : Expr) (context : Context) (checked : Expr) (after : Context) :
    Prop where
  /-- No symbol is entered, and no name is drawn. -/
  renumbered : context.Renumbered after
  /-- Only what is erased has been added. -/
  same : checked.erased = erased

/-- Nodes may be numbered before. -/
theorem Context.Erases.renumber {erased checked : Expr} {first second third : Context}
    (later : second.Erases erased checked third) (earlier : first.Renumbered second) :
    first.Erases erased checked third :=
  ⟨earlier.trans later.renumbered, later.same⟩

/-! ### Rules -/

namespace Expr

section Rules

variable {context : Context} {note : Note} {operand left right : Expr}

theorem convertTo_erases (target : CType) (expr : Expr) {context : Context} :
    Yields (expr.convertTo target) context (context.Erases expr.erased) :=
  Ensures.ite (fun _ => Ensures.pure ⟨.refl _, rfl⟩) fun _ =>
    Ensures.bind_ok (Pass.run_newLoc _ _) (Ensures.pure ⟨.next _, rfl⟩)

theorem toValue_erases (expr : Expr) {context : Context} :
    Yields expr.toValue context (context.Erases expr.erased) := by
  unfold toValue
  split
  · exact Ensures.bind_ok (Pass.run_newLoc _ _) (Ensures.pure ⟨.next _, rfl⟩)
  · exact Ensures.throw trivial
  · exact Ensures.pure ⟨.refl _, rfl⟩

theorem assignTo_erases (target : CType) (expr : Expr) {context : Context} :
    Yields (expr.assignTo target) context (context.Erases expr.erased) :=
  Ensures.ite (fun _ => convertTo_erases target expr) fun _ => Ensures.throw trivial

theorem ofUnary_erases (op : UnaryOp) :
    Yields (ofUnary note op operand) context
      (context.Erases (.unary (.untyped note.loc) op operand.erased)) := by
  refine Ensures.ite (fun _ => Ensures.throw trivial) fun _ => ?_
  refine Ensures.ite (fun _ => Ensures.pure ⟨.refl _, rfl⟩) fun _ => ?_
  refine (convertTo_erases _ operand).bind ?_
  rintro converted after ⟨renumbered, same⟩
  exact Ensures.pure ⟨renumbered, congrArg _ same⟩

theorem ofConverted_erases (op : BinaryOp) (type leftType rightType : CType) :
    Yields (ofConverted note op type leftType rightType left right) context
      (context.Erases (.binary (.untyped note.loc) op left.erased right.erased)) := by
  refine (convertTo_erases leftType left).bind ?_
  rintro left' between ⟨renumbered, sameLeft⟩
  refine (convertTo_erases rightType right).bind ?_
  rintro right' after ⟨more, sameRight⟩
  exact Ensures.pure ⟨renumbered.trans more, congrArg₂ _ sameLeft sameRight⟩

theorem commonPointer_renumbers (span : Span) :
    Yields (commonPointer span left right) context fun _ after => context.Renumbered after := by
  unfold commonPointer
  split
  · exact Ensures.pure (.refl _)
  · exact Ensures.throw trivial

theorem ofBinary_erases (op : BinaryOp) :
    Yields (ofBinary note op left right) context
      (context.Erases (.binary (.untyped note.loc) op left.erased right.erased)) := by
  have refuses : ∀ op : BinaryOp, Yields (refuseOperands note op left right) context
      (context.Erases (.binary (.untyped note.loc) op left.erased right.erased)) :=
    fun _ => Ensures.throw trivial
  cases op with
  | logic op =>
      exact Ensures.ite (fun _ => Ensures.pure ⟨.refl _, rfl⟩) fun _ => refuses _
  | arith op =>
      refine Ensures.ite (fun _ => ?_) fun _ => Ensures.ite (fun _ => ?_) fun _ => ?_
      · exact Ensures.ite (fun _ => ofConverted_erases _ _ _ _) fun _ => refuses _
      · exact Ensures.ite (fun _ => refuses _) fun _ => ofConverted_erases _ _ _ _
      · refine Ensures.ite (fun _ => ofConverted_erases _ _ _ _) fun _ => ?_
        refine Ensures.ite (fun _ => ofConverted_erases _ _ _ _) fun _ => ?_
        exact Ensures.ite (fun _ => ofConverted_erases _ _ _ _) fun _ => refuses _
  | compare op =>
      refine Ensures.ite (fun _ => ofConverted_erases _ _ _ _) fun _ => ?_
      refine Ensures.ite (fun _ => ?_) fun _ => refuses _
      refine (commonPointer_renumbers _).bind fun common between renumbered => ?_
      exact (ofConverted_erases _ _ _ _).mono fun _ _ erases => erases.renumber renumbered

theorem ofAssign_erases (op : AssignOp) (opType : Option CType) :
    Yields (ofAssign note op left right opType) context
      (context.Erases (.assign (.untyped note.loc) op left.erased right.erased none)) := by
  cases op with
  | plain =>
      refine (assignTo_erases _ right).bind ?_
      rintro right' after ⟨renumbered, same⟩
      exact Ensures.pure ⟨renumbered, by rw [erased, same]; rfl⟩
  | compound op =>
      dsimp only [ofAssign]
      split
      · exact Ensures.throw trivial
      · refine (convertTo_erases _ right).bind ?_
        rintro right' after ⟨renumbered, same⟩
        exact Ensures.pure ⟨renumbered, by rw [erased, same]; rfl⟩

theorem branchType_renumbers (span : Span) :
    Yields (branchType span left right) context fun _ after => context.Renumbered after := by
  refine Ensures.ite (fun _ => Ensures.pure (.refl _)) fun _ => ?_
  refine Ensures.ite (fun _ => Ensures.pure (.refl _)) fun _ => ?_
  exact Ensures.ite (fun _ => commonPointer_renumbers span) fun _ => Ensures.throw trivial

theorem ofConditional_erases (condition : Expr) :
    Yields (ofConditional note condition left right) context
      (context.Erases
        (.conditional (.untyped note.loc) condition.erased left.erased right.erased)) := by
  refine (branchType_renumbers _).bind fun type first typed => ?_
  refine (convertTo_erases type left).bind ?_
  rintro left' second ⟨renumbered, sameLeft⟩
  refine (convertTo_erases type right).bind ?_
  rintro right' after ⟨more, sameRight⟩
  exact Ensures.pure ⟨typed.trans (renumbered.trans more), by rw [erased, sameLeft, sameRight]; rfl⟩

theorem ofSubscript_erases :
    Yields (ofSubscript note left right) context
      (context.Erases (.subscript (.untyped note.loc) left.erased right.erased)) := by
  refine Ensures.ite (fun _ => ?_) fun _ => Ensures.ite (fun _ => ?_) fun _ =>
    Ensures.throw trivial
  · refine (convertTo_erases _ right).bind ?_
    rintro right' after ⟨renumbered, same⟩
    exact Ensures.pure ⟨renumbered, congrArg _ same⟩
  · refine (convertTo_erases _ left).bind ?_
    rintro left' after ⟨renumbered, same⟩
    exact Ensures.pure ⟨renumbered, by rw [erased, same]; rfl⟩

theorem ofDereference_erases :
    Yields (ofDereference note operand) context
      (context.Erases (.dereference (.untyped note.loc) operand.erased)) := by
  unfold ofDereference
  split
  · exact Ensures.throw trivial
  · exact Ensures.pure ⟨.refl _, rfl⟩
  · exact Ensures.throw trivial

theorem ofStep_erases (form : StepForm) (op : StepOp) :
    Yields (ofStep note form op operand) context
      (context.Erases (.step (.untyped note.loc) form op operand.erased)) := by
  refine (checkAssignable_ensures fun _ _ => trivial).bind ?_
  rintro _ _ ⟨rfl, _⟩
  exact Ensures.ite (fun _ => Ensures.pure ⟨.refl _, rfl⟩) fun _ => Ensures.throw trivial

theorem ofCast_erases (target : CType) (isImplicit : Bool) :
    Yields (ofCast note target operand isImplicit) context
      (context.Erases (Expr.cast note target operand isImplicit).erased) := by
  refine Ensures.ite (fun _ => Ensures.throw trivial) fun _ => ?_
  refine Ensures.ite (fun _ => Ensures.throw trivial) fun _ => Ensures.pure ⟨.refl _, ?_⟩
  cases isImplicit <;> rfl

theorem ofAddress_erases :
    Yields (ofAddress note operand) context
      (context.Erases (.addressOf (.untyped note.loc) operand.erased)) :=
  Ensures.ite (fun _ => Ensures.throw trivial) fun _ =>
    Ensures.ite (fun _ => Ensures.throw trivial) fun _ => Ensures.pure ⟨.refl _, rfl⟩

theorem checkCondition_erases (expr : Expr) {context : Context} :
    Yields expr.checkCondition context (context.Erases expr.erased) :=
  Ensures.ite (fun _ => Ensures.pure ⟨.refl _, rfl⟩) fun _ => Ensures.throw trivial

end Rules

/-- An expression has been checked, and goes through one more rule. -/
theorem bind_erases {action : Pass Expr} {next : Expr → Pass Expr} {context : Context} {tree : Expr}
    (first : Yields action context (context.Erases tree))
    (rest : ∀ (expr : Expr) {between : Context},
      Yields (next expr) between (between.Erases expr.erased)) :
    Yields (action >>= next) context (context.Erases tree) := by
  refine first.bind ?_
  rintro expr between ⟨renumbered, rfl⟩
  exact (rest expr).mono fun _ _ erases => erases.renumber renumbered

/-! ### Expressions -/

mutual

/-- The check of an expression adds nothing but what erasure takes away, and enters no symbols. -/
theorem check_erases : ∀ (expr : Expr) {context : Context},
    Yields expr.check context (context.Erases expr.erased)
  | .constant _ _, context | .string _ _, context | .decay _ _, context => by
      rw [check]
      exact Ensures.pure ⟨.refl _, rfl⟩
  | .var _ name, context => by
      rw [check]
      refine Ensures.bind_ok (Pass.run_findSymbol? _ _) ?_
      split
      · exact Ensures.throw trivial
      · exact Ensures.pure ⟨.refl _, rfl⟩
  | .unary _ op operand, context => by
      rw [check]
      refine (bind_erases (check_erases operand) toValue_erases).bind ?_
      rintro operand' between ⟨renumbered, same⟩
      rw [erased, ← same]
      exact (ofUnary_erases op).mono fun _ _ erases => erases.renumber renumbered
  | .binary _ op left right, context => by
      rw [check]
      refine (bind_erases (check_erases left) toValue_erases).bind ?_
      rintro left' middle ⟨renumbered, sameLeft⟩
      refine (bind_erases (check_erases right) toValue_erases).bind ?_
      rintro right' between ⟨more, sameRight⟩
      rw [erased, ← sameLeft, ← sameRight]
      exact (ofBinary_erases op).mono fun _ _ erases => erases.renumber (renumbered.trans more)
  | .assign _ op left right opType, context => by
      rw [check]
      refine (check_erases left).bind ?_
      rintro left' middle ⟨renumbered, sameLeft⟩
      refine (checkAssignable_ensures fun _ _ => trivial).bind ?_
      rintro _ _ ⟨rfl, _⟩
      refine (bind_erases (check_erases right) toValue_erases).bind ?_
      rintro right' between ⟨more, sameRight⟩
      rw [erased, ← sameLeft, ← sameRight]
      exact (ofAssign_erases op opType).mono fun _ _ erases =>
        erases.renumber (renumbered.trans more)
  | .conditional _ condition thenBranch elseBranch, context => by
      rw [check]
      refine (bind_erases (bind_erases (check_erases condition) toValue_erases)
        checkCondition_erases).bind ?_
      rintro condition' first ⟨renumbered, sameCondition⟩
      refine (bind_erases (check_erases thenBranch) toValue_erases).bind ?_
      rintro thenBranch' second ⟨more, sameThen⟩
      refine (bind_erases (check_erases elseBranch) toValue_erases).bind ?_
      rintro elseBranch' between ⟨last, sameElse⟩
      rw [erased, ← sameCondition, ← sameThen, ← sameElse]
      exact (ofConditional_erases condition').mono fun _ _ erases =>
        erases.renumber (renumbered.trans (more.trans last))
  | .call _ name arguments, context => by
      rw [check]
      refine (calleeTypes_ensures (fun _ _ => trivial) fun _ => trivial).bind ?_
      rintro ⟨parameters, result⟩ _ ⟨rfl, _, count, _⟩
      refine (checkArguments_erases parameters arguments count).bind ?_
      rintro arguments' after ⟨renumbered, same⟩
      exact Ensures.pure ⟨renumbered, by rw [erased, erased, same]; rfl⟩
  | .cast note target operand isImplicit, context => by
      rw [check]
      refine (checkCastTarget_ensures fun _ _ => trivial).bind ?_
      rintro _ _ ⟨rfl, _⟩
      refine (bind_erases (check_erases operand) toValue_erases).bind ?_
      rintro operand' between ⟨renumbered, same⟩
      rw [erased, ← same]
      exact (ofCast_erases target isImplicit).mono fun _ _ erases => erases.renumber renumbered
  | .addressOf _ operand, context => by
      rw [check]
      refine (check_erases operand).bind ?_
      rintro operand' between ⟨renumbered, same⟩
      rw [erased, ← same]
      exact ofAddress_erases.mono fun _ _ erases => erases.renumber renumbered
  | .dereference _ operand, context => by
      rw [check]
      refine (bind_erases (check_erases operand) toValue_erases).bind ?_
      rintro operand' between ⟨renumbered, same⟩
      rw [erased, ← same]
      exact ofDereference_erases.mono fun _ _ erases => erases.renumber renumbered
  | .subscript _ array index, context => by
      rw [check]
      refine (bind_erases (check_erases array) toValue_erases).bind ?_
      rintro array' middle ⟨renumbered, sameArray⟩
      refine (bind_erases (check_erases index) toValue_erases).bind ?_
      rintro index' between ⟨more, sameIndex⟩
      rw [erased, ← sameArray, ← sameIndex]
      exact ofSubscript_erases.mono fun _ _ erases => erases.renumber (renumbered.trans more)
  | .step _ form op operand, context => by
      rw [check]
      refine (check_erases operand).bind ?_
      rintro operand' between ⟨renumbered, same⟩
      rw [erased, ← same]
      exact (ofStep_erases form op).mono fun _ _ erases => erases.renumber renumbered
  | .sizeofExpr _ operand, context => by
      rw [check]
      refine (check_erases operand).bind ?_
      rintro operand' between ⟨renumbered, same⟩
      refine (checkSized_ensures fun _ _ => trivial).bind ?_
      rintro _ _ ⟨rfl, _⟩
      exact Ensures.pure ⟨renumbered, by rw [erased, erased, same]; rfl⟩
  | .sizeofType _ operand, context => by
      rw [check]
      refine (CType.checkElements_ensures (fun _ _ => trivial) operand).bind ?_
      rintro _ _ ⟨rfl, _⟩
      refine (checkSized_ensures fun _ _ => trivial).bind ?_
      rintro _ _ ⟨rfl, _⟩
      exact Ensures.pure ⟨.refl _, rfl⟩

theorem checkArguments_erases : ∀ (parameters : List CType) (arguments : List Expr)
    {context : Context}, parameters.length = arguments.length →
    Yields (checkArguments parameters arguments) context fun checked after =>
      context.Renumbered after ∧ erasedList checked = erasedList arguments
  | [], [], context, _ => by
      rw [checkArguments]
      · exact Ensures.pure ⟨.refl _, rfl⟩
      · simp
  | parameter :: parameters, argument :: arguments, context, count => by
      rw [checkArguments]
      refine (bind_erases (bind_erases (check_erases argument) toValue_erases)
        (assignTo_erases parameter)).bind ?_
      rintro argument' between ⟨renumbered, same⟩
      refine (checkArguments_erases parameters arguments (Nat.succ.inj count)).bind ?_
      rintro arguments' after ⟨more, sameRest⟩
      exact Ensures.pure ⟨renumbered.trans more, congrArg₂ _ same sameRest⟩
  | [], _ :: _, _, count | _ :: _, [], _, count => nomatch count

end

theorem checkValue_erases (expr : Expr) {context : Context} :
    Yields expr.checkValue context (context.Erases expr.erased) :=
  bind_erases (check_erases expr) toValue_erases

theorem checkConditionValue_erases (expr : Expr) {context : Context} :
    Yields expr.checkConditionValue context (context.Erases expr.erased) :=
  bind_erases (checkValue_erases expr) checkCondition_erases

end Expr

end SubsetC
