import SubsetC.Proofs.AddedNodes

/-!
# Numbers of added nodes

A parser numbers the nodes of a tree one after the other, children first. Analysis keeps nodes, leaves
some out and adds new ones, which it numbers from the newest number on. So the numbers of a tree never
repeat. The main statement is `Program.ids_of_parse_analyze`.

How often a number occurs is what carries the proof: it occurs at most as often as before, and once
more if it has been drawn in between (`Additions`). This composes where lists of nodes are appended,
since what is drawn earlier lies below what is drawn later.
-/

namespace SubsetC

/-- Behind one number through another, a list of nodes comes from an older one: nodes are left out,
and each number drawn in between is given to one new node at most. -/
structure Additions (low high : Nat) (old new : List Nat) : Prop where
  /-- Numbers go up. -/
  le : low ≤ high
  /-- A node is not repeated, and a number that is drawn is used once. -/
  count_le : ∀ id, new.count id ≤ old.count id + if low < id ∧ id ≤ high then 1 else 0

namespace Additions

variable {low middle high : Nat} {old new first second third : List Nat}

theorem refl (low : Nat) (old : List Nat) : Additions low low old old :=
  ⟨Nat.le_refl low, fun _ => Nat.le_add_right _ _⟩

/-- Nodes may be left out. -/
theorem of_sublist (sublist : new.Sublist old) : Additions low low old new :=
  ⟨Nat.le_refl low, fun id => Nat.le_add_right_of_le (sublist.count_le id)⟩

theorem trans (earlier : Additions low middle first second)
    (later : Additions middle high second third) : Additions low high first third := by
  refine ⟨Nat.le_trans earlier.le later.le, fun id => ?_⟩
  have := earlier.le
  have := later.le
  have := earlier.count_le id
  have := later.count_le id
  split_ifs at * <;> omega

/-- Parts of a tree follow each other, and the later part draws later numbers. -/
theorem append {old' new' : List Nat} (earlier : Additions low middle old new)
    (later : Additions middle high old' new') : Additions low high (old ++ old') (new ++ new') := by
  refine ⟨Nat.le_trans earlier.le later.le, fun id => ?_⟩
  have := earlier.le
  have := later.le
  have := earlier.count_le id
  have := later.count_le id
  rw [List.count_append, List.count_append]
  split_ifs at * <;> omega

/-- Where a node stands does not matter. -/
theorem perm {new' : List Nat} (additions : Additions low high old new) (same : new.Perm new') :
    Additions low high old new' :=
  ⟨additions.le, fun id => same.count_eq id ▸ additions.count_le id⟩

/-- Numbers may have been drawn before that no node of the tree has. -/
theorem after (up : low ≤ middle) (later : Additions middle high old new) :
    Additions low high old new := by
  refine ⟨Nat.le_trans up later.le, fun id => ?_⟩
  have := later.count_le id
  split_ifs at * <;> omega

/-- Other nodes of the tree stay. -/
theorem keep (kept : List Nat) (additions : Additions low high old new) :
    Additions low high (old ++ kept) (new ++ kept) := additions.append (refl high kept)

/-- A new node is put on top. -/
theorem top (additions : Additions low high old new) :
    Additions low (high + 1) old (new ++ [high + 1]) := by
  have one : Additions high (high + 1) [] [high + 1] := by
    refine ⟨Nat.le_succ high, fun id => ?_⟩
    simp only [List.count_singleton, beq_iff_eq]
    split_ifs <;> omega
  simpa using additions.append one

/-- The numbers of a tree stay distinct and between one and the newest. -/
theorem distinct (additions : Additions low high old new) (nodup : old.Nodup)
    (bounded : ∀ id ∈ old, 1 ≤ id ∧ id ≤ low) :
    new.Nodup ∧ ∀ id ∈ new, 1 ≤ id ∧ id ≤ high := by
  have le := additions.le
  constructor
  · refine List.nodup_iff_count_le_one.2 fun id => ?_
    have once := List.nodup_iff_count_le_one.1 nodup id
    have count := additions.count_le id
    split_ifs at count with isNew
    · have notOld : id ∉ old := fun mem => absurd (bounded id mem).2 (Nat.not_le.2 isNew.1)
      rwa [List.count_eq_zero_of_not_mem notOld] at count
    · exact Nat.le_trans count once
  · intro id mem
    have count := additions.count_le id
    have occurs : 0 < new.count id := List.count_pos_iff.2 mem
    split_ifs at count with isNew
    · exact ⟨Nat.one_le_of_lt isNew.1, isNew.2⟩
    · have isOld := bounded id (List.count_pos_iff.1 (Nat.lt_of_lt_of_le occurs count))
      exact ⟨isOld.1, Nat.le_trans isOld.2 le⟩

end Additions

/-- The numbers of a result come from older ones by what a pass draws in between. -/
abbrev Context.Adds {α : Type} (ids : α → List Nat) (old : List Nat) (context : Context) (result : α)
    (after : Context) : Prop :=
  Additions context.lastId after.lastId old (ids result)

/-- A pass whose result has no nodes numbers upwards. -/
theorem Pass.Reports.climbs {α : Type} {action : Pass α} {wanted : α → Prop}
    (reports : action.Reports (fun _ => True) wanted) (context : Context) :
    Yields action context fun _ after => context.lastId ≤ after.lastId :=
  ((reports context).allow fun _ _ => trivial).mono fun _ _ holds => holds.1

/-! ### Nodes that resolving and labelling keep -/

/-- A change of the parts of a tree keeps the numbers of their nodes. -/
structure TreeMap.KeepsIds (change : TreeMap) : Prop where
  expr : ∀ expr, (change.expr expr).ids = expr.ids
  object : ∀ isFile decl, (change.object isFile decl).ids = decl.ids
  function : ∀ decl, (change.function decl).loc.id = decl.loc.id

section

variable {change : TreeMap}

theorem Expr.idsOption_map (keeps : change.KeepsIds) (value : Option Expr) :
    idsOption (value.map change.expr) = idsOption value := by
  cases value with
  | none => rfl
  | some expr => exact keeps.expr expr

theorem VarDecl.idsList_map (keeps : change.KeepsIds) (decls : List VarDecl) :
    idsList (decls.map (change.object false)) = idsList decls := by
  rw [idsList, idsList, List.flatMap_map]
  exact List.flatMap_congr fun decl _ => keeps.object false decl

theorem ForInit.ids_map (keeps : change.KeepsIds) (init : ForInit) :
    (init.map change).ids = init.ids := by
  cases init with
  | declarations loc decls => rw [ForInit.map, ids, ids, VarDecl.idsList_map keeps]
  | expression loc value => rw [ForInit.map, ids, ids, Expr.idsOption_map keeps]

mutual

theorem Stmt.ids_map (keeps : change.KeepsIds) : ∀ stmt : Stmt, (stmt.map change).ids = stmt.ids
  | .ret _ value => by rw [Stmt.map, Stmt.ids, Stmt.ids, Expr.idsOption_map keeps]
  | .expr _ value => by rw [Stmt.map, Stmt.ids, Stmt.ids, keeps.expr]
  | .ifThen _ _ body | .whileLoop _ _ _ body | .doWhile _ _ body _ | .switch _ _ _ body _
  | .case _ _ _ body => by
      rw [Stmt.map, Stmt.ids, Stmt.ids, keeps.expr, Stmt.ids_map keeps body]
  | .ifElse _ _ thenBranch elseBranch => by
      rw [Stmt.map, Stmt.ids, Stmt.ids, keeps.expr, Stmt.ids_map keeps thenBranch,
        Stmt.ids_map keeps elseBranch]
  | .block _ items => by rw [Stmt.map, Stmt.ids, Stmt.ids, Item.idsList_map keeps items]
  | .forLoop _ _ init condition post body => by
      rw [Stmt.map, Stmt.ids, Stmt.ids, init.ids_map keeps, Expr.idsOption_map keeps,
        Expr.idsOption_map keeps, Stmt.ids_map keeps body]
  | .default _ _ body => by rw [Stmt.map, Stmt.ids, Stmt.ids, Stmt.ids_map keeps body]
  | .break _ _ | .continue _ _ | .null _ => rfl

theorem Decl.ids_map (keeps : change.KeepsIds) (isFile : Bool) :
    ∀ decl : Decl, (decl.map change isFile).ids = decl.ids
  | .object decl => keeps.object isFile decl
  | .function decl => by rw [Decl.map, Decl.ids, Decl.ids, keeps.function]
  | .definition decl _ body => by
      rw [Decl.map, Decl.ids, Decl.ids, keeps.function, Item.idsList_map keeps body]

theorem Item.idsList_map (keeps : change.KeepsIds) :
    ∀ items : List Item, Item.idsList (Item.mapList change items) = Item.idsList items
  | [] => rfl
  | .stmt stmt :: items => by
      rw [Item.mapList, Item.idsList, Item.idsList, Stmt.ids_map keeps stmt,
        Item.idsList_map keeps items]
  | .decl decl :: items => by
      rw [Item.mapList, Item.idsList, Item.idsList, Decl.ids_map keeps false decl,
        Item.idsList_map keeps items]

end

theorem Program.ids_mapParts (keeps : change.KeepsIds) (program : Program) :
    (program.mapParts change).ids = program.ids := by
  rw [ids, ids, mapParts, List.flatMap_map]
  exact List.flatMap_congr fun decl _ => Decl.ids_map keeps true decl

end

namespace Expr

mutual

theorem ids_rename (change : Text → Text) : ∀ expr : Expr, (expr.rename change).ids = expr.ids
  | .constant _ _ | .string _ _ | .var _ _ | .sizeofType _ _ => rfl
  | .unary _ _ operand | .cast _ _ operand _ | .addressOf _ operand | .dereference _ operand
  | .step _ _ _ operand | .sizeofExpr _ operand | .decay _ operand => by
      rw [rename, ids, ids, ids_rename change operand]
  | .binary _ _ left right | .assign _ _ left right _ | .subscript _ left right => by
      rw [rename, ids, ids, ids_rename change left, ids_rename change right]
  | .conditional _ condition thenBranch elseBranch => by
      rw [rename, ids, ids, ids_rename change condition, ids_rename change thenBranch,
        ids_rename change elseBranch]
  | .call _ _ arguments => by rw [rename, ids, ids, idsList_rename change arguments]

theorem idsList_rename (change : Text → Text) : ∀ exprs : List Expr,
    idsList (renameList change exprs) = idsList exprs
  | [] => rfl
  | expr :: exprs => by
      rw [renameList, idsList, idsList, ids_rename change expr, idsList_rename change exprs]

end

end Expr

namespace Initializer

mutual

theorem ids_rename (change : Text → Text) : ∀ init : Initializer,
    (init.rename change).ids = init.ids
  | .single _ value => by rw [rename, ids, ids, value.ids_rename]
  | .compound _ items => by rw [rename, ids, ids, idsList_rename change items]

theorem idsList_rename (change : Text → Text) : ∀ items : List Initializer,
    idsList (renameList change items) = idsList items
  | [] => rfl
  | item :: items => by
      rw [renameList, idsList, idsList, ids_rename change item, idsList_rename change items]

end

end Initializer

theorem TreeMap.renamed_keepsIds (change : Text → Text) : (TreeMap.renamed change).KeepsIds where
  expr := Expr.ids_rename change
  object _ decl := by
    cases isInit : decl.init <;>
      simp [TreeMap.renamed, VarDecl.ids, VarDecl.rename, isInit, Initializer.ids_rename]
  function _ := rfl

theorem TreeMap.unlabelled_keepsIds : TreeMap.unlabelled.KeepsIds :=
  ⟨fun _ => rfl, fun _ _ => rfl, fun _ => rfl⟩

/-- Resolving a name changes no node. -/
theorem Program.resolve_adds (program : Program) (context : Context) :
    Yields program.resolve context (context.Adds Program.ids program.ids) := by
  refine (resolveFrom_restores program .file context (Nat.le_refl _)).mono ?_
  rintro resolved after ⟨up, same⟩
  have ids := congrArg Program.ids same
  rw [ids_mapParts (TreeMap.renamed_keepsIds _), ids_mapParts (TreeMap.renamed_keepsIds _)] at ids
  exact ids ▸ Additions.after up (.refl _ _)

/-- Labelling changes no node. -/
theorem Program.label_adds (program : Program) (context : Context) :
    Yields program.label context (context.Adds Program.ids program.ids) := by
  refine (label_restores program context (Nat.le_refl _)).mono ?_
  rintro labelled after ⟨up, same⟩
  have ids := congrArg Program.ids same
  rw [ids_mapParts TreeMap.unlabelled_keepsIds, ids_mapParts TreeMap.unlabelled_keepsIds] at ids
  exact ids ▸ Additions.after up (.refl _ _)

/-! ### Nodes that the check of types adds -/

namespace Expr

section Rules

variable {context : Context} {note : Note} {operand left right : Expr}

theorem convertTo_adds (target : CType) (expr : Expr) {context : Context} :
    Yields (expr.convertTo target) context (context.Adds ids expr.ids) :=
  Ensures.ite (fun _ => Ensures.pure (.refl _ _)) fun _ =>
    Ensures.bind_ok (Pass.run_newLoc _ _) (Ensures.pure (Additions.refl _ _).top)

theorem toValue_adds (expr : Expr) {context : Context} :
    Yields expr.toValue context (context.Adds ids expr.ids) := by
  unfold toValue
  split
  · exact Ensures.bind_ok (Pass.run_newLoc _ _) (Ensures.pure (Additions.refl _ _).top)
  · exact Ensures.throw trivial
  · exact Ensures.pure (.refl _ _)

theorem assignTo_adds (target : CType) (expr : Expr) {context : Context} :
    Yields (expr.assignTo target) context (context.Adds ids expr.ids) :=
  Ensures.ite (fun _ => convertTo_adds target expr) fun _ => Ensures.throw trivial

theorem ofUnary_adds (op : UnaryOp) :
    Yields (ofUnary note op operand) context
      (context.Adds ids (operand.ids ++ [note.loc.id])) := by
  refine Ensures.ite (fun _ => Ensures.throw trivial) fun _ => ?_
  refine Ensures.ite (fun _ => Ensures.pure (.refl _ _)) fun _ => ?_
  exact (convertTo_adds _ operand).bind fun _ _ adds => Ensures.pure (adds.keep _)

theorem ofConverted_adds (op : BinaryOp) (type leftType rightType : CType) :
    Yields (ofConverted note op type leftType rightType left right) context
      (context.Adds ids (left.ids ++ right.ids ++ [note.loc.id])) :=
  (convertTo_adds leftType left).bind fun _ _ addsLeft =>
    (convertTo_adds rightType right).bind fun _ _ addsRight =>
      Ensures.pure ((addsLeft.append addsRight).keep _)

theorem ofBinary_adds (op : BinaryOp) :
    Yields (ofBinary note op left right) context
      (context.Adds ids (left.ids ++ right.ids ++ [note.loc.id])) := by
  have refuses : ∀ op : BinaryOp, Yields (refuseOperands note op left right) context
      (context.Adds ids (left.ids ++ right.ids ++ [note.loc.id])) :=
    fun _ => Ensures.throw trivial
  cases op with
  | logic op =>
      exact Ensures.ite (fun _ => Ensures.pure (.refl _ _)) fun _ => refuses _
  | arith op =>
      refine Ensures.ite (fun _ => ?_) fun _ => Ensures.ite (fun _ => ?_) fun _ => ?_
      · exact Ensures.ite (fun _ => ofConverted_adds _ _ _ _) fun _ => refuses _
      · exact Ensures.ite (fun _ => refuses _) fun _ => ofConverted_adds _ _ _ _
      · refine Ensures.ite (fun _ => ofConverted_adds _ _ _ _) fun _ => ?_
        refine Ensures.ite (fun _ => ofConverted_adds _ _ _ _) fun _ => ?_
        exact Ensures.ite (fun _ => ofConverted_adds _ _ _ _) fun _ => refuses _
  | compare op =>
      refine Ensures.ite (fun _ => ofConverted_adds _ _ _ _) fun _ => ?_
      refine Ensures.ite (fun _ => ?_) fun _ => refuses _
      exact ((commonPointer_reports trivial left right).climbs _).bind fun _ _ up =>
        (ofConverted_adds _ _ _ _).mono fun _ _ adds => adds.after up

theorem ofAssign_adds (op : AssignOp) (opType : Option CType) :
    Yields (ofAssign note op left right opType) context
      (context.Adds ids (left.ids ++ right.ids ++ [note.loc.id])) := by
  cases op with
  | plain =>
      exact (assignTo_adds _ right).bind fun _ _ adds =>
        Ensures.pure (((Additions.refl _ _).append adds).keep _)
  | compound op =>
      dsimp only [ofAssign]
      split
      · exact Ensures.throw trivial
      · exact (convertTo_adds _ right).bind fun _ _ adds =>
          Ensures.pure (((Additions.refl _ _).append adds).keep _)

theorem branchType_climbs (span : Span) :
    Yields (branchType span left right) context fun _ after =>
      context.lastId ≤ after.lastId := by
  refine Ensures.ite (fun _ => Ensures.pure (Nat.le_refl _)) fun _ => ?_
  refine Ensures.ite (fun _ => Ensures.pure (Nat.le_refl _)) fun _ => ?_
  exact Ensures.ite (fun _ => (commonPointer_reports trivial left right).climbs _) fun _ =>
    Ensures.throw trivial

theorem ofConditional_adds (condition : Expr) :
    Yields (ofConditional note condition left right) context
      (context.Adds ids (condition.ids ++ left.ids ++ right.ids ++ [note.loc.id])) :=
  (branchType_climbs _).bind fun type _ up =>
    (convertTo_adds type left).bind fun _ _ addsLeft =>
      (convertTo_adds type right).bind fun _ _ addsRight =>
        Ensures.pure ((((Additions.refl _ _).append addsLeft).append addsRight).keep _ |>.after up)

theorem ofSubscript_adds :
    Yields (ofSubscript note left right) context
      (context.Adds ids (left.ids ++ right.ids ++ [note.loc.id])) := by
  refine Ensures.ite (fun _ => ?_) fun _ => Ensures.ite (fun _ => ?_) fun _ =>
    Ensures.throw trivial
  · exact (convertTo_adds _ right).bind fun _ _ adds =>
      Ensures.pure (((Additions.refl _ _).append adds).keep _)
  · exact (convertTo_adds _ left).bind fun _ _ adds =>
      Ensures.pure ((adds.keep right.ids).keep _)

theorem ofDereference_adds :
    Yields (ofDereference note operand) context
      (context.Adds ids (operand.ids ++ [note.loc.id])) := by
  unfold ofDereference
  split
  · exact Ensures.throw trivial
  · exact Ensures.pure (.refl _ _)
  · exact Ensures.throw trivial

theorem ofStep_adds (form : StepForm) (op : StepOp) :
    Yields (ofStep note form op operand) context
      (context.Adds ids (operand.ids ++ [note.loc.id])) := by
  refine ((checkAssignable_reports trivial operand).climbs _).bind fun _ _ up => ?_
  exact Ensures.ite (fun _ => Ensures.pure (.after up (.refl _ _))) fun _ => Ensures.throw trivial

theorem ofCast_adds (target : CType) (isImplicit : Bool) :
    Yields (ofCast note target operand isImplicit) context
      (context.Adds ids (operand.ids ++ [note.loc.id])) :=
  Ensures.ite (fun _ => Ensures.throw trivial) fun _ =>
    Ensures.ite (fun _ => Ensures.throw trivial) fun _ => Ensures.pure (.refl _ _)

theorem ofAddress_adds :
    Yields (ofAddress note operand) context
      (context.Adds ids (operand.ids ++ [note.loc.id])) :=
  Ensures.ite (fun _ => Ensures.throw trivial) fun _ =>
    Ensures.ite (fun _ => Ensures.throw trivial) fun _ => Ensures.pure (.refl _ _)

theorem checkCondition_adds (expr : Expr) {context : Context} :
    Yields expr.checkCondition context (context.Adds ids expr.ids) :=
  Ensures.ite (fun _ => Ensures.pure (.refl _ _)) fun _ => Ensures.throw trivial

end Rules

/-- An expression has been checked, and goes through one more rule. -/
theorem bind_adds {action : Pass Expr} {next : Expr → Pass Expr} {context : Context}
    {old : List Nat} (first : Yields action context (context.Adds ids old))
    (rest : ∀ (expr : Expr) {between : Context},
      Yields (next expr) between (between.Adds ids expr.ids)) :
    Yields (action >>= next) context (context.Adds ids old) :=
  first.bind fun expr _ adds => (rest expr).mono fun _ _ more => adds.trans more

mutual

/-- The check of an expression keeps its nodes, and numbers those that it adds. -/
theorem check_adds : ∀ (expr : Expr) {context : Context},
    Yields expr.check context (context.Adds ids expr.ids)
  | .constant _ _, _ | .string _ _, _ | .decay _ _, _ => by
      rw [check]
      exact Ensures.pure (.refl _ _)
  | .var _ _, _ => by
      rw [check]
      refine Ensures.bind_ok (Pass.run_findSymbol? _ _) ?_
      split
      · exact Ensures.throw trivial
      · exact Ensures.pure (.refl _ _)
  | .unary _ op operand, _ => by
      rw [check]
      refine (bind_adds (check_adds operand) toValue_adds).bind fun _ _ adds => ?_
      exact (ofUnary_adds op).mono fun _ _ more => (adds.keep _).trans more
  | .binary _ op left right, _ => by
      rw [check]
      refine (bind_adds (check_adds left) toValue_adds).bind fun _ _ addsLeft => ?_
      refine (bind_adds (check_adds right) toValue_adds).bind fun _ _ addsRight => ?_
      exact (ofBinary_adds op).mono fun _ _ more => ((addsLeft.append addsRight).keep _).trans more
  | .assign _ op left right opType, _ => by
      rw [check]
      refine (check_adds left).bind fun left' _ addsLeft => ?_
      refine ((checkAssignable_reports trivial left').climbs _).bind fun _ _ up => ?_
      refine (bind_adds (check_adds right) toValue_adds).bind fun _ _ addsRight => ?_
      exact (ofAssign_adds op opType).mono fun _ _ more =>
        ((addsLeft.append (addsRight.after up)).keep _).trans more
  | .conditional _ condition thenBranch elseBranch, _ => by
      rw [check]
      refine (bind_adds (bind_adds (check_adds condition) toValue_adds) checkCondition_adds).bind
        fun condition' _ adds => ?_
      refine (bind_adds (check_adds thenBranch) toValue_adds).bind fun _ _ addsThen => ?_
      refine (bind_adds (check_adds elseBranch) toValue_adds).bind fun _ _ addsElse => ?_
      exact (ofConditional_adds condition').mono fun _ _ more =>
        (((adds.append addsThen).append addsElse).keep _).trans more
  | .call _ name arguments, _ => by
      rw [check]
      refine ((calleeTypes_reports trivial name arguments.length).climbs _).bind
        fun callee _ up => ?_
      exact (checkArguments_adds callee.1 arguments).bind fun _ _ adds =>
        Ensures.pure ((adds.after up).keep _)
  | .cast _ target operand isImplicit, _ => by
      rw [check]
      refine (checkCastTarget_ensures fun _ _ => trivial).bind ?_
      rintro _ _ ⟨rfl, _⟩
      refine (bind_adds (check_adds operand) toValue_adds).bind fun _ _ adds => ?_
      exact (ofCast_adds target isImplicit).mono fun _ _ more => (adds.keep _).trans more
  | .addressOf _ operand, _ => by
      rw [check]
      refine (check_adds operand).bind fun _ _ adds => ?_
      exact ofAddress_adds.mono fun _ _ more => (adds.keep _).trans more
  | .dereference _ operand, _ => by
      rw [check]
      refine (bind_adds (check_adds operand) toValue_adds).bind fun _ _ adds => ?_
      exact ofDereference_adds.mono fun _ _ more => (adds.keep _).trans more
  | .subscript _ array index, _ => by
      rw [check]
      refine (bind_adds (check_adds array) toValue_adds).bind fun _ _ addsArray => ?_
      refine (bind_adds (check_adds index) toValue_adds).bind fun _ _ addsIndex => ?_
      exact ofSubscript_adds.mono fun _ _ more => ((addsArray.append addsIndex).keep _).trans more
  | .step _ form op operand, _ => by
      rw [check]
      refine (check_adds operand).bind fun _ _ adds => ?_
      exact (ofStep_adds form op).mono fun _ _ more => (adds.keep _).trans more
  | .sizeofExpr note operand, _ => by
      rw [check]
      refine (check_adds operand).bind fun operand' _ adds => ?_
      refine ((checkSized_reports trivial operand'.type).climbs _).bind fun _ _ up => ?_
      exact Ensures.pure ((adds.trans (.after up (.refl _ _))).keep _)
  | .sizeofType _ operand, _ => by
      rw [check]
      refine ((CType.checkElements_reports trivial operand).climbs _).bind fun _ _ up => ?_
      refine ((checkSized_reports trivial operand).climbs _).bind fun _ _ up' => ?_
      exact Ensures.pure (.after (Nat.le_trans up up') (.refl _ _))

theorem checkArguments_adds : ∀ (parameters : List CType) (arguments : List Expr)
    {context : Context},
      Yields (checkArguments parameters arguments) context
        (context.Adds idsList (idsList arguments))
  | parameter :: parameters, argument :: arguments, _ => by
      rw [checkArguments]
      refine (bind_adds (bind_adds (check_adds argument) toValue_adds)
        (assignTo_adds parameter)).bind fun _ _ adds => ?_
      exact (checkArguments_adds parameters arguments).bind fun _ _ more =>
        Ensures.pure (adds.append more)
  | [], _, _ => by
      rw [checkArguments]
      · exact Ensures.pure (.of_sublist (List.nil_sublist _))
      · simp
  | _ :: _, [], _ => by
      rw [checkArguments]
      · exact Ensures.pure (.of_sublist (List.nil_sublist _))
      · simp

end

section

variable {context : Context}

theorem checkValue_adds (expr : Expr) :
    Yields expr.checkValue context (context.Adds ids expr.ids) :=
  bind_adds (check_adds expr) toValue_adds

theorem checkConditionValue_adds (expr : Expr) :
    Yields expr.checkConditionValue context (context.Adds ids expr.ids) :=
  bind_adds (checkValue_adds expr) checkCondition_adds

theorem checkOption_adds {check : Expr → Pass Expr}
    (adds : ∀ expr : Expr, Yields (check expr) context (context.Adds ids expr.ids))
    (value : Option Expr) :
    Yields (checkOption check value) context (context.Adds idsOption (idsOption value)) := by
  cases value with
  | none => exact Ensures.pure (.refl _ _)
  | some expr => exact (adds expr).bind fun _ _ adds => Ensures.pure adds

theorem checkSwitch_adds (expr : Expr) :
    Yields expr.checkSwitch context (context.Adds ids expr.ids) := by
  refine (checkValue_adds expr).bind fun value _ adds => ?_
  exact Ensures.ite (fun _ => (convertTo_adds _ value).mono fun _ _ more => adds.trans more)
    fun _ => Ensures.throw trivial

theorem checkReturn_adds (result : CType) (span : Span) (value : Option Expr) :
    Yields (checkReturn result span value) context (context.Adds idsOption (idsOption value)) := by
  cases value with
  | none => exact Ensures.ite (fun _ => Ensures.pure (.refl _ _)) fun _ => Ensures.throw trivial
  | some expr =>
      refine Ensures.ite (fun _ => Ensures.throw trivial) fun _ => ?_
      exact (checkValue_adds expr).bind fun value _ adds =>
        (assignTo_adds result value).bind fun _ _ more => Ensures.pure (adds.trans more)

theorem checkInitial_adds (type : CType) (span : Span) (expr : Expr) :
    Yields (expr.checkInitial type span) context (context.Adds ids expr.ids) := by
  unfold checkInitial
  split
  · split
    · refine Ensures.ite (fun _ => Ensures.throw trivial) fun _ => ?_
      exact Ensures.ite (fun _ => Ensures.throw trivial) fun _ => check_adds _
    · exact Ensures.throw trivial
  · exact bind_adds (checkValue_adds expr) (assignTo_adds type)

end

end Expr

namespace Initializer

section

variable {context : Context}

/-- Nodes that are made several times are all new. -/
theorem times_adds {action : Pass Initializer}
    (adds : ∀ context, Yields action context (context.Adds ids [])) :
    ∀ (count : Nat) {context : Context},
      Yields (action.times count) context (context.Adds idsList [])
  | 0, _ => Ensures.pure (.refl _ _)
  | count + 1, _ => (adds _).bind fun _ _ first =>
      (times_adds adds count).bind fun _ _ rest => Ensures.pure (first.append rest)

/-- A zero that is written out consists of new nodes. -/
theorem zero_adds (span : Span) : ∀ (type : CType) (context : Context),
    Yields (zero span type) context (context.Adds ids [])
  | .array size element, _ => by
      unfold zero
      refine Ensures.bind_ok (Pass.run_newLoc _ _) ?_
      refine (times_adds (zero_adds span element) _).bind fun items after adds => Ensures.pure ?_
      -- The node around the elements is numbered before them.
      exact ((Additions.refl _ []).top.append adds).perm List.perm_append_comm
  | .void, _ | .function _ _, _ => by
      unfold zero
      exact Ensures.throw trivial
  | .integer _, _ | .double, _ | .pointer _, _ => by
      unfold zero
      exact Ensures.bind_ok (Pass.run_newLoc _ _) (Ensures.bind_ok (Pass.run_newLoc _ _)
        (Ensures.pure (Additions.refl _ []).top.top))

end

mutual

/-- The initializer of an automatic object loses braces, and gets zeros. -/
theorem checkAutomatic_adds (type : CType) : ∀ (init : Initializer) {context : Context},
    Yields (init.checkAutomatic type) context (context.Adds ids init.ids)
  | .single loc value, _ => by
      unfold checkAutomatic
      exact (value.checkInitial_adds type loc.span).bind fun _ _ adds =>
        Ensures.pure (adds.keep _)
  | .compound loc items, _ => by
      unfold checkAutomatic
      split
      · rename_i size element
        refine Ensures.ite (fun _ => Ensures.throw trivial) fun _ => ?_
        refine (checkAutomaticList_adds element items).bind fun given _ adds => ?_
        refine (times_adds (zero_adds loc.span element) _).bind fun zeros _ padding =>
          Ensures.pure ?_
        have all := adds.append padding
        rw [List.append_nil, ← idsList_append] at all
        exact all.keep _
      · split
        · rename_i innerLoc value
          refine (value.checkInitial_adds type innerLoc.span).bind fun _ _ adds =>
            Ensures.pure ?_
          have inside : (value.ids ++ [innerLoc.id]).Sublist
              (Initializer.compound loc [.single innerLoc value]).ids := by
            simp [ids, idsList]
          exact (Additions.of_sublist inside).trans (adds.keep _)
        · exact Ensures.throw trivial

theorem checkAutomaticList_adds (element : CType) : ∀ (items : List Initializer)
    {context : Context},
      Yields (checkAutomaticList element items) context (context.Adds idsList (idsList items))
  | [], _ => Ensures.pure (.refl _ _)
  | item :: items, _ => by
      unfold checkAutomaticList
      exact (checkAutomatic_adds element item).bind fun _ _ adds =>
        (checkAutomaticList_adds element items).bind fun _ _ more =>
          Ensures.pure (adds.append more)

end

/-- Computing the items of a static object makes no node of the tree. -/
theorem appendItems_climbs (type : CType) (items : List StaticItem) (expr : Expr)
    (context : Context) :
    Yields (expr.appendItems type items) context fun _ after => context.lastId ≤ after.lastId :=
  (expr.appendItems_reports type items trivial).climbs context

mutual

/-- The initializer of a static object keeps its shape. -/
theorem checkStatic_adds (type : CType) (items : List StaticItem) :
    ∀ (init : Initializer) {context : Context},
      Yields (init.checkStatic type items) context (context.Adds (ids ∘ Prod.fst) init.ids)
  | .single loc value, _ => by
      unfold checkStatic
      exact (value.checkInitial_adds type loc.span).bind fun value' _ adds =>
        (appendItems_climbs type items value' _).bind fun _ _ up =>
          Ensures.pure ((adds.trans (.after up (.refl _ _))).keep _)
  | .compound loc elements, _ => by
      unfold checkStatic
      split
      · rename_i size element
        refine Ensures.ite (fun _ => Ensures.throw trivial) fun _ => ?_
        exact (checkStaticList_adds element items elements).bind fun _ _ adds =>
          Ensures.pure (adds.keep _)
      · split
        · rename_i innerLoc value
          refine (value.checkInitial_adds type innerLoc.span).bind fun value' _ adds => ?_
          refine (appendItems_climbs type items value' _).bind fun _ _ up => Ensures.pure ?_
          have value := adds.trans (.after up (.refl _ _))
          exact ((value.keep [innerLoc.id]).keep []).keep [loc.id]
        · exact Ensures.throw trivial

theorem checkStaticList_adds (element : CType) (items : List StaticItem) :
    ∀ (elements : List Initializer) {context : Context},
      Yields (checkStaticList element items elements) context
        (context.Adds (idsList ∘ Prod.fst) (idsList elements))
  | [], _ => Ensures.pure (.refl _ _)
  | first :: rest, _ => by
      unfold checkStaticList
      exact (checkStatic_adds element items first).bind fun _ _ adds =>
        (checkStaticList_adds element _ rest).bind fun _ _ more =>
          Ensures.pure (adds.append more)

end

end Initializer

namespace FunDecl

/-- The declaration of a function is one node. -/
theorem check_adds (decl : FunDecl) (isDefinition : Bool) (context : Context) :
    Yields (decl.check isDefinition) context fun checked after =>
      context.lastId ≤ after.lastId ∧ checked.loc = decl.loc := by
  refine (decl.check_restores isDefinition context (Nat.le_refl _)).mono ?_
  rintro _ after ⟨up, rfl⟩
  exact ⟨up, rfl⟩

end FunDecl

namespace VarDecl

variable {context : Context}

theorem checkObject_climbs (decl : VarDecl) :
    Yields (decl.type.checkObject decl.loc.span (.voidVariable decl.name)) context
      fun _ after => context.lastId ≤ after.lastId :=
  (CType.checkObject_reports trivial _ _).climbs context

theorem ids_of_some {decl : VarDecl} {init : Initializer} (isInit : decl.init = some init) :
    decl.ids = init.ids ++ [decl.loc.id] := by
  rw [ids, isInit]

theorem initialValue_adds (decl : VarDecl) (ifMissing : InitialValue) :
    Yields (decl.initialValue ifMissing) context (context.Adds (ids ∘ Prod.fst) decl.ids) := by
  unfold initialValue
  split
  · exact Ensures.pure (.refl _ _)
  · rename_i init isInit
    refine (init.checkStatic_adds decl.type []).bind fun _ _ adds => Ensures.pure ?_
    rw [ids_of_some isInit]
    exact adds.keep _

theorem checkFile_adds (decl : VarDecl) :
    Yields decl.checkFile context (context.Adds ids decl.ids) := by
  refine (checkObject_climbs decl).bind fun _ _ up => ?_
  refine (initialValue_adds decl _).bind fun result _ adds => ?_
  refine ((mergeStorage_reports trivial result.2).climbs _).bind fun _ _ up' => ?_
  refine Ensures.bind_ok (Pass.run_setSymbol _ _ _ _) ?_
  exact Ensures.pure ((adds.after up).trans (.after up' (.refl _ _)))

theorem checkLocal_adds (decl : VarDecl) :
    Yields decl.checkLocal context (context.Adds ids decl.ids) := by
  refine (checkObject_climbs decl).bind fun _ _ up => ?_
  split
  · refine ((checkExternal_reports trivial).climbs _).bind fun _ _ up' => ?_
    exact Ensures.pure (.after (Nat.le_trans up up') (.refl _ _))
  · refine (initialValue_adds decl _).bind fun _ _ adds => ?_
    exact Ensures.bind_ok (Pass.run_setSymbol _ _ _ _) (Ensures.pure (adds.after up))
  · refine Ensures.bind_ok (Pass.run_setSymbol _ _ _ _) ?_
    split
    · exact Ensures.pure (.after up (.refl _ _))
    · rename_i init isInit
      refine (init.checkAutomatic_adds decl.type).bind fun _ _ adds => Ensures.pure ?_
      rw [ids_of_some isInit]
      exact (adds.after up).keep _

theorem checkForList_adds : ∀ (decls : List VarDecl) {context : Context},
    Yields (checkForList decls) context (context.Adds idsList (idsList decls))
  | [], _ => Ensures.pure (.refl _ _)
  | decl :: decls, context => by
      have declares : Yields (do
          let decl ← decl.checkLocal
          pure (decl :: (← checkForList decls))) context
            (context.Adds idsList (idsList (decl :: decls))) :=
        (checkLocal_adds decl).bind fun _ _ adds =>
          (checkForList_adds decls).bind fun _ _ more => Ensures.pure (adds.append more)
      exact Ensures.ite (fun _ => Ensures.throw trivial) fun _ => declares

end VarDecl

theorem Decl.checkLocal_adds (decl : Decl) {context : Context} :
    Yields decl.checkLocal context (context.Adds ids decl.ids) := by
  cases decl with
  | object decl => exact decl.checkLocal_adds.bind fun _ _ adds => Ensures.pure adds
  | function decl =>
      refine Ensures.ite (fun _ => Ensures.throw trivial) fun _ => ?_
      refine (decl.check_adds false context).bind fun checked _ kept => Ensures.pure ?_
      have same : (Decl.function checked).ids = (Decl.function decl).ids := by
        rw [ids, ids, kept.2]
      exact same ▸ Additions.after kept.1 (.refl _ _)
  | definition => exact Ensures.throw trivial

theorem ForInit.check_adds (init : ForInit) {context : Context} :
    Yields init.check context (context.Adds ids init.ids) := by
  cases init with
  | declarations _ decls =>
      exact (VarDecl.checkForList_adds decls).bind fun _ _ adds => Ensures.pure (adds.keep _)
  | expression _ value =>
      exact (Expr.checkOption_adds Expr.checkValue_adds value).bind
        fun _ _ adds => Ensures.pure (adds.keep _)

mutual

/-- The check of a statement keeps its nodes, and numbers those that it adds. -/
theorem Stmt.check_adds (result : CType) : ∀ (stmt : Stmt) {context : Context},
    Yields (stmt.check result) context (context.Adds Stmt.ids stmt.ids)
  | .ret loc value, _ =>
      (Expr.checkReturn_adds result loc.span value).bind fun _ _ adds =>
        Ensures.pure (adds.keep _)
  | .expr _ value, _ => value.checkValue_adds.bind fun _ _ adds => Ensures.pure (adds.keep _)
  | .ifThen _ condition body, _ | .whileLoop _ _ condition body, _ =>
      condition.checkConditionValue_adds.bind fun _ _ adds =>
        (Stmt.check_adds result body).bind fun _ _ more =>
          Ensures.pure ((adds.append more).keep _)
  | .ifElse _ condition thenBranch elseBranch, _ =>
      condition.checkConditionValue_adds.bind fun _ _ adds =>
        (Stmt.check_adds result thenBranch).bind fun _ _ addsThen =>
          (Stmt.check_adds result elseBranch).bind fun _ _ addsElse =>
            Ensures.pure (((adds.append addsThen).append addsElse).keep _)
  | .block _ items, _ =>
      (Item.checkList_adds result items).bind fun _ _ adds => Ensures.pure (adds.keep _)
  | .doWhile _ _ body condition, _ =>
      (Stmt.check_adds result body).bind fun _ _ adds =>
        condition.checkConditionValue_adds.bind fun _ _ more =>
          Ensures.pure ((adds.append more).keep _)
  | .forLoop _ _ init condition post body, _ =>
      init.check_adds.bind fun _ _ addsInit =>
        (Expr.checkOption_adds Expr.checkConditionValue_adds condition).bind fun _ _ adds =>
          (Expr.checkOption_adds Expr.checkValue_adds post).bind fun _ _ addsPost =>
            (Stmt.check_adds result body).bind fun _ _ addsBody =>
              Ensures.pure ((((addsInit.append adds).append addsPost).append addsBody).keep _)
  | .switch _ _ value body cases, _ =>
      value.checkSwitch_adds.bind fun value' _ adds =>
        ((SwitchCase.checkList_restores value'.type [] cases) _ (Nat.le_refl _)).bind
          fun _ _ kept =>
            (Stmt.check_adds result body).bind fun _ _ more =>
              Ensures.pure ((adds.append (more.after kept.1)).keep _)
  | .case _ _ value body, _ =>
      value.checkValue_adds.bind fun _ _ adds =>
        (Stmt.check_adds result body).bind fun _ _ more =>
          Ensures.pure ((adds.append more).keep _)
  | .default _ _ body, _ =>
      (Stmt.check_adds result body).bind fun _ _ adds => Ensures.pure (adds.keep _)
  | .break _ _, _ | .continue _ _, _ | .null _, _ => Ensures.pure (.refl _ _)

theorem Item.checkList_adds (result : CType) : ∀ (items : List Item) {context : Context},
    Yields (Item.checkList result items) context
      (context.Adds Item.idsList (Item.idsList items))
  | [], _ => Ensures.pure (.refl _ _)
  | .stmt stmt :: items, _ =>
      (Stmt.check_adds result stmt).bind fun _ _ adds =>
        (Item.checkList_adds result items).bind fun _ _ more => Ensures.pure (adds.append more)
  | .decl decl :: items, _ =>
      decl.checkLocal_adds.bind fun _ _ adds =>
        (Item.checkList_adds result items).bind fun _ _ more => Ensures.pure (adds.append more)

end

theorem Decl.checkFile_adds (decl : Decl) {context : Context} :
    Yields decl.checkFile context (context.Adds ids decl.ids) := by
  cases decl with
  | object decl => exact decl.checkFile_adds.bind fun _ _ adds => Ensures.pure adds
  | function decl =>
      refine (decl.check_adds false context).bind fun checked _ kept => Ensures.pure ?_
      have same : (Decl.function checked).ids = (Decl.function decl).ids := by
        rw [ids, ids, kept.2]
      exact same ▸ Additions.after kept.1 (.refl _ _)
  | definition decl bodyLoc body =>
      refine (decl.check_adds true context).bind fun checked _ kept => ?_
      refine ((Param.declareList_reports checked.params).climbs _).bind fun _ _ up => ?_
      refine (Item.checkList_adds checked.result body).bind fun body' _ adds => Ensures.pure ?_
      have whole := ((adds.after (Nat.le_trans kept.1 up)).keep [bodyLoc.id]).keep [decl.loc.id]
      rwa [Context.Adds, ids, ids, kept.2]

namespace Program

theorem check_adds : ∀ (program : Program) {context : Context},
    Yields program.check context (context.Adds ids program.ids)
  | [], _ => Ensures.pure (.refl _ _)
  | decl :: decls, _ =>
      decl.checkFile_adds.bind fun _ _ adds =>
        (check_adds decls).bind fun _ _ more => Ensures.pure (adds.append more)

/-- Analysis keeps nodes or leaves them out, and numbers those that it adds. -/
theorem analyze_adds (program : Program) {context : Context} :
    Yields program.analyze context (context.Adds ids program.ids) :=
  (resolve_adds program context).bind fun resolved _ first =>
    (label_adds resolved _).bind fun labelled _ second =>
      (check_adds labelled).mono fun _ _ third => (first.trans second).trans third

/-- The nodes of a parsed tree are numbered from one on through the newest, children first. Behind
analysis the numbers are still distinct, and lie between one and the newest. -/
theorem ids_of_parse_analyze {source : Text} {program : Program} {lastId : Nat}
    (parses : parse source = .ok (program, lastId)) :
    program.ids = List.range' 1 lastId ∧
      ∀ analysed context, program.analyze.run (parsedContext lastId) = .ok (analysed, context) →
        analysed.ids.Nodup ∧ ∀ id ∈ analysed.ids, 1 ≤ id ∧ id ≤ context.lastId := by
  have inOrder : program.ids = List.range' 1 lastId := (written_of_parse parses).2.ids_eq
  refine ⟨inOrder, fun analysed context accepts => ?_⟩
  have additions : Additions lastId context.lastId program.ids analysed.ids :=
    (analyze_adds program).of_ok accepts
  refine additions.distinct (inOrder ▸ List.nodup_range') fun id mem => ?_
  rw [inOrder, List.mem_range'_1] at mem
  omega

/-- A conversion, a decay, an array padded with zeros, and braces that are dropped. -/
theorem ids_of_parse_analyze_padded :
    ∃ program lastId analysed context,
      parse "long f(int a[3]) { int x[3] = {a[0]}; int y = {1}; return x[y]; }" =
          .ok (program, lastId) ∧
        program.analyze.run (parsedContext lastId) = .ok (analysed, context) ∧
          program.ids = List.range' 1 lastId ∧ analysed.ids ≠ program.ids ∧
            analysed.ids.Nodup ∧ ∀ id ∈ analysed.ids, 1 ≤ id ∧ id ≤ context.lastId := by
  have succeeds : succeedsWith
      (fun parsed => succeedsWith (fun analysed => decide (analysed.1.ids ≠ parsed.1.ids))
        (parsed.1.analyze.run (parsedContext parsed.2)))
      (parse "long f(int a[3]) { int x[3] = {a[0]}; int y = {1}; return x[y]; }") := by
    decide +kernel
  rcases exists_of_succeedsWith succeeds with ⟨⟨program, lastId⟩, parses, accepted⟩
  rcases exists_of_succeedsWith accepted with ⟨⟨analysed, context⟩, accepts, other⟩
  have numbered := ids_of_parse_analyze parses
  exact ⟨program, lastId, analysed, context, parses, accepts, numbered.1, of_decide_eq_true other,
    numbered.2 analysed context accepts⟩

end Program

end SubsetC
