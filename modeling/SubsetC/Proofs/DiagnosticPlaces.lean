import SubsetC.Proofs.Entries
import SubsetC.Proofs.WrittenTrees

/-!
# Where analysis complains

Every error that analysis reports stands at a place of the tree it is given: that of an expression,
an initializer, a parameter, a declaration, a statement or a case. Nodes that analysis inserts stand
at the places of those they wrap, so later rules complain at places of the source as well. The main
statement is `Program.analyze_reports`.

`Pass.Reports` also says that a pass numbers nodes upwards.
-/

namespace SubsetC

variable {isSpan : Span → Prop}

/-- The places of a source, with any names. -/
abbrev Origin.ofSpans (isSpan : Span → Prop) : Origin := ⟨isSpan, fun _ => True⟩

/-- What holds of the places in the parts of a tree, before types are checked. -/
def TreePredicate.placed (isSpan : Span → Prop) : TreePredicate where
  loc loc := isSpan loc.span
  expr := Expr.IsWritten (.ofSpans isSpan)
  object _ := VarDecl.IsWritten (.ofSpans isSpan)
  function := FunDecl.IsWritten (.ofSpans isSpan)
  label _ := True
  cases cases := ∀ case ∈ cases, isSpan case.span

section

variable {origin : Origin}

namespace Expr

mutual

theorem IsWritten.anyName : ∀ {expr : Expr}, expr.IsWritten origin →
    expr.IsWritten (.ofSpans origin.isSpan)
  | .constant _ _, isWritten | .string _ _, isWritten | .sizeofType _ _, isWritten =>
      ⟨isWritten.span, isWritten.untyped⟩
  | .var _ _, isWritten => ⟨⟨isWritten.1.span, isWritten.1.untyped⟩, trivial⟩
  | .unary _ _ _, isWritten | .addressOf _ _, isWritten | .dereference _ _, isWritten
  | .step _ _ _ _, isWritten | .sizeofExpr _ _, isWritten =>
      ⟨⟨isWritten.1.span, isWritten.1.untyped⟩, isWritten.2.anyName⟩
  | .cast _ _ _ _, isWritten =>
      ⟨⟨isWritten.1.span, isWritten.1.untyped⟩, isWritten.2.1.anyName, isWritten.2.2⟩
  | .binary _ _ _ _, isWritten | .subscript _ _ _, isWritten =>
      ⟨⟨isWritten.1.span, isWritten.1.untyped⟩, isWritten.2.1.anyName, isWritten.2.2.anyName⟩
  | .assign _ _ _ _ _, isWritten =>
      ⟨⟨isWritten.1.span, isWritten.1.untyped⟩, isWritten.2.1.anyName, isWritten.2.2.1.anyName,
        isWritten.2.2.2⟩
  | .conditional _ _ _ _, isWritten =>
      ⟨⟨isWritten.1.span, isWritten.1.untyped⟩, isWritten.2.1.anyName, isWritten.2.2.1.anyName,
        isWritten.2.2.2.anyName⟩
  | .call _ _ _, isWritten =>
      ⟨⟨isWritten.1.span, isWritten.1.untyped⟩, trivial, isWrittenList_anyName isWritten.2.2⟩

theorem isWrittenList_anyName : ∀ {exprs : List Expr}, IsWrittenList origin exprs →
    IsWrittenList (.ofSpans origin.isSpan) exprs
  | [], _ => trivial
  | _ :: _, areWritten => ⟨areWritten.1.anyName, isWrittenList_anyName areWritten.2⟩

end

end Expr

namespace Initializer

mutual

theorem IsWritten.anyName : ∀ {init : Initializer}, init.IsWritten origin →
    init.IsWritten (.ofSpans origin.isSpan)
  | .single _ _, isWritten => ⟨isWritten.1, isWritten.2.anyName⟩
  | .compound _ _, isWritten => ⟨isWritten.1, isWrittenList_anyName isWritten.2⟩

theorem isWrittenList_anyName : ∀ {items : List Initializer}, IsWrittenList origin items →
    IsWrittenList (.ofSpans origin.isSpan) items
  | [], _ => trivial
  | _ :: _, areWritten => ⟨areWritten.1.anyName, isWrittenList_anyName areWritten.2⟩

end

end Initializer

theorem TreePredicate.placed_of_parts : origin.parts.Implies (.placed origin.isSpan) where
  loc _ isSpan := isSpan
  expr _ isWritten := isWritten.anyName
  object _ _ isWritten :=
    ⟨isWritten.span, trivial, fun init mem => (isWritten.init init mem).anyName⟩
  function _ isWritten :=
    ⟨isWritten.span, trivial, fun param mem => ⟨(isWritten.params param mem).span, .inr trivial⟩⟩
  label _ _ := trivial
  cases _ isEmpty := isEmpty ▸ List.forall_mem_nil _

/-- The places of a tree as a parser writes it are those of its source. -/
theorem Program.placed_of_written {program : Program} (written : program.Forall origin.parts) :
    program.Forall (.placed origin.isSpan) :=
  written.mono TreePredicate.placed_of_parts

end

/-- A pass fails only at places with a property, if its failure is the user's. Otherwise its result
is as wanted, and it numbers nodes upwards. -/
def Pass.Reports {α : Type} (isSpan : Span → Prop) (action : Pass α) (wanted : α → Prop) : Prop :=
  ∀ context : Context, Ensures action context (Failure.IsAt isSpan) fun result after =>
    context.lastId ≤ after.lastId ∧ wanted result

namespace Pass.Reports

section

variable {α β : Type} {action : Pass α} {next : α → Pass β} {wanted middle : α → Prop}
  {final : β → Prop}

theorem pure {result : α} (holds : wanted result) :
    (Pure.pure result : Pass α).Reports isSpan wanted :=
  fun _ => Ensures.pure ⟨Nat.le_refl _, holds⟩

theorem bind (first : action.Reports isSpan middle)
    (rest : ∀ result, middle result → (next result).Reports isSpan final) :
    (action >>= next).Reports isSpan final := by
  intro context
  refine (first context).bind ?_
  rintro result after ⟨up, holds⟩
  refine (rest result holds after).mono ?_
  rintro _ _ ⟨up', holds'⟩
  exact ⟨Nat.le_trans up up', holds'⟩

theorem mono {wanted' : α → Prop} (reports : action.Reports isSpan wanted)
    (weaken : ∀ result, wanted result → wanted' result) : action.Reports isSpan wanted' :=
  fun context => (reports context).mono fun result _ holds => ⟨holds.1, weaken result holds.2⟩

theorem throw {failure : Failure} (isAt : failure.IsAt isSpan) :
    (MonadExcept.throw failure : Pass α).Reports isSpan wanted :=
  fun _ => Ensures.throw isAt

theorem ite {condition : Prop} [Decidable condition] {whenTrue whenFalse : Pass α}
    (isTrue : whenTrue.Reports isSpan wanted) (isFalse : whenFalse.Reports isSpan wanted) :
    (if condition then whenTrue else whenFalse).Reports isSpan wanted :=
  fun context => Ensures.ite (fun _ => isTrue context) fun _ => isFalse context

theorem nameError {span : Span} {error : NameError} (holds : isSpan span) :
    (Pass.nameError span error : Pass α).Reports isSpan wanted :=
  throw (Failure.isAt_user holds)

/-- What comes behind an error does not matter. -/
theorem nameError_bind {span : Span} {error : NameError} (holds : isSpan span) :
    (Pass.nameError span error >>= next).Reports isSpan final :=
  fun _ => Ensures.throw (Failure.isAt_user holds)

theorem typeError {span : Span} {error : TypeError} (holds : isSpan span) :
    (Pass.typeError span error : Pass α).Reports isSpan wanted :=
  throw (Failure.isAt_user holds)

theorem flowError {span : Span} {error : FlowError} (holds : isSpan span) :
    (Pass.flowError span error : Pass α).Reports isSpan wanted :=
  throw (Failure.isAt_user holds)

theorem times (reports : action.Reports isSpan wanted) (count : Nat) :
    (action.times count).Reports isSpan fun _ => True := by
  induction count with
  | zero => exact pure trivial
  | succ count ih => exact reports.bind fun _ _ => ih.bind fun _ _ => pure trivial

end

theorem get : (MonadState.get : Pass Context).Reports isSpan fun _ => True :=
  fun _ => ⟨Nat.le_refl _, trivial⟩

theorem newLoc (span : Span) : (Pass.newLoc span).Reports isSpan fun loc => loc.span = span :=
  fun _ => ⟨Nat.le_succ _, rfl⟩

theorem uniqueName (base : Text) : (Pass.uniqueName base).Reports isSpan fun _ => True :=
  fun _ => ⟨Nat.le_refl _, trivial⟩

theorem newLabel (stem : Text) : (Pass.newLabel stem).Reports isSpan fun _ => True :=
  fun _ => ⟨Nat.le_refl _, trivial⟩

theorem findSymbol? (name : Text) : (Pass.findSymbol? name).Reports isSpan fun _ => True :=
  fun _ => ⟨Nat.le_refl _, trivial⟩

theorem setSymbol (name : Text) (type : CType) (storage : Storage) :
    (Pass.setSymbol name type storage).Reports isSpan fun _ => True :=
  fun _ => ⟨Nat.le_refl _, trivial⟩

end Pass.Reports

open Pass (Reports)

/-! ### Names -/

namespace Expr

mutual

theorem resolve_reports (scopes : Scopes) : ∀ {expr : Expr}, expr.IsWritten (.ofSpans isSpan) →
    (expr.resolve scopes).Reports isSpan (Expr.IsWritten (.ofSpans isSpan))
  | .constant _ _, isWritten | .string _ _, isWritten | .sizeofType _ _, isWritten =>
      .pure isWritten
  | .var _ _, isWritten => by
      unfold resolve
      split
      · exact .pure ⟨isWritten.1, trivial⟩
      · exact .nameError isWritten.1.span
  | .unary _ _ _, isWritten | .addressOf _ _, isWritten | .dereference _ _, isWritten
  | .step _ _ _ _, isWritten | .sizeofExpr _ _, isWritten =>
      (resolve_reports scopes isWritten.2).bind fun _ operand => .pure ⟨isWritten.1, operand⟩
  | .cast _ _ _ _, isWritten =>
      (resolve_reports scopes isWritten.2.1).bind fun _ operand =>
        .pure ⟨isWritten.1, operand, isWritten.2.2⟩
  | .binary _ _ _ _, isWritten | .subscript _ _ _, isWritten =>
      (resolve_reports scopes isWritten.2.1).bind fun _ left =>
        (resolve_reports scopes isWritten.2.2).bind fun _ right =>
          .pure ⟨isWritten.1, left, right⟩
  | .assign _ _ _ _ _, isWritten =>
      (resolve_reports scopes isWritten.2.1).bind fun _ left =>
        (resolve_reports scopes isWritten.2.2.1).bind fun _ right =>
          .pure ⟨isWritten.1, left, right, isWritten.2.2.2⟩
  | .conditional _ _ _ _, isWritten =>
      (resolve_reports scopes isWritten.2.1).bind fun _ condition =>
        (resolve_reports scopes isWritten.2.2.1).bind fun _ thenBranch =>
          (resolve_reports scopes isWritten.2.2.2).bind fun _ elseBranch =>
            .pure ⟨isWritten.1, condition, thenBranch, elseBranch⟩
  | .call _ _ _, isWritten => by
      unfold resolve
      split
      · exact (resolveList_reports scopes isWritten.2.2).bind fun _ arguments =>
          .pure ⟨isWritten.1, trivial, arguments⟩
      · exact .nameError isWritten.1.span

theorem resolveList_reports (scopes : Scopes) : ∀ {exprs : List Expr},
    IsWrittenList (.ofSpans isSpan) exprs →
      (resolveList scopes exprs).Reports isSpan (IsWrittenList (.ofSpans isSpan))
  | [], _ => .pure trivial
  | _ :: _, areWritten =>
      (resolve_reports scopes areWritten.1).bind fun _ first =>
        (resolveList_reports scopes areWritten.2).bind fun _ rest => .pure ⟨first, rest⟩

end

theorem resolveOption_reports (scopes : Scopes) {value : Option Expr}
    (areWritten : ∀ expr ∈ value, expr.IsWritten (.ofSpans isSpan)) :
    (resolveOption scopes value).Reports isSpan fun resolved =>
      ∀ expr ∈ resolved, expr.IsWritten (.ofSpans isSpan) := by
  cases value with
  | none => exact .pure nofun
  | some expr =>
      refine (resolve_reports scopes (areWritten expr rfl)).bind fun resolved isWritten => .pure ?_
      rintro _ ⟨⟩
      exact isWritten

end Expr

namespace Initializer

mutual

theorem resolve_reports (scopes : Scopes) : ∀ {init : Initializer},
    init.IsWritten (.ofSpans isSpan) →
      (init.resolve scopes).Reports isSpan (Initializer.IsWritten (.ofSpans isSpan))
  | .single _ _, isWritten =>
      (Expr.resolve_reports scopes isWritten.2).bind fun _ value => .pure ⟨isWritten.1, value⟩
  | .compound _ _, isWritten =>
      (resolveList_reports scopes isWritten.2).bind fun _ items => .pure ⟨isWritten.1, items⟩

theorem resolveList_reports (scopes : Scopes) : ∀ {items : List Initializer},
    IsWrittenList (.ofSpans isSpan) items →
      (resolveList scopes items).Reports isSpan (IsWrittenList (.ofSpans isSpan))
  | [], _ => .pure trivial
  | _ :: _, areWritten =>
      (resolve_reports scopes areWritten.1).bind fun _ first =>
        (resolveList_reports scopes areWritten.2).bind fun _ rest => .pure ⟨first, rest⟩

end

end Initializer

namespace VarDecl

variable {decl : VarDecl} {decls : List VarDecl} (scopes : Scopes)

theorem resolveInit_reports (isWritten : decl.IsWritten (.ofSpans isSpan)) :
    (decl.resolveInit scopes).Reports isSpan (VarDecl.IsWritten (.ofSpans isSpan)) := by
  unfold resolveInit
  split
  · rename_i init same
    refine (Initializer.resolve_reports scopes (isWritten.init init same)).bind
      fun resolved initWritten => .pure ⟨isWritten.span, trivial, ?_⟩
    rintro _ ⟨⟩
    exact initWritten
  · exact .pure isWritten

theorem checkRedeclaration_reports (isWritten : decl.IsWritten (.ofSpans isSpan)) :
    (decl.checkRedeclaration scopes).Reports isSpan fun _ => True := by
  unfold checkRedeclaration
  split
  · exact .pure trivial
  · exact .ite (.nameError isWritten.span) (.ite (.nameError isWritten.span) (.pure trivial))

theorem resolveLocal_reports (isWritten : decl.IsWritten (.ofSpans isSpan)) :
    (decl.resolveLocal scopes).Reports isSpan fun resolved =>
      resolved.1.IsWritten (.ofSpans isSpan) := by
  refine (checkRedeclaration_reports scopes isWritten).bind fun _ _ => .ite ?_ ?_
  · exact (resolveInit_reports _ isWritten).bind fun _ resolved => .pure resolved
  · refine (Reports.uniqueName _).bind fun name _ => ?_
    have renamed : ({ decl with name } : VarDecl).IsWritten (.ofSpans isSpan) :=
      ⟨isWritten.span, trivial, isWritten.init⟩
    exact (resolveInit_reports _ renamed).bind fun _ resolved => .pure resolved

theorem resolveLocals_reports : ∀ {decls : List VarDecl} (scopes : Scopes),
    (∀ decl ∈ decls, decl.IsWritten (.ofSpans isSpan)) →
      (resolveLocals scopes decls).Reports isSpan fun resolved =>
        ∀ decl ∈ resolved.1, decl.IsWritten (.ofSpans isSpan)
  | [], _, _ => .pure nofun
  | _ :: _, scopes, areWritten => by
      rw [List.forall_mem_cons] at areWritten
      exact (resolveLocal_reports scopes areWritten.1).bind fun _ first =>
        (resolveLocals_reports _ areWritten.2).bind fun _ rest =>
          .pure (List.forall_mem_cons.2 ⟨first, rest⟩)

theorem resolveFile_reports (isWritten : decl.IsWritten (.ofSpans isSpan)) :
    (decl.resolveFile scopes).Reports isSpan fun resolved =>
      resolved.1.IsWritten (.ofSpans isSpan) :=
  (resolveInit_reports _ isWritten).bind fun _ resolved => .pure resolved

end VarDecl

theorem Param.resolveList_reports : ∀ {params : List Param} (scopes : Scopes),
    (∀ param ∈ params, param.IsWritten (.ofSpans isSpan)) →
      (Param.resolveList scopes params).Reports isSpan fun resolved =>
        ∀ param ∈ resolved.1, param.IsWritten (.ofSpans isSpan)
  | [], _, _ => .pure nofun
  | param :: params, scopes, areWritten => by
      rw [List.forall_mem_cons] at areWritten
      rcases areWritten with ⟨isWritten, areWritten⟩
      unfold Param.resolveList
      refine .ite ?_ ?_
      · exact (resolveList_reports scopes areWritten).bind fun _ rest =>
          .pure (List.forall_mem_cons.2 ⟨isWritten, rest⟩)
      · have named (name : Text) (scopes : Scopes) : Reports isSpan (do
            let rest ← Param.resolveList scopes params
            pure ({ param with name } :: rest.1, rest.2)) fun resolved =>
              ∀ param ∈ resolved.1, param.IsWritten (.ofSpans isSpan) :=
          (resolveList_reports scopes areWritten).bind fun _ rest =>
            .pure (List.forall_mem_cons.2 ⟨⟨isWritten.span, .inr trivial⟩, rest⟩)
        have fresh : Reports isSpan (do
            let name ← Pass.uniqueName param.name
            let scopes := scopes.declare param.name ⟨name, false⟩
            let rest ← Param.resolveList scopes params
            pure ({ param with name } :: rest.1, rest.2)) fun resolved =>
              ∀ param ∈ resolved.1, param.IsWritten (.ofSpans isSpan) :=
          (Reports.uniqueName _).bind fun name _ => named name _
        exact .ite (.nameError_bind isWritten.span) fresh

theorem FunDecl.resolve_reports (scopes : Scopes) {decl : FunDecl}
    (isWritten : decl.IsWritten (.ofSpans isSpan)) :
    (decl.resolve scopes).Reports isSpan fun resolved =>
      resolved.1.IsWritten (.ofSpans isSpan) := by
  unfold FunDecl.resolve
  have declared (scopes : Scopes) : Reports isSpan (do
      let inside ← Param.resolveList scopes.enter decl.params
      pure ({ decl with params := inside.1 }, scopes, inside.2)) fun resolved =>
        resolved.1.IsWritten (.ofSpans isSpan) :=
    (Param.resolveList_reports _ isWritten.params).bind fun _ params =>
      .pure ⟨isWritten.span, trivial, params⟩
  exact .ite (.nameError_bind isWritten.span) (declared _)

theorem ForInit.resolve_reports (scopes : Scopes) : ∀ {init : ForInit},
    init.Forall (.placed isSpan) → (init.resolve scopes).Reports isSpan fun resolved =>
      resolved.1.Forall (.placed isSpan)
  | .declarations _ _, placed =>
      (VarDecl.resolveLocals_reports scopes placed.2).bind fun _ decls => .pure ⟨placed.1, decls⟩
  | .expression _ _, placed =>
      (Expr.resolveOption_reports scopes placed.2).bind fun _ value => .pure ⟨placed.1, value⟩

mutual

theorem Stmt.resolve_reports : ∀ {stmt : Stmt} (scopes : Scopes), stmt.Forall (.placed isSpan) →
    (stmt.resolve scopes).Reports isSpan (Stmt.Forall (.placed isSpan))
  | .ret _ _, scopes, placed =>
      (Expr.resolveOption_reports scopes placed.2).bind fun _ value => .pure ⟨placed.1, value⟩
  | .expr _ _, scopes, placed =>
      (Expr.resolve_reports scopes placed.2).bind fun _ value => .pure ⟨placed.1, value⟩
  | .ifThen _ _ _, scopes, placed =>
      (Expr.resolve_reports scopes placed.2.1).bind fun _ condition =>
        (Stmt.resolve_reports scopes placed.2.2).bind fun _ thenBranch =>
          .pure ⟨placed.1, condition, thenBranch⟩
  | .ifElse _ _ _ _, scopes, placed =>
      (Expr.resolve_reports scopes placed.2.1).bind fun _ condition =>
        (Stmt.resolve_reports scopes placed.2.2.1).bind fun _ thenBranch =>
          (Stmt.resolve_reports scopes placed.2.2.2).bind fun _ elseBranch =>
            .pure ⟨placed.1, condition, thenBranch, elseBranch⟩
  | .block _ _, _, placed =>
      (Item.resolveList_reports _ placed.2).bind fun _ items => .pure ⟨placed.1, items⟩
  | .whileLoop _ _ _ _, scopes, placed =>
      (Expr.resolve_reports scopes placed.2.2.1).bind fun _ condition =>
        (Stmt.resolve_reports scopes placed.2.2.2).bind fun _ body =>
          .pure ⟨placed.1, trivial, condition, body⟩
  | .doWhile _ _ _ _, scopes, placed =>
      (Stmt.resolve_reports scopes placed.2.2.2).bind fun _ body =>
        (Expr.resolve_reports scopes placed.2.2.1).bind fun _ condition =>
          .pure ⟨placed.1, trivial, condition, body⟩
  | .forLoop _ _ _ _ _ _, scopes, placed => by
      rcases placed with ⟨loc, _, init, condition, post, body⟩
      exact (ForInit.resolve_reports scopes.enter init).bind fun _ init =>
        (Expr.resolveOption_reports _ condition).bind fun _ condition =>
          (Expr.resolveOption_reports _ post).bind fun _ post =>
            (Stmt.resolve_reports _ body).bind fun _ body =>
              .pure ⟨loc, trivial, init, condition, post, body⟩
  | .switch _ _ _ _ _, scopes, placed =>
      (Expr.resolve_reports scopes placed.2.2.1).bind fun _ value =>
        (Stmt.resolve_reports scopes placed.2.2.2.1).bind fun _ body =>
          .pure ⟨placed.1, trivial, value, body, placed.2.2.2.2⟩
  | .case _ _ _ _, scopes, placed =>
      (Expr.resolve_reports scopes placed.2.2.1).bind fun _ value =>
        (Stmt.resolve_reports scopes placed.2.2.2).bind fun _ body =>
          .pure ⟨placed.1, trivial, value, body⟩
  | .default _ _ _, scopes, placed =>
      (Stmt.resolve_reports scopes placed.2.2).bind fun _ body =>
        .pure ⟨placed.1, trivial, body⟩
  | .break _ _, _, placed | .continue _ _, _, placed | .null _, _, placed => .pure placed

theorem Decl.resolve_reports (isFile : Bool) : ∀ {decl : Decl} (scopes : Scopes),
    decl.Forall (.placed isSpan) isFile →
      (decl.resolve isFile scopes).Reports isSpan fun resolved =>
        resolved.1.Forall (.placed isSpan) isFile
  | .object decl, scopes, placed => by
      cases isFile with
      | true =>
          exact (VarDecl.resolveFile_reports scopes placed).bind fun _ resolved => .pure resolved
      | false =>
          exact (VarDecl.resolveLocal_reports scopes placed).bind fun _ resolved => .pure resolved
  | .function _, scopes, placed =>
      (FunDecl.resolve_reports scopes placed).bind fun _ resolved => .pure resolved
  | .definition _ _ _, scopes, placed =>
      (FunDecl.resolve_reports scopes placed.1).bind fun _ resolved =>
        (Item.resolveList_reports _ placed.2.2).bind fun _ body =>
          .pure ⟨resolved, placed.2.1, body⟩

theorem Item.resolveList_reports : ∀ {items : List Item} (scopes : Scopes),
    Item.ForallList (.placed isSpan) items →
      (Item.resolveList scopes items).Reports isSpan (Item.ForallList (.placed isSpan))
  | [], _, _ => .pure trivial
  | .stmt _ :: _, scopes, placed =>
      (Stmt.resolve_reports scopes placed.1).bind fun _ first =>
        (Item.resolveList_reports scopes placed.2).bind fun _ rest => .pure ⟨first, rest⟩
  | .decl _ :: _, scopes, placed =>
      (Decl.resolve_reports false scopes placed.1).bind fun _ first =>
        (Item.resolveList_reports _ placed.2).bind fun _ rest => .pure ⟨first, rest⟩

end

theorem Program.resolveFrom_reports : ∀ {program : Program} (scopes : Scopes),
    program.Forall (.placed isSpan) →
      (program.resolveFrom scopes).Reports isSpan (Program.Forall (.placed isSpan))
  | [], _, _ => .pure nofun
  | _ :: _, scopes, placed => by
      rw [Program.Forall, List.forall_mem_cons] at placed
      exact (Decl.resolve_reports true scopes placed.1).bind fun _ first =>
        (Program.resolveFrom_reports _ placed.2).bind fun _ rest =>
          .pure (List.forall_mem_cons.2 ⟨first, rest⟩)

/-! ### Labels -/

/-- The places of cases are those of a tree. -/
def SwitchCase.ArePlaced (isSpan : Span → Prop) (cases : List SwitchCase) : Prop :=
  ∀ case ∈ cases, isSpan case.span

theorem SwitchCase.ArePlaced.nil : ArePlaced isSpan [] := List.forall_mem_nil _

theorem SwitchCase.ArePlaced.snoc {cases : List SwitchCase} {case : SwitchCase}
    (placed : ArePlaced isSpan cases) (isLast : isSpan case.span) :
    ArePlaced isSpan (cases ++ [case]) :=
  List.forall_mem_append.2 ⟨placed, List.forall_mem_singleton.2 isLast⟩

theorem SwitchCase.ofValue_reports (targets : Targets) {loc : Loc} {value : Expr}
    (cases : List SwitchCase) (isLoc : isSpan loc.span)
    (isWritten : value.IsWritten (.ofSpans isSpan)) :
    (SwitchCase.ofValue targets loc value cases).Reports isSpan fun case => isSpan case.span := by
  unfold ofValue
  split
  · exact .flowError isLoc
  · split
    · exact .flowError isWritten.span
    · exact .pure isWritten.span

theorem SwitchCase.ofDefault_reports (targets : Targets) {loc : Loc} (cases : List SwitchCase)
    (isLoc : isSpan loc.span) :
    (SwitchCase.ofDefault targets loc cases).Reports isSpan fun case => isSpan case.span := by
  unfold ofDefault
  split
  · exact .flowError isLoc
  · exact .ite (.flowError isLoc) (.pure isLoc)

mutual

theorem Stmt.label_reports : ∀ {stmt : Stmt} (targets : Targets) {cases : List SwitchCase},
    stmt.Forall (.placed isSpan) → SwitchCase.ArePlaced isSpan cases →
      (stmt.label targets cases).Reports isSpan fun labelled =>
        labelled.1.Forall (.placed isSpan) ∧ SwitchCase.ArePlaced isSpan labelled.2
  | .ret _ _, _, _, placed, known | .expr _ _, _, _, placed, known
  | .null _, _, _, placed, known => .pure ⟨placed, known⟩
  | .ifThen _ _ _, targets, _, placed, known =>
      (Stmt.label_reports targets placed.2.2 known).bind fun _ labelled =>
        .pure ⟨⟨placed.1, placed.2.1, labelled.1⟩, labelled.2⟩
  | .ifElse _ _ _ _, targets, _, placed, known =>
      (Stmt.label_reports targets placed.2.2.1 known).bind fun _ labelled =>
        (Stmt.label_reports targets placed.2.2.2 labelled.2).bind fun _ labelled' =>
          .pure ⟨⟨placed.1, placed.2.1, labelled.1, labelled'.1⟩, labelled'.2⟩
  | .block _ _, targets, _, placed, known =>
      (Item.labelList_reports targets placed.2 known).bind fun _ labelled =>
        .pure ⟨⟨placed.1, labelled.1⟩, labelled.2⟩
  | .whileLoop _ _ _ _, _, _, placed, known | .doWhile _ _ _ _, _, _, placed, known =>
      (Reports.newLabel _).bind fun _ _ =>
        (Stmt.label_reports _ placed.2.2.2 known).bind fun _ labelled =>
          .pure ⟨⟨placed.1, trivial, placed.2.2.1, labelled.1⟩, labelled.2⟩
  | .forLoop _ _ _ _ _ _, _, _, placed, known => by
      rcases placed with ⟨loc, _, init, condition, post, body⟩
      exact (Reports.newLabel _).bind fun _ _ =>
        (Stmt.label_reports _ body known).bind fun _ labelled =>
          .pure ⟨⟨loc, trivial, init, condition, post, labelled.1⟩, labelled.2⟩
  | .switch _ _ _ _ _, _, _, placed, known =>
      (Reports.newLabel _).bind fun _ _ =>
        (Stmt.label_reports _ placed.2.2.2.1 .nil).bind fun _ labelled =>
          .pure ⟨⟨placed.1, trivial, placed.2.2.1, labelled⟩, known⟩
  | .case _ _ _ _, targets, cases, placed, known =>
      (SwitchCase.ofValue_reports targets cases placed.1 placed.2.2.1).bind fun _ isLast =>
        (Stmt.label_reports targets placed.2.2.2 (known.snoc isLast)).bind fun _ labelled =>
          .pure ⟨⟨placed.1, trivial, placed.2.2.1, labelled.1⟩, labelled.2⟩
  | .default _ _ _, targets, cases, placed, known =>
      (SwitchCase.ofDefault_reports targets cases placed.1).bind fun _ isLast =>
        (Stmt.label_reports targets placed.2.2 (known.snoc isLast)).bind fun _ labelled =>
          .pure ⟨⟨placed.1, trivial, labelled.1⟩, labelled.2⟩
  | .break _ _, _, _, placed, known | .continue _ _, _, _, placed, known => by
      unfold Stmt.label
      split
      · exact .pure ⟨⟨placed.1, trivial⟩, known⟩
      · exact .flowError placed.1

theorem Decl.label_reports (isFile : Bool) : ∀ {decl : Decl},
    decl.Forall (.placed isSpan) isFile →
      decl.label.Reports isSpan fun labelled => labelled.Forall (.placed isSpan) isFile
  | .object _, placed | .function _, placed => .pure placed
  | .definition _ _ _, placed =>
      (Item.labelList_reports _ placed.2.2 .nil).bind fun _ labelled =>
        .pure ⟨placed.1, placed.2.1, labelled.1⟩

theorem Item.labelList_reports : ∀ {items : List Item} (targets : Targets)
    {cases : List SwitchCase}, Item.ForallList (.placed isSpan) items →
      SwitchCase.ArePlaced isSpan cases →
        (Item.labelList targets cases items).Reports isSpan fun labelled =>
          Item.ForallList (.placed isSpan) labelled.1 ∧ SwitchCase.ArePlaced isSpan labelled.2
  | [], _, _, _, known => .pure ⟨trivial, known⟩
  | .stmt _ :: _, targets, _, placed, known =>
      (Stmt.label_reports targets placed.1 known).bind fun _ labelled =>
        (Item.labelList_reports targets placed.2 labelled.2).bind fun _ rest =>
          .pure ⟨⟨labelled.1, rest.1⟩, rest.2⟩
  | .decl _ :: _, targets, _, placed, known =>
      (Decl.label_reports false placed.1).bind fun _ labelled =>
        (Item.labelList_reports targets placed.2 known).bind fun _ rest =>
          .pure ⟨⟨labelled, rest.1⟩, rest.2⟩

end

theorem Program.label_reports : ∀ {program : Program}, program.Forall (.placed isSpan) →
    program.label.Reports isSpan (Program.Forall (.placed isSpan))
  | [], _ => .pure nofun
  | decl :: decls, placed => by
      rw [Program.Forall, List.forall_mem_cons] at placed
      have rest : Reports isSpan (List.mapM Decl.label decls) (Program.Forall (.placed isSpan)) :=
        Program.label_reports placed.2
      unfold Program.label
      rw [List.mapM_cons]
      exact (Decl.label_reports true placed.1).bind fun _ first =>
        rest.bind fun _ rest => .pure (List.forall_mem_cons.2 ⟨first, rest⟩)

/-! ### Types of expressions -/

mutual

theorem CType.checkElements_reports {span : Span} (holds : isSpan span) :
    ∀ type : CType, (type.checkElements span).Reports isSpan fun _ => True
  | .array _ element => by
      unfold checkElements
      exact .ite (element.checkElements_reports holds) (.typeError holds)
  | .pointer element => by
      unfold checkElements
      exact element.checkElements_reports holds
  | .function parameters result => by
      unfold checkElements
      exact (checkElementsList_reports holds parameters).bind fun _ _ =>
        result.checkElements_reports holds
  | .void | .integer _ | .double => by
      unfold checkElements
      exact .pure trivial

theorem CType.checkElementsList_reports {span : Span} (holds : isSpan span) :
    ∀ types : List CType, (checkElements.checkList span types).Reports isSpan fun _ => True
  | [] => .pure trivial
  | type :: types =>
      (type.checkElements_reports holds).bind fun _ _ => checkElementsList_reports holds types

end

theorem CType.checkObject_reports {span : Span} (holds : isSpan span) (ifVoid : TypeError)
    (type : CType) : (type.checkObject span ifVoid).Reports isSpan fun _ => True :=
  .ite (.typeError holds) (type.checkElements_reports holds)

namespace Expr

/-- A pass turns an expression into one at the same place. -/
abbrev StaysAt (isSpan : Span → Prop) (span : Span) (action : Pass Expr) : Prop :=
  action.Reports isSpan fun result => result.span = span

section

variable {note : Note} {expr left right operand : Expr}

theorem convertTo_stays (target : CType) (expr : Expr) :
    StaysAt isSpan expr.span (expr.convertTo target) :=
  .ite (.pure rfl) ((Reports.newLoc _).bind fun _ same => .pure same)

theorem toValue_stays (holds : isSpan expr.span) : StaysAt isSpan expr.span expr.toValue := by
  unfold toValue
  split
  · exact (Reports.newLoc _).bind fun _ same => .pure same
  · exact .typeError holds
  · exact .pure rfl

theorem assignTo_stays (target : CType) (holds : isSpan expr.span) :
    StaysAt isSpan expr.span (expr.assignTo target) :=
  .ite (convertTo_stays target expr) (.typeError holds)

theorem commonPointer_reports {span : Span} (holds : isSpan span) (left right : Expr) :
    (commonPointer span left right).Reports isSpan fun _ => True := by
  unfold commonPointer
  split
  · exact .pure trivial
  · exact .typeError holds

theorem ofUnary_stays (holds : isSpan note.loc.span) (op : UnaryOp) (operand : Expr) :
    StaysAt isSpan note.loc.span (ofUnary note op operand) :=
  .ite (.typeError holds) (.ite (.pure rfl) ((convertTo_stays _ _).bind fun _ _ => .pure rfl))

theorem ofConverted_stays (note : Note) (op : BinaryOp) (type leftType rightType : CType)
    (left right : Expr) :
    StaysAt isSpan note.loc.span (ofConverted note op type leftType rightType left right) :=
  (convertTo_stays _ _).bind fun _ _ => (convertTo_stays _ _).bind fun _ _ => .pure rfl

theorem ofBinary_stays (holds : isSpan note.loc.span) (op : BinaryOp) (left right : Expr) :
    StaysAt isSpan note.loc.span (ofBinary note op left right) := by
  have converts (op : BinaryOp) (type leftType rightType : CType) :
      StaysAt isSpan note.loc.span (ofConverted note op type leftType rightType left right) :=
    ofConverted_stays note op type leftType rightType left right
  have refuses (op : BinaryOp) :
      StaysAt isSpan note.loc.span (refuseOperands note op left right) := .typeError holds
  unfold ofBinary
  split
  · exact .ite (.pure rfl) (refuses _)
  · refine .ite (.ite (converts _ _ _ _) (refuses _))
      (.ite (.ite (refuses _) (converts _ _ _ _)) ?_)
    exact .ite (converts _ _ _ _) (.ite (converts _ _ _ _) (.ite (converts _ _ _ _) (refuses _)))
  · refine .ite (converts _ _ _ _) (.ite ?_ (refuses _))
    exact (commonPointer_reports holds _ _).bind fun _ _ => converts _ _ _ _

theorem checkAssignable_reports {span : Span} (holds : isSpan span) (expr : Expr) :
    (expr.checkAssignable span).Reports isSpan fun _ => True :=
  .ite (.typeError holds) (.ite (.typeError holds) (.pure trivial))

theorem ofAssign_stays (holds : isSpan note.loc.span) (op : AssignOp) (left : Expr)
    (isRight : isSpan right.span) (opType : Option CType) :
    StaysAt isSpan note.loc.span (ofAssign note op left right opType) := by
  unfold ofAssign
  split
  · exact (assignTo_stays _ isRight).bind fun _ _ => .pure rfl
  · dsimp only
    split
    · exact .typeError holds
    · exact (convertTo_stays _ _).bind fun _ _ => .pure rfl

theorem ofConditional_stays (holds : isSpan note.loc.span)
    (condition thenBranch elseBranch : Expr) :
    StaysAt isSpan note.loc.span (ofConditional note condition thenBranch elseBranch) := by
  have branches : (branchType note.loc.span thenBranch elseBranch).Reports isSpan fun _ => True :=
    .ite (.pure trivial) (.ite (.pure trivial)
      (.ite (commonPointer_reports holds _ _) (.typeError holds)))
  exact branches.bind fun _ _ =>
    (convertTo_stays _ _).bind fun _ _ => (convertTo_stays _ _).bind fun _ _ => .pure rfl

theorem checkCondition_stays (holds : isSpan expr.span) :
    StaysAt isSpan expr.span expr.checkCondition :=
  .ite (.pure rfl) (.typeError holds)

theorem calleeTypes_reports {span : Span} (holds : isSpan span) (name : Text) (count : Nat) :
    (calleeTypes span name count).Reports isSpan fun _ => True := by
  refine (Reports.findSymbol? name).bind fun symbol _ => ?_
  split
  · exact .throw Failure.isAt_internal
  · exact .ite (.pure trivial) (.typeError holds)
  · exact .typeError holds

theorem ofCast_stays (holds : isSpan note.loc.span) (target : CType) (operand : Expr)
    (isImplicit : Bool) : StaysAt isSpan note.loc.span (ofCast note target operand isImplicit) :=
  .ite (.typeError holds) (.ite (.typeError holds) (.pure rfl))

theorem ofAddress_stays (holds : isSpan note.loc.span) (operand : Expr) :
    StaysAt isSpan note.loc.span (ofAddress note operand) :=
  .ite (.typeError holds) (.ite (.typeError holds) (.pure rfl))

theorem ofDereference_stays (holds : isSpan note.loc.span) (operand : Expr) :
    StaysAt isSpan note.loc.span (ofDereference note operand) := by
  unfold ofDereference
  split
  · exact .typeError holds
  · exact .pure rfl
  · exact .typeError holds

theorem ofSubscript_stays (holds : isSpan note.loc.span) (array index : Expr) :
    StaysAt isSpan note.loc.span (ofSubscript note array index) := by
  refine .ite ?_ (.ite ?_ (.typeError holds))
  · exact (convertTo_stays _ _).bind fun _ _ => .pure rfl
  · exact (convertTo_stays _ _).bind fun _ _ => .pure rfl

theorem ofStep_stays (holds : isSpan note.loc.span) (form : StepForm) (op : StepOp)
    (operand : Expr) : StaysAt isSpan note.loc.span (ofStep note form op operand) :=
  (checkAssignable_reports holds operand).bind fun _ _ => .ite (.pure rfl) (.typeError holds)

theorem checkSized_reports {span : Span} (holds : isSpan span) (type : CType) :
    (checkSized span type).Reports isSpan fun _ => True :=
  .ite (.pure trivial) (.typeError holds)

end

theorem value_stays {expr : Expr} (isWritten : expr.IsWritten (.ofSpans isSpan))
    (checks : StaysAt isSpan expr.span expr.check) : StaysAt isSpan expr.span expr.checkValue :=
  checks.bind fun _ same =>
    (toValue_stays (same ▸ isWritten.span)).mono fun _ same' => same'.trans same

mutual

theorem check_stays : ∀ {expr : Expr}, expr.IsWritten (.ofSpans isSpan) →
    StaysAt isSpan expr.span expr.check
  | .constant _ _, _ | .string _ _, _ => .pure rfl
  | .var _ name, _ => by
      unfold check
      refine (Reports.findSymbol? name).bind fun symbol _ => ?_
      split
      · exact .throw Failure.isAt_internal
      · exact .pure rfl
  | .unary _ _ _, isWritten => by
      unfold check
      exact (value_stays isWritten.2 (check_stays isWritten.2)).bind fun _ _ =>
        ofUnary_stays isWritten.1.span _ _
  | .binary _ _ _ _, isWritten => by
      unfold check
      exact (value_stays isWritten.2.1 (check_stays isWritten.2.1)).bind fun _ _ =>
        (value_stays isWritten.2.2 (check_stays isWritten.2.2)).bind fun _ _ =>
          ofBinary_stays isWritten.1.span _ _ _
  | .assign _ _ _ _ _, isWritten => by
      unfold check
      exact (check_stays isWritten.2.1).bind fun _ _ =>
        (checkAssignable_reports isWritten.1.span _).bind fun _ _ =>
          (value_stays isWritten.2.2.1 (check_stays isWritten.2.2.1)).bind fun _ same =>
            ofAssign_stays isWritten.1.span _ _ (same ▸ isWritten.2.2.1.span) _
  | .conditional _ condition _ _, isWritten => by
      rcases isWritten with ⟨note, isCondition, isThen, isElse⟩
      have conditions : Reports isSpan (condition.checkValue >>= checkCondition) fun _ => True :=
        (value_stays isCondition (check_stays isCondition)).bind fun value same =>
          (checkCondition_stays (same ▸ isCondition.span)).mono fun _ _ => trivial
      unfold check
      exact conditions.bind fun _ _ =>
        (value_stays isThen (check_stays isThen)).bind fun _ _ =>
          (value_stays isElse (check_stays isElse)).bind fun _ _ =>
            ofConditional_stays note.span _ _ _
  | .call _ _ _, isWritten => by
      unfold check
      refine (calleeTypes_reports isWritten.1.span _ _).bind fun callee _ => ?_
      exact (checkArguments_reports callee.1 isWritten.2.2).bind fun _ _ => .pure rfl
  | .cast _ target _ _, isWritten => by
      have holds := isWritten.1.span
      have targets : (checkCastTarget _ target).Reports isSpan fun _ => True :=
        .ite (.typeError holds) (.ite (.typeError holds) (target.checkElements_reports holds))
      unfold check
      exact targets.bind fun _ _ =>
        (value_stays isWritten.2.1 (check_stays isWritten.2.1)).bind fun _ _ =>
          ofCast_stays holds _ _ _
  | .addressOf _ _, isWritten => by
      unfold check
      exact (check_stays isWritten.2).bind fun _ _ => ofAddress_stays isWritten.1.span _
  | .dereference _ _, isWritten => by
      unfold check
      exact (value_stays isWritten.2 (check_stays isWritten.2)).bind fun _ _ =>
        ofDereference_stays isWritten.1.span _
  | .subscript _ _ _, isWritten => by
      unfold check
      exact (value_stays isWritten.2.1 (check_stays isWritten.2.1)).bind fun _ _ =>
        (value_stays isWritten.2.2 (check_stays isWritten.2.2)).bind fun _ _ =>
          ofSubscript_stays isWritten.1.span _ _
  | .step _ _ _ _, isWritten => by
      unfold check
      exact (check_stays isWritten.2).bind fun _ _ => ofStep_stays isWritten.1.span _ _ _
  | .sizeofExpr _ _, isWritten => by
      unfold check
      exact (check_stays isWritten.2).bind fun _ _ =>
        (checkSized_reports isWritten.1.span _).bind fun _ _ => .pure rfl
  | .sizeofType _ operand, isWritten => by
      unfold check
      exact (operand.checkElements_reports (Note.IsWritten.span isWritten)).bind fun _ _ =>
        (checkSized_reports (Note.IsWritten.span isWritten) _).bind fun _ _ => .pure rfl

theorem checkArguments_reports : ∀ (parameters : List CType) {arguments : List Expr},
    IsWrittenList (.ofSpans isSpan) arguments →
      (checkArguments parameters arguments).Reports isSpan fun _ => True
  | parameter :: parameters, argument :: arguments, areWritten => by
      have first : Reports isSpan (argument.checkValue >>= assignTo parameter) fun _ => True :=
        (value_stays areWritten.1 (check_stays areWritten.1)).bind fun _ same =>
          (assignTo_stays parameter (same ▸ areWritten.1.span)).mono fun _ _ => trivial
      unfold checkArguments
      exact first.bind fun _ _ =>
        (checkArguments_reports parameters areWritten.2).bind fun _ _ => .pure trivial
  | [], _, _ | _ :: _, [], _ => by
      unfold checkArguments
      exact .pure trivial

end

theorem checkValue_stays {expr : Expr} (isWritten : expr.IsWritten (.ofSpans isSpan)) :
    StaysAt isSpan expr.span expr.checkValue :=
  value_stays isWritten (check_stays isWritten)

section

variable {expr : Expr} {value : Option Expr}

theorem checkConditionValue_stays (isWritten : expr.IsWritten (.ofSpans isSpan)) :
    StaysAt isSpan expr.span expr.checkConditionValue :=
  (checkValue_stays isWritten).bind fun _ same =>
    (checkCondition_stays (same ▸ isWritten.span)).mono fun _ same' => same'.trans same

theorem checkOption_reports {check : Expr → Pass Expr}
    (stays : ∀ {expr : Expr}, expr.IsWritten (.ofSpans isSpan) →
      StaysAt isSpan expr.span (check expr))
    (areWritten : ∀ expr ∈ value, expr.IsWritten (.ofSpans isSpan)) :
    (checkOption check value).Reports isSpan fun _ => True := by
  cases value with
  | none => exact .pure trivial
  | some expr => exact (stays (areWritten expr rfl)).bind fun _ _ => .pure trivial

theorem checkSwitch_reports (isWritten : expr.IsWritten (.ofSpans isSpan)) :
    expr.checkSwitch.Reports isSpan fun _ => True := by
  refine (checkValue_stays isWritten).bind fun value same => .ite ?_ ?_
  · exact (convertTo_stays _ value).mono fun _ _ => trivial
  · exact .typeError (same ▸ isWritten.span)

theorem checkReturn_reports (result : CType) {span : Span} (holds : isSpan span)
    (areWritten : ∀ expr ∈ value, expr.IsWritten (.ofSpans isSpan)) :
    (checkReturn result span value).Reports isSpan fun _ => True := by
  cases value with
  | none => exact .ite (.pure trivial) (.typeError holds)
  | some expr =>
      have isWritten := areWritten expr rfl
      exact .ite (.typeError holds) ((checkValue_stays isWritten).bind fun _ same =>
        (assignTo_stays result (same ▸ isWritten.span)).bind fun _ _ => .pure trivial)

/-! ### Types of initializers -/

theorem checkInitial_stays (type : CType) {span : Span} (holds : isSpan span)
    (isWritten : expr.IsWritten (.ofSpans isSpan)) :
    StaysAt isSpan expr.span (expr.checkInitial type span) := by
  unfold checkInitial
  split
  · split
    · exact .ite (.typeError holds) (.ite (.typeError isWritten.span) (check_stays isWritten))
    · exact .typeError holds
  · exact (checkValue_stays isWritten).bind fun _ same =>
      (assignTo_stays _ (same ▸ isWritten.span)).mono fun _ same' => same'.trans same

theorem pointerItem_reports (holds : isSpan expr.span) :
    expr.pointerItem.Reports isSpan fun _ => True := by
  have address (name : Text) : (staticAddress expr.span name).Reports isSpan fun _ => True :=
    Reports.get.bind fun _ _ => .ite (.pure trivial) (.typeError holds)
  unfold pointerItem
  split
  · split
    · exact .ite (.pure trivial) (.typeError holds)
    · exact .typeError holds
  · exact address _
  · exact address _
  · have string (bytes : Text) : (Pass.newString bytes).Reports isSpan fun _ => True :=
      (Reports.uniqueName _).bind fun _ _ =>
        (Reports.setSymbol _ _ _).bind fun _ _ => .pure trivial
    exact (string _).bind fun _ _ => .pure trivial
  · exact .typeError holds

theorem scalarItem_reports (type : CType) (holds : isSpan expr.span) :
    (expr.scalarItem type).Reports isSpan fun _ => True := by
  unfold scalarItem
  split
  · exact .typeError holds
  · split
    · exact .throw Failure.isAt_missing
    · exact .pure trivial

theorem appendItems_reports (type : CType) (items : List StaticItem) (holds : isSpan expr.span) :
    (expr.appendItems type items).Reports isSpan fun _ => True := by
  unfold appendItems
  split
  · exact .pure trivial
  · have item (type : CType) : Reports isSpan
        (if type.isPointer then expr.pointerItem else expr.scalarItem type) fun _ => True :=
      .ite (pointerItem_reports holds) (scalarItem_reports _ holds)
    rw [appendValue_eq]
    exact (item _).bind fun _ _ => .pure trivial

end

end Expr

namespace Initializer

theorem zero_reports (span : Span) : ∀ type : CType, (zero span type).Reports isSpan fun _ => True
  | .array size element => by
      unfold zero
      exact (Reports.newLoc _).bind fun _ _ =>
        ((zero_reports span element).times _).bind fun _ _ => .pure trivial
  | .void | .function _ _ => by
      unfold zero
      exact .throw Failure.isAt_missing
  | .integer _ | .double | .pointer _ => by
      unfold zero
      exact (Reports.newLoc _).bind fun _ _ => (Reports.newLoc _).bind fun _ _ => .pure trivial

mutual

theorem checkAutomatic_reports (type : CType) : ∀ {init : Initializer},
    init.IsWritten (.ofSpans isSpan) → (init.checkAutomatic type).Reports isSpan fun _ => True
  | .single _ _, isWritten => by
      unfold checkAutomatic
      exact (Expr.checkInitial_stays _ isWritten.1 isWritten.2).bind fun _ _ => .pure trivial
  | .compound _ items, isWritten => by
      unfold checkAutomatic
      split
      · refine .ite (.typeError isWritten.1) ?_
        exact (checkAutomaticList_reports _ isWritten.2).bind fun _ _ =>
          ((zero_reports _ _).times _).bind fun _ _ => .pure trivial
      · split
        · have inner := isWritten.2.1
          exact (Expr.checkInitial_stays _ inner.1 inner.2).bind fun _ _ => .pure trivial
        · exact .typeError isWritten.1

theorem checkAutomaticList_reports (element : CType) : ∀ {items : List Initializer},
    IsWrittenList (.ofSpans isSpan) items →
      (checkAutomaticList element items).Reports isSpan fun _ => True
  | [], _ => .pure trivial
  | _ :: _, areWritten => by
      unfold checkAutomaticList
      exact (checkAutomatic_reports element areWritten.1).bind fun _ _ =>
        (checkAutomaticList_reports element areWritten.2).bind fun _ _ => .pure trivial

end

mutual

theorem checkStatic_reports (type : CType) (items : List StaticItem) : ∀ {init : Initializer},
    init.IsWritten (.ofSpans isSpan) → (init.checkStatic type items).Reports isSpan fun _ => True
  | .single _ _, isWritten => by
      unfold checkStatic
      exact (Expr.checkInitial_stays _ isWritten.1 isWritten.2).bind fun _ same =>
        (Expr.appendItems_reports _ _ (same ▸ isWritten.2.span)).bind fun _ _ => .pure trivial
  | .compound _ elements, isWritten => by
      unfold checkStatic
      split
      · refine .ite (.typeError isWritten.1) ?_
        exact (checkStaticList_reports _ _ isWritten.2).bind fun _ _ => .pure trivial
      · split
        · have inner := isWritten.2.1
          exact (Expr.checkInitial_stays _ inner.1 inner.2).bind fun _ same =>
            (Expr.appendItems_reports _ _ (same ▸ inner.2.span)).bind fun _ _ => .pure trivial
        · exact .typeError isWritten.1

theorem checkStaticList_reports (element : CType) (items : List StaticItem) :
    ∀ {elements : List Initializer}, IsWrittenList (.ofSpans isSpan) elements →
      (checkStaticList element items elements).Reports isSpan fun _ => True
  | [], _ => .pure trivial
  | _ :: _, areWritten => by
      unfold checkStaticList
      exact (checkStatic_reports element items areWritten.1).bind fun _ _ =>
        (checkStaticList_reports element _ areWritten.2).bind fun _ _ => .pure trivial

end

end Initializer

/-! ### Types of declarations and statements -/

theorem Param.checkList_reports : ∀ {params : List Param},
    (∀ param ∈ params, param.IsWritten (.ofSpans isSpan)) →
      (Param.checkList params).Reports isSpan fun _ => True
  | [], _ => .pure trivial
  | param :: _, areWritten => by
      rw [List.forall_mem_cons] at areWritten
      have first : param.check.Reports isSpan fun _ => True :=
        (CType.checkObject_reports areWritten.1.span _ _).bind fun _ _ => .pure trivial
      exact first.bind fun _ _ =>
        (Param.checkList_reports areWritten.2).bind fun _ _ => .pure trivial

theorem Param.declareList_reports : ∀ params : List Param,
    (Param.declareList params).Reports isSpan fun _ => True
  | [] => .pure trivial
  | _ :: params => (Reports.setSymbol _ _ _).bind fun _ _ => Param.declareList_reports params

namespace FunDecl

theorem mergeStorage_reports {decl : FunDecl} (holds : isSpan decl.loc.span) (isDefinition : Bool) :
    (decl.mergeStorage isDefinition).Reports isSpan fun _ => True := by
  refine (Reports.findSymbol? _).bind fun symbol _ => ?_
  split
  · exact .pure trivial
  · exact .ite (.typeError holds) (.ite (.typeError holds) (.ite (.nameError holds)
      (.pure trivial)))
  · exact .typeError holds

theorem check_reports {decl : FunDecl} (isWritten : decl.IsWritten (.ofSpans isSpan))
    (isDefinition : Bool) : (decl.check isDefinition).Reports isSpan fun _ => True := by
  refine (CType.checkElements_reports isWritten.span _).bind fun _ _ => ?_
  refine (Param.checkList_reports isWritten.params).bind fun params _ => ?_
  have holds : isSpan ({ decl with params } : FunDecl).loc.span := isWritten.span
  exact (mergeStorage_reports holds _).bind fun _ _ =>
    (Reports.setSymbol _ _ _).bind fun _ _ => .pure trivial

end FunDecl

namespace VarDecl

variable {decl : VarDecl}

theorem initialValue_reports (isWritten : decl.IsWritten (.ofSpans isSpan))
    (ifMissing : InitialValue) :
    (decl.initialValue ifMissing).Reports isSpan fun result => result.1.loc = decl.loc := by
  unfold initialValue
  split
  · exact .pure rfl
  · rename_i init same
    exact (Initializer.checkStatic_reports _ _ (isWritten.init init same)).bind fun _ _ => .pure rfl

theorem mergeStorage_reports (holds : isSpan decl.loc.span) (next : InitialValue) :
    (decl.mergeStorage next).Reports isSpan fun _ => True := by
  refine (Reports.findSymbol? _).bind fun symbol _ => ?_
  split
  · exact .pure trivial
  · refine .ite (.typeError holds) (.ite (.nameError holds) ?_)
    split
    · exact .typeError holds
    · exact .pure trivial
  · exact .typeError holds

theorem checkFile_reports (isWritten : decl.IsWritten (.ofSpans isSpan)) :
    decl.checkFile.Reports isSpan fun _ => True :=
  (CType.checkObject_reports isWritten.span _ _).bind fun _ _ =>
    (initialValue_reports isWritten _).bind fun _ same =>
      (mergeStorage_reports (same ▸ isWritten.span) _).bind fun _ _ =>
        (Reports.setSymbol _ _ _).bind fun _ _ => .pure trivial

theorem checkExternal_reports (holds : isSpan decl.loc.span) :
    decl.checkExternal.Reports isSpan fun _ => True := by
  refine .ite (fun _ => Ensures.throw (Failure.isAt_user holds))
    ((Reports.findSymbol? _).bind fun symbol _ => ?_)
  split
  · exact .setSymbol _ _ _
  · exact .ite (.typeError holds) (.pure trivial)
  · exact .typeError holds

theorem checkLocal_reports (isWritten : decl.IsWritten (.ofSpans isSpan)) :
    decl.checkLocal.Reports isSpan fun _ => True := by
  refine (CType.checkObject_reports isWritten.span _ _).bind fun _ _ => ?_
  split
  · exact (checkExternal_reports isWritten.span).bind fun _ _ => .pure trivial
  · exact (initialValue_reports isWritten _).bind fun _ _ =>
      (Reports.setSymbol _ _ _).bind fun _ _ => .pure trivial
  · refine (Reports.setSymbol _ _ _).bind fun _ _ => ?_
    split
    · exact .pure trivial
    · rename_i init same
      exact (Initializer.checkAutomatic_reports _ (isWritten.init init same)).bind fun _ _ =>
        .pure trivial

theorem checkForList_reports : ∀ {decls : List VarDecl},
    (∀ decl ∈ decls, decl.IsWritten (.ofSpans isSpan)) →
      (checkForList decls).Reports isSpan fun _ => True
  | [], _ => .pure trivial
  | decl :: decls, areWritten => by
      rw [List.forall_mem_cons] at areWritten
      have declares : Reports isSpan (do
          let decl ← decl.checkLocal
          pure (decl :: (← checkForList decls))) fun _ => True :=
        (checkLocal_reports areWritten.1).bind fun _ _ =>
          (checkForList_reports areWritten.2).bind fun _ _ => .pure trivial
      exact .ite (fun _ => Ensures.throw (Failure.isAt_user areWritten.1.span)) declares

end VarDecl

theorem Decl.checkLocal_reports : ∀ {decl : Decl}, decl.Forall (.placed isSpan) false →
    decl.checkLocal.Reports isSpan fun _ => True
  | .object _, placed => (VarDecl.checkLocal_reports placed).bind fun _ _ => .pure trivial
  | .function _, placed =>
      .ite (.typeError (FunDecl.IsWritten.span placed))
        ((FunDecl.check_reports placed false).bind fun _ _ => .pure trivial)
  | .definition _ _ _, placed => .typeError placed.1.span

theorem ForInit.check_reports : ∀ {init : ForInit}, init.Forall (.placed isSpan) →
    init.check.Reports isSpan fun _ => True
  | .declarations _ _, placed =>
      (VarDecl.checkForList_reports placed.2).bind fun _ _ => .pure trivial
  | .expression _ _, placed =>
      (Expr.checkOption_reports Expr.checkValue_stays placed.2).bind fun _ _ => .pure trivial

theorem SwitchCase.checkList_reports (type : CType) : ∀ (seen : List Int64)
    {cases : List SwitchCase}, SwitchCase.ArePlaced isSpan cases →
      (SwitchCase.checkList type seen cases).Reports isSpan fun _ => True
  | _, [], _ => .pure trivial
  | seen, case :: cases, placed => by
      rw [ArePlaced, List.forall_mem_cons] at placed
      unfold checkList
      split
      · exact (checkList_reports type seen placed.2).bind fun _ _ => .pure trivial
      · refine .ite (.typeError placed.1) ?_
        split
        · exact .throw Failure.isAt_missing
        · exact .ite (.flowError placed.1)
            ((checkList_reports type _ placed.2).bind fun _ _ => .pure trivial)

mutual

theorem Stmt.check_reports (result : CType) : ∀ {stmt : Stmt}, stmt.Forall (.placed isSpan) →
    (stmt.check result).Reports isSpan fun _ => True
  | .ret _ _, placed =>
      (Expr.checkReturn_reports result placed.1 placed.2).bind fun _ _ => .pure trivial
  | .expr _ _, placed => (Expr.checkValue_stays placed.2).bind fun _ _ => .pure trivial
  | .ifThen _ _ _, placed =>
      (Expr.checkConditionValue_stays placed.2.1).bind fun _ _ =>
        (Stmt.check_reports result placed.2.2).bind fun _ _ => .pure trivial
  | .ifElse _ _ _ _, placed =>
      (Expr.checkConditionValue_stays placed.2.1).bind fun _ _ =>
        (Stmt.check_reports result placed.2.2.1).bind fun _ _ =>
          (Stmt.check_reports result placed.2.2.2).bind fun _ _ => .pure trivial
  | .block _ _, placed =>
      (Item.checkList_reports result placed.2).bind fun _ _ => .pure trivial
  | .whileLoop _ _ _ _, placed =>
      (Expr.checkConditionValue_stays placed.2.2.1).bind fun _ _ =>
        (Stmt.check_reports result placed.2.2.2).bind fun _ _ => .pure trivial
  | .doWhile _ _ _ _, placed =>
      (Stmt.check_reports result placed.2.2.2).bind fun _ _ =>
        (Expr.checkConditionValue_stays placed.2.2.1).bind fun _ _ => .pure trivial
  | .forLoop _ _ _ _ _ _, placed => by
      rcases placed with ⟨_, _, init, condition, post, body⟩
      exact (ForInit.check_reports init).bind fun _ _ =>
        (Expr.checkOption_reports Expr.checkConditionValue_stays condition).bind fun _ _ =>
          (Expr.checkOption_reports Expr.checkValue_stays post).bind fun _ _ =>
            (Stmt.check_reports result body).bind fun _ _ => .pure trivial
  | .switch _ _ _ _ _, placed => by
      rcases placed with ⟨_, _, value, body, cases⟩
      exact (Expr.checkSwitch_reports value).bind fun _ _ =>
        (SwitchCase.checkList_reports _ _ cases).bind fun _ _ =>
          (Stmt.check_reports result body).bind fun _ _ => .pure trivial
  | .case _ _ _ _, placed =>
      (Expr.checkValue_stays placed.2.2.1).bind fun _ _ =>
        (Stmt.check_reports result placed.2.2.2).bind fun _ _ => .pure trivial
  | .default _ _ _, placed =>
      (Stmt.check_reports result placed.2.2).bind fun _ _ => .pure trivial
  | .break _ _, _ | .continue _ _, _ | .null _, _ => .pure trivial

theorem Item.checkList_reports (result : CType) : ∀ {items : List Item},
    Item.ForallList (.placed isSpan) items →
      (Item.checkList result items).Reports isSpan fun _ => True
  | [], _ => .pure trivial
  | .stmt _ :: _, placed =>
      (Stmt.check_reports result placed.1).bind fun _ _ =>
        (Item.checkList_reports result placed.2).bind fun _ _ => .pure trivial
  | .decl _ :: _, placed =>
      (Decl.checkLocal_reports placed.1).bind fun _ _ =>
        (Item.checkList_reports result placed.2).bind fun _ _ => .pure trivial

end

theorem Decl.checkFile_reports : ∀ {decl : Decl}, decl.Forall (.placed isSpan) true →
    decl.checkFile.Reports isSpan fun _ => True
  | .object _, placed => (VarDecl.checkFile_reports placed).bind fun _ _ => .pure trivial
  | .function _, placed => (FunDecl.check_reports placed false).bind fun _ _ => .pure trivial
  | .definition _ _ _, placed =>
      (FunDecl.check_reports placed.1 true).bind fun decl _ =>
        (Param.declareList_reports decl.params).bind fun _ _ =>
          (Item.checkList_reports decl.result placed.2.2).bind fun _ _ => .pure trivial

namespace Program

theorem check_reports : ∀ {program : Program}, program.Forall (.placed isSpan) →
    program.check.Reports isSpan fun _ => True
  | [], _ => .pure trivial
  | _ :: _, placed => by
      rw [Program.Forall, List.forall_mem_cons] at placed
      exact (Decl.checkFile_reports placed.1).bind fun _ _ =>
        (check_reports placed.2).bind fun _ _ => .pure trivial

/-- Analysis complains only at places of its tree. -/
theorem analyze_reports {program : Program} (placed : program.Forall (.placed isSpan)) :
    program.analyze.Reports isSpan fun _ => True :=
  (resolveFrom_reports .file placed).bind fun _ resolved =>
    (label_reports resolved).bind fun _ labelled => check_reports labelled

end Program

end SubsetC
