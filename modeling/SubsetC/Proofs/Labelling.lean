import SubsetC.Analysis.Target
import SubsetC.Proofs.Outcome
import SubsetC.Proofs.TreeNames

/-!
# Labelled trees

Labelling fails only with a diagnostic, enters no symbols, and changes nothing but labels and lists
of cases: the expressions, scopes and declarations of a tree are as before.
-/

namespace SubsetC

/-- The shared state after labelling: labels may have been drawn. -/
structure Context.Draws (context after : Context) : Prop where
  symbols : after.symbols = context.symbols
  le : context.nextName ≤ after.nextName

namespace Context.Draws

theorem refl (context : Context) : context.Draws context := ⟨rfl, Nat.le_refl _⟩

theorem trans {first second third : Context} (earlier : first.Draws second)
    (later : second.Draws third) : first.Draws third :=
  ⟨later.symbols.trans earlier.symbols, Nat.le_trans earlier.le later.le⟩

theorem next (context : Context) :
    context.Draws { context with nextName := context.nextName + 1 } := ⟨rfl, Nat.le_succ _⟩

end Context.Draws

section

variable {targets : Targets} {context : Context} {cases : List SwitchCase}

theorem SwitchCase.ofValue_ensures (loc : Loc) (value : Expr) :
    Ensures (SwitchCase.ofValue targets loc value cases) context Failure.IsDiagnostic
      fun _ after => context = after := by
  unfold SwitchCase.ofValue
  repeat' split
  all_goals first
    | exact Ensures.flowError fun _ => id
    | exact Ensures.pure rfl

theorem SwitchCase.ofDefault_ensures (loc : Loc) :
    Ensures (SwitchCase.ofDefault targets loc cases) context Failure.IsDiagnostic
      fun _ after => context = after := by
  unfold SwitchCase.ofDefault
  repeat' split
  all_goals first
    | exact Ensures.flowError fun _ => id
    | exact Ensures.pure rfl

end

/-- A labelled statement has the expressions, scopes and declarations of the statement. -/
structure Stmt.Labelled (stmt labelled : Stmt) : Prop where
  isSource : stmt.IsSource → labelled.IsSource
  locals : labelled.locals = stmt.locals
  /-- Names are mentioned in the same scopes. -/
  isScoped : ∀ known, stmt.Scoped known → labelled.Scoped known

/-- The labelled items of a block have the expressions, scopes and declarations of the items. -/
structure Item.LabelledList (items labelled : List Item) : Prop where
  isSource : Item.IsSourceList items → Item.IsSourceList labelled
  locals : Item.localsList labelled = Item.localsList items
  /-- Names are mentioned in the same scopes. -/
  isScoped : ∀ known, Item.ScopedList known items → Item.ScopedList known labelled

mutual

theorem Stmt.label_ensures : ∀ (stmt : Stmt) {targets : Targets} {cases : List SwitchCase}
    {context : Context},
    Ensures (stmt.label targets cases) context Failure.IsDiagnostic fun result after =>
      context.Draws after ∧ stmt.Labelled result.1
  | .ifThen _ _ body, targets, cases, context => by
      rw [Stmt.label]
      refine (Stmt.label_ensures body).bind ?_
      rintro ⟨body', cases'⟩ after ⟨draws, labelled⟩
      exact Ensures.pure ⟨draws, fun source => ⟨source.1, labelled.isSource source.2⟩,
        labelled.locals, fun known isScoped => ⟨isScoped.1, labelled.isScoped known isScoped.2⟩⟩
  | .ifElse _ _ thenBranch elseBranch, targets, cases, context => by
      rw [Stmt.label]
      refine (Stmt.label_ensures thenBranch).bind ?_
      rintro ⟨thenBranch', cases'⟩ between ⟨thenDraws, thenLabelled⟩
      refine (Stmt.label_ensures elseBranch).bind ?_
      rintro ⟨elseBranch', cases''⟩ after ⟨elseDraws, elseLabelled⟩
      refine Ensures.pure ⟨thenDraws.trans elseDraws, ?_, ?_, ?_⟩
      · intro source
        exact ⟨source.1, thenLabelled.isSource source.2.1, elseLabelled.isSource source.2.2⟩
      · simp only [Stmt.locals, thenLabelled.locals, elseLabelled.locals]
      · intro known isScoped
        exact ⟨isScoped.1, thenLabelled.isScoped known isScoped.2.1,
          elseLabelled.isScoped known isScoped.2.2⟩
  | .block _ items, targets, cases, context => by
      rw [Stmt.label]
      refine (Item.labelList_ensures items).bind ?_
      rintro ⟨items', cases'⟩ after ⟨draws, labelled⟩
      exact Ensures.pure ⟨draws, labelled.isSource, labelled.locals, labelled.isScoped⟩
  | .whileLoop _ _ _ body, targets, cases, context
  | .doWhile _ _ body _, targets, cases, context
  | .switch _ _ _ body _, targets, cases, context => by
      rw [Stmt.label]
      refine Ensures.bind_ok (Pass.run_newLabel _ _) ?_
      refine (Stmt.label_ensures body).bind ?_
      rintro ⟨body', cases'⟩ after ⟨draws, labelled⟩
      exact Ensures.pure ⟨(Context.Draws.next context).trans draws,
        fun source => ⟨source.1, labelled.isSource source.2⟩, labelled.locals,
        fun known isScoped => ⟨isScoped.1, labelled.isScoped known isScoped.2⟩⟩
  | .forLoop _ _ init _ _ body, targets, cases, context => by
      rw [Stmt.label]
      refine Ensures.bind_ok (Pass.run_newLabel _ _) ?_
      refine (Stmt.label_ensures body).bind ?_
      rintro ⟨body', cases'⟩ after ⟨draws, labelled⟩
      refine Ensures.pure ⟨(Context.Draws.next context).trans draws, ?_, ?_, ?_⟩
      · intro source
        exact ⟨source.1, source.2.1, source.2.2.1, labelled.isSource source.2.2.2⟩
      · simp only [Stmt.locals, labelled.locals]
      · intro known isScoped
        exact ⟨isScoped.1, isScoped.2.1, isScoped.2.2.1, labelled.isScoped _ isScoped.2.2.2⟩
  | .case loc _ value body, targets, cases, context => by
      rw [Stmt.label]
      refine (SwitchCase.ofValue_ensures loc value).bind ?_
      rintro case after rfl
      refine (Stmt.label_ensures body).bind ?_
      rintro ⟨body', cases'⟩ after ⟨draws, labelled⟩
      exact Ensures.pure ⟨draws, fun source => ⟨source.1, labelled.isSource source.2⟩,
        labelled.locals, fun known isScoped => ⟨isScoped.1, labelled.isScoped known isScoped.2⟩⟩
  | .default loc _ body, targets, cases, context => by
      rw [Stmt.label]
      refine (SwitchCase.ofDefault_ensures loc).bind ?_
      rintro case after rfl
      refine (Stmt.label_ensures body).bind ?_
      rintro ⟨body', cases'⟩ after ⟨draws, labelled⟩
      exact Ensures.pure ⟨draws, labelled.isSource, labelled.locals, labelled.isScoped⟩
  | .break _ _, targets, cases, context | .continue _ _, targets, cases, context => by
      rw [Stmt.label]
      split
      · exact Ensures.pure ⟨.refl _, fun _ => trivial, rfl, fun _ _ => trivial⟩
      · exact Ensures.flowError fun _ => id
  | .ret _ _, targets, cases, context | .expr _ _, targets, cases, context
  | .null _, targets, cases, context => by
      rw [Stmt.label]
      exact Ensures.pure ⟨.refl _, id, rfl, fun _ => id⟩

theorem Decl.label_ensures : ∀ (decl : Decl) {context : Context},
    Ensures decl.label context Failure.IsDiagnostic fun labelled after =>
      context.Draws after ∧
        match decl with
        | .object _ | .function _ => labelled = decl
        | .definition function bodyLoc body =>
            ∃ body', labelled = .definition function bodyLoc body' ∧ Item.LabelledList body body'
  | .object _, context | .function _, context => by
      rw [Decl.label]
      exact Ensures.pure ⟨.refl _, rfl⟩
  | .definition _ _ body, context => by
      rw [Decl.label]
      refine (Item.labelList_ensures body).bind ?_
      rintro ⟨body', cases'⟩ after ⟨draws, labelled⟩
      exact Ensures.pure ⟨draws, body', rfl, labelled⟩

theorem Item.labelList_ensures : ∀ (items : List Item) {targets : Targets}
    {cases : List SwitchCase} {context : Context},
    Ensures (Item.labelList targets cases items) context Failure.IsDiagnostic fun result after =>
      context.Draws after ∧ Item.LabelledList items result.1
  | [], targets, cases, context => by
      rw [Item.labelList]
      exact Ensures.pure ⟨.refl _, id, rfl, fun _ => id⟩
  | .stmt stmt :: items, targets, cases, context => by
      rw [Item.labelList]
      refine (Stmt.label_ensures stmt).bind ?_
      rintro ⟨stmt', cases'⟩ between ⟨stmtDraws, stmtLabelled⟩
      refine (Item.labelList_ensures items).bind ?_
      rintro ⟨items', cases''⟩ after ⟨draws, labelled⟩
      refine Ensures.pure ⟨stmtDraws.trans draws, ?_, ?_, ?_⟩
      · intro source
        exact ⟨stmtLabelled.isSource source.1, labelled.isSource source.2⟩
      · simp only [Item.localsList, stmtLabelled.locals, labelled.locals]
      · intro known isScoped
        exact ⟨stmtLabelled.isScoped known isScoped.1, labelled.isScoped known isScoped.2⟩
  | .decl decl :: items, targets, cases, context => by
      rw [Item.labelList]
      refine (Decl.label_ensures decl).bind ?_
      intro decl' between declLabelled
      rcases declLabelled with ⟨declDraws, declLabelled⟩
      refine (Item.labelList_ensures items).bind ?_
      rintro ⟨items', cases''⟩ after ⟨draws, labelled⟩
      refine Ensures.pure ⟨declDraws.trans draws, ?_⟩
      cases decl with
      | object decl =>
          subst declLabelled
          refine ⟨fun source => ⟨source.1, labelled.isSource source.2⟩, ?_, ?_⟩
          · simp only [Item.localsList, labelled.locals]
          · intro known isScoped
            exact ⟨isScoped.1, labelled.isScoped _ isScoped.2⟩
      | function decl =>
          subst declLabelled
          refine ⟨fun source => ⟨source.1, labelled.isSource source.2⟩, ?_, ?_⟩
          · simp only [Item.localsList, labelled.locals]
          · exact fun known isScoped => labelled.isScoped _ isScoped
      | definition decl bodyLoc body =>
          rcases declLabelled with ⟨body', rfl, bodyLabelled⟩
          refine ⟨?_, ?_, fun _ _ => trivial⟩
          · intro source
            exact ⟨⟨source.1.1, source.1.2.1, bodyLabelled.isSource source.1.2.2⟩,
              labelled.isSource source.2⟩
          · simp only [Item.localsList, labelled.locals]

end

namespace Program

/-- A labelled compilation unit has the expressions, scopes and declarations of the unit. -/
structure Labelled (program labelled : Program) : Prop where
  isSource : program.IsSource → labelled.IsSource
  locals : labelled.locals = program.locals
  /-- Names are mentioned in the same scopes. -/
  isScoped : ∀ known, program.Scoped known → labelled.Scoped known
  /-- The same objects are initialized with themselves. -/
  selfInitializes : ∀ known,
    labelled.selfInitializesAfter known = program.selfInitializesAfter known

theorem Labelled.cons {decl decl' : Decl} {decls decls' : Program}
    (head : match decl with
      | .object _ | .function _ => decl' = decl
      | .definition function bodyLoc body =>
          ∃ body', decl' = .definition function bodyLoc body' ∧ Item.LabelledList body body')
    (rest : Labelled decls decls') : Labelled (decl :: decls) (decl' :: decls') := by
  cases decl with
  | object decl =>
      subst head
      refine ⟨?_, ?_, ?_, ?_⟩
      · intro source
        have source := List.forall_mem_cons.1 source
        exact List.forall_mem_cons.2 ⟨source.1, rest.isSource source.2⟩
      · simp only [locals_cons, rest.locals]
      · exact fun known isScoped => ⟨isScoped.1, rest.isScoped _ isScoped.2⟩
      · intro known
        simp only [selfInitializesAfter, rest.selfInitializes]
  | function decl =>
      subst head
      refine ⟨?_, ?_, ?_, ?_⟩
      · intro source
        have source := List.forall_mem_cons.1 source
        exact List.forall_mem_cons.2 ⟨source.1, rest.isSource source.2⟩
      · simp only [locals_cons, rest.locals]
      · exact fun known isScoped => rest.isScoped _ isScoped
      · intro known
        simp only [selfInitializesAfter, rest.selfInitializes]
  | definition decl bodyLoc body =>
      rcases head with ⟨body', rfl, labelled⟩
      refine ⟨?_, ?_, ?_, ?_⟩
      · intro source
        rcases List.forall_mem_cons.1 source with ⟨⟨own, plain⟩, others⟩
        exact List.forall_mem_cons.2
          ⟨⟨⟨own.1, own.2.1, labelled.isSource own.2.2⟩, plain⟩, rest.isSource others⟩
      · simp only [locals_cons, Decl.locals, labelled.locals, rest.locals]
      · intro known isScoped
        exact ⟨labelled.isScoped _ isScoped.1, rest.isScoped _ isScoped.2⟩
      · intro known
        simp only [selfInitializesAfter, rest.selfInitializes, labelled.locals]

theorem label_ensures : ∀ (program : Program) {context : Context},
    Ensures program.label context Failure.IsDiagnostic fun labelled after =>
      context.Draws after ∧ Labelled program labelled
  | [], context => Ensures.pure ⟨.refl _, id, rfl, fun _ => id, fun _ => rfl⟩
  | decl :: decls, context => by
      rw [label, List.mapM_cons]
      refine (Decl.label_ensures decl).bind ?_
      rintro decl' between ⟨declDraws, head⟩
      refine (label_ensures decls).bind ?_
      rintro decls' after ⟨draws, rest⟩
      exact Ensures.pure ⟨declDraws.trans draws, .cons head rest⟩

end Program

end SubsetC
