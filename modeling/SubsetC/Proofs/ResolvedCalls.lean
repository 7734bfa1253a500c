import SubsetC.Proofs.CheckSteps

/-!
# Calls in resolved and labelled trees

Resolution keeps the calls of a tree in their order. It keeps the name of what is called as well,
unless the name stands for an object without linkage there, whose internal name has a dot. Labelling
changes nothing about the calls and the objects of a tree.
-/

namespace SubsetC

/-- A name of a source has been resolved: it is kept, or gives way to an internal name. -/
def Text.ResolvesTo (name resolved : Text) : Prop := resolved = name ∨ ¬resolved.IsPlain

/-- Names that are plain afterwards have been kept. -/
theorem Text.ResolvesTo.all_eq {names resolved : List Text}
    (resolves : List.Forall₂ Text.ResolvesTo names resolved)
    (plain : ∀ name ∈ resolved, name.IsPlain) : resolved = names := by
  induction resolves with
  | nil => rfl
  | cons head _ ih =>
      rcases List.forall_mem_cons.1 plain with ⟨isPlain, plain⟩
      rw [head.resolve_right (not_not_intro isPlain), ih plain]

/-- In a scope, names stand for themselves or for internal names. -/
def Scopes.Faithful (scopes : Scopes) : Prop :=
  ∀ name binding, scopes.find? name = some binding → Text.ResolvesTo name binding.name

namespace Scopes.Faithful

variable {scopes : Scopes}

theorem declare (faithful : scopes.Faithful) {name : Text} {binding : Binding}
    (resolves : Text.ResolvesTo name binding.name) : (scopes.declare name binding).Faithful := by
  intro other found isFound
  rw [find?_declare] at isFound
  split at isFound
  · rename_i same
    cases isFound
    exact same ▸ resolves
  · exact faithful other found isFound

theorem link (faithful : scopes.Faithful) (name : Text) :
    (scopes.declare name ⟨name, true⟩).Faithful :=
  faithful.declare (.inl rfl)

theorem draw (faithful : scopes.Faithful) (name : Text) (number : Nat) :
    (scopes.declare name ⟨Text.numbered name number, false⟩).Faithful :=
  faithful.declare (.inr (Text.isNumbered_numbered name number).not_plain)

theorem enter (faithful : scopes.Faithful) : scopes.enter.Faithful := faithful

end Scopes.Faithful

/-! ### Resolution -/

section Resolution

variable {scopes : Scopes} {context : Context}

namespace Expr

mutual

theorem resolve_calls (faithful : scopes.Faithful) : ∀ (expr : Expr) {context : Context},
    Yields (expr.resolve scopes) context fun resolved _ =>
      List.Forall₂ Text.ResolvesTo expr.calls resolved.calls
  | .constant _ _, context | .string _ _, context | .sizeofType _ _, context => by
      rw [resolve]
      exact Ensures.pure .nil
  | .var _ name, context => by
      rw [resolve]
      split
      · exact Ensures.pure .nil
      · exact Ensures.throw trivial
  | .unary _ _ operand, context | .cast _ _ operand _, context | .addressOf _ operand, context
  | .dereference _ operand, context | .step _ _ _ operand, context => by
      rw [resolve]
      refine (resolve_calls faithful operand).bind ?_
      exact fun operand' after calls => Ensures.pure calls
  | .sizeofExpr _ operand, context => by
      rw [resolve]
      exact Ensures.bind_any fun operand' after => Ensures.pure .nil
  | .binary _ _ left right, context | .assign _ _ left right _, context
  | .subscript _ left right, context => by
      rw [resolve]
      refine (resolve_calls faithful left).bind ?_
      intro left' between leftCalls
      refine (resolve_calls faithful right).bind ?_
      exact fun right' after rightCalls => Ensures.pure (List.rel_append leftCalls rightCalls)
  | .conditional _ condition thenBranch elseBranch, context => by
      rw [resolve]
      refine (resolve_calls faithful condition).bind ?_
      intro condition' first conditionCalls
      refine (resolve_calls faithful thenBranch).bind ?_
      intro thenBranch' second thenCalls
      refine (resolve_calls faithful elseBranch).bind ?_
      exact fun elseBranch' after elseCalls =>
        Ensures.pure (List.rel_append conditionCalls (List.rel_append thenCalls elseCalls))
  | .call _ name arguments, context => by
      rw [resolve]
      split
      · rename_i binding found
        refine (resolveList_calls faithful arguments).bind ?_
        exact fun arguments' after calls =>
          Ensures.pure (List.rel_append calls (.cons (faithful name binding found) .nil))
      · exact Ensures.throw trivial
  | .decay _ _, context => Ensures.throw trivial

theorem resolveList_calls (faithful : scopes.Faithful) : ∀ (exprs : List Expr) {context : Context},
    Yields (resolveList scopes exprs) context fun resolved _ =>
      List.Forall₂ Text.ResolvesTo (callsList exprs) (callsList resolved)
  | [], context => by
      rw [resolveList]
      exact Ensures.pure .nil
  | expr :: exprs, context => by
      rw [resolveList]
      refine (resolve_calls faithful expr).bind ?_
      intro expr' between calls
      refine (resolveList_calls faithful exprs).bind ?_
      exact fun exprs' after more => Ensures.pure (List.rel_append calls more)

end

theorem resolveOption_calls (faithful : scopes.Faithful) (value : Option Expr) :
    Yields (resolveOption scopes value) context fun resolved _ =>
      List.Forall₂ Text.ResolvesTo (callsOption value) (callsOption resolved) := by
  cases value with
  | none => exact Ensures.pure .nil
  | some expr =>
      refine (resolve_calls faithful expr).bind ?_
      exact fun expr' after calls => Ensures.pure calls

end Expr

namespace Initializer

mutual

theorem resolve_calls (faithful : scopes.Faithful) : ∀ (init : Initializer) {context : Context},
    Yields (init.resolve scopes) context fun resolved _ =>
      List.Forall₂ Text.ResolvesTo init.calls resolved.calls
  | .single _ value, context => by
      rw [resolve]
      refine (Expr.resolve_calls faithful value).bind ?_
      exact fun value' after calls => Ensures.pure calls
  | .compound _ items, context => by
      rw [resolve]
      refine (resolveList_calls faithful items).bind ?_
      exact fun items' after calls => Ensures.pure calls

theorem resolveList_calls (faithful : scopes.Faithful) : ∀ (items : List Initializer)
    {context : Context}, Yields (resolveList scopes items) context fun resolved _ =>
      List.Forall₂ Text.ResolvesTo (callsList items) (callsList resolved)
  | [], context => by
      rw [resolveList]
      exact Ensures.pure .nil
  | item :: items, context => by
      rw [resolveList]
      refine (resolve_calls faithful item).bind ?_
      intro item' between calls
      refine (resolveList_calls faithful items).bind ?_
      exact fun items' after more => Ensures.pure (List.rel_append calls more)

end

end Initializer

namespace VarDecl

theorem resolveInit_calls (faithful : scopes.Faithful) (decl : VarDecl) :
    Yields (decl.resolveInit scopes) context fun resolved _ =>
      List.Forall₂ Text.ResolvesTo decl.calls resolved.calls := by
  rcases decl with ⟨loc, name, type, storageClass, _ | init⟩
  · cases storageClass <;> exact Ensures.pure .nil
  · refine (Initializer.resolve_calls faithful init).bind ?_
    intro init' after calls
    cases storageClass with
    | none => exact Ensures.pure calls
    | some storageClass => exact Ensures.pure .nil

theorem resolveLocal_calls (faithful : scopes.Faithful) (decl : VarDecl) :
    Yields (decl.resolveLocal scopes) context fun result _ =>
      List.Forall₂ Text.ResolvesTo decl.calls result.1.calls ∧ result.2.Faithful := by
  unfold resolveLocal
  refine Ensures.bind_any fun _ _ => Ensures.ite (fun _ => ?_) fun _ => ?_
  · refine (resolveInit_calls (faithful.link decl.name) decl).bind ?_
    exact fun decl' after calls => Ensures.pure ⟨calls, faithful.link decl.name⟩
  · refine Ensures.bind_ok (Pass.run_uniqueName _ decl.name) ?_
    refine (resolveInit_calls (faithful.draw decl.name _) _).bind ?_
    exact fun decl' after calls => Ensures.pure ⟨calls, faithful.draw decl.name _⟩

theorem resolveLocals_calls : ∀ (decls : List VarDecl) {scopes : Scopes} {context : Context},
    scopes.Faithful → Yields (resolveLocals scopes decls) context fun result _ =>
      List.Forall₂ Text.ResolvesTo (callsList decls) (callsList result.1) ∧ result.2.Faithful
  | [], scopes, context, faithful => Ensures.pure ⟨.nil, faithful⟩
  | decl :: decls, scopes, context, faithful => by
      rw [resolveLocals]
      refine (resolveLocal_calls faithful decl).bind ?_
      rintro ⟨decl', middle⟩ between ⟨calls, faithful⟩
      refine (resolveLocals_calls decls faithful).bind ?_
      rintro ⟨decls', inside⟩ after ⟨more, faithful⟩
      exact Ensures.pure ⟨List.rel_append calls more, faithful⟩

end VarDecl

theorem ForInit.resolve_calls (faithful : scopes.Faithful) (init : ForInit) :
    Yields (init.resolve scopes) context fun result _ =>
      List.Forall₂ Text.ResolvesTo init.calls result.1.calls ∧ result.2.Faithful := by
  cases init with
  | declarations loc decls =>
      refine (VarDecl.resolveLocals_calls decls faithful).bind ?_
      exact fun result after holds => Ensures.pure holds
  | expression loc value =>
      refine (Expr.resolveOption_calls faithful value).bind ?_
      exact fun value' after calls => Ensures.pure ⟨calls, faithful⟩

theorem Param.resolveList_faithful : ∀ (params : List Param) {scopes : Scopes} {context : Context},
    scopes.Faithful → Yields (Param.resolveList scopes params) context fun result _ =>
      result.2.Faithful
  | [], scopes, context, faithful => Ensures.pure faithful
  | param :: params, scopes, context, faithful => by
      rw [Param.resolveList]
      refine Ensures.ite (fun _ => ?_) fun _ =>
        Ensures.ite (fun _ => Ensures.throw trivial) fun _ => ?_
      · refine (Param.resolveList_faithful params faithful).bind ?_
        exact fun result after inside => Ensures.pure inside
      · refine Ensures.bind_ok (Pass.run_uniqueName _ param.name) ?_
        refine (Param.resolveList_faithful params (faithful.draw param.name _)).bind ?_
        exact fun result after inside => Ensures.pure inside

theorem FunDecl.resolve_faithful (faithful : scopes.Faithful) (decl : FunDecl) :
    Yields (decl.resolve scopes) context fun result _ =>
      result.1.name = decl.name ∧ result.2.1.Faithful ∧ result.2.2.Faithful := by
  unfold FunDecl.resolve
  refine Ensures.ite (fun _ => Ensures.throw trivial) fun _ => ?_
  refine (Param.resolveList_faithful decl.params (faithful.link decl.name).enter).bind ?_
  exact fun result after inside => Ensures.pure ⟨rfl, faithful.link decl.name, inside⟩

mutual

/-- Resolution keeps the calls of a statement in their order. -/
theorem Stmt.resolve_calls : ∀ (stmt : Stmt) {scopes : Scopes} {context : Context},
    scopes.Faithful → Yields (stmt.resolve scopes) context fun resolved _ =>
      List.Forall₂ Text.ResolvesTo stmt.calls resolved.calls
  | .ret _ value, scopes, context, faithful => by
      rw [Stmt.resolve]
      refine (Expr.resolveOption_calls faithful value).bind ?_
      exact fun value' after calls => Ensures.pure calls
  | .expr _ value, scopes, context, faithful => by
      rw [Stmt.resolve]
      refine (Expr.resolve_calls faithful value).bind ?_
      exact fun value' after calls => Ensures.pure calls
  | .ifThen _ condition body, scopes, context, faithful
  | .whileLoop _ _ condition body, scopes, context, faithful
  | .switch _ _ condition body _, scopes, context, faithful => by
      rw [Stmt.resolve]
      refine (Expr.resolve_calls faithful condition).bind ?_
      intro condition' between calls
      refine (Stmt.resolve_calls body faithful).bind ?_
      exact fun body' after more => Ensures.pure (List.rel_append calls more)
  | .ifElse _ condition thenBranch elseBranch, scopes, context, faithful => by
      rw [Stmt.resolve]
      refine (Expr.resolve_calls faithful condition).bind ?_
      intro condition' first calls
      refine (Stmt.resolve_calls thenBranch faithful).bind ?_
      intro thenBranch' second thenCalls
      refine (Stmt.resolve_calls elseBranch faithful).bind ?_
      exact fun elseBranch' after elseCalls =>
        Ensures.pure (List.rel_append calls (List.rel_append thenCalls elseCalls))
  | .block _ items, scopes, context, faithful => by
      rw [Stmt.resolve]
      refine (Item.resolveList_calls items faithful.enter).bind ?_
      exact fun items' after calls => Ensures.pure calls
  | .doWhile _ _ body condition, scopes, context, faithful => by
      rw [Stmt.resolve]
      refine (Stmt.resolve_calls body faithful).bind ?_
      intro body' between calls
      refine (Expr.resolve_calls faithful condition).bind ?_
      exact fun condition' after more => Ensures.pure (List.rel_append calls more)
  | .forLoop _ _ init condition post body, scopes, context, faithful => by
      rw [Stmt.resolve]
      refine (ForInit.resolve_calls faithful.enter init).bind ?_
      rintro ⟨init', inside⟩ first ⟨initCalls, faithful⟩
      refine (Expr.resolveOption_calls faithful condition).bind ?_
      intro condition' second conditionCalls
      refine (Expr.resolveOption_calls faithful post).bind ?_
      intro post' third postCalls
      refine (Stmt.resolve_calls body faithful).bind ?_
      exact fun body' after bodyCalls => Ensures.pure (List.rel_append initCalls
        (List.rel_append conditionCalls (List.rel_append bodyCalls postCalls)))
  | .case _ _ value body, scopes, context, faithful => by
      rw [Stmt.resolve]
      refine Ensures.bind_any fun value' between => (Stmt.resolve_calls body faithful).bind ?_
      exact fun body' after calls => Ensures.pure calls
  | .default _ _ body, scopes, context, faithful => by
      rw [Stmt.resolve]
      refine (Stmt.resolve_calls body faithful).bind ?_
      exact fun body' after calls => Ensures.pure calls
  | .break _ _, scopes, context, faithful | .continue _ _, scopes, context, faithful
  | .null _, scopes, context, faithful => by
      rw [Stmt.resolve]
      exact Ensures.pure .nil

theorem Item.resolveList_calls : ∀ (items : List Item) {scopes : Scopes} {context : Context},
    scopes.Faithful → Yields (Item.resolveList scopes items) context fun resolved _ =>
      List.Forall₂ Text.ResolvesTo (Item.callsList items) (Item.callsList resolved)
  | [], scopes, context, faithful => by
      rw [Item.resolveList]
      exact Ensures.pure .nil
  | .stmt stmt :: items, scopes, context, faithful => by
      rw [Item.resolveList]
      refine (Stmt.resolve_calls stmt faithful).bind ?_
      intro stmt' between calls
      refine (Item.resolveList_calls items faithful).bind ?_
      exact fun items' after more => Ensures.pure (List.rel_append calls more)
  | .decl (.object decl) :: items, scopes, context, faithful => by
      rw [Item.resolveList, Decl.resolve]
      simp only [Bool.false_eq_true, if_false, bind_assoc, pure_bind]
      refine (VarDecl.resolveLocal_calls faithful decl).bind ?_
      rintro ⟨decl', inside⟩ between ⟨calls, faithful⟩
      refine (Item.resolveList_calls items faithful).bind ?_
      exact fun items' after more => Ensures.pure (List.rel_append calls more)
  | .decl (.function decl) :: items, scopes, context, faithful => by
      rw [Item.resolveList, Decl.resolve]
      simp only [bind_assoc, pure_bind]
      refine (FunDecl.resolve_faithful faithful decl).bind ?_
      rintro ⟨decl', outside, inside⟩ between ⟨_, faithful, _⟩
      refine (Item.resolveList_calls items faithful).bind ?_
      exact fun items' after more => Ensures.pure more
  | .decl (.definition decl _ body) :: items, scopes, context, faithful => by
      rw [Item.resolveList, Decl.resolve]
      simp only [bind_assoc, pure_bind]
      refine (FunDecl.resolve_faithful faithful decl).bind ?_
      rintro ⟨decl', outside, inside⟩ between ⟨_, faithful, _⟩
      refine Ensures.bind_any fun body' middle => ?_
      refine (Item.resolveList_calls items faithful).bind ?_
      exact fun items' after more => Ensures.pure more

end

/-- A definition has been resolved: its name is kept, and so are its calls if they are plain. -/
structure FunDecl.Resolved (definition resolved : FunDecl × List Item) : Prop where
  name : resolved.1.name = definition.1.name
  /-- The calls are resolved. -/
  calls : List.Forall₂ Text.ResolvesTo (Item.callsList definition.2) (Item.callsList resolved.2)

theorem Program.resolveFrom_definitions : ∀ (program : Program) {scopes : Scopes}
    {context : Context}, scopes.Faithful →
    Yields (resolveFrom scopes program) context fun resolved _ =>
      List.Forall₂ FunDecl.Resolved program.definitions resolved.definitions
  | [], scopes, context, faithful => Ensures.pure .nil
  | .object decl :: decls, scopes, context, faithful => by
      rw [resolveFrom, Decl.resolve]
      simp only [if_true, VarDecl.resolveFile, bind_assoc, pure_bind]
      refine Ensures.bind_any fun decl' between => ?_
      refine (resolveFrom_definitions decls (faithful.link decl.name)).bind ?_
      exact fun decls' after more => Ensures.pure more
  | .function decl :: decls, scopes, context, faithful => by
      rw [resolveFrom, Decl.resolve]
      simp only [bind_assoc, pure_bind]
      refine (FunDecl.resolve_faithful faithful decl).bind ?_
      rintro ⟨decl', outside, inside⟩ between ⟨_, faithful, _⟩
      refine (resolveFrom_definitions decls faithful).bind ?_
      exact fun decls' after more => Ensures.pure more
  | .definition decl _ body :: decls, scopes, context, faithful => by
      rw [resolveFrom, Decl.resolve]
      simp only [bind_assoc, pure_bind]
      refine (FunDecl.resolve_faithful faithful decl).bind ?_
      rintro ⟨decl', outside, inside⟩ between ⟨sameName, faithful, faithfulInside⟩
      refine (Item.resolveList_calls body faithfulInside).bind ?_
      intro body' middle calls
      refine (resolveFrom_definitions decls faithful).bind ?_
      exact fun decls' after more => Ensures.pure (.cons ⟨sameName, calls⟩ more)

end Resolution

/-! ### Labelling -/

theorem Stmt.Alike.refl (stmt : Stmt) : stmt.Alike stmt := ⟨rfl, rfl⟩

mutual

/-- Labelling leaves the calls of a statement as they are. -/
theorem Stmt.label_alike : ∀ (stmt : Stmt) {targets : Targets} {cases : List SwitchCase}
    {context : Context},
    Yields (stmt.label targets cases) context fun result _ => stmt.Alike result.1
  | .ifThen _ condition body, targets, cases, context => by
      rw [Stmt.label]
      refine (Stmt.label_alike body).bind ?_
      intro result after alike
      exact Ensures.pure
        ⟨by simp only [Stmt.calls, alike.calls], by simp only [Stmt.uses, alike.uses]⟩
  | .ifElse _ condition thenBranch elseBranch, targets, cases, context => by
      rw [Stmt.label]
      refine (Stmt.label_alike thenBranch).bind ?_
      rintro ⟨thenBranch', cases'⟩ between alikeThen
      refine (Stmt.label_alike elseBranch).bind ?_
      rintro ⟨elseBranch', cases''⟩ after alikeElse
      exact Ensures.pure ⟨by simp only [Stmt.calls, alikeThen.calls, alikeElse.calls],
        by simp only [Stmt.uses, alikeThen.uses, alikeElse.uses]⟩
  | .block _ items, targets, cases, context => by
      rw [Stmt.label]
      refine (Item.labelList_alike items).bind ?_
      intro result after alike
      exact Ensures.pure ⟨alike.calls, alike.uses⟩
  | .whileLoop _ _ condition body, targets, cases, context
  | .doWhile _ _ body condition, targets, cases, context
  | .switch _ _ condition body _, targets, cases, context
  | .forLoop _ _ _ _ _ body, targets, cases, context => by
      rw [Stmt.label]
      refine Ensures.bind_any fun label between => (Stmt.label_alike body).bind ?_
      intro result after alike
      exact Ensures.pure
        ⟨by simp only [Stmt.calls, alike.calls], by simp only [Stmt.uses, alike.uses]⟩
  | .case _ _ _ body, targets, cases, context | .default _ _ body, targets, cases, context => by
      rw [Stmt.label]
      refine Ensures.bind_any fun case between => (Stmt.label_alike body).bind ?_
      intro result after alike
      exact Ensures.pure ⟨alike.calls, alike.uses⟩
  | .break _ _, targets, cases, context | .continue _ _, targets, cases, context => by
      rw [Stmt.label]
      split
      · exact Ensures.pure ⟨rfl, rfl⟩
      · exact Ensures.throw trivial
  | .ret _ _, targets, cases, context | .expr _ _, targets, cases, context
  | .null _, targets, cases, context => by
      rw [Stmt.label]
      exact Ensures.pure (.refl _)

theorem Item.labelList_alike : ∀ (items : List Item) {targets : Targets} {cases : List SwitchCase}
    {context : Context}, Yields (Item.labelList targets cases items) context fun result _ =>
      Item.AlikeList items result.1
  | [], targets, cases, context => by
      rw [Item.labelList]
      exact Ensures.pure ⟨rfl, rfl⟩
  | .stmt stmt :: items, targets, cases, context => by
      rw [Item.labelList]
      refine (Stmt.label_alike stmt).bind ?_
      rintro ⟨stmt', cases'⟩ between alike
      refine (Item.labelList_alike items).bind ?_
      rintro ⟨items', cases''⟩ after alikeRest
      exact Ensures.pure ⟨by simp only [Item.callsList, alike.calls, alikeRest.calls],
        by simp only [Item.usesList, alike.uses, alikeRest.uses]⟩
  | .decl (.object decl) :: items, targets, cases, context => by
      rw [Item.labelList, Decl.label, pure_bind]
      refine (Item.labelList_alike items).bind ?_
      rintro ⟨items', cases'⟩ after alike
      exact Ensures.pure ⟨by simp only [Item.callsList, alike.calls],
        by simp only [Item.usesList, alike.uses]⟩
  | .decl (.function _) :: items, targets, cases, context => by
      rw [Item.labelList, Decl.label, pure_bind]
      refine (Item.labelList_alike items).bind ?_
      rintro ⟨items', cases'⟩ after alike
      exact Ensures.pure ⟨alike.calls, alike.uses⟩
  | .decl (.definition _ _ _) :: items, targets, cases, context => by
      rw [Item.labelList, Decl.label]
      simp only [bind_assoc, pure_bind]
      refine Ensures.bind_any fun body' between => (Item.labelList_alike items).bind ?_
      rintro ⟨items', cases'⟩ after alike
      exact Ensures.pure ⟨alike.calls, alike.uses⟩

end

theorem Program.label_definitions : ∀ (program : Program) {context : Context},
    Yields program.label context fun labelled _ =>
      List.Forall₂ FunDecl.Alike program.definitions labelled.definitions
  | [], context => Ensures.pure .nil
  | .object decl :: decls, context | .function decl :: decls, context => by
      rw [label, List.mapM_cons, Decl.label, pure_bind]
      refine (label_definitions decls).bind ?_
      exact fun decls' after alike => Ensures.pure alike
  | .definition decl _ body :: decls, context => by
      rw [label, List.mapM_cons, Decl.label]
      simp only [bind_assoc, pure_bind]
      refine (Item.labelList_alike body).bind ?_
      intro result between alike
      refine (label_definitions decls).bind ?_
      exact fun decls' after more => Ensures.pure (.cons ⟨rfl, rfl, alike⟩ more)

end SubsetC
