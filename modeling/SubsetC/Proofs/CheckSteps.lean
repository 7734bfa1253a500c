import SubsetC.Proofs.SymbolSteps

/-!
# The check of types, step by step

The check of types goes through the declarations of a tree in order, as `Context.Steps` has it. It
makes no other call and uses no other object than the tree that is checked, and it brings them in no
other order. This holds of every tree, and does not depend on where it comes from.
-/

namespace SubsetC

/-! ### Trees that make the same calls -/

/-- A statement makes the same calls and uses the same objects as another. -/
structure Stmt.Alike (stmt other : Stmt) : Prop where
  calls : other.calls = stmt.calls
  uses : other.uses = stmt.uses

/-- The items of a block make the same calls and use the same objects as others. -/
structure Item.AlikeList (items others : List Item) : Prop where
  calls : Item.callsList others = Item.callsList items
  uses : Item.usesList others = Item.usesList items

/-- A definition declares the same names as another, makes the same calls and uses the same
objects. -/
structure FunDecl.Alike (definition other : FunDecl × List Item) : Prop where
  name : other.1.name = definition.1.name
  params : other.1.params.map Param.name = definition.1.params.map Param.name
  body : Item.AlikeList definition.2 other.2

mutual

/-- No function is defined in the statement. -/
def Stmt.isFlat : Stmt → Bool
  | .ifThen _ _ body | .whileLoop _ _ _ body | .doWhile _ _ body _ | .forLoop _ _ _ _ _ body
  | .switch _ _ _ body _ | .case _ _ _ body | .default _ _ body => body.isFlat
  | .ifElse _ _ thenBranch elseBranch => thenBranch.isFlat && elseBranch.isFlat
  | .block _ items => Item.areFlat items
  | .ret _ _ | .expr _ _ | .break _ _ | .continue _ _ | .null _ => true

def Item.areFlat : List Item → Bool
  | [] => true
  | .stmt stmt :: items => stmt.isFlat && Item.areFlat items
  | .decl (.definition _ _ _) :: _ => false
  | .decl _ :: items => Item.areFlat items

end

section

variable {context : Context}

/-! ### Functions -/

theorem Param.checkList_names : ∀ params : List Param,
    Yields (Param.checkList params) context fun params' after =>
      context = after ∧ params'.map Param.name = params.map Param.name
  | [] => Ensures.pure ⟨rfl, rfl⟩
  | param :: params => by
      rw [Param.checkList]
      simp only [Param.check, bind_assoc, pure_bind]
      refine (CType.checkObject_ensures (fun _ _ => trivial) param.type).bind ?_
      rintro _ _ ⟨rfl, _⟩
      refine (Param.checkList_names params).bind ?_
      rintro params' _ ⟨rfl, names⟩
      exact Ensures.pure ⟨rfl, by simp [names]⟩

/-- Parameters are declared one after the other. -/
theorem Param.declareList_steps : ∀ (params : List Param) {context : Context},
    Yields (Param.declareList params) context fun _ after =>
      context.Steps (params.map Param.toLocal) [] after
  | [], context => Ensures.pure (.refl context)
  | param :: params, context => by
      rw [Param.declareList]
      refine Ensures.bind_ok (Pass.run_setSymbol _ _ _ _) ?_
      refine (Param.declareList_steps params).mono fun _ after steps => ?_
      exact (Context.Steps.declare context param.toLocal (.automatic param.type)
        (.inl rfl)).append steps

namespace FunDecl

theorem mergeStorage_declares (decl : FunDecl) (isDefinition : Bool) :
    Yields (decl.mergeStorage isDefinition) context fun storage after =>
      context = after ∧ context.symbols.Declares decl.name true decl.type storage ∧
        (isDefinition → storage.isDefinition ∧ context.symbols.isDefined decl.name = false) := by
  unfold mergeStorage
  refine Ensures.bind_ok (Pass.run_findSymbol? _ _) ?_
  split
  · rename_i absent
    exact Ensures.pure ⟨rfl, .function isDefinition _ rfl absent,
      fun isDefinition => ⟨isDefinition, by simp [SymbolTable.isDefined, absent]⟩⟩
  · rename_i name type defined isGlobal found
    refine Ensures.ite (fun _ => Ensures.throw trivial) fun sameType => ?_
    refine Ensures.ite (fun _ => Ensures.throw trivial) fun once => ?_
    refine Ensures.ite (fun _ => Ensures.throw trivial) fun _ => ?_
    obtain rfl : type = decl.type := by simpa using sameType
    refine Ensures.pure ⟨rfl, .functionAgain isDefinition found, fun isDefinition => ?_⟩
    have notDefined : defined = false := by simpa [isDefinition] using once
    exact ⟨by simp [Storage.isDefinition, isDefinition],
      by simp [SymbolTable.isDefined, found, Storage.isDefinition, notDefined]⟩
  · exact Ensures.throw trivial

/-- A declaration of a function is one step. -/
theorem check_steps (decl : FunDecl) (isDefinition : Bool) :
    Yields (decl.check isDefinition) context fun decl' after =>
      context.Steps [decl.toLocal] (if isDefinition then [decl.name] else []) after ∧
        decl'.name = decl.name ∧ decl'.params.map Param.name = decl.params.map Param.name := by
  unfold check
  refine (CType.checkElements_ensures (fun _ _ => trivial) decl.result).bind ?_
  rintro _ _ ⟨rfl, _⟩
  refine (Param.checkList_names decl.params).bind ?_
  rintro params _ ⟨rfl, names⟩
  refine (mergeStorage_declares { decl with params } isDefinition).bind ?_
  rintro storage _ ⟨rfl, declares, once⟩
  refine Ensures.bind_ok (Pass.run_setSymbol _ _ _ _) (Ensures.pure ⟨?_, rfl, names⟩)
  refine .declare context decl.toLocal declares ?_
  cases isDefinition with
  | false => exact .inl rfl
  | true => exact .inr ⟨rfl, once rfl⟩

end FunDecl

/-! ### Objects -/

namespace VarDecl

/-- The initializer of a static object may enter strings, and resolves its addresses. -/
theorem initialValue_quotes (decl : VarDecl) {ifMissing : InitialValue}
    (noPointers : ∀ name, .pointer name ∉ ifMissing.items) :
    Yields (decl.initialValue ifMissing) context fun result after =>
      context.Quotes after ∧ after.symbols.Resolves result.2.items ∧
        (result.2 = .absent → ifMissing = .absent) ∧ ∃ init, result.1 = { decl with init } := by
  unfold initialValue
  split
  · exact Ensures.pure ⟨.refl _, fun name mem => absurd mem (noPointers name), id, _, rfl⟩
  · rename_i init _
    refine (init.checkStatic_quotes decl.type []).bind ?_
    rintro ⟨init', items⟩ after ⟨quotes, resolves⟩
    exact Ensures.pure ⟨quotes, resolves nofun, nofun, _, rfl⟩

/-- An object that is declared again may have been given its first value before. -/
theorem mergeStorage_declares (decl : VarDecl) {next : InitialValue}
    (resolves : context.symbols.Resolves next.items)
    (starts : next = .absent → decl.storageClass = some .external) :
    Yields (decl.mergeStorage next) context fun storage after =>
      context = after ∧ context.symbols.Declares decl.name true decl.type storage := by
  unfold mergeStorage
  refine Ensures.bind_ok (Pass.run_findSymbol? _ _) ?_
  split
  · rename_i absent
    refine Ensures.pure ⟨rfl, .object decl.type resolves (fun isAbsent => ?_) absent⟩
    simp [starts isAbsent]
  · rename_i name type previous wasGlobal found
    refine Ensures.ite (fun _ => Ensures.throw trivial) fun sameType => ?_
    refine Ensures.ite (fun _ => Ensures.throw trivial) fun _ => ?_
    obtain rfl : type = decl.type := by simpa using sameType
    split
    · exact Ensures.throw trivial
    · exact Ensures.pure ⟨rfl, .objectAgain resolves found ‹_›⟩
  · exact Ensures.throw trivial

theorem checkFile_steps (decl : VarDecl) :
    Yields decl.checkFile context fun _ after =>
      context.Steps [⟨decl.name, true, false⟩] [] after := by
  unfold checkFile
  refine (CType.checkObject_ensures (fun _ _ => trivial) decl.type).bind ?_
  rintro _ _ ⟨rfl, _⟩
  refine (decl.initialValue_quotes ?_).bind ?_
  · split <;> exact nofun
  · rintro ⟨_, next⟩ between ⟨quotes, resolves, starts, init, rfl⟩
    have starts : next = .absent → decl.storageClass = some .external := by
      intro isAbsent
      have isMissing := starts isAbsent
      split at isMissing
      · assumption
      · cases isMissing
    refine (mergeStorage_declares { decl with init } resolves starts).bind ?_
    rintro storage _ ⟨rfl, declares⟩
    refine Ensures.bind_ok (Pass.run_setSymbol _ _ _ _) (Ensures.pure ?_)
    exact quotes.steps.append
      (.declare between ⟨decl.name, true, false⟩ declares (.inl rfl))

theorem checkExternal_steps {decl : VarDecl} (isExternal : decl.storageClass = some .external) :
    Yields decl.checkExternal context fun _ after => context.Steps [decl.toLocal] [] after := by
  have linked : decl.toLocal.hasLinkage = true := by simp [toLocal, isExternal]
  unfold checkExternal
  refine Ensures.ite (fun _ => Ensures.throw trivial) fun _ => ?_
  refine Ensures.bind_ok (Pass.run_findSymbol? _ _) ?_
  split
  · rename_i absent
    refine Context.Steps.declare context decl.toLocal ?_ (.inl rfl)
    rw [linked]
    exact .object decl.type nofun (fun _ => rfl) absent
  · rename_i found
    refine Ensures.ite (fun _ => Ensures.throw trivial) fun _ => ?_
    refine Ensures.pure (.again context linked ?_)
    simp [SymbolTable.isStatic, toLocal, found]
  · exact Ensures.throw trivial

/-- An object of a block is declared before its initializer if it is automatic, and behind it if it
is static. -/
theorem checkLocal_steps (decl : VarDecl) :
    Yields decl.checkLocal context fun decl' after =>
      context.Steps [decl.toLocal] [] after ∧ decl'.calls = decl.calls ∧
        decl'.uses = decl.uses := by
  unfold checkLocal
  refine (CType.checkObject_ensures (fun _ _ => trivial) decl.type).bind ?_
  rintro _ _ ⟨rfl, _⟩
  split
  · rename_i isExternal
    refine (checkExternal_steps isExternal).bind fun _ after steps => ?_
    exact Ensures.pure ⟨steps, rfl, rfl⟩
  · rename_i isStatic
    refine (decl.initialValue_quotes fun name mem =>
      List.not_mem_nil (StaticItem.pointer_mem_of_appendZero mem)).bind ?_
    rintro ⟨_, next⟩ between ⟨quotes, resolves, starts, init, rfl⟩
    have declares : between.symbols.Declares decl.name decl.toLocal.hasLinkage decl.type
        (.static next false) := by
      have noLinkage : decl.toLocal.hasLinkage = false := by simp [toLocal, isStatic]
      rw [noLinkage]
      exact .block decl.type resolves fun isAbsent => nomatch starts isAbsent
    refine Ensures.bind_ok (Pass.run_setSymbol _ _ _ _) (Ensures.pure ⟨?_, ?_, ?_⟩)
    · exact quotes.steps.append (.declare between decl.toLocal declares (.inl rfl))
    · simp [calls, isStatic]
    · simp [uses, isStatic]
  · rename_i isAutomatic
    have declares : context.symbols.Declares decl.name decl.toLocal.hasLinkage decl.type
        .automatic := by
      simpa [toLocal, isAutomatic] using SymbolTable.Declares.automatic decl.type
    have declared : context.Steps [decl.toLocal] []
        { context with symbols := context.symbols.set decl.name decl.type .automatic } :=
      .declare context decl.toLocal declares (.inl rfl)
    refine Ensures.bind_ok (Pass.run_setSymbol _ _ _ _) ?_
    split
    · exact Ensures.pure ⟨declared, rfl, rfl⟩
    · rename_i init hasInit
      refine (init.checkAutomatic_alike decl.type).bind ?_
      rintro init' after ⟨renumbered, alike⟩
      refine Ensures.pure ⟨declared.behind renumbered, ?_, ?_⟩
      · simp [calls, isAutomatic, hasInit, alike.calls]
      · simp [uses, isAutomatic, hasInit, alike.objects]

end VarDecl

/-! ### Statements -/

theorem Expr.checkOption_erases {check : Expr → Pass Expr}
    (erases : ∀ (expr : Expr) {context : Context},
      Yields (check expr) context (context.Erases expr.erased)) (value : Option Expr) :
    Yields (checkOption check value) context fun value' after =>
      context.Renumbered after ∧ callsOption value' = callsOption value ∧
        objectsOption value' = objectsOption value := by
  cases value with
  | none => exact Ensures.pure ⟨.refl _, rfl, rfl⟩
  | some expr =>
      refine (erases expr).bind ?_
      rintro expr' after ⟨renumbered, same⟩
      exact Ensures.pure ⟨renumbered, same_of_erased same⟩

theorem Expr.checkReturn_erases (result : CType) (span : Span) (value : Option Expr) :
    Yields (checkReturn result span value) context fun value' after =>
      context.Renumbered after ∧ callsOption value' = callsOption value ∧
        objectsOption value' = objectsOption value := by
  cases value with
  | none =>
      exact Ensures.ite (fun _ => Ensures.pure ⟨.refl _, rfl, rfl⟩) fun _ => Ensures.throw trivial
  | some expr =>
      refine Ensures.ite (fun _ => Ensures.throw trivial) fun _ => ?_
      refine (checkValue_erases expr).bind ?_
      rintro value between ⟨renumbered, same⟩
      refine (assignTo_erases result value).bind ?_
      rintro value' after ⟨more, sameValue⟩
      exact Ensures.pure ⟨renumbered.trans more, same_of_erased (sameValue.trans same)⟩

theorem Expr.checkSwitch_erases (expr : Expr) :
    Yields expr.checkSwitch context (context.Erases expr.erased) := by
  refine bind_erases (checkValue_erases expr) fun value _ => ?_
  exact Ensures.ite (fun _ => convertTo_erases _ value) fun _ => Ensures.throw trivial

theorem SwitchCase.checkList_renumbers (type : CType) : ∀ (cases : List SwitchCase)
    (seen : List Int64), Yields (checkList type seen cases) context fun _ after => context = after
  | [], _ => Ensures.pure rfl
  | case :: cases, seen => by
      rw [checkList]
      split
      · refine (checkList_renumbers type cases seen).bind ?_
        rintro _ _ rfl
        exact Ensures.pure rfl
      · refine Ensures.ite (fun _ => Ensures.throw trivial) fun _ => ?_
        split
        · exact Ensures.throw trivial
        · refine Ensures.ite (fun _ => Ensures.throw trivial) fun _ => ?_
          refine (checkList_renumbers type cases _).bind ?_
          rintro _ _ rfl
          exact Ensures.pure rfl

theorem VarDecl.checkForList_steps : ∀ (decls : List VarDecl) {context : Context},
    Yields (checkForList decls) context fun decls' after =>
      context.Steps (decls.map toLocal) [] after ∧ callsList decls' = callsList decls ∧
        usesList decls' = usesList decls
  | [], context => Ensures.pure ⟨.refl _, rfl, rfl⟩
  | decl :: decls, context => by
      rw [checkForList]
      refine Ensures.ite (fun _ => Ensures.throw trivial) fun _ => ?_
      refine decl.checkLocal_steps.bind ?_
      rintro decl' between ⟨steps, sameCalls, sameUses⟩
      refine (checkForList_steps decls).bind ?_
      rintro decls' after ⟨more, sameCallsRest, sameUsesRest⟩
      refine Ensures.pure ⟨steps.append more, ?_, ?_⟩
      · rw [callsList, sameCalls, sameCallsRest, callsList]
      · rw [usesList, sameUses, sameUsesRest, usesList]

theorem ForInit.check_steps (init : ForInit) :
    Yields init.check context fun init' after =>
      context.Steps init.locals [] after ∧ init'.calls = init.calls ∧ init'.uses = init.uses := by
  cases init with
  | declarations loc decls =>
      exact (VarDecl.checkForList_steps decls).bind fun decls' after all => Ensures.pure all
  | expression loc value =>
      refine (Expr.checkOption_erases Expr.checkValue_erases value).bind ?_
      rintro value' after ⟨renumbered, same⟩
      exact Ensures.pure ⟨.number renumbered, same⟩

end

mutual

/-- The check of a statement makes its declarations in order, and leaves its calls as they are. It
refuses a statement in which a function is defined. -/
theorem Stmt.check_steps (result : CType) : ∀ (stmt : Stmt) {context : Context},
    Yields (stmt.check result) context fun stmt' after =>
      context.Steps stmt.locals [] after ∧ stmt.Alike stmt' ∧ stmt.isFlat
  | .ret loc value, context => by
      rw [Stmt.check]
      refine (Expr.checkReturn_erases result loc.span value).bind ?_
      rintro value' after ⟨renumbered, sameCalls, sameObjects⟩
      exact Ensures.pure ⟨.number renumbered, ⟨sameCalls, sameObjects⟩, rfl⟩
  | .expr _ value, context => by
      rw [Stmt.check]
      refine value.checkValue_erases.bind ?_
      rintro value' after ⟨renumbered, same⟩
      rcases Expr.same_of_erased same with ⟨sameCalls, sameObjects⟩
      exact Ensures.pure ⟨.number renumbered, ⟨sameCalls, sameObjects⟩, rfl⟩
  | .ifThen _ condition body, context | .whileLoop _ _ condition body, context => by
      rw [Stmt.check]
      refine condition.checkConditionValue_erases.bind ?_
      rintro condition' between ⟨renumbered, same⟩
      rcases Expr.same_of_erased same with ⟨sameCalls, sameObjects⟩
      refine (Stmt.check_steps result body).bind ?_
      rintro body' after ⟨steps, alike, isFlat⟩
      refine Ensures.pure ⟨steps.renumber renumbered, ⟨?_, ?_⟩, isFlat⟩
      · simp only [Stmt.calls, sameCalls, alike.calls]
      · simp only [Stmt.uses, sameObjects, alike.uses]
  | .ifElse _ condition thenBranch elseBranch, context => by
      rw [Stmt.check]
      refine condition.checkConditionValue_erases.bind ?_
      rintro condition' first ⟨renumbered, same⟩
      rcases Expr.same_of_erased same with ⟨sameCalls, sameObjects⟩
      refine (Stmt.check_steps result thenBranch).bind ?_
      rintro thenBranch' second ⟨steps, alikeThen, isFlatThen⟩
      refine (Stmt.check_steps result elseBranch).bind ?_
      rintro elseBranch' after ⟨more, alikeElse, isFlatElse⟩
      refine Ensures.pure ⟨(steps.append more).renumber renumbered, ⟨?_, ?_⟩, ?_⟩
      · simp only [Stmt.calls, sameCalls, alikeThen.calls, alikeElse.calls]
      · simp only [Stmt.uses, sameObjects, alikeThen.uses, alikeElse.uses]
      · exact Bool.and_eq_true_iff.2 ⟨isFlatThen, isFlatElse⟩
  | .block _ items, context => by
      rw [Stmt.check]
      refine (Item.checkList_steps result items).bind ?_
      rintro items' after ⟨steps, alike, areFlat⟩
      exact Ensures.pure ⟨steps, ⟨alike.calls, alike.uses⟩, areFlat⟩
  | .doWhile _ _ body condition, context => by
      rw [Stmt.check]
      refine (Stmt.check_steps result body).bind ?_
      rintro body' between ⟨steps, alike, isFlat⟩
      refine condition.checkConditionValue_erases.bind ?_
      rintro condition' after ⟨renumbered, same⟩
      rcases Expr.same_of_erased same with ⟨sameCalls, sameObjects⟩
      refine Ensures.pure ⟨steps.behind renumbered, ⟨?_, ?_⟩, isFlat⟩
      · simp only [Stmt.calls, sameCalls, alike.calls]
      · simp only [Stmt.uses, sameObjects, alike.uses]
  | .forLoop _ _ init condition post body, context => by
      rw [Stmt.check]
      refine init.check_steps.bind ?_
      rintro init' first ⟨declares, sameInit, sameInitUses⟩
      refine (Expr.checkOption_erases Expr.checkConditionValue_erases condition).bind ?_
      rintro condition' second ⟨renumbered, sameCondition, sameConditionUses⟩
      refine (Expr.checkOption_erases Expr.checkValue_erases post).bind ?_
      rintro post' third ⟨more, samePost, samePostUses⟩
      refine (Stmt.check_steps result body).bind ?_
      rintro body' after ⟨steps, alike, isFlat⟩
      have all := declares.append (steps.renumber (renumbered.trans more))
      refine Ensures.pure ⟨all, ⟨?_, ?_⟩, isFlat⟩
      · simp only [Stmt.calls, sameInit, sameCondition, samePost, alike.calls]
      · simp only [Stmt.uses, sameInitUses, sameConditionUses, samePostUses, alike.uses]
  | .switch _ _ value body cases, context => by
      rw [Stmt.check]
      refine value.checkSwitch_erases.bind ?_
      rintro value' between ⟨renumbered, same⟩
      rcases Expr.same_of_erased same with ⟨sameCalls, sameObjects⟩
      refine (SwitchCase.checkList_renumbers _ cases []).bind ?_
      rintro cases' _ rfl
      refine (Stmt.check_steps result body).bind ?_
      rintro body' after ⟨steps, alike, isFlat⟩
      refine Ensures.pure ⟨steps.renumber renumbered, ⟨?_, ?_⟩, isFlat⟩
      · simp only [Stmt.calls, sameCalls, alike.calls]
      · simp only [Stmt.uses, sameObjects, alike.uses]
  | .case _ _ value body, context => by
      rw [Stmt.check]
      refine value.checkValue_erases.bind ?_
      rintro value' between ⟨renumbered, _⟩
      refine (Stmt.check_steps result body).bind ?_
      rintro body' after ⟨steps, alike, isFlat⟩
      exact Ensures.pure ⟨steps.renumber renumbered, ⟨alike.calls, alike.uses⟩, isFlat⟩
  | .default _ _ body, context => by
      rw [Stmt.check]
      refine (Stmt.check_steps result body).bind ?_
      rintro body' after ⟨steps, alike, isFlat⟩
      exact Ensures.pure ⟨steps, ⟨alike.calls, alike.uses⟩, isFlat⟩
  | .break _ _, context | .continue _ _, context | .null _, context => by
      rw [Stmt.check]
      exact Ensures.pure ⟨.refl _, ⟨rfl, rfl⟩, rfl⟩

theorem Item.checkList_steps (result : CType) : ∀ (items : List Item) {context : Context},
    Yields (Item.checkList result items) context fun items' after =>
      context.Steps (Item.localsList items) [] after ∧ Item.AlikeList items items' ∧
        Item.areFlat items
  | [], context => by
      rw [Item.checkList]
      exact Ensures.pure ⟨.refl _, ⟨rfl, rfl⟩, rfl⟩
  | .stmt stmt :: items, context => by
      rw [Item.checkList]
      refine (Stmt.check_steps result stmt).bind ?_
      rintro stmt' between ⟨steps, alike, isFlat⟩
      refine (Item.checkList_steps result items).bind ?_
      rintro items' after ⟨more, alikeRest, areFlat⟩
      refine Ensures.pure ⟨steps.append more, ⟨?_, ?_⟩, Bool.and_eq_true_iff.2 ⟨isFlat, areFlat⟩⟩
      · simp only [Item.callsList, alike.calls, alikeRest.calls]
      · simp only [Item.usesList, alike.uses, alikeRest.uses]
  | .decl (.object decl) :: items, context => by
      rw [Item.checkList]
      simp only [Decl.checkLocal, bind_assoc, pure_bind]
      refine decl.checkLocal_steps.bind ?_
      rintro decl' between ⟨steps, sameCalls, sameUses⟩
      refine (Item.checkList_steps result items).bind ?_
      rintro items' after ⟨more, alike, areFlat⟩
      refine Ensures.pure ⟨steps.append more, ⟨?_, ?_⟩, areFlat⟩
      · simp only [Item.callsList, sameCalls, alike.calls]
      · simp only [Item.usesList, sameUses, alike.uses]
  | .decl (.function decl) :: items, context => by
      rw [Item.checkList]
      simp only [Decl.checkLocal]
      have declares : Yields (Decl.checkLocal (.function decl)) context fun result after =>
          context.Steps [decl.toLocal] [] after ∧ ∃ decl', result = Decl.function decl' := by
        rw [Decl.checkLocal]
        refine Ensures.ite (fun _ => Ensures.throw trivial) fun _ => ?_
        refine (decl.check_steps false).bind fun decl' after steps => ?_
        exact Ensures.pure ⟨steps.1, decl', rfl⟩
      refine declares.bind ?_
      rintro _ between ⟨steps, decl', rfl⟩
      refine (Item.checkList_steps result items).bind ?_
      rintro items' after ⟨more, alike, areFlat⟩
      exact Ensures.pure ⟨steps.append more, ⟨alike.calls, alike.uses⟩, areFlat⟩
  -- No function is defined inside another, so nothing is left to do.
  | .decl (.definition decl bodyLoc body) :: _, context => by
      rw [Item.checkList]
      have refuses : Yields (Decl.checkLocal (.definition decl bodyLoc body)) context
          fun _ _ => False := by
        rw [Decl.checkLocal]
        exact Ensures.throw trivial
      exact refuses.bind fun _ _ => False.elim

end

/-! ### Compilation units -/

/-- A definition is checked: its own declaration comes first, then those of its parameters and in
its body. -/
theorem Decl.checkFile_definition_steps (decl : FunDecl) (bodyLoc : Loc) (body : List Item)
    {context : Context} :
    Yields (Decl.definition decl bodyLoc body).checkFile context fun checked after =>
      context.Steps (Decl.definition decl bodyLoc body).locals [decl.name] after ∧
        Item.areFlat body ∧ ∃ decl' body', checked = .definition decl' bodyLoc body' ∧
          FunDecl.Alike (decl, body) (decl', body') := by
  rw [Decl.checkFile]
  refine (decl.check_steps true).bind ?_
  rintro decl' first ⟨declares, sameName, sameParams⟩
  refine (Param.declareList_steps decl'.params).bind ?_
  intro _ second params
  have sameLocals : decl'.params.map Param.toLocal = decl.params.map Param.toLocal := by
    have names := congrArg (List.map fun name => (⟨name, false, false⟩ : Local)) sameParams
    rw [List.map_map, List.map_map] at names
    exact names
  rw [sameLocals] at params
  refine (Item.checkList_steps decl'.result body).bind ?_
  rintro body' after ⟨steps, alike, areFlat⟩
  exact Ensures.pure ⟨declares.before (params.append steps), areFlat, decl', body', rfl, sameName,
    sameParams, alike⟩

/-- The check of a compilation unit defines the functions whose definitions are in it, and no
other functions. -/
theorem Program.check_steps : ∀ (program : Program) {context : Context},
    Yields program.check context fun program' after =>
      context.Steps program.locals (program.definitions.map fun definition => definition.1.name)
          after ∧
        List.Forall₂ FunDecl.Alike program.definitions program'.definitions ∧
        ∀ definition ∈ program.definitions, Item.areFlat definition.2
  | [], context => by
      rw [check]
      exact Ensures.pure ⟨.refl _, .nil, List.forall_mem_nil _⟩
  | .object decl :: decls, context => by
      rw [check, Decl.checkFile]
      simp only [bind_assoc, pure_bind]
      refine decl.checkFile_steps.bind ?_
      intro decl' between steps
      refine (check_steps decls).bind ?_
      rintro decls' after ⟨more, alike, areFlat⟩
      exact Ensures.pure ⟨steps.append more, alike, areFlat⟩
  | .function decl :: decls, context => by
      rw [check, Decl.checkFile]
      simp only [bind_assoc, pure_bind]
      refine (decl.check_steps false).bind ?_
      rintro decl' between ⟨steps, _⟩
      refine (check_steps decls).bind ?_
      rintro decls' after ⟨more, alike, areFlat⟩
      exact Ensures.pure ⟨steps.append more, alike, areFlat⟩
  | .definition decl bodyLoc body :: decls, context => by
      rw [check]
      refine (Decl.checkFile_definition_steps decl bodyLoc body).bind ?_
      rintro _ between ⟨steps, isFlat, decl', body', rfl, alike⟩
      refine (check_steps decls).bind ?_
      rintro decls' after ⟨more, alikeRest, areFlat⟩
      exact Ensures.pure ⟨steps.append more, .cons alike alikeRest,
        List.forall_mem_cons.2 ⟨isFlat, areFlat⟩⟩

end SubsetC
