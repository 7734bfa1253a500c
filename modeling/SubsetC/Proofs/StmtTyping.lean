import SubsetC.Analysis.Statement
import SubsetC.Proofs.DeclTyping

/-!
# Checked statements

A checked statement is explicit, and its declarations have been entered. The walk over statements
follows the declarations in them: what is ready for all of a statement is ready for its first part,
and once that part has made its declarations, for the rest.
-/

namespace SubsetC

/-! ### Expressions in statements -/

namespace Expr

section Ready

variable {allowed : Failure → Prop} {known : List Text} {locals : List Local} {context : Context}
  (ready : context.Ready allowed known locals)

include ready

theorem checkValue_ensures {expr : Expr} (isSource : expr.IsSource)
    (isScoped : expr.mentioned ⊆ known) :
    Ensures expr.checkValue context allowed fun value after =>
      context.Renumbered after ∧ value.IsValue context.symbols := by
  refine (value_ensures ready.diagnostics
    (check_ensures ready.valid.sound expr rfl isSource (ready.admits isScoped))).mono ?_
  rintro value after ⟨checks, isValue⟩
  exact ⟨checks.renumbered, isValue⟩

theorem checkConditionValue_ensures {expr : Expr} (isSource : expr.IsSource)
    (isScoped : expr.mentioned ⊆ known) :
    Ensures expr.checkConditionValue context allowed fun condition after =>
      context.Renumbered after ∧ condition.IsCondition context.symbols := by
  refine (condition_ensures ready.diagnostics
    (check_ensures ready.valid.sound expr rfl isSource (ready.admits isScoped))).mono ?_
  rintro condition after ⟨checks, isCondition⟩
  exact ⟨checks.renumbered, isCondition⟩

omit ready in
theorem checkOption_ensures {check : Expr → Pass Expr} {isChecked : Expr → Prop}
    (ensures : ∀ {expr : Expr}, expr.IsSource → expr.mentioned ⊆ known →
      Ensures (check expr) context allowed fun expr' after =>
        context.Renumbered after ∧ isChecked expr')
    {value : Option Expr} (isSource : ∀ expr ∈ value, expr.IsSource)
    (isScoped : mentionedOption value ⊆ known) :
    Ensures (checkOption check value) context allowed fun value' after =>
      context.Renumbered after ∧ ∀ expr ∈ value', isChecked expr := by
  cases value with
  | none => exact Ensures.pure ⟨.refl _, by simp⟩
  | some expr =>
      refine (ensures (isSource expr rfl) isScoped).bind ?_
      rintro expr' after ⟨renumbered, checked⟩
      exact Ensures.pure ⟨renumbered, by simpa using checked⟩

/-- The controlling value of a switch has a promoted integer type. -/
theorem checkSwitch_ensures {expr : Expr} (isSource : expr.IsSource)
    (isScoped : expr.mentioned ⊆ known) :
    Ensures expr.checkSwitch context allowed fun value after =>
      context.Renumbered after ∧ value.Explicit context.symbols ∧ value.type.isInteger ∧
        value.type.IsPromoted := by
  unfold checkSwitch
  refine (checkValue_ensures ready isSource isScoped).bind ?_
  rintro value between ⟨first, isValue⟩
  refine Ensures.ite ?_ (fun _ => Ensures.typeError ready.diagnostics)
  intro integer
  have promotes : value.type ≠ value.type.promote → value.type.ConvertsTo value.type.promote := by
    have arithmetic : value.type.isArithmetic := by simp [CType.isArithmetic, integer]
    exact fun _ => .of_arithmetic arithmetic (CType.isArithmetic_promote arithmetic)
  refine (convertTo_ensures isValue promotes).mono ?_
  rintro converted after ⟨second, isValue', sameType⟩
  refine ⟨first.trans second, isValue'.1, ?_, ?_⟩
  · exact sameType ▸ CType.isInteger_promote integer
  · exact sameType ▸ CType.isPromoted_promote value.type

/-- What a function returns has the type of its result. -/
theorem checkReturn_ensures {result : CType} {loc : Loc} {value : Option Expr}
    (isSource : ∀ expr ∈ value, expr.IsSource) (isScoped : mentionedOption value ⊆ known) :
    Ensures (checkReturn result loc.span value) context allowed fun value' after =>
      context.Renumbered after ∧ (Stmt.ret loc value').Explicit context.symbols result := by
  cases value with
  | none =>
      refine Ensures.ite ?_ (fun _ => Ensures.typeError ready.diagnostics)
      exact fun isVoid => Ensures.pure ⟨.refl _, isVoid⟩
  | some expr =>
      refine Ensures.ite (fun _ => Ensures.typeError ready.diagnostics) ?_
      intro notVoid
      refine (checkValue_ensures ready (isSource expr rfl) isScoped).bind ?_
      rintro value between ⟨first, isValue⟩
      refine (assignTo_ensures ready.diagnostics isValue).bind ?_
      rintro converted after ⟨second, isValue', sameType⟩
      exact Ensures.pure ⟨first.trans second, by simpa using notVoid, isValue', sameType⟩

end Ready

end Expr

/-- The values of cases are converted to the type of the controlling value. -/
theorem SwitchCase.checkList_ensures {type : CType} {context : Context}
    {allowed : Failure → Prop}
    (diagnostics : ∀ failure, Failure.IsDiagnostic failure → allowed failure)
    (integer : type.isInteger) (promoted : type.IsPromoted) :
    ∀ (cases : List SwitchCase) (seen : List Int64),
      Ensures (checkList type seen cases) context allowed fun cases' after =>
        context = after ∧ ∀ case ∈ cases', ∀ constant ∈ case.value, constant.type = type
  | [], seen => by
      rw [checkList]
      exact Ensures.pure ⟨rfl, by simp⟩
  | case :: cases, seen => by
      rw [checkList]
      split
      · rename_i isDefault
        refine (checkList_ensures diagnostics integer promoted cases seen).bind ?_
        rintro cases' _ ⟨rfl, types⟩
        exact Ensures.pure ⟨rfl, List.forall_mem_cons.2 ⟨by simp [isDefault], types⟩⟩
      · rename_i value hasValue
        have arithmetic : type.isArithmetic := by simp [CType.isArithmetic, integer]
        rcases Option.isSome_iff_exists.1 (Const.isSome_convert? arithmetic value) with
          ⟨converted, found⟩
        refine Ensures.ite (fun _ => Ensures.typeError diagnostics) (fun _ => ?_)
        simp only [found]
        refine Ensures.ite (fun _ => Ensures.flowError diagnostics) (fun _ => ?_)
        refine (checkList_ensures diagnostics integer promoted cases _).bind ?_
        rintro cases' _ ⟨rfl, types⟩
        refine Ensures.pure ⟨rfl, List.forall_mem_cons.2 ⟨?_, types⟩⟩
        simpa using Const.type_convert? integer promoted found

theorem ForInit.check_ensures {allowed : Failure → Prop} {known : List Text} {context : Context}
    {init : ForInit} (ready : context.Ready allowed known init.locals) (isSource : init.IsSource)
    (isScoped : init.Scoped known) :
    Ensures init.check context allowed fun init' after =>
      context.Declares init.locals after ∧ init'.Explicit after.symbols ∧
        ∀ name ∈ init.names, (after.symbols.find? name).isSome := by
  cases init with
  | declarations loc decls =>
      refine (VarDecl.checkForList_ensures decls ready isSource isScoped).bind ?_
      rintro decls' after ⟨declares, explicit⟩
      refine Ensures.pure ⟨declares, explicit, ?_⟩
      intro name mem
      rcases List.mem_map.1 (List.mem_reverse.1 mem) with ⟨decl, declMem, rfl⟩
      exact declares.known decl.toLocal (List.mem_map_of_mem declMem)
  | expression loc value =>
      refine (Expr.checkOption_ensures (Expr.checkValue_ensures ready) isSource isScoped).bind ?_
      rintro value' after ⟨renumbered, isValue⟩
      have declares := Context.Declares.of_renumbered renumbered ready.valid
      refine Ensures.pure ⟨declares, ?_, by simp [names]⟩
      exact fun expr mem => (isValue expr mem).extend declares.extends_

theorem Decl.checkLocal_function_ensures {context : Context} {allowed : Failure → Prop}
    (diagnostics : ∀ failure, Failure.IsDiagnostic failure → allowed failure) {decl : FunDecl}
    (valid : context.Valid) (isSource : decl.IsSource) :
    Ensures (Decl.function decl).checkLocal context allowed fun decl' after =>
      context.Declares [decl.toLocal] after ∧
        ∃ function, decl' = .function function ∧ function.Explicit after.symbols := by
  unfold Decl.checkLocal
  refine Ensures.ite (fun _ => Ensures.typeError diagnostics) (fun _ => ?_)
  refine (FunDecl.check_ensures diagnostics valid isSource).bind ?_
  rintro decl' after ⟨declares, explicit, _⟩
  exact Ensures.pure ⟨declares, decl', rfl, explicit⟩

/-! ### Statements -/

section Statements

variable {allowed : Failure → Prop} {result : CType}

mutual

/-- A checked statement is explicit, and has made its declarations. -/
theorem Stmt.check_ensures : ∀ (stmt : Stmt) {known : List Text} {context : Context},
    context.Ready allowed known stmt.locals → stmt.IsSource → stmt.Scoped known →
    Ensures (stmt.check result) context allowed fun stmt' after =>
      context.Declares stmt.locals after ∧ stmt'.Explicit after.symbols result
  | .ret loc value, known, context, ready, isSource, isScoped => by
      rw [Stmt.check]
      refine (Expr.checkReturn_ensures ready isSource isScoped).bind ?_
      rintro value' after ⟨renumbered, explicit⟩
      have declares := Context.Declares.of_renumbered renumbered ready.valid
      exact Ensures.pure ⟨declares, Stmt.Explicit.extend declares.extends_ _ explicit⟩
  | .expr loc value, known, context, ready, isSource, isScoped => by
      rw [Stmt.check]
      refine (Expr.checkValue_ensures ready isSource isScoped).bind ?_
      rintro value' after ⟨renumbered, isValue⟩
      have declares := Context.Declares.of_renumbered renumbered ready.valid
      exact Ensures.pure ⟨declares, isValue.extend declares.extends_⟩
  | .ifThen loc condition thenBranch, known, context, ready, isSource, isScoped => by
      rw [Stmt.check]
      refine (Expr.checkConditionValue_ensures ready isSource.1 isScoped.1).bind ?_
      rintro condition' between ⟨renumbered, isCondition⟩
      refine (Stmt.check_ensures thenBranch (ready.renumber renumbered) isSource.2
        isScoped.2).bind ?_
      rintro thenBranch' after ⟨declares, explicit⟩
      have all := declares.renumber renumbered ready.valid
      exact Ensures.pure ⟨all, isCondition.extend all.extends_, explicit⟩
  | .ifElse loc condition thenBranch elseBranch, known, context, ready, isSource, isScoped => by
      rw [Stmt.check]
      refine (Expr.checkConditionValue_ensures ready isSource.1 isScoped.1).bind ?_
      rintro condition' between ⟨renumbered, isCondition⟩
      have ready' := ready.renumber renumbered
      refine (Stmt.check_ensures thenBranch ready'.left isSource.2.1 isScoped.2.1).bind ?_
      rintro thenBranch' middle ⟨thenDeclares, thenExplicit⟩
      refine (Stmt.check_ensures elseBranch (ready'.right thenDeclares) isSource.2.2
        isScoped.2.2).bind ?_
      rintro elseBranch' after ⟨elseDeclares, elseExplicit⟩
      have all := (thenDeclares.append elseDeclares).renumber renumbered ready.valid
      exact Ensures.pure ⟨all, isCondition.extend all.extends_,
        Stmt.Explicit.extend elseDeclares.extends_ _ thenExplicit, elseExplicit⟩
  | .block loc items, known, context, ready, isSource, isScoped => by
      rw [Stmt.check]
      refine (Item.checkList_ensures items ready isSource isScoped).bind ?_
      rintro items' after ⟨declares, explicit⟩
      exact Ensures.pure ⟨declares, explicit⟩
  | .whileLoop loc label condition body, known, context, ready, isSource, isScoped => by
      rw [Stmt.check]
      refine (Expr.checkConditionValue_ensures ready isSource.1 isScoped.1).bind ?_
      rintro condition' between ⟨renumbered, isCondition⟩
      refine (Stmt.check_ensures body (ready.renumber renumbered) isSource.2 isScoped.2).bind ?_
      rintro body' after ⟨declares, explicit⟩
      have all := declares.renumber renumbered ready.valid
      exact Ensures.pure ⟨all, isCondition.extend all.extends_, explicit⟩
  | .doWhile loc label body condition, known, context, ready, isSource, isScoped => by
      rw [Stmt.check]
      refine (Stmt.check_ensures body ready isSource.2 isScoped.2).bind ?_
      rintro body' between ⟨declares, explicit⟩
      have all : context.Ready allowed known (body.locals ++ []) := by
        simpa [Stmt.locals] using ready
      refine (Expr.checkConditionValue_ensures (all.right declares) isSource.1 isScoped.1).bind ?_
      rintro condition' after ⟨renumbered, isCondition⟩
      have last := Context.Declares.of_renumbered renumbered declares.enters.valid
      refine Ensures.pure ⟨?_, isCondition.extend last.extends_,
        Stmt.Explicit.extend last.extends_ _ explicit⟩
      simpa [Stmt.locals] using declares.append last
  | .forLoop loc label init condition post body, known, context, ready, isSource, isScoped => by
      rcases isSource with ⟨initSource, conditionSource, postSource, bodySource⟩
      rcases isScoped with ⟨initScoped, conditionScoped, postScoped, bodyScoped⟩
      rw [Stmt.check]
      refine (ForInit.check_ensures ready.left initSource initScoped).bind ?_
      rintro init' first ⟨initDeclares, initExplicit, present⟩
      have ready' := (ready.right initDeclares).know present
      refine (Expr.checkOption_ensures (Expr.checkConditionValue_ensures ready') conditionSource
        conditionScoped).bind ?_
      rintro condition' second ⟨renumbered, isCondition⟩
      have ready'' := ready'.renumber renumbered
      refine (Expr.checkOption_ensures (Expr.checkValue_ensures ready'') postSource
        postScoped).bind ?_
      rintro post' third ⟨renumbered', isValue⟩
      refine (Stmt.check_ensures body (ready''.renumber renumbered') bodySource bodyScoped).bind ?_
      rintro body' after ⟨bodyDeclares, bodyExplicit⟩
      have fromSecond := bodyDeclares.renumber renumbered' ready''.valid
      have fromFirst := fromSecond.renumber renumbered ready'.valid
      exact Ensures.pure ⟨initDeclares.append fromFirst, initExplicit.extend fromFirst.extends_,
        fun expr mem => (isCondition expr mem).extend fromFirst.extends_,
        fun expr mem => (isValue expr mem).extend fromSecond.extends_, bodyExplicit⟩
  | .switch loc label value body cases, known, context, ready, isSource, isScoped => by
      rw [Stmt.check]
      refine (Expr.checkSwitch_ensures ready isSource.1 isScoped.1).bind ?_
      rintro value' between ⟨renumbered, explicit, integer, promoted⟩
      refine (SwitchCase.checkList_ensures ready.diagnostics integer promoted cases []).bind ?_
      rintro cases' _ ⟨rfl, types⟩
      refine (Stmt.check_ensures body (ready.renumber renumbered) isSource.2 isScoped.2).bind ?_
      rintro body' after ⟨declares, bodyExplicit⟩
      have all := declares.renumber renumbered ready.valid
      exact Ensures.pure ⟨all, Expr.Explicit.extend all.extends_ _ explicit, integer, promoted,
        types, bodyExplicit⟩
  | .case loc label value body, known, context, ready, isSource, isScoped => by
      rw [Stmt.check]
      refine (Expr.checkValue_ensures ready isSource.1 isScoped.1).bind ?_
      rintro value' between ⟨renumbered, isValue⟩
      refine (Stmt.check_ensures body (ready.renumber renumbered) isSource.2 isScoped.2).bind ?_
      rintro body' after ⟨declares, explicit⟩
      have all := declares.renumber renumbered ready.valid
      exact Ensures.pure ⟨all, isValue.extend all.extends_, explicit⟩
  | .default loc label body, known, context, ready, isSource, isScoped => by
      rw [Stmt.check]
      refine (Stmt.check_ensures body ready isSource isScoped).bind ?_
      rintro body' after ⟨declares, explicit⟩
      exact Ensures.pure ⟨declares, explicit⟩
  | .break _ _, known, context, ready, _, _ | .continue _ _, known, context, ready, _, _
  | .null _, known, context, ready, _, _ => by
      rw [Stmt.check]
      exact Ensures.pure ⟨.nil ready.valid, trivial⟩

theorem Item.checkList_ensures : ∀ (items : List Item) {known : List Text} {context : Context},
    context.Ready allowed known (Item.localsList items) → Item.IsSourceList items →
    Item.ScopedList known items →
    Ensures (Item.checkList result items) context allowed fun items' after =>
      context.Declares (Item.localsList items) after ∧
        Item.ExplicitList after.symbols result items'
  | [], known, context, ready, _, _ => by
      rw [Item.checkList]
      exact Ensures.pure ⟨.nil ready.valid, trivial⟩
  | .stmt stmt :: items, known, context, ready, isSource, isScoped => by
      rw [Item.checkList]
      refine (Stmt.check_ensures stmt ready.left isSource.1 isScoped.1).bind ?_
      rintro stmt' between ⟨declares, explicit⟩
      refine (Item.checkList_ensures items (ready.right declares) isSource.2 isScoped.2).bind ?_
      rintro items' after ⟨restDeclares, explicitRest⟩
      exact Ensures.pure ⟨declares.append restDeclares,
        Stmt.Explicit.extend restDeclares.extends_ _ explicit, explicitRest⟩
  | .decl (.object decl) :: items, known, context, ready, isSource, isScoped => by
      have ready : context.Ready allowed known ([decl.toLocal] ++ Item.localsList items) := ready
      rw [Item.checkList]
      simp only [Decl.checkLocal, bind_assoc, pure_bind]
      refine (VarDecl.checkLocal_ensures ready.left isSource.1 isScoped.1).bind ?_
      rintro decl' between ⟨declares, explicit⟩
      have present : ∀ name ∈ [decl.name], (between.symbols.find? name).isSome := by
        simpa [VarDecl.toLocal] using declares.known
      refine (Item.checkList_ensures items ((ready.right declares).know present) isSource.2
        isScoped.2).bind ?_
      rintro items' after ⟨restDeclares, explicitRest⟩
      exact Ensures.pure ⟨declares.append restDeclares, explicit.extend restDeclares.extends_,
        explicitRest⟩
  | .decl (.function decl) :: items, known, context, ready, isSource, isScoped => by
      have ready : context.Ready allowed known ([decl.toLocal] ++ Item.localsList items) := ready
      rw [Item.checkList]
      refine (Decl.checkLocal_function_ensures ready.diagnostics ready.valid isSource.1).bind ?_
      rintro _ between ⟨declares, decl', rfl, explicit⟩
      have present : ∀ name ∈ [decl.name], (between.symbols.find? name).isSome := by
        simpa [FunDecl.toLocal] using declares.known
      refine (Item.checkList_ensures items ((ready.right declares).know present) isSource.2
        isScoped).bind ?_
      rintro items' after ⟨restDeclares, explicitRest⟩
      exact Ensures.pure ⟨declares.append restDeclares,
        SymbolTable.HasFunction.extend explicit restDeclares.extends_, explicitRest⟩
  | .decl (.definition _ _ _) :: _, known, context, ready, _, _ => by
      rw [Item.checkList]
      exact Ensures.bind (Ensures.typeError ready.diagnostics) fun _ _ impossible => impossible

end

end Statements

end SubsetC
