import SubsetC.Proofs.RenamedTypes

/-!
# Renamed trees and their symbols

The initializers and declarations of a tree with other names lead to the same symbols with the other
names. The main statement is `Program.check_mirrored`.
-/

namespace SubsetC

open Pass (Mirrored)

-- The recursive calls of a mutual block hide that its theorems use the hypothesis.
set_option linter.unusedSectionVars false

/-! ### Items of static initializers -/

namespace StaticItem

variable (change : Text → Text)

theorem appendZero_rename (items : List StaticItem) (size : Size) :
    appendZero (items.map (rename change)) size = (appendZero items size).map (rename change) := by
  unfold appendZero
  by_cases none : size ≤ 0
  · rw [if_pos none, if_pos none]
  · rw [if_neg none, if_neg none, List.getLast?_map]
    rcases items.getLast? with _ | _ | _ | _ | _ <;> simp [rename]

end StaticItem

theorem InitialValue.merge?_rename (change : Text → Text) (previous next : InitialValue) :
    (previous.rename change).merge? (next.rename change) =
      (previous.merge? next).map (InitialValue.rename change) := by
  cases previous <;> cases next <;> rfl

variable {names : NameChange} (spares : names.Spares)

include spares

namespace Expr

theorem checkInitial_mirrored (type : CType) (span : Span) (expr : Expr) :
    Mirrored names (expr.checkInitial type span)
      ((expr.rename names.internal).checkInitial type span) (rename names.internal) := by
  have scalar : Mirrored names (do let value ← expr.checkValue; value.assignTo type)
      (do let value ← (expr.rename names.internal).checkValue; value.assignTo type)
      (rename names.internal) :=
    (checkValue_mirrored spares expr).bind (assignTo_mirrored type)
  cases type with
  | array size element =>
      cases expr with
      | string note bytes =>
          exact .ite .typeError (.ite .typeError (check_mirrored spares (.string note bytes)))
      | _ => exact .typeError
  | _ => exact scalar

theorem staticAddress_mirrored (span : Span) (name : Text) :
    Mirrored names (staticAddress span name) (staticAddress span (names.internal name))
      (StaticItem.rename names.internal) := by
  refine Mirrored.get.bind fun context => .ite_iff ?_ (fun _ => .pure rfl) fun _ => .typeError
  rw [Context.rename, SymbolTable.isStatic_rename spares.injective]

omit spares in
theorem scalarItem_mirrored (type : CType) (expr : Expr) :
    Mirrored names (expr.scalarItem type) ((expr.rename names.internal).scalarItem type)
      (StaticItem.rename names.internal) := by
  rw [scalarItem, scalarItem, fold?_rename, span_rename]
  split
  · exact .typeError
  · split
    · exact .throw (.refl _)
    · exact .pure rfl

theorem pointerItem_mirrored (expr : Expr) :
    Mirrored names expr.pointerItem (expr.rename names.internal).pointerItem
      (StaticItem.rename names.internal) := by
  rw [pointerItem, pointerItem, stripPointers_rename, span_rename]
  cases expr.stripPointers with
  | cast _ _ operand _ =>
      simp only [rename, fold?_rename]
      split
      · exact .ite (.pure rfl) .typeError
      · exact .typeError
  | addressOf _ operand =>
      cases operand with
      | var _ name => exact staticAddress_mirrored spares expr.span name
      | _ => exact .typeError
  | decay _ operand =>
      cases operand with
      | var _ name => exact staticAddress_mirrored spares expr.span name
      | string _ bytes => exact (spares.newString_mirrored bytes).bind fun _ => .pure rfl
      | _ => exact .typeError
  | _ => exact .typeError

theorem appendItems_mirrored (type : CType) (items : List StaticItem) (expr : Expr) :
    Mirrored names (expr.appendItems type items)
      ((expr.rename names.internal).appendItems type (items.map (StaticItem.rename names.internal)))
      (List.map (StaticItem.rename names.internal)) := by
  have value : Mirrored names (expr.appendValue type items)
      ((expr.rename names.internal).appendValue type
        (items.map (StaticItem.rename names.internal)))
      (List.map (StaticItem.rename names.internal)) := by
    have item : Mirrored names (if type.isPointer then expr.pointerItem else expr.scalarItem type)
        (if type.isPointer then (expr.rename names.internal).pointerItem
          else (expr.rename names.internal).scalarItem type) (StaticItem.rename names.internal) :=
      .ite (pointerItem_mirrored spares expr) (scalarItem_mirrored type expr)
    rw [appendValue_eq, appendValue_eq]
    refine item.bind fun item => .pure ?_
    cases item <;> simp [StaticItem.append, StaticItem.rename, StaticItem.appendZero_rename]
    split <;> simp [StaticItem.rename]
  unfold appendItems
  cases type with
  | array size element =>
      cases expr with
      | string note bytes =>
          refine .pure ?_
          rw [← StaticItem.appendZero_rename, List.map_append]
          rfl
      | _ => exact value
  | _ => exact value

end Expr

/-! ### Initializers -/

namespace Initializer

omit spares in
theorem renameList_eq_map (change : Text → Text) (items : List Initializer) :
    renameList change items = items.map (rename change) := by
  induction items with
  | nil => rfl
  | cons item _ ih => exact congrArg (item.rename change :: ·) ih

omit spares in
theorem zero_mirrored (span : Span) : ∀ type : CType,
    Mirrored names (zero span type) (zero span type) (rename names.internal)
  | .array size element => by
      unfold zero
      refine (Mirrored.newLoc _).bind fun _ =>
        ((zero_mirrored span element).times _).bind fun _ => .pure ?_
      rw [rename, renameList_eq_map]
      rfl
  | .void | .function _ _ => by
      unfold zero
      exact .throw (.refl _)
  | .integer _ | .double | .pointer _ => by
      unfold zero
      exact (Mirrored.newLoc _).bind fun _ => (Mirrored.newLoc _).bind fun _ => .pure rfl

mutual

theorem checkAutomatic_mirrored (type : CType) : ∀ init : Initializer,
    Mirrored names (init.checkAutomatic type) ((init.rename names.internal).checkAutomatic type)
      (rename names.internal)
  | .single _ value => by
      rw [rename, checkAutomatic, checkAutomatic]
      exact (value.checkInitial_mirrored spares type _).bind fun _ => .pure rfl
  | .compound loc items => by
      rw [rename]
      unfold checkAutomatic
      cases type with
      | array size element =>
          simp only [length_renameList]
          refine .ite .typeError ((checkAutomaticList_mirrored element items).bind fun _ => ?_)
          refine ((zero_mirrored _ element).times _).bind fun _ => .pure ?_
          rw [rename, renameList_eq_map, renameList_eq_map, List.map_append]
      | _ =>
          rcases items with _ | ⟨_ | _, _ | _⟩
          case cons.single.nil =>
            exact (Expr.checkInitial_mirrored spares _ _ _).bind fun _ => .pure rfl
          all_goals exact .typeError

theorem checkAutomaticList_mirrored (element : CType) : ∀ items : List Initializer,
    Mirrored names (checkAutomaticList element items)
      (checkAutomaticList element (renameList names.internal items)) (renameList names.internal)
  | [] => .pure rfl
  | item :: items => by
      rw [renameList, checkAutomaticList, checkAutomaticList]
      exact (checkAutomatic_mirrored element item).bind fun _ =>
        (checkAutomaticList_mirrored element items).bind fun _ => .pure rfl

end

mutual

theorem checkStatic_mirrored (type : CType) (items : List StaticItem) : ∀ init : Initializer,
    Mirrored names (init.checkStatic type items)
      ((init.rename names.internal).checkStatic type (items.map (StaticItem.rename names.internal)))
      (Prod.map (rename names.internal) (List.map (StaticItem.rename names.internal)))
  | .single _ value => by
      rw [rename, checkStatic, checkStatic]
      exact (value.checkInitial_mirrored spares type _).bind fun value =>
        (value.appendItems_mirrored spares type items).bind fun _ => .pure rfl
  | .compound loc elements => by
      rw [rename]
      unfold checkStatic
      cases type with
      | array size element =>
          simp only [length_renameList]
          refine .ite .typeError ((checkStaticList_mirrored element items elements).bind
            fun made => .pure ?_)
          exact congrArg (Prod.mk _) (StaticItem.appendZero_rename _ made.2 _)
      | _ =>
          rcases elements with _ | ⟨_ | _, _ | _⟩
          case cons.single.nil =>
            exact (Expr.checkInitial_mirrored spares _ _ _).bind fun value =>
              (value.appendItems_mirrored spares _ items).bind fun _ => .pure rfl
          all_goals exact .typeError

theorem checkStaticList_mirrored (element : CType) : ∀ (items : List StaticItem)
    (elements : List Initializer), Mirrored names (checkStaticList element items elements)
      (checkStaticList element (items.map (StaticItem.rename names.internal))
        (renameList names.internal elements))
      (Prod.map (renameList names.internal) (List.map (StaticItem.rename names.internal)))
  | _, [] => .pure rfl
  | items, first :: rest => by
      rw [renameList, checkStaticList, checkStaticList]
      exact (checkStatic_mirrored element items first).bind fun made =>
        (checkStaticList_mirrored element made.2 rest).bind fun _ => .pure rfl

end

end Initializer

/-! ### Declarations -/

theorem Param.checkList_mirrored : ∀ params : List Param,
    Mirrored names (checkList params) (checkList (params.map (Param.rename names.internal)))
      (List.map (Param.rename names.internal))
  | [] => .pure rfl
  | param :: params => by
      have first : Mirrored names param.check (param.rename names.internal).check
          (Param.rename names.internal) :=
        (CType.checkObject_mirrored _ _ _ _).bind fun _ => .pure rfl
      rw [List.map_cons, checkList, checkList]
      exact first.bind fun _ => (checkList_mirrored params).bind fun _ => .pure rfl

theorem Param.declareList_mirrored : ∀ params : List Param,
    Mirrored names (declareList params) (declareList (params.map (Param.rename names.internal))) id
  | [] => .pure rfl
  | param :: params => by
      rw [List.map_cons, param.rename_eq spares.empty, declareList, declareList]
      exact (spares.setSymbol_mirrored _ _ _).bind fun _ => declareList_mirrored params

namespace FunDecl

omit spares in
theorem type_rename (change : Text → Text) (decl : FunDecl) :
    (decl.rename change).type = decl.type := by
  rw [type, type, rename, List.map_map]
  rfl

theorem mergeStorage_mirrored (decl : FunDecl) (isDefinition : Bool) :
    Mirrored names (decl.mergeStorage isDefinition)
      ((decl.rename names.internal).mergeStorage isDefinition) (Storage.rename names.internal) := by
  unfold mergeStorage
  refine (spares.findSymbol?_mirrored decl.name).bind fun found => ?_
  rw [type_rename]
  rcases found with _ | ⟨_, type, _ | _ | _ | _⟩
  case some.function =>
    exact .ite .typeError (.ite .typeError (.ite (.nameError rfl) (.pure rfl)))
  case none => exact .pure rfl
  all_goals exact .typeError

theorem check_mirrored (decl : FunDecl) (isDefinition : Bool) :
    Mirrored names (decl.check isDefinition) ((decl.rename names.internal).check isDefinition)
      (FunDecl.rename names.internal) := by
  refine (CType.checkElements_mirrored _ _).bind fun _ =>
    (Param.checkList_mirrored spares decl.params).bind fun params => ?_
  refine (mergeStorage_mirrored spares { decl with params } isDefinition).bind fun storage => ?_
  have sets : Mirrored names
      (Pass.setSymbol decl.name ({ decl with params } : FunDecl).type storage)
      (Pass.setSymbol (names.internal decl.name)
        (({ decl with params } : FunDecl).rename names.internal).type
        (storage.rename names.internal)) id := by
    rw [type_rename]
    exact spares.setSymbol_mirrored _ _ _
  exact sets.bind fun _ => .pure rfl

end FunDecl

namespace VarDecl

/-- The declaration and the way its object starts out, with changed names. -/
def renameStarted (change : Text → Text) : VarDecl × InitialValue → VarDecl × InitialValue :=
  Prod.map (VarDecl.rename change) (InitialValue.rename change)

theorem initialValue_mirrored (decl : VarDecl) (ifMissing : InitialValue) :
    Mirrored names (decl.initialValue ifMissing)
      ((decl.rename names.internal).initialValue (ifMissing.rename names.internal))
      (renameStarted names.internal) := by
  rcases decl with ⟨loc, name, type, storageClass, _ | init⟩
  · exact .pure rfl
  · exact (Initializer.checkStatic_mirrored spares type [] init).bind fun _ => .pure rfl

theorem mergeStorage_mirrored (decl : VarDecl) (next : InitialValue) :
    Mirrored names (decl.mergeStorage next)
      ((decl.rename names.internal).mergeStorage (next.rename names.internal))
      (Storage.rename names.internal) := by
  unfold mergeStorage
  refine (spares.findSymbol?_mirrored decl.name).bind fun found => ?_
  rcases found with _ | ⟨_, type, _ | ⟨previous, wasGlobal⟩ | _ | _⟩
  case some.static =>
    refine .ite .typeError (.ite (.nameError rfl) ?_)
    rw [InitialValue.merge?_rename]
    cases previous.merge? next with
    | none => exact .typeError
    | some init => exact .pure rfl
  case none => exact .pure rfl
  all_goals exact .typeError

theorem checkFile_mirrored (decl : VarDecl) :
    Mirrored names decl.checkFile (decl.rename names.internal).checkFile
      (VarDecl.rename names.internal) := by
  have missing : (if decl.storageClass = some .external then InitialValue.absent
        else .tentative).rename names.internal =
      if decl.storageClass = some .external then .absent else .tentative := by
    split <;> rfl
  refine (CType.checkObject_mirrored _ _ _ _).bind fun _ => ?_
  have starts := initialValue_mirrored spares decl
    (if decl.storageClass = some .external then .absent else .tentative)
  rw [missing] at starts
  exact starts.bind fun started =>
    (mergeStorage_mirrored spares started.1 started.2).bind fun storage =>
      (spares.setSymbol_mirrored started.1.name started.1.type storage).bind fun _ => .pure rfl

theorem checkExternal_mirrored (decl : VarDecl) :
    Mirrored names decl.checkExternal (decl.rename names.internal).checkExternal id := by
  have hasInit : (decl.rename names.internal).init.isSome = true ↔ decl.init.isSome = true := by
    rw [VarDecl.rename, Option.isSome_map]
  refine .ite_iff hasInit (fun _ => .typeError_bind) fun _ =>
    (spares.findSymbol?_mirrored decl.name).bind fun found => ?_
  rcases found with _ | ⟨_, type, _ | _ | _ | _⟩
  case none => exact spares.setSymbol_mirrored decl.name decl.type (.static .absent true)
  case some.static => exact .ite .typeError (.pure rfl)
  all_goals exact .typeError

theorem checkLocal_mirrored (decl : VarDecl) :
    Mirrored names decl.checkLocal (decl.rename names.internal).checkLocal
      (VarDecl.rename names.internal) := by
  refine (CType.checkObject_mirrored _ _ _ _).bind fun _ => ?_
  rcases decl with ⟨loc, name, type, _ | _ | _, init⟩
  · refine (spares.setSymbol_mirrored name type .automatic).bind fun _ => ?_
    cases init with
    | none => exact .pure rfl
    | some init =>
        exact (Initializer.checkAutomatic_mirrored spares type init).bind fun _ => .pure rfl
  · have zeros : (StaticItem.appendZero [] type.size).map (StaticItem.rename names.internal) =
        StaticItem.appendZero [] type.size :=
      (StaticItem.appendZero_rename names.internal [] type.size).symm
    have starts := initialValue_mirrored spares ⟨loc, name, type, some .static, init⟩
      (.initial (StaticItem.appendZero [] type.size))
    rw [InitialValue.rename, zeros] at starts
    exact starts.bind fun started =>
      (spares.setSymbol_mirrored started.1.name started.1.type
        (.static started.2 false)).bind fun _ => .pure rfl
  · exact (checkExternal_mirrored spares _).bind fun _ => .pure rfl

theorem checkForList_mirrored : ∀ decls : List VarDecl,
    Mirrored names (checkForList decls)
      (checkForList (decls.map (VarDecl.rename names.internal)))
      (List.map (VarDecl.rename names.internal))
  | [] => .pure rfl
  | decl :: decls => by
      rw [List.map_cons, checkForList, checkForList]
      refine .ite .typeError_bind ?_
      exact (checkLocal_mirrored spares decl).bind fun _ =>
        (checkForList_mirrored decls).bind fun _ => .pure rfl

end VarDecl

theorem Decl.checkLocal_mirrored (decl : Decl) :
    Mirrored names decl.checkLocal (decl.map (.renamed names.internal) false).checkLocal
      (Decl.map (.renamed names.internal) false) := by
  cases decl with
  | object decl => exact (decl.checkLocal_mirrored spares).bind fun _ => .pure rfl
  | function decl =>
      exact .ite .typeError ((decl.check_mirrored spares false).bind fun _ => .pure rfl)
  | definition decl _ _ => exact .typeError

/-! ### Statements -/

theorem ForInit.check_mirrored (init : ForInit) :
    Mirrored names init.check (init.map (.renamed names.internal)).check
      (ForInit.map (.renamed names.internal)) := by
  cases init with
  | declarations loc decls =>
      exact (VarDecl.checkForList_mirrored spares decls).bind fun _ => .pure rfl
  | expression loc value =>
      exact (Expr.checkOption_mirrored (Expr.checkValue_mirrored spares) value).bind
        fun _ => .pure rfl

omit spares in
theorem SwitchCase.checkList_mirrored (type : CType) : ∀ (seen : List Int64)
    (cases : List SwitchCase), Mirrored names (SwitchCase.checkList type seen cases)
      (SwitchCase.checkList type seen cases) id
  | _, [] => .pure rfl
  | seen, case :: cases => by
      unfold checkList
      split
      · exact (checkList_mirrored type seen cases).bind fun _ => .pure rfl
      · refine .ite .typeError ?_
        split
        · exact .throw (.refl _)
        · exact .ite (.throw (.refl _))
            ((checkList_mirrored type _ cases).bind fun _ => .pure rfl)

mutual

theorem Stmt.check_mirrored (result : CType) : ∀ stmt : Stmt,
    Mirrored names (stmt.check result) ((stmt.map (.renamed names.internal)).check result)
      (Stmt.map (.renamed names.internal))
  | .ret loc value =>
      (Expr.checkReturn_mirrored spares result loc.span value).bind fun _ => .pure rfl
  | .expr _ value => (value.checkValue_mirrored spares).bind fun _ => .pure rfl
  | .ifThen _ condition thenBranch =>
      (condition.checkConditionValue_mirrored spares).bind fun _ =>
        (Stmt.check_mirrored result thenBranch).bind fun _ => .pure rfl
  | .ifElse _ condition thenBranch elseBranch =>
      (condition.checkConditionValue_mirrored spares).bind fun _ =>
        (Stmt.check_mirrored result thenBranch).bind fun _ =>
          (Stmt.check_mirrored result elseBranch).bind fun _ => .pure rfl
  | .block _ items => (Item.checkList_mirrored result items).bind fun _ => .pure rfl
  | .whileLoop _ _ condition body =>
      (condition.checkConditionValue_mirrored spares).bind fun _ =>
        (Stmt.check_mirrored result body).bind fun _ => .pure rfl
  | .doWhile _ _ body condition =>
      (Stmt.check_mirrored result body).bind fun _ =>
        (condition.checkConditionValue_mirrored spares).bind fun _ => .pure rfl
  | .forLoop _ _ init condition post body =>
      (init.check_mirrored spares).bind fun _ =>
        (Expr.checkOption_mirrored (Expr.checkConditionValue_mirrored spares) condition).bind fun _ =>
          (Expr.checkOption_mirrored (Expr.checkValue_mirrored spares) post).bind fun _ =>
            (Stmt.check_mirrored result body).bind fun _ => .pure rfl
  | .switch _ _ value body cases => by
      rw [Stmt.map, Stmt.check, Stmt.check]
      refine (value.checkSwitch_mirrored spares).bind fun _ => ?_
      rw [Expr.type_rename]
      exact (SwitchCase.checkList_mirrored _ [] cases).bind fun _ =>
        (Stmt.check_mirrored result body).bind fun _ => .pure rfl
  | .case _ _ value body =>
      (value.checkValue_mirrored spares).bind fun _ =>
        (Stmt.check_mirrored result body).bind fun _ => .pure rfl
  | .default _ _ body => (Stmt.check_mirrored result body).bind fun _ => .pure rfl
  | .break _ _ | .continue _ _ | .null _ => .pure rfl

theorem Item.checkList_mirrored (result : CType) : ∀ items : List Item,
    Mirrored names (Item.checkList result items)
      (Item.checkList result (Item.mapList (.renamed names.internal) items))
      (Item.mapList (.renamed names.internal))
  | [] => .pure rfl
  | .stmt stmt :: items =>
      (Stmt.check_mirrored result stmt).bind fun _ =>
        (Item.checkList_mirrored result items).bind fun _ => .pure rfl
  | .decl decl :: items =>
      (decl.checkLocal_mirrored spares).bind fun _ =>
        (Item.checkList_mirrored result items).bind fun _ => .pure rfl

end

theorem Decl.checkFile_mirrored (decl : Decl) :
    Mirrored names decl.checkFile (decl.map (.renamed names.internal) true).checkFile
      (Decl.map (.renamed names.internal) true) := by
  cases decl with
  | object decl => exact (decl.checkFile_mirrored spares).bind fun _ => .pure rfl
  | function decl => exact (decl.check_mirrored spares false).bind fun _ => .pure rfl
  | definition decl _ body =>
      exact (decl.check_mirrored spares true).bind fun decl =>
        (Param.declareList_mirrored spares decl.params).bind fun _ =>
          (Item.checkList_mirrored spares decl.result body).bind fun _ => .pure rfl

/-- A tree with other names is checked alike, and leads to the same symbols with the other names. -/
theorem Program.check_mirrored : ∀ program : Program, Mirrored names program.check
    (program.mapParts (.renamed names.internal)).check (Program.mapParts (.renamed names.internal))
  | [] => .pure rfl
  | decl :: decls => by
      rw [Program.mapParts, List.map_cons, Program.check, Program.check]
      exact (decl.checkFile_mirrored spares).bind fun _ =>
        (Program.check_mirrored decls).bind fun _ => .pure rfl

end SubsetC
