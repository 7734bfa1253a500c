import SubsetC.Proofs.CheckSteps
import SubsetC.Proofs.DiagnosticPlaces
import SubsetC.Proofs.NamePermutations
import SubsetC.Proofs.ParsedTrees
import SubsetC.Proofs.Parsing
import SubsetC.Proofs.Renaming

/-!
# What analysis adds to a tree

Analysis numbers names, labels statements, collects cases, writes conversions out, pads initializers
with zeros, adjusts the types of parameters and drops braces around automatic scalars. Taking away
what it adds gives back the tree that the parser built, with the same nodes at the same places. The
main statement is `Program.unchecked_of_analyze`.

What the check of types adds goes first (`TreeMap.unchecked`), and the numbers of names second
(`Text.stem`). An initializer counts as padding if it is all zeros and its number is newer than the
parser's newest.
-/

namespace SubsetC

/-! ### Taking away what analysis adds -/

namespace Initializer

mutual

/-- Whether the initializer consists of zeros. -/
def isZero : Initializer → Bool
  | .single _ (.constant _ value) => value.isZero
  | .single _ _ => false
  | .compound _ items => areZero items

def areZero : List Initializer → Bool
  | [] => true
  | item :: items => item.isZero && areZero items

end

/-- Whether an initializer consists of zeros and is newer than a node. -/
def isPadding (newest : Nat) (init : Initializer) : Bool :=
  newest < init.loc.id && init.isZero

mutual

/-- The initializer without what the check of types adds to its expressions, and without padding. -/
def unchecked (isPadding : Initializer → Bool) : Initializer → Initializer
  | .single loc value => .single loc value.erased
  | .compound loc items => .compound loc (uncheckedList isPadding items)

/-- The initializers before the padding at the end, without what the check of types adds to their
expressions. -/
def uncheckedList (isPadding : Initializer → Bool) : List Initializer → List Initializer
  | [] => []
  | item :: items =>
      if isPadding item && items.all isPadding then []
      else item.unchecked isPadding :: uncheckedList isPadding items

end

mutual

/-- The initializer of an automatic object of a type without braces around single expressions that
initialize scalars. -/
def unbraced (type : CType) : Initializer → Initializer
  | .single loc value => .single loc value
  | .compound loc items =>
      match type with
      | .array _ element => .compound loc (unbracedList element items)
      | _ =>
        match items with
        | [.single innerLoc value] => .single innerLoc value
        | _ => .compound loc items

/-- The initializers of elements of an automatic array without braces around single expressions
that initialize scalars. -/
def unbracedList (element : CType) : List Initializer → List Initializer
  | [] => []
  | item :: items => item.unbraced element :: unbracedList element items

end

end Initializer

/-- The declaration without what the check of types adds to its initializer. -/
def VarDecl.unchecked (isPadding : Initializer → Bool) (decl : VarDecl) : VarDecl :=
  { decl with init := decl.init.map (Initializer.unchecked isPadding) }

/-- The declaration of an object, without braces around scalars if the object is automatic. -/
def VarDecl.adjusted (isFile : Bool) (decl : VarDecl) : VarDecl :=
  if isFile || decl.storageClass.isSome then decl
  else { decl with init := decl.init.map (Initializer.unbraced decl.type) }

def Param.adjusted (param : Param) : Param := { param with type := param.type.adjusted }

/-- The declaration of a function with the adjusted types of its parameters. -/
def FunDecl.adjusted (decl : FunDecl) : FunDecl :=
  { decl with params := decl.params.map Param.adjusted }

namespace TreeMap

/-- Takes away labels and lists of cases. -/
def unlabelled : TreeMap := { TreeMap.identity with label := fun _ => none, cases := fun _ => [] }

/-- Takes away what labelling and the check of types add to a tree, and initializers that are
padding. -/
def unchecked (isPadding : Initializer → Bool) : TreeMap where
  expr := Expr.erased
  object _ := VarDecl.unchecked isPadding
  function := id
  label _ := none
  cases _ := []

/-- Gives parameters their adjusted types, and drops braces around automatic scalars. -/
def adjusted : TreeMap where
  expr := id
  object := VarDecl.adjusted
  function := FunDecl.adjusted
  label := id
  cases := id

end TreeMap

/-! ### Runs behind a parser -/

/-- Behind the nodes of a parser, a pass that succeeds has a result as wanted. -/
def Pass.Restores {α : Type} (newest : Nat) (action : Pass α) (wanted : α → Prop) : Prop :=
  ∀ context : Context, newest ≤ context.lastId →
    Yields action context fun result after => newest ≤ after.lastId ∧ wanted result

variable {newest : Nat}

namespace Pass.Restores

variable {α β : Type} {action : Pass α} {next : α → Pass β} {wanted middle : α → Prop}
  {final : β → Prop}

theorem pure {result : α} (holds : wanted result) :
    (Pure.pure result : Pass α).Restores newest wanted :=
  fun _ behind => Ensures.pure ⟨behind, holds⟩

theorem throw {failure : Failure} : (MonadExcept.throw failure : Pass α).Restores newest wanted :=
  fun _ _ => Ensures.throw trivial

theorem bind (first : action.Restores newest middle)
    (rest : ∀ result, middle result → (next result).Restores newest final) :
    (action >>= next).Restores newest final :=
  fun context behind => (first context behind).bind fun result after holds =>
    rest result holds.2 after holds.1

theorem mono {wanted' : α → Prop} (restores : action.Restores newest wanted)
    (weaken : ∀ result, wanted result → wanted' result) : action.Restores newest wanted' :=
  fun context behind =>
    (restores context behind).mono fun result _ holds => ⟨holds.1, weaken result holds.2⟩

theorem ite {condition : Prop} [Decidable condition] {whenTrue whenFalse : Pass α}
    (isTrue : whenTrue.Restores newest wanted) (isFalse : whenFalse.Restores newest wanted) :
    (if condition then whenTrue else whenFalse).Restores newest wanted :=
  fun context behind =>
    Ensures.ite (fun _ => isTrue context behind) fun _ => isFalse context behind

/-- A pass that numbers nodes upwards stays behind those of a parser. -/
theorem of_reports {some : α → Prop} (reports : action.Reports (fun _ => True) some)
    (yields : ∀ context, Yields action context fun result _ => wanted result) :
    action.Restores newest wanted := by
  intro context behind
  refine (((reports context).allow fun _ _ => trivial).and (yields context)).mono ?_
  rintro result after ⟨⟨up, -⟩, holds⟩
  exact ⟨Nat.le_trans behind up, holds⟩

theorem any (reports : action.Reports (fun _ => True) wanted) : action.Restores newest wanted :=
  of_reports reports fun context =>
    ((reports context).allow fun _ _ => trivial).mono fun _ _ holds => holds.2

theorem and {wanted' : α → Prop} (left : action.Restores newest wanted)
    (right : action.Restores newest wanted') :
    action.Restores newest fun result => wanted result ∧ wanted' result :=
  fun context behind => ((left context behind).and (right context behind)).mono
    fun _ _ holds => ⟨holds.1.1, holds.1.2, holds.2.2⟩

theorem times (restores : action.Restores newest wanted) (count : Nat) :
    (action.times count).Restores newest fun results => ∀ result ∈ results, wanted result := by
  induction count with
  | zero => exact pure (List.forall_mem_nil _)
  | succ count ih =>
      exact restores.bind fun _ first =>
        ih.bind fun _ rest => pure (List.forall_mem_cons.2 ⟨first, rest⟩)

theorem newLoc (span : Span) : (Pass.newLoc span).Restores newest fun loc => newest < loc.id :=
  fun _ behind => ⟨Nat.le_succ_of_le behind, Nat.lt_succ_of_le behind⟩

theorem newLabel (stem : Text) : (Pass.newLabel stem).Restores newest fun _ => True :=
  fun _ behind => ⟨behind, trivial⟩

theorem setSymbol (name : Text) (type : CType) (storage : Storage) :
    (Pass.setSymbol name type storage).Restores newest fun _ => True :=
  fun _ behind => ⟨behind, trivial⟩

theorem uniqueName (base : Text) :
    (Pass.uniqueName base).Restores newest fun name => name.stem = base.stem ∧ name ≠ [] :=
  fun context behind =>
    ⟨behind, Text.stem_numbered base context.nextName, by simp [Text.ofString_dot]⟩

end Pass.Restores

open Pass (Restores)

/-! ### Names -/

/-- Every name is bound to one that is made from it. -/
def Scopes.KeepsStems (scopes : Scopes) : Prop :=
  ∀ scope ∈ scopes.inner :: scopes.outer, ∀ entry ∈ scope, entry.2.name.stem = entry.1.stem

namespace Scopes.KeepsStems

variable {scopes : Scopes} (keeps : scopes.KeepsStems)

theorem file : Scopes.file.KeepsStems := by
  simp [Scopes.KeepsStems, Scopes.file]

include keeps

theorem enter : scopes.enter.KeepsStems :=
  List.forall_mem_cons.2 ⟨List.forall_mem_nil _, keeps⟩

theorem declare {name : Text} {binding : Binding} (same : binding.name.stem = name.stem) :
    (scopes.declare name binding).KeepsStems := by
  rcases List.forall_mem_cons.1 keeps with ⟨inner, outer⟩
  exact List.forall_mem_cons.2 ⟨List.forall_mem_cons.2 ⟨same, inner⟩, outer⟩

theorem find {name : Text} {binding : Binding} (found : scopes.find? name = some binding) :
    binding.name.stem = name.stem := by
  rcases List.exists_of_findSome?_eq_some found with ⟨scope, mem, isBound⟩
  rcases List.lookup_eq_some_iff.1 isBound with ⟨front, back, rfl, -⟩
  exact keeps _ mem (name, binding) (by simp)

end Scopes.KeepsStems

-- The recursive calls of a mutual block hide that its theorems use the hypothesis.
set_option linter.unusedSectionVars false

section

variable {scopes : Scopes} (keeps : scopes.KeepsStems)

namespace Expr

include keeps

mutual

theorem resolve_restores : ∀ expr : Expr, (expr.resolve scopes).Restores newest fun resolved =>
    resolved.rename Text.stem = expr.rename Text.stem
  | .constant _ _ | .string _ _ | .sizeofType _ _ => .pure rfl
  | .var _ name => by
      unfold resolve
      split
      · exact .pure (congrArg (Expr.var _) (keeps.find ‹_›))
      · exact .throw
  | .unary _ _ operand | .addressOf _ operand | .dereference _ operand | .step _ _ _ operand
  | .sizeofExpr _ operand | .cast _ _ operand _ =>
      (resolve_restores operand).bind fun _ same => .pure (by rw [rename, same, rename])
  | .binary _ _ left right | .subscript _ left right | .assign _ _ left right _ =>
      (resolve_restores left).bind fun _ sameLeft =>
        (resolve_restores right).bind fun _ sameRight =>
          .pure (by rw [rename, sameLeft, sameRight, rename])
  | .conditional _ condition thenBranch elseBranch =>
      (resolve_restores condition).bind fun _ sameCondition =>
        (resolve_restores thenBranch).bind fun _ sameThen =>
          (resolve_restores elseBranch).bind fun _ sameElse =>
            .pure (by rw [rename, sameCondition, sameThen, sameElse, rename])
  | .call _ name arguments => by
      unfold resolve
      split
      · rename_i binding found
        exact (resolveList_restores arguments).bind fun _ same =>
          .pure (by rw [rename, keeps.find found, same, rename])
      · exact .throw
  | .decay _ _ => .throw

theorem resolveList_restores : ∀ exprs : List Expr,
    (resolveList scopes exprs).Restores newest fun resolved =>
      renameList Text.stem resolved = renameList Text.stem exprs
  | [] => .pure rfl
  | expr :: exprs =>
      (resolve_restores expr).bind fun _ same =>
        (resolveList_restores exprs).bind fun _ sameRest =>
          .pure (by rw [renameList, same, sameRest, renameList])

end

theorem resolveOption_restores : ∀ value : Option Expr,
    (resolveOption scopes value).Restores newest fun resolved =>
      resolved.map (Expr.rename Text.stem) = value.map (Expr.rename Text.stem)
  | none => .pure rfl
  | some expr => (resolve_restores keeps expr).bind fun _ same => .pure (congrArg some same)

end Expr

namespace Initializer

include keeps

mutual

theorem resolve_restores : ∀ init : Initializer,
    (init.resolve scopes).Restores newest fun resolved =>
      resolved.rename Text.stem = init.rename Text.stem
  | .single _ value =>
      (Expr.resolve_restores keeps value).bind fun _ same =>
        .pure (congrArg (Initializer.single _) same)
  | .compound _ items =>
      (resolveList_restores items).bind fun _ same => .pure (congrArg (Initializer.compound _) same)

theorem resolveList_restores : ∀ items : List Initializer,
    (resolveList scopes items).Restores newest fun resolved =>
      renameList Text.stem resolved = renameList Text.stem items
  | [] => .pure rfl
  | item :: items =>
      (resolve_restores item).bind fun _ same =>
        (resolveList_restores items).bind fun _ sameRest =>
          .pure (by rw [renameList, same, sameRest, renameList])

end

end Initializer

namespace VarDecl

include keeps

theorem resolveInit_restores (decl : VarDecl) :
    (decl.resolveInit scopes).Restores newest fun resolved =>
      resolved.rename Text.stem = decl.rename Text.stem := by
  unfold resolveInit
  split
  · rename_i init isInit
    refine (Initializer.resolve_restores keeps init).bind fun _ same => .pure ?_
    rw [VarDecl.rename, Option.map_some, same, VarDecl.rename, isInit, Option.map_some]
  · exact .pure rfl

/-- An object of a block is declared, and scopes go on keeping stems. -/
theorem resolveLocal_restores (decl : VarDecl) :
    (decl.resolveLocal scopes).Restores newest fun resolved =>
      resolved.1.rename Text.stem = decl.rename Text.stem ∧ resolved.2.KeepsStems := by
  have checks : (decl.checkRedeclaration scopes).Restores newest fun _ => True := by
    unfold checkRedeclaration
    split
    · exact .pure trivial
    · exact .ite .throw (.ite .throw (.pure trivial))
  refine checks.bind fun _ _ => .ite ?_ ?_
  · have declared : (scopes.declare decl.name ⟨decl.name, true⟩).KeepsStems := keeps.declare rfl
    exact (resolveInit_restores declared decl).bind fun _ same => .pure ⟨same, declared⟩
  · refine (Restores.uniqueName _).bind fun name ⟨isStem, _⟩ => ?_
    have declared : (scopes.declare decl.name ⟨name, false⟩).KeepsStems := keeps.declare isStem
    refine (resolveInit_restores declared { decl with name }).bind fun _ same =>
      .pure ⟨same.trans ?_, declared⟩
    rw [VarDecl.rename, VarDecl.rename, isStem]

omit keeps in
theorem resolveLocals_restores : ∀ (decls : List VarDecl) {scopes : Scopes},
    scopes.KeepsStems → (resolveLocals scopes decls).Restores newest fun resolved =>
      resolved.1.map (VarDecl.rename Text.stem) = decls.map (VarDecl.rename Text.stem) ∧
        resolved.2.KeepsStems
  | [], _, keeps => .pure ⟨rfl, keeps⟩
  | decl :: decls, _, keeps =>
      (resolveLocal_restores keeps decl).bind fun _ first =>
        (resolveLocals_restores decls first.2).bind fun _ rest =>
          .pure ⟨by rw [List.map_cons, first.1, rest.1, List.map_cons], rest.2⟩

theorem resolveFile_restores (decl : VarDecl) :
    (decl.resolveFile scopes).Restores newest fun resolved =>
      resolved.1.rename Text.stem = decl.rename Text.stem ∧ resolved.2.KeepsStems := by
  have declared : (scopes.declare decl.name ⟨decl.name, true⟩).KeepsStems := keeps.declare rfl
  exact (resolveInit_restores declared decl).bind fun _ same => .pure ⟨same, declared⟩

end VarDecl

end

theorem Param.resolveList_restores : ∀ (params : List Param) {scopes : Scopes},
    scopes.KeepsStems → (Param.resolveList scopes params).Restores newest fun resolved =>
      resolved.1.map (Param.rename Text.stem) = params.map (Param.rename Text.stem) ∧
        resolved.2.KeepsStems
  | [], _, keeps => .pure ⟨rfl, keeps⟩
  | param :: params, scopes, keeps => by
      unfold Param.resolveList
      split
      · exact (resolveList_restores params keeps).bind fun _ rest =>
          .pure ⟨by rw [List.map_cons, rest.1, List.map_cons], rest.2⟩
      · rename_i isNamed
        have named {name : Text} (isStem : name.stem = param.name.stem) (nonempty : name ≠ []) :
            Restores newest (do
              let rest ← Param.resolveList (scopes.declare param.name ⟨name, false⟩) params
              pure ({ param with name } :: rest.1, rest.2)) fun resolved =>
                resolved.1.map (Param.rename Text.stem) =
                  (param :: params).map (Param.rename Text.stem) ∧ resolved.2.KeepsStems := by
          refine (resolveList_restores params (keeps.declare isStem)).bind fun _ rest =>
            .pure ⟨?_, rest.2⟩
          have same : ({ param with name } : Param).rename Text.stem = param.rename Text.stem := by
            rw [Param.rename, Param.rename, if_neg isNamed, if_neg (by simpa using nonempty),
              isStem]
          rw [List.map_cons, rest.1, same, List.map_cons]
        have fresh : Restores newest (do
            let name ← Pass.uniqueName param.name
            let scopes := scopes.declare param.name ⟨name, false⟩
            let rest ← Param.resolveList scopes params
            pure ({ param with name } :: rest.1, rest.2)) fun resolved =>
              resolved.1.map (Param.rename Text.stem) =
                (param :: params).map (Param.rename Text.stem) ∧ resolved.2.KeepsStems :=
          (Restores.uniqueName _).bind fun _ drawn => named drawn.1 drawn.2
        exact .ite (fun _ _ => Ensures.throw trivial) fresh

theorem FunDecl.resolve_restores (decl : FunDecl) {scopes : Scopes} (keeps : scopes.KeepsStems) :
    (decl.resolve scopes).Restores newest fun resolved =>
      resolved.1.rename Text.stem = decl.rename Text.stem ∧ resolved.2.1.KeepsStems ∧
        resolved.2.2.KeepsStems := by
  have declared : (scopes.declare decl.name ⟨decl.name, true⟩).KeepsStems := keeps.declare rfl
  have params : Restores newest (do
      let inside ← Param.resolveList (scopes.declare decl.name ⟨decl.name, true⟩).enter decl.params
      pure ({ decl with params := inside.1 }, scopes.declare decl.name ⟨decl.name, true⟩,
        inside.2))
      fun resolved : FunDecl × Scopes × Scopes =>
        resolved.1.rename Text.stem = decl.rename Text.stem ∧ resolved.2.1.KeepsStems ∧
          resolved.2.2.KeepsStems :=
    (Param.resolveList_restores decl.params declared.enter).bind fun _ inside =>
      .pure ⟨by rw [FunDecl.rename, inside.1, FunDecl.rename], declared, inside.2⟩
  exact .ite (fun _ _ => Ensures.throw trivial) params

theorem ForInit.resolve_restores (init : ForInit) {scopes : Scopes} (keeps : scopes.KeepsStems) :
    (init.resolve scopes).Restores newest fun resolved =>
      resolved.1.map (.renamed Text.stem) = init.map (.renamed Text.stem) ∧
        resolved.2.KeepsStems := by
  cases init with
  | declarations loc decls =>
      exact (VarDecl.resolveLocals_restores decls keeps).bind fun _ all =>
        .pure ⟨congrArg (ForInit.declarations _) all.1, all.2⟩
  | expression loc value =>
      exact (Expr.resolveOption_restores keeps value).bind fun _ same =>
        .pure ⟨congrArg (ForInit.expression _) same, keeps⟩

mutual

theorem Stmt.resolve_restores : ∀ (stmt : Stmt) {scopes : Scopes}, scopes.KeepsStems →
    (stmt.resolve scopes).Restores newest fun resolved =>
      resolved.map (.renamed Text.stem) = stmt.map (.renamed Text.stem)
  | .ret _ value, _, keeps =>
      (Expr.resolveOption_restores keeps value).bind fun _ same => .pure (congrArg (Stmt.ret _) same)
  | .expr _ value, _, keeps =>
      (Expr.resolve_restores keeps value).bind fun _ same => .pure (congrArg (Stmt.expr _) same)
  | .ifThen _ condition thenBranch, _, keeps =>
      (Expr.resolve_restores keeps condition).bind fun _ same =>
        (Stmt.resolve_restores thenBranch keeps).bind fun _ sameThen =>
          .pure (congrArg₂ (Stmt.ifThen _) same sameThen)
  | .ifElse _ condition thenBranch elseBranch, _, keeps =>
      (Expr.resolve_restores keeps condition).bind fun _ same =>
        (Stmt.resolve_restores thenBranch keeps).bind fun _ sameThen =>
          (Stmt.resolve_restores elseBranch keeps).bind fun _ sameElse =>
            .pure (by
              simp only [Stmt.map]
              exact congr (congrArg₂ (Stmt.ifElse _) same sameThen) sameElse)
  | .block _ items, _, keeps =>
      (Item.resolveList_restores items keeps.enter).bind fun _ same =>
        .pure (congrArg (Stmt.block _) same)
  | .whileLoop _ _ condition body, _, keeps =>
      (Expr.resolve_restores keeps condition).bind fun _ same =>
        (Stmt.resolve_restores body keeps).bind fun _ sameBody =>
          .pure (congrArg₂ (Stmt.whileLoop _ _) same sameBody)
  | .doWhile _ _ body condition, _, keeps =>
      (Stmt.resolve_restores body keeps).bind fun _ sameBody =>
        (Expr.resolve_restores keeps condition).bind fun _ same =>
          .pure (congrArg₂ (Stmt.doWhile _ _) sameBody same)
  | .forLoop _ _ init condition post body, _, keeps =>
      (init.resolve_restores keeps.enter).bind fun _ resolved =>
        (Expr.resolveOption_restores resolved.2 condition).bind fun _ same =>
          (Expr.resolveOption_restores resolved.2 post).bind fun _ samePost =>
            (Stmt.resolve_restores body resolved.2).bind fun _ sameBody =>
              .pure (by
                simp only [Stmt.map]
                exact congr (congr (congrArg₂ (Stmt.forLoop _ _) resolved.1 same) samePost)
                  sameBody)
  | .switch _ _ value body _, _, keeps =>
      (Expr.resolve_restores keeps value).bind fun _ same =>
        (Stmt.resolve_restores body keeps).bind fun _ sameBody =>
          .pure (congrArg₂ (Stmt.switch _ _ · · _) same sameBody)
  | .case _ _ value body, _, keeps =>
      (Expr.resolve_restores keeps value).bind fun _ same =>
        (Stmt.resolve_restores body keeps).bind fun _ sameBody =>
          .pure (congrArg₂ (Stmt.case _ _) same sameBody)
  | .default _ _ body, _, keeps =>
      (Stmt.resolve_restores body keeps).bind fun _ same => .pure (congrArg (Stmt.default _ _) same)
  | .break _ _, _, _ | .continue _ _, _, _ | .null _, _, _ => .pure rfl

theorem Decl.resolve_restores (isFile : Bool) : ∀ (decl : Decl) {scopes : Scopes},
    scopes.KeepsStems → (decl.resolve isFile scopes).Restores newest fun resolved =>
      resolved.1.map (.renamed Text.stem) isFile = decl.map (.renamed Text.stem) isFile ∧
        resolved.2.KeepsStems
  | .object decl, _, keeps => by
      cases isFile with
      | true =>
          exact (decl.resolveFile_restores keeps).bind fun _ all =>
            .pure ⟨congrArg Decl.object all.1, all.2⟩
      | false =>
          exact (decl.resolveLocal_restores keeps).bind fun _ all =>
            .pure ⟨congrArg Decl.object all.1, all.2⟩
  | .function decl, _, keeps =>
      (decl.resolve_restores keeps).bind fun _ all => .pure ⟨congrArg Decl.function all.1, all.2.1⟩
  | .definition decl _ body, _, keeps =>
      (decl.resolve_restores keeps).bind fun _ all =>
        (Item.resolveList_restores body all.2.2).bind fun _ sameBody =>
          .pure ⟨congrArg₂ (Decl.definition · _ ·) all.1 sameBody, all.2.1⟩

theorem Item.resolveList_restores : ∀ (items : List Item) {scopes : Scopes}, scopes.KeepsStems →
    (Item.resolveList scopes items).Restores newest fun resolved =>
      Item.mapList (.renamed Text.stem) resolved = Item.mapList (.renamed Text.stem) items
  | [], _, _ => .pure rfl
  | .stmt stmt :: items, _, keeps =>
      (stmt.resolve_restores keeps).bind fun _ same =>
        (Item.resolveList_restores items keeps).bind fun _ sameRest =>
          .pure (by rw [Item.mapList, same, sameRest, Item.mapList])
  | .decl decl :: items, _, keeps =>
      (Decl.resolve_restores false decl keeps).bind fun _ first =>
        (Item.resolveList_restores items first.2).bind fun _ sameRest =>
          .pure (by rw [Item.mapList, first.1, sameRest, Item.mapList])

end

theorem Program.resolveFrom_restores : ∀ (program : Program) {scopes : Scopes}, scopes.KeepsStems →
    (program.resolveFrom scopes).Restores newest fun resolved =>
      resolved.mapParts (.renamed Text.stem) = program.mapParts (.renamed Text.stem)
  | [], _, _ => .pure rfl
  | decl :: decls, _, keeps =>
      (Decl.resolve_restores true decl keeps).bind fun _ first =>
        (Program.resolveFrom_restores decls first.2).bind fun _ sameRest =>
          .pure (congrArg₂ List.cons first.1 sameRest)

/-! ### Labels -/

mutual

/-- Labelling changes labels and lists of cases only. -/
theorem Stmt.label_restores : ∀ (stmt : Stmt) (targets : Targets) (cases : List SwitchCase),
    (stmt.label targets cases).Restores newest fun labelled =>
      labelled.1.map .unlabelled = stmt.map .unlabelled
  | .ret _ _, _, _ | .expr _ _, _, _ | .null _, _, _ => .pure rfl
  | .ifThen _ _ thenBranch, targets, cases =>
      (Stmt.label_restores thenBranch targets cases).bind fun _ same =>
        .pure (congrArg (Stmt.ifThen _ _) same)
  | .ifElse _ _ thenBranch elseBranch, targets, cases =>
      (Stmt.label_restores thenBranch targets cases).bind fun _ same =>
        (Stmt.label_restores elseBranch targets _).bind fun _ sameElse =>
          .pure (congrArg₂ (Stmt.ifElse _ _) same sameElse)
  | .block _ items, targets, cases =>
      (Item.labelList_restores items targets cases).bind fun _ same =>
        .pure (congrArg (Stmt.block _) same)
  | .whileLoop _ _ _ body, _, cases =>
      (Restores.newLabel _).bind fun _ _ =>
        (Stmt.label_restores body _ cases).bind fun _ same =>
          .pure (congrArg (Stmt.whileLoop _ none _) same)
  | .doWhile _ _ body _, _, cases =>
      (Restores.newLabel _).bind fun _ _ =>
        (Stmt.label_restores body _ cases).bind fun _ same =>
          .pure (congrArg (Stmt.doWhile _ none · _) same)
  | .forLoop _ _ _ _ _ body, _, cases =>
      (Restores.newLabel _).bind fun _ _ =>
        (Stmt.label_restores body _ cases).bind fun _ same =>
          .pure (congrArg (Stmt.forLoop _ none _ _ _) same)
  | .switch _ _ _ body _, _, _ =>
      (Restores.newLabel _).bind fun _ _ =>
        (Stmt.label_restores body _ []).bind fun _ same =>
          .pure (congrArg (Stmt.switch _ none _ · []) same)
  | .case loc _ value body, targets, cases => by
      have known : (SwitchCase.ofValue targets loc value cases).Restores newest fun _ => True := by
        unfold SwitchCase.ofValue
        split
        · exact .throw
        · split
          · exact .throw
          · exact .pure trivial
      exact known.bind fun _ _ => (Stmt.label_restores body targets _).bind fun _ same =>
        .pure (congrArg (Stmt.case _ none _) same)
  | .default loc _ body, targets, cases => by
      have known : (SwitchCase.ofDefault targets loc cases).Restores newest fun _ => True := by
        unfold SwitchCase.ofDefault
        split
        · exact .throw
        · exact .ite .throw (.pure trivial)
      exact known.bind fun _ _ => (Stmt.label_restores body targets _).bind fun _ same =>
        .pure (congrArg (Stmt.default _ none) same)
  | .break _ _, _, _ | .continue _ _, _, _ => by
      unfold Stmt.label
      split
      · exact .pure rfl
      · exact .throw

theorem Decl.label_restores (isFile : Bool) : ∀ decl : Decl, decl.label.Restores newest
    fun labelled => labelled.map .unlabelled isFile = decl.map .unlabelled isFile
  | .object _ | .function _ => .pure rfl
  | .definition _ _ body =>
      (Item.labelList_restores body .none []).bind fun _ same =>
        .pure (congrArg (Decl.definition _ _) same)

theorem Item.labelList_restores : ∀ (items : List Item) (targets : Targets)
    (cases : List SwitchCase), (Item.labelList targets cases items).Restores newest fun labelled =>
      Item.mapList .unlabelled labelled.1 = Item.mapList .unlabelled items
  | [], _, _ => .pure rfl
  | .stmt stmt :: items, targets, cases =>
      (Stmt.label_restores stmt targets cases).bind fun _ same =>
        (Item.labelList_restores items targets _).bind fun _ sameRest =>
          .pure (by rw [Item.mapList, same, sameRest, Item.mapList])
  | .decl decl :: items, targets, cases =>
      (Decl.label_restores false decl).bind fun _ same =>
        (Item.labelList_restores items targets cases).bind fun _ sameRest =>
          .pure (by rw [Item.mapList, same, sameRest, Item.mapList])

end

theorem Program.label_restores : ∀ program : Program, program.label.Restores newest
    fun labelled => labelled.mapParts .unlabelled = program.mapParts .unlabelled
  | [] => .pure rfl
  | decl :: decls => by
      have rest : (List.mapM Decl.label decls).Restores newest fun labelled =>
          Program.mapParts .unlabelled labelled = Program.mapParts .unlabelled decls :=
        Program.label_restores decls
      unfold Program.label
      rw [List.mapM_cons]
      exact (Decl.label_restores true decl).bind fun _ same =>
        rest.bind fun _ sameRest => .pure (congrArg₂ List.cons same sameRest)

/-! ### Types -/

/-- An expression comes back that is checked by a rule that adds nothing to its tree. -/
theorem Expr.restores_of_erases {action : Pass Expr} {expr : Expr} {some : Expr → Prop}
    (reports : action.Reports (fun _ => True) some)
    (erases : ∀ {context : Context}, Yields action context (context.Erases expr.erased)) :
    action.Restores newest fun checked => checked.erased = expr.erased :=
  .of_reports reports fun _ => erases.mono fun _ _ holds => holds.same

theorem Expr.checkInitial_restores (type : CType) (span : Span) {expr : Expr}
    (isWritten : expr.IsWritten (.ofSpans fun _ => True)) :
    (expr.checkInitial type span).Restores newest fun checked => checked.erased = expr.erased :=
  expr.restores_of_erases (Expr.checkInitial_stays type trivial isWritten)
    (expr.checkInitial_erases type span)

theorem Expr.appendItems_restores (type : CType) (items : List StaticItem) (expr : Expr) :
    (expr.appendItems type items).Restores newest fun _ => True :=
  .any (expr.appendItems_reports type items trivial)

namespace Initializer

/-- An initializer is no padding, and gives back another one. -/
structure GivesBack (newest : Nat) (init tree : Initializer) : Prop where
  /-- It is no padding. -/
  notPadding : init.isPadding newest = false
  /-- It is the other one with what the check of types adds. -/
  same : init.unchecked (isPadding newest) = tree.unchecked fun _ => false

theorem isPadding_of_le {init : Initializer} (old : init.loc.id ≤ newest) :
    init.isPadding newest = false := by
  simp [isPadding, Nat.not_lt.2 old]

theorem areZero_of_forall : ∀ {items : List Initializer}, (∀ item ∈ items, item.isZero) →
    areZero items
  | [], _ => rfl
  | item :: items, all => by
      rw [List.forall_mem_cons] at all
      rw [areZero, all.1, areZero_of_forall all.2, Bool.and_self]

theorem uncheckedList_padding {isPadding : Initializer → Bool} {zeros : List Initializer}
    (arePadding : ∀ zero ∈ zeros, isPadding zero) : ∀ given : List Initializer,
      uncheckedList isPadding (given ++ zeros) = uncheckedList isPadding given
  | [] => by
      cases zeros with
      | nil => rfl
      | cons first rest =>
          rw [List.forall_mem_cons] at arePadding
          rw [List.nil_append, uncheckedList, uncheckedList, arePadding.1,
            List.all_eq_true.2 arePadding.2]
          rfl
  | item :: items => by
      rw [List.cons_append, uncheckedList, uncheckedList, List.all_append,
        List.all_eq_true.2 arePadding, Bool.and_true, uncheckedList_padding arePadding items]

theorem uncheckedList_cons {tree item : Initializer} {trees items : List Initializer}
    (first : item.GivesBack newest tree)
    (rest : uncheckedList (isPadding newest) items = uncheckedList (fun _ => false) trees) :
    uncheckedList (isPadding newest) (item :: items) =
      uncheckedList (fun _ => false) (tree :: trees) := by
  rw [uncheckedList, uncheckedList, first.notPadding, first.same, rest]
  rfl

/-- A zero that is written out is padding. -/
theorem zero_restores (span : Span) : ∀ type : CType, (zero span type).Restores newest fun init =>
    init.isPadding newest
  | .array size element => by
      unfold zero
      refine (Restores.newLoc _).bind fun loc isNew =>
        ((zero_restores span element).times _).bind fun items arePadding => .pure ?_
      have areZero : areZero items := areZero_of_forall fun item mem => by
        have := arePadding item mem
        rw [isPadding, Bool.and_eq_true] at this
        exact this.2
      simp [isPadding, isZero, areZero, Initializer.loc, isNew]
  | .void | .function _ _ => by
      unfold zero
      exact .throw
  | .integer kind => by
      unfold zero
      refine (Restores.newLoc _).bind fun _ _ => (Restores.newLoc _).bind fun _ isNew => .pure ?_
      cases kind <;> simp [isPadding, isZero, Initializer.loc, isNew] <;> rfl
  | .double | .pointer _ => by
      unfold zero
      refine (Restores.newLoc _).bind fun _ _ => (Restores.newLoc _).bind fun _ isNew => .pure ?_
      simp [isPadding, isZero, Initializer.loc, isNew]
      rfl

theorem unbraced_brace {type : CType} (notArray : ∀ size element, type = .array size element → False)
    (outer loc : Loc) (value : Expr) :
    unbraced type (.compound outer [.single loc value]) = .single loc value := by
  cases type with
  | array size element => exact (notArray size element rfl).elim
  | _ => rfl

mutual

/-- The initializer of an automatic object loses the braces around its scalars, and gets zeros. -/
theorem checkAutomatic_restores (type : CType) : ∀ {init : Initializer},
    init.IsWritten (.ofSpans fun _ => True) → init.IsNumbered newest →
      (init.checkAutomatic type).Restores newest fun checked =>
        checked.GivesBack newest (init.unbraced type)
  | .single _ value, isWritten, isNumbered => by
      unfold checkAutomatic
      exact (Expr.checkInitial_restores type _ isWritten.2).bind fun _ same =>
        .pure ⟨isPadding_of_le isNumbered, congrArg (Initializer.single _) same⟩
  | .compound loc items, isWritten, isNumbered => by
      unfold checkAutomatic
      split
      · rename_i size element
        refine .ite .throw ?_
        refine (checkAutomaticList_restores element isWritten.2 isNumbered.2).bind fun given same =>
          ((zero_restores loc.span element).times _).bind fun zeros arePadding =>
            .pure ⟨isPadding_of_le isNumbered.1, congrArg (Initializer.compound _) ?_⟩
        rw [uncheckedList_padding arePadding, same]
      · rename_i notArray
        split
        · rename_i innerLoc value
          rw [unbraced_brace notArray]
          exact (Expr.checkInitial_restores type _ isWritten.2.1.2).bind fun _ same =>
            .pure ⟨isPadding_of_le isNumbered.2.1, congrArg (Initializer.single _) same⟩
        · exact .throw

theorem checkAutomaticList_restores (element : CType) : ∀ {items : List Initializer},
    IsWrittenList (.ofSpans fun _ => True) items → AreNumbered newest items →
      (checkAutomaticList element items).Restores newest fun checked =>
        uncheckedList (isPadding newest) checked =
          uncheckedList (fun _ => false) (unbracedList element items)
  | [], _, _ => .pure rfl
  | _ :: _, areWritten, areNumbered => by
      unfold checkAutomaticList
      exact (checkAutomatic_restores element areWritten.1 areNumbered.1).bind fun _ first =>
        (checkAutomaticList_restores element areWritten.2 areNumbered.2).bind fun _ rest =>
          .pure (uncheckedList_cons first rest)

end

mutual

/-- The initializer of a static object keeps its shape. -/
theorem checkStatic_restores (type : CType) (items : List StaticItem) : ∀ {init : Initializer},
    init.IsWritten (.ofSpans fun _ => True) → init.IsNumbered newest →
      (init.checkStatic type items).Restores newest fun result =>
        result.1.GivesBack newest init
  | .single _ value, isWritten, isNumbered => by
      unfold checkStatic
      exact (Expr.checkInitial_restores type _ isWritten.2).bind fun _ same =>
        (Expr.appendItems_restores _ _ _).bind fun _ _ =>
          .pure ⟨isPadding_of_le isNumbered, congrArg (Initializer.single _) same⟩
  | .compound _ elements, isWritten, isNumbered => by
      unfold checkStatic
      split
      · refine .ite .throw ?_
        exact (checkStaticList_restores _ _ isWritten.2 isNumbered.2).bind fun _ same =>
          .pure ⟨isPadding_of_le isNumbered.1, congrArg (Initializer.compound _) same⟩
      · split
        · rename_i innerLoc value
          refine (Expr.checkInitial_restores type _ isWritten.2.1.2).bind fun _ same =>
            (Expr.appendItems_restores _ _ _).bind fun _ _ =>
              .pure ⟨isPadding_of_le isNumbered.1, congrArg (Initializer.compound _) ?_⟩
          exact uncheckedList_cons
            ⟨isPadding_of_le isNumbered.2.1, congrArg (Initializer.single _) same⟩ rfl
        · exact .throw

theorem checkStaticList_restores (element : CType) (items : List StaticItem) :
    ∀ {elements : List Initializer}, IsWrittenList (.ofSpans fun _ => True) elements →
      AreNumbered newest elements →
        (checkStaticList element items elements).Restores newest fun result =>
          uncheckedList (isPadding newest) result.1 = uncheckedList (fun _ => false) elements
  | [], _, _ => .pure rfl
  | _ :: _, areWritten, areNumbered => by
      unfold checkStaticList
      exact (checkStatic_restores element items areWritten.1 areNumbered.1).bind fun _ first =>
        (checkStaticList_restores element _ areWritten.2 areNumbered.2).bind fun _ rest =>
          .pure (uncheckedList_cons first rest)

end

end Initializer

/-! ### Types of declarations and statements -/

theorem Param.checkList_restores : ∀ params : List Param,
    (Param.checkList params).Restores newest fun checked => checked = params.map Param.adjusted
  | [] => .pure rfl
  | param :: params => by
      have object : (param.type.checkObject param.span (.voidParameter param.name)).Restores newest
          fun _ => True :=
        .any (CType.checkObject_reports trivial _ _)
      have first : param.check.Restores newest fun checked => checked = param.adjusted :=
        object.bind fun _ _ => .pure rfl
      refine first.bind ?_
      rintro _ rfl
      refine (Param.checkList_restores params).bind ?_
      rintro _ rfl
      exact .pure rfl

theorem FunDecl.check_restores (decl : FunDecl) (isDefinition : Bool) :
    (decl.check isDefinition).Restores newest fun checked => checked = decl.adjusted := by
  have elements : (decl.result.checkElements decl.loc.span).Restores newest fun _ => True :=
    .any (CType.checkElements_reports trivial _)
  have merge (decl : FunDecl) : (decl.mergeStorage isDefinition).Restores newest fun _ => True :=
    .any (mergeStorage_reports trivial isDefinition)
  refine elements.bind fun _ _ => (Param.checkList_restores decl.params).bind ?_
  rintro _ rfl
  exact (merge _).bind fun _ _ => (Restores.setSymbol _ _ _).bind fun _ _ => .pure rfl

namespace VarDecl

/-- The places of a declaration do not matter here, nor do its names. -/
abbrev IsAnywhere (decl : VarDecl) : Prop := decl.IsWritten (.ofSpans fun _ => True)

variable {decl : VarDecl}

theorem unchecked_of_givesBack {init tree : Initializer} (gives : init.GivesBack newest tree)
    (isInit : decl.init = some tree) :
    ({ decl with init := some init } : VarDecl).unchecked (Initializer.isPadding newest) =
      decl.unchecked fun _ => false := by
  rw [unchecked, unchecked, isInit, Option.map_some, Option.map_some, gives.same]

theorem checkObject_restores (decl : VarDecl) :
    (decl.type.checkObject decl.loc.span (.voidVariable decl.name)).Restores newest
      fun _ => True :=
  .any (CType.checkObject_reports trivial _ _)

theorem initialValue_restores (isWritten : decl.IsAnywhere)
    (numbered : ∀ init ∈ decl.init, init.IsNumbered newest) (ifMissing : InitialValue) :
    (decl.initialValue ifMissing).Restores newest fun result =>
      result.1.unchecked (Initializer.isPadding newest) = decl.unchecked fun _ => false := by
  unfold initialValue
  split
  · rename_i isInit
    exact .pure (by rw [unchecked, unchecked, isInit, Option.map_none, Option.map_none])
  · rename_i init isInit
    exact (init.checkStatic_restores decl.type [] (isWritten.init init isInit)
      (numbered init isInit)).bind fun _ gives => .pure (unchecked_of_givesBack gives isInit)

theorem checkFile_restores (isWritten : decl.IsAnywhere)
    (numbered : ∀ init ∈ decl.init, init.IsNumbered newest) :
    decl.checkFile.Restores newest fun checked =>
      checked.unchecked (Initializer.isPadding newest) = decl.unchecked fun _ => false := by
  have merge (decl : VarDecl) (next : InitialValue) :
      (decl.mergeStorage next).Restores newest fun _ => True :=
    .any (mergeStorage_reports trivial next)
  exact (checkObject_restores decl).bind fun _ _ =>
    (initialValue_restores isWritten numbered _).bind fun _ same =>
      (merge _ _).bind fun _ _ => (Restores.setSymbol _ _ _).bind fun _ _ => .pure same

/-- A block-scope object with linkage has no initializer. -/
theorem checkExternal_restores (decl : VarDecl) :
    decl.checkExternal.Restores newest fun _ => decl.init = none := by
  refine .of_reports (checkExternal_reports trivial) fun context => ?_
  refine Ensures.ite (fun _ => Ensures.throw trivial) fun noInit => ?_
  have none : decl.init = none := by simpa using noInit
  exact Ensures.of_forall fun _ _ => none

theorem checkLocal_restores (isWritten : decl.IsAnywhere)
    (numbered : ∀ init ∈ decl.init, init.IsNumbered newest) :
    decl.checkLocal.Restores newest fun checked =>
      checked.unchecked (Initializer.isPadding newest) =
        (decl.adjusted false).unchecked fun _ => false := by
  refine (checkObject_restores decl).bind fun _ _ => ?_
  split
  · rename_i isExternal
    refine (checkExternal_restores decl).bind fun _ noInit => .pure ?_
    simp [adjusted, isExternal, unchecked, noInit]
  · rename_i isStatic
    have unadjusted : decl.adjusted false = decl := by simp [adjusted, isStatic]
    rw [unadjusted]
    exact (initialValue_restores isWritten numbered _).bind fun _ same =>
      (Restores.setSymbol _ _ _).bind fun _ _ => .pure same
  · rename_i isAutomatic
    have unbraced : decl.adjusted false =
        { decl with init := decl.init.map (Initializer.unbraced decl.type) } := by
      simp [adjusted, isAutomatic]
    rw [unbraced]
    refine (Restores.setSymbol _ _ _).bind fun _ _ => ?_
    split
    · rename_i isInit
      exact .pure (by simp [unchecked, isInit])
    · rename_i init isInit
      refine (init.checkAutomatic_restores decl.type (isWritten.init init isInit)
        (numbered init isInit)).bind fun _ gives => .pure ?_
      simp only [unchecked, isInit, Option.map_some, gives.same]

theorem checkForList_restores : ∀ {decls : List VarDecl}, (∀ decl ∈ decls, decl.IsAnywhere) →
    (∀ decl ∈ decls, ∀ init ∈ decl.init, init.IsNumbered newest) →
      (checkForList decls).Restores newest fun checked =>
        checked.map (VarDecl.unchecked (Initializer.isPadding newest)) =
          (decls.map (VarDecl.adjusted false)).map (VarDecl.unchecked fun _ => false)
  | [], _, _ => .pure rfl
  | decl :: decls, areWritten, numbered => by
      rw [List.forall_mem_cons] at areWritten numbered
      have declares : Restores newest (do
          let decl ← decl.checkLocal
          pure (decl :: (← checkForList decls))) fun checked =>
            checked.map (VarDecl.unchecked (Initializer.isPadding newest)) =
              ((decl :: decls).map (VarDecl.adjusted false)).map
                (VarDecl.unchecked fun _ => false) :=
        (checkLocal_restores areWritten.1 numbered.1).bind fun _ first =>
          (checkForList_restores areWritten.2 numbered.2).bind fun _ rest =>
            .pure (congrArg₂ List.cons first rest)
      exact .ite (fun _ _ => Ensures.throw trivial) declares

end VarDecl

/-- What the check of types leaves of a tree, once what it adds is taken away. -/
abbrev TreeMap.expected : TreeMap := TreeMap.adjusted.andThen (.unchecked fun _ => false)

theorem Decl.checkLocal_restores : ∀ {decl : Decl}, decl.Forall (.placed fun _ => True) false →
    decl.Forall (.numbered newest) false → decl.checkLocal.Restores newest fun checked =>
      checked.map (.unchecked (Initializer.isPadding newest)) false = decl.map .expected false
  | .object _, placed, numbered =>
      (VarDecl.checkLocal_restores placed numbered).bind fun _ same =>
        .pure (congrArg Decl.object same)
  | .function decl, _, _ =>
      .ite .throw ((decl.check_restores false).bind fun _ same =>
        .pure (congrArg Decl.function same))
  | .definition _ _ _, _, _ => .throw

namespace Expr

variable {expr : Expr} {value : Option Expr}

theorem checkValue_restores (isWritten : expr.IsWritten (.ofSpans fun _ => True)) :
    expr.checkValue.Restores newest fun checked => checked.erased = expr.erased :=
  expr.restores_of_erases (checkValue_stays isWritten) expr.checkValue_erases

theorem checkConditionValue_restores (isWritten : expr.IsWritten (.ofSpans fun _ => True)) :
    expr.checkConditionValue.Restores newest fun checked => checked.erased = expr.erased :=
  expr.restores_of_erases (checkConditionValue_stays isWritten) expr.checkConditionValue_erases

theorem checkSwitch_restores (isWritten : expr.IsWritten (.ofSpans fun _ => True)) :
    expr.checkSwitch.Restores newest fun checked => checked.erased = expr.erased :=
  expr.restores_of_erases (checkSwitch_reports isWritten) expr.checkSwitch_erases

theorem checkOption_restores {check : Expr → Pass Expr}
    (restores : ∀ {expr : Expr}, expr.IsWritten (.ofSpans fun _ => True) →
      (check expr).Restores newest fun checked => checked.erased = expr.erased)
    (areWritten : ∀ expr ∈ value, expr.IsWritten (.ofSpans fun _ => True)) :
    (checkOption check value).Restores newest fun checked =>
      checked.map erased = value.map erased := by
  cases value with
  | none => exact .pure rfl
  | some expr =>
      exact (restores (areWritten expr rfl)).bind fun _ same => .pure (congrArg some same)

theorem checkReturn_restores (result : CType) (span : Span)
    (areWritten : ∀ expr ∈ value, expr.IsWritten (.ofSpans fun _ => True)) :
    (checkReturn result span value).Restores newest fun checked =>
      checked.map erased = value.map erased := by
  cases value with
  | none => exact .ite (.pure rfl) .throw
  | some expr =>
      refine .ite .throw ((checkValue_restores (areWritten expr rfl)).bind fun value same => ?_)
      have assigns : (value.assignTo result).Restores newest fun checked =>
          checked.erased = value.erased :=
        value.restores_of_erases (assignTo_stays result trivial) (assignTo_erases result value)
      exact assigns.bind fun _ sameValue => .pure (congrArg some (sameValue.trans same))

end Expr

theorem ForInit.check_restores : ∀ {init : ForInit}, init.Forall (.placed fun _ => True) →
    init.Forall (.numbered newest) → init.check.Restores newest fun checked =>
      checked.map (.unchecked (Initializer.isPadding newest)) = init.map .expected
  | .declarations _ decls, placed, numbered =>
      (VarDecl.checkForList_restores placed.2 numbered.2).bind fun _ same => .pure (by
        rw [ForInit.map, ForInit.map]
        exact congrArg (ForInit.declarations _) (same.trans (List.map_map ..)))
  | .expression _ _, placed, _ =>
      (Expr.checkOption_restores Expr.checkValue_restores placed.2).bind fun _ same =>
        .pure (congrArg (ForInit.expression _) same)

theorem SwitchCase.checkList_restores (type : CType) : ∀ (seen : List Int64)
    (cases : List SwitchCase), (checkList type seen cases).Restores newest fun _ => True
  | _, [] => .pure trivial
  | seen, case :: cases => by
      unfold checkList
      split
      · exact (checkList_restores type seen cases).bind fun _ _ => .pure trivial
      · refine .ite .throw ?_
        split
        · exact .throw
        · exact .ite .throw ((checkList_restores type _ cases).bind fun _ _ => .pure trivial)

mutual

/-- The check of types adds to a statement what can be taken away again. -/
theorem Stmt.check_restores (result : CType) : ∀ {stmt : Stmt},
    stmt.Forall (.placed fun _ => True) → stmt.Forall (.numbered newest) →
      (stmt.check result).Restores newest fun checked =>
        checked.map (.unchecked (Initializer.isPadding newest)) = stmt.map .expected
  | .ret _ _, placed, _ =>
      (Expr.checkReturn_restores result _ placed.2).bind fun _ same =>
        .pure (congrArg (Stmt.ret _) same)
  | .expr _ _, placed, _ =>
      (Expr.checkValue_restores placed.2).bind fun _ same => .pure (congrArg (Stmt.expr _) same)
  | .ifThen _ _ _, placed, numbered =>
      (Expr.checkConditionValue_restores placed.2.1).bind fun _ same =>
        (Stmt.check_restores result placed.2.2 numbered.2.2).bind fun _ sameThen =>
          .pure (congrArg₂ (Stmt.ifThen _) same sameThen)
  | .ifElse _ _ _ _, placed, numbered =>
      (Expr.checkConditionValue_restores placed.2.1).bind fun _ same =>
        (Stmt.check_restores result placed.2.2.1 numbered.2.2.1).bind fun _ sameThen =>
          (Stmt.check_restores result placed.2.2.2 numbered.2.2.2).bind fun _ sameElse =>
            .pure (by
              simp only [Stmt.map]
              exact congr (congrArg₂ (Stmt.ifElse _) same sameThen) sameElse)
  | .block _ _, placed, numbered =>
      (Item.checkList_restores result placed.2 numbered.2).bind fun _ same =>
        .pure (congrArg (Stmt.block _) same)
  | .whileLoop _ _ _ _, placed, numbered =>
      (Expr.checkConditionValue_restores placed.2.2.1).bind fun _ same =>
        (Stmt.check_restores result placed.2.2.2 numbered.2.2.2).bind fun _ sameBody =>
          .pure (congrArg₂ (Stmt.whileLoop _ _) same sameBody)
  | .doWhile _ _ _ _, placed, numbered =>
      (Stmt.check_restores result placed.2.2.2 numbered.2.2.2).bind fun _ sameBody =>
        (Expr.checkConditionValue_restores placed.2.2.1).bind fun _ same =>
          .pure (congrArg₂ (Stmt.doWhile _ _) sameBody same)
  | .forLoop _ _ _ _ _ _, placed, numbered => by
      rcases placed with ⟨_, _, init, condition, post, body⟩
      rcases numbered with ⟨_, _, initNumbered, _, _, bodyNumbered⟩
      exact (ForInit.check_restores init initNumbered).bind fun _ sameInit =>
        (Expr.checkOption_restores Expr.checkConditionValue_restores condition).bind fun _ same =>
          (Expr.checkOption_restores Expr.checkValue_restores post).bind fun _ samePost =>
            (Stmt.check_restores result body bodyNumbered).bind fun _ sameBody =>
              .pure (by
                simp only [Stmt.map]
                exact congr (congr (congrArg₂ (Stmt.forLoop _ _) sameInit same) samePost)
                  sameBody)
  | .switch _ _ _ _ _, placed, numbered => by
      rcases placed with ⟨_, _, value, body, _⟩
      rcases numbered with ⟨_, _, _, bodyNumbered, _⟩
      exact (Expr.checkSwitch_restores value).bind fun _ same =>
        (SwitchCase.checkList_restores _ _ _).bind fun _ _ =>
          (Stmt.check_restores result body bodyNumbered).bind fun _ sameBody =>
            .pure (congrArg₂ (Stmt.switch _ _ · · _) same sameBody)
  | .case _ _ _ _, placed, numbered =>
      (Expr.checkValue_restores placed.2.2.1).bind fun _ same =>
        (Stmt.check_restores result placed.2.2.2 numbered.2.2.2).bind fun _ sameBody =>
          .pure (congrArg₂ (Stmt.case _ _) same sameBody)
  | .default _ _ _, placed, numbered =>
      (Stmt.check_restores result placed.2.2 numbered.2.2).bind fun _ same =>
        .pure (congrArg (Stmt.default _ _) same)
  | .break _ _, _, _ | .continue _ _, _, _ | .null _, _, _ => .pure rfl

theorem Item.checkList_restores (result : CType) : ∀ {items : List Item},
    Item.ForallList (.placed fun _ => True) items → Item.ForallList (.numbered newest) items →
      (Item.checkList result items).Restores newest fun checked =>
        Item.mapList (.unchecked (Initializer.isPadding newest)) checked =
          Item.mapList .expected items
  | [], _, _ => .pure rfl
  | .stmt _ :: _, placed, numbered =>
      (Stmt.check_restores result placed.1 numbered.1).bind fun _ same =>
        (Item.checkList_restores result placed.2 numbered.2).bind fun _ sameRest =>
          .pure (by rw [Item.mapList, same, sameRest, Item.mapList])
  | .decl _ :: _, placed, numbered =>
      (Decl.checkLocal_restores placed.1 numbered.1).bind fun _ same =>
        (Item.checkList_restores result placed.2 numbered.2).bind fun _ sameRest =>
          .pure (by rw [Item.mapList, same, sameRest, Item.mapList])

end

theorem Decl.checkFile_restores : ∀ {decl : Decl}, decl.Forall (.placed fun _ => True) true →
    decl.Forall (.numbered newest) true → decl.checkFile.Restores newest fun checked =>
      checked.map (.unchecked (Initializer.isPadding newest)) true = decl.map .expected true
  | .object _, placed, numbered =>
      (VarDecl.checkFile_restores placed numbered).bind fun _ same =>
        .pure (congrArg Decl.object same)
  | .function decl, _, _ =>
      (decl.check_restores false).bind fun _ same => .pure (congrArg Decl.function same)
  | .definition decl _ _, placed, numbered =>
      (decl.check_restores true).bind fun decl' same =>
        (Restores.any (Param.declareList_reports decl'.params)).bind fun _ _ =>
          (Item.checkList_restores _ placed.2.2 numbered.2.2).bind fun _ sameBody =>
            .pure (congrArg₂ (Decl.definition · _ ·) same sameBody)

theorem Program.check_restores : ∀ {program : Program}, program.Forall (.placed fun _ => True) →
    program.Forall (.numbered newest) → program.check.Restores newest fun checked =>
      checked.mapParts (.unchecked (Initializer.isPadding newest)) = program.mapParts .expected
  | [], _, _ => .pure rfl
  | _ :: _, placed, numbered => by
      rw [Program.Forall, List.forall_mem_cons] at placed numbered
      exact (Decl.checkFile_restores placed.1 numbered.1).bind fun _ first =>
        (Program.check_restores placed.2 numbered.2).bind fun _ sameRest =>
          .pure (congrArg₂ List.cons first sameRest)

/-! ### One addition after the other -/

section

variable (change : Text → Text)

namespace Expr

mutual

theorem erased_rename : ∀ expr : Expr, (expr.rename change).erased = expr.erased.rename change
  | .constant _ _ | .string _ _ | .var _ _ | .sizeofType _ _ => rfl
  | .unary _ _ operand | .addressOf _ operand | .dereference _ operand | .step _ _ _ operand
  | .sizeofExpr _ operand => congrArg _ (erased_rename operand)
  | .decay _ operand => erased_rename operand
  | .cast _ _ operand isImplicit => by
      cases isImplicit
      · exact congrArg (Expr.cast _ _ · _) (erased_rename operand)
      · exact erased_rename operand
  | .binary _ _ left right | .subscript _ left right | .assign _ _ left right _ => by
      simp only [rename, erased, erased_rename left, erased_rename right]
  | .conditional _ condition thenBranch elseBranch => by
      simp only [rename, erased, erased_rename condition, erased_rename thenBranch,
        erased_rename elseBranch]
  | .call _ _ arguments => congrArg _ (erasedList_rename arguments)

theorem erasedList_rename : ∀ exprs : List Expr,
    erasedList (renameList change exprs) = renameList change (erasedList exprs)
  | [] => rfl
  | expr :: exprs => congrArg₂ _ (erased_rename expr) (erasedList_rename exprs)

end

end Expr

namespace Initializer

mutual

theorem unchecked_rename : ∀ init : Initializer,
    (init.rename change).unchecked (fun _ => false) =
      (init.unchecked fun _ => false).rename change
  | .single _ value => congrArg _ (value.erased_rename change)
  | .compound _ items => congrArg _ (uncheckedList_rename items)

theorem uncheckedList_rename : ∀ items : List Initializer,
    uncheckedList (fun _ => false) (renameList change items) =
      renameList change (uncheckedList (fun _ => false) items)
  | [] => rfl
  | item :: items => congrArg₂ _ (unchecked_rename item) (uncheckedList_rename items)

end

mutual

theorem unbraced_rename (type : CType) : ∀ init : Initializer,
    (init.rename change).unbraced type = (init.unbraced type).rename change
  | .single _ _ => rfl
  | .compound loc items => by
      cases type with
      | array size element => exact congrArg _ (unbracedList_rename element items)
      | _ =>
          rcases items with _ | ⟨_ | _, _ | _⟩ <;> rfl

theorem unbracedList_rename (element : CType) : ∀ items : List Initializer,
    unbracedList element (renameList change items) = renameList change (unbracedList element items)
  | [] => rfl
  | item :: items => congrArg₂ _ (unbraced_rename element item) (unbracedList_rename element items)

end

mutual

theorem isNumbered_rename {bound : Nat} : ∀ {init : Initializer},
    (init.rename change).IsNumbered bound ↔ init.IsNumbered bound
  | .single _ _ => Iff.rfl
  | .compound _ _ => and_congr_right fun _ => areNumbered_rename

theorem areNumbered_rename {bound : Nat} : ∀ {items : List Initializer},
    AreNumbered bound (renameList change items) ↔ AreNumbered bound items
  | [] => Iff.rfl
  | _ :: _ => and_congr isNumbered_rename areNumbered_rename

end

end Initializer

theorem Param.adjusted_rename (param : Param) :
    (param.rename change).adjusted = param.adjusted.rename change := rfl

/-- The check of types does not depend on names, as far as what it adds can be taken away. -/
theorem TreeMap.expected_renamed :
    TreeMap.expected.andThen (.renamed change) = (TreeMap.renamed change).andThen .expected := by
  have expr : Expr.rename change ∘ Expr.erased = Expr.erased ∘ Expr.rename change :=
    funext fun expr => (expr.erased_rename change).symm
  have object (isFile : Bool) (decl : VarDecl) :
      ((decl.adjusted isFile).unchecked fun _ => false).rename change =
        ((decl.rename change).adjusted isFile).unchecked fun _ => false := by
    unfold VarDecl.adjusted VarDecl.unchecked VarDecl.rename
    split <;> simp [Initializer.unchecked_rename, Initializer.unbraced_rename, Function.comp_def]
  have function (decl : FunDecl) : decl.adjusted.rename change = (decl.rename change).adjusted := by
    simp [FunDecl.adjusted, FunDecl.rename, Function.comp_def, Param.adjusted_rename]
  simp only [TreeMap.expected, TreeMap.andThen, TreeMap.renamed, TreeMap.adjusted,
    TreeMap.unchecked, TreeMap.mk.injEq]
  exact ⟨expr, funext fun isFile => funext (object isFile), funext function, rfl, rfl⟩

/-- Other names do not change the numbers of initializers. -/
theorem Program.numbered_renamed {bound : Nat} {program : Program} :
    (program.mapParts (.renamed change)).Forall (.numbered bound) ↔
      program.Forall (.numbered bound) := by
  have object (decl : VarDecl) :
      (∀ init ∈ (decl.rename change).init, init.IsNumbered bound) ↔
        ∀ init ∈ decl.init, init.IsNumbered bound := by
    cases isInit : decl.init <;> simp [VarDecl.rename, isInit, Initializer.isNumbered_rename]
  have there : ((TreePredicate.numbered bound).comap (.renamed change)).Implies
      (.numbered bound) :=
    ⟨fun _ => id, fun _ => id, fun _ decl => (object decl).1, fun _ => id, fun _ => id,
      fun _ => id⟩
  have back : (TreePredicate.numbered bound).Implies
      ((TreePredicate.numbered bound).comap (.renamed change)) :=
    ⟨fun _ => id, fun _ => id, fun _ decl => (object decl).2, fun _ => id, fun _ => id,
      fun _ => id⟩
  rw [Program.forall_mapParts]
  exact ⟨Program.Forall.mono there, Program.Forall.mono back⟩

end

theorem Program.numbered_unlabelled {bound : Nat} {program : Program} :
    (program.mapParts .unlabelled).Forall (.numbered bound) ↔ program.Forall (.numbered bound) :=
  Program.forall_mapParts

/-! ### Trees to which nothing is added -/

section

variable {origin : Origin}

namespace Expr

mutual

theorem erased_of_isWritten : ∀ {expr : Expr}, expr.IsWritten origin → expr.erased = expr
  | .constant _ _, isWritten | .string _ _, isWritten | .sizeofType _ _, isWritten => by
      rw [erased, ← Note.IsWritten.untyped isWritten]
  | .var _ _, isWritten => by
      rw [erased, ← isWritten.1.untyped]
  | .unary _ _ _, isWritten | .addressOf _ _, isWritten | .dereference _ _, isWritten
  | .step _ _ _ _, isWritten | .sizeofExpr _ _, isWritten => by
      rw [erased, ← isWritten.1.untyped, erased_of_isWritten isWritten.2]
  | .cast _ _ _ _, isWritten => by
      rw [erased, ← isWritten.1.untyped, isWritten.2.2, erased_of_isWritten isWritten.2.1]
      rfl
  | .binary _ _ _ _, isWritten | .subscript _ _ _, isWritten => by
      rw [erased, ← isWritten.1.untyped, erased_of_isWritten isWritten.2.1,
        erased_of_isWritten isWritten.2.2]
  | .assign _ _ _ _ _, isWritten => by
      rw [erased, ← isWritten.1.untyped, erased_of_isWritten isWritten.2.1,
        erased_of_isWritten isWritten.2.2.1, isWritten.2.2.2]
  | .conditional _ _ _ _, isWritten => by
      rw [erased, ← isWritten.1.untyped, erased_of_isWritten isWritten.2.1,
        erased_of_isWritten isWritten.2.2.1, erased_of_isWritten isWritten.2.2.2]
  | .call _ _ _, isWritten => by
      rw [erased, ← isWritten.1.untyped, erasedList_of_isWritten isWritten.2.2]

theorem erasedList_of_isWritten : ∀ {exprs : List Expr}, IsWrittenList origin exprs →
    erasedList exprs = exprs
  | [], _ => rfl
  | _ :: _, areWritten =>
      congrArg₂ _ (erased_of_isWritten areWritten.1) (erasedList_of_isWritten areWritten.2)

end

end Expr

namespace Initializer

mutual

theorem unchecked_of_isWritten : ∀ {init : Initializer}, init.IsWritten origin →
    (init.unchecked fun _ => false) = init
  | .single _ _, isWritten => congrArg _ (Expr.erased_of_isWritten isWritten.2)
  | .compound _ _, isWritten => congrArg _ (uncheckedList_of_isWritten isWritten.2)

theorem uncheckedList_of_isWritten : ∀ {items : List Initializer}, IsWrittenList origin items →
    uncheckedList (fun _ => false) items = items
  | [], _ => rfl
  | _ :: _, areWritten =>
      congrArg₂ _ (unchecked_of_isWritten areWritten.1) (uncheckedList_of_isWritten areWritten.2)

end

mutual

theorem IsWritten.unbraced (type : CType) : ∀ {init : Initializer}, init.IsWritten origin →
    (init.unbraced type).IsWritten origin
  | .single _ _, isWritten => isWritten
  | .compound loc items, isWritten => by
      unfold Initializer.unbraced
      split
      · exact ⟨isWritten.1, isWrittenList_unbraced _ isWritten.2⟩
      · split
        · exact isWritten.2.1
        · exact isWritten

theorem isWrittenList_unbraced (element : CType) : ∀ {items : List Initializer},
    IsWrittenList origin items → IsWrittenList origin (unbracedList element items)
  | [], _ => trivial
  | _ :: _, areWritten =>
      ⟨areWritten.1.unbraced element, isWrittenList_unbraced element areWritten.2⟩

end

end Initializer

theorem VarDecl.unchecked_of_isWritten {decl : VarDecl} (isWritten : decl.IsWritten origin) :
    (decl.unchecked fun _ => false) = decl := by
  rw [unchecked]
  cases isInit : decl.init with
  | none => rw [Option.map_none, ← isInit]
  | some init =>
      rw [Option.map_some, Initializer.unchecked_of_isWritten (isWritten.init init isInit),
        ← isInit]

theorem VarDecl.IsWritten.adjusted {decl : VarDecl} (isWritten : decl.IsWritten origin)
    (isFile : Bool) : (decl.adjusted isFile).IsWritten origin := by
  unfold VarDecl.adjusted
  split
  · exact isWritten
  · refine ⟨isWritten.span, isWritten.name, fun init mem => ?_⟩
    rcases Option.map_eq_some_iff.1 mem with ⟨given, isInit, rfl⟩
    exact (isWritten.init given isInit).unbraced decl.type

/-- There is nothing to take away from a tree as a parser writes it. -/
theorem TreeMap.expected_agrees : TreeMap.expected.Agrees origin.parts .adjusted where
  expr _ := Expr.erased_of_isWritten
  object isFile _ isDeclared :=
    VarDecl.unchecked_of_isWritten (isDeclared.toIsWritten.adjusted isFile)
  function _ _ := rfl
  label _ isNone := isNone.symm
  cases _ isEmpty := isEmpty.symm

end

namespace Program

theorem mapParts_stem {program : Program} (isWritten : program.Forall Origin.plain.parts) :
    program.mapParts (.renamed Text.stem) = program := by
  have agrees : (TreeMap.renamed Text.stem).Agrees Origin.plain.parts (.renamed id) :=
    TreeMap.renamed_agrees fun _ => Text.stem_of_isPlain
  rw [agrees.program isWritten, TreeMap.renamed_id, mapParts_identity]

/-- Behind the nodes of a parser, analysis gives back the parser's tree once what it adds is taken
away. -/
theorem analyze_restores {program : Program} (isWritten : program.Forall Origin.plain.parts)
    (numbered : program.Forall (.numbered newest)) :
    program.analyze.Restores newest fun analysed =>
      (analysed.mapParts (.unchecked (Initializer.isPadding newest))).mapParts
        (.renamed Text.stem) = program.mapParts .adjusted := by
  have placed : program.Forall (.placed fun _ => True) := placed_of_written isWritten
  have stems : program.resolve.Restores newest fun resolved =>
      resolved.mapParts (.renamed Text.stem) = program.mapParts (.renamed Text.stem) :=
    program.resolveFrom_restores .file
  have resolve := (Restores.any (resolveFrom_reports .file placed)).and stems
  refine resolve.bind fun resolved ⟨placedResolved, stems⟩ => ?_
  have numberedResolved : resolved.Forall (.numbered newest) := by
    rw [← numbered_renamed Text.stem, stems, numbered_renamed]
    exact numbered
  refine ((Restores.any (label_reports placedResolved)).and resolved.label_restores).bind
    fun labelled ⟨placedLabelled, unlabelled⟩ => ?_
  have numberedLabelled : labelled.Forall (.numbered newest) := by
    rw [← numbered_unlabelled, unlabelled, numbered_unlabelled]
    exact numberedResolved
  refine (check_restores placedLabelled numberedLabelled).mono fun analysed unchecked => ?_
  calc (analysed.mapParts (.unchecked (Initializer.isPadding newest))).mapParts (.renamed Text.stem)
      = ((labelled.mapParts .unlabelled).mapParts .expected).mapParts (.renamed Text.stem) := by
        rw [unchecked, mapParts_mapParts .unlabelled]
        rfl
    _ = ((resolved.mapParts .unlabelled).mapParts .expected).mapParts (.renamed Text.stem) := by
        rw [unlabelled]
    _ = (resolved.mapParts (.renamed Text.stem)).mapParts .expected := by
        rw [mapParts_mapParts .unlabelled, mapParts_mapParts, mapParts_mapParts,
          ← TreeMap.expected_renamed]
        rfl
    _ = program.mapParts .expected := by
        rw [stems, mapParts_stem isWritten]
    _ = program.mapParts .adjusted := TreeMap.expected_agrees.program isWritten

/-- The tree of a parsed source comes with names that have no dots, and is numbered through the
newest node. -/
theorem written_of_parse {source : Text} {program : Program} {lastId : Nat}
    (parses : parse source = .ok (program, lastId)) :
    program.Forall Origin.plain.parts ∧ Numbers 0 lastId program.ids := by
  have plain := Lexer.isPlain_of_mem_lexFrom (.start source)
  have isFrom : (⟨(Lexer.lex source).tokens, (Lexer.lex source).ending, 0⟩ : ParseState).IsFrom
      Origin.plain :=
    ⟨fun token mem => ⟨trivial, plain.1 token mem⟩, fun _ _ _ _ => trivial,
      fun token isEnd => ⟨trivial, plain.2 token isEnd⟩, (Lexer.lex_isLexed source).ending_ne_string⟩
  rw [parse_eq_ofLexed] at parses
  exact (written_of_ofLexed isFrom).1 program lastId parses

/-- The tree of a source has plain names, and its newest node bounds its numbers. -/
theorem plain_of_parse {source : Text} {program : Program} {lastId : Nat}
    (parses : parse source = .ok (program, lastId)) :
    program.Forall Origin.plain.parts ∧ program.Forall (.numbered lastId) := by
  have written := written_of_parse parses
  exact ⟨written.1, forall_numbered fun _ mem => written.2.le_of_mem mem⟩

/-- Analysis only adds to the tree of a source: without types, conversions, labels, lists of cases,
numbers of names and zeros, what it accepts is the tree of the parser with the adjusted types of
parameters, and without braces around automatic scalars. -/
theorem unchecked_of_analyze {source : Text} {program analysed : Program} {lastId : Nat}
    {context : Context} (parses : parse source = .ok (program, lastId))
    (accepts : program.analyze.run (parsedContext lastId) = .ok (analysed, context)) :
    (analysed.mapParts (.unchecked (Initializer.isPadding lastId))).mapParts
      (.renamed Text.stem) = program.mapParts .adjusted := by
  have plain := plain_of_parse parses
  exact ((analyze_restores plain.1 plain.2 _ (Nat.le_refl lastId)).of_ok accepts).2

/-- An adjusted parameter, an array padded with zeros, and a scalar in braces. -/
theorem unchecked_of_analyze_padded :
    ∃ program lastId analysed context,
      Program.parse "int f(int a[3]) { int x[3] = {a[0]}; int y = {x[1]}; return y; }" =
          .ok (program, lastId) ∧
        program.analyze.run (parsedContext lastId) = .ok (analysed, context) ∧
        (analysed.mapParts (.unchecked (Initializer.isPadding lastId))).mapParts
          (.renamed Text.stem) = program.mapParts .adjusted := by
  have succeeds : succeedsWith
      (fun parsed => succeedsWith (fun _ => true)
        (parsed.1.analyze.run (parsedContext parsed.2)))
      (Program.parse "int f(int a[3]) { int x[3] = {a[0]}; int y = {x[1]}; return y; }") := by
    decide +kernel
  rcases exists_of_succeedsWith succeeds with ⟨⟨program, lastId⟩, parses, accepted⟩
  rcases exists_of_succeedsWith accepted with ⟨⟨analysed, context⟩, accepts, -⟩
  exact ⟨program, lastId, analysed, context, parses, accepts, unchecked_of_analyze parses accepts⟩

end Program

end SubsetC
