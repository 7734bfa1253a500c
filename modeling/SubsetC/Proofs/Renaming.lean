import Mathlib.Logic.Basic
import SubsetC.Proofs.Naming
import SubsetC.Proofs.WrittenTrees

/-!
# Renamed trees

A tree with other names for its objects and functions. Renamings that agree on the names of a source
do the same to its trees.
-/

namespace SubsetC

/-- The places do not matter where a parser finds its tokens, and its names have no dots. -/
abbrev Origin.plain : Origin := ⟨fun _ => True, Text.IsPlain⟩

namespace Expr

mutual

/-- The expression with its names changed. -/
def rename (change : Text → Text) : Expr → Expr
  | .constant note value => .constant note value
  | .string note bytes => .string note bytes
  | .var note name => .var note (change name)
  | .unary note op operand => .unary note op (operand.rename change)
  | .binary note op left right => .binary note op (left.rename change) (right.rename change)
  | .assign note op left right opType =>
      .assign note op (left.rename change) (right.rename change) opType
  | .conditional note condition thenBranch elseBranch =>
      .conditional note (condition.rename change) (thenBranch.rename change)
        (elseBranch.rename change)
  | .call note name arguments => .call note (change name) (renameList change arguments)
  | .cast note target operand isImplicit => .cast note target (operand.rename change) isImplicit
  | .addressOf note operand => .addressOf note (operand.rename change)
  | .dereference note operand => .dereference note (operand.rename change)
  | .subscript note array index => .subscript note (array.rename change) (index.rename change)
  | .step note form op operand => .step note form op (operand.rename change)
  | .sizeofExpr note operand => .sizeofExpr note (operand.rename change)
  | .sizeofType note operand => .sizeofType note operand
  | .decay note operand => .decay note (operand.rename change)

def renameList (change : Text → Text) : List Expr → List Expr
  | [] => []
  | expr :: exprs => expr.rename change :: renameList change exprs

end

end Expr

namespace Initializer

mutual

/-- The initializer with the names in its expressions changed. -/
def rename (change : Text → Text) : Initializer → Initializer
  | .single loc value => .single loc (value.rename change)
  | .compound loc items => .compound loc (renameList change items)

def renameList (change : Text → Text) : List Initializer → List Initializer
  | [] => []
  | item :: items => item.rename change :: renameList change items

end

@[simp]
theorem loc_rename (change : Text → Text) (init : Initializer) :
    (init.rename change).loc = init.loc := by
  cases init <;> rfl

end Initializer

/-- The declaration with its name and those in its initializer changed. -/
def VarDecl.rename (change : Text → Text) (decl : VarDecl) : VarDecl :=
  { decl with name := change decl.name, init := decl.init.map (Initializer.rename change) }

/-- The parameter with its name changed, if it has one. -/
def Param.rename (change : Text → Text) (param : Param) : Param :=
  { param with name := if param.name.isEmpty then [] else change param.name }

/-- The declaration with its name and those of its parameters changed. -/
def FunDecl.rename (change : Text → Text) (decl : FunDecl) : FunDecl :=
  { decl with name := change decl.name, params := decl.params.map (Param.rename change) }

/-- The change of a tree that changes its names. -/
def TreeMap.renamed (change : Text → Text) : TreeMap where
  expr := Expr.rename change
  object _ := VarDecl.rename change
  function := FunDecl.rename change
  label := id
  cases := id

/-! ### Renamings that agree -/

-- The recursive calls of a mutual block hide that its theorems use the hypothesis.
set_option linter.unusedSectionVars false

section

variable {origin : Origin} {change other : Text → Text}
  (agree : ∀ name, origin.isName name → change name = other name)

include agree

namespace Expr

mutual

theorem rename_congr : ∀ {expr : Expr}, expr.IsWritten origin →
    expr.rename change = expr.rename other
  | .constant _ _, _ | .string _ _, _ | .sizeofType _ _, _ => rfl
  | .var _ _, isWritten => congrArg _ (agree _ isWritten.2)
  | .unary _ _ _, isWritten | .addressOf _ _, isWritten | .dereference _ _, isWritten
  | .step _ _ _ _, isWritten | .sizeofExpr _ _, isWritten =>
      congrArg _ (rename_congr isWritten.2)
  | .cast _ _ _ _, isWritten => by
      rw [rename, rename, rename_congr isWritten.2.1]
  | .binary _ _ _ _, isWritten | .subscript _ _ _, isWritten => by
      rw [rename, rename, rename_congr isWritten.2.1, rename_congr isWritten.2.2]
  | .assign _ _ _ _ _, isWritten => by
      rw [rename, rename, rename_congr isWritten.2.1, rename_congr isWritten.2.2.1]
  | .conditional _ _ _ _, isWritten => by
      rw [rename, rename, rename_congr isWritten.2.1, rename_congr isWritten.2.2.1,
        rename_congr isWritten.2.2.2]
  | .call _ _ _, isWritten => by
      rw [rename, rename, agree _ isWritten.2.1, renameList_congr isWritten.2.2]

theorem renameList_congr : ∀ {exprs : List Expr}, IsWrittenList origin exprs →
    renameList change exprs = renameList other exprs
  | [], _ => rfl
  | _ :: _, areWritten => by
      rw [renameList, renameList, rename_congr areWritten.1, renameList_congr areWritten.2]

end

end Expr

namespace Initializer

mutual

theorem rename_congr : ∀ {init : Initializer}, init.IsWritten origin →
    init.rename change = init.rename other
  | .single _ _, isWritten => congrArg _ (Expr.rename_congr agree isWritten.2)
  | .compound _ _, isWritten => congrArg _ (renameList_congr isWritten.2)

theorem renameList_congr : ∀ {items : List Initializer}, IsWrittenList origin items →
    renameList change items = renameList other items
  | [], _ => rfl
  | _ :: _, areWritten => by
      rw [renameList, renameList, rename_congr areWritten.1, renameList_congr areWritten.2]

end

end Initializer

theorem VarDecl.rename_congr {decl : VarDecl} (isWritten : decl.IsWritten origin) :
    decl.rename change = decl.rename other := by
  have init : decl.init.map (Initializer.rename change) =
      decl.init.map (Initializer.rename other) :=
    Option.map_congr fun init mem =>
      Initializer.rename_congr agree (isWritten.init init mem)
  rw [VarDecl.rename, VarDecl.rename, agree decl.name isWritten.name, init]

theorem Param.rename_congr {param : Param} (isWritten : param.IsWritten origin) :
    param.rename change = param.rename other := by
  unfold Param.rename
  rcases isWritten.name with unnamed | isName
  · simp [unnamed]
  · rw [agree param.name isName]

theorem FunDecl.rename_congr {decl : FunDecl} (isWritten : decl.IsWritten origin) :
    decl.rename change = decl.rename other := by
  have params : decl.params.map (Param.rename change) = decl.params.map (Param.rename other) :=
    List.map_congr_left fun param mem =>
      Param.rename_congr agree (isWritten.params param mem)
  rw [FunDecl.rename, FunDecl.rename, agree decl.name isWritten.name, params]

/-- Renamings that agree on the names of a source do the same to its trees. -/
theorem TreeMap.renamed_agrees :
    (TreeMap.renamed change).Agrees origin.parts (TreeMap.renamed other) where
  expr _ := Expr.rename_congr agree
  object _ _ isDeclared := VarDecl.rename_congr agree isDeclared.toIsWritten
  function _ := FunDecl.rename_congr agree
  label _ _ := rfl
  cases _ _ := rfl

end

/-! ### Renamings that change nothing -/

namespace Expr

mutual

theorem rename_id : ∀ expr : Expr, expr.rename id = expr
  | .constant _ _ | .string _ _ | .sizeofType _ _ | .var _ _ => rfl
  | .unary _ _ operand | .addressOf _ operand | .dereference _ operand | .step _ _ _ operand
  | .sizeofExpr _ operand | .cast _ _ operand _ | .decay _ operand => by
      rw [rename, rename_id operand]
  | .binary _ _ left right | .subscript _ left right | .assign _ _ left right _ => by
      rw [rename, rename_id left, rename_id right]
  | .conditional _ condition thenBranch elseBranch => by
      rw [rename, rename_id condition, rename_id thenBranch, rename_id elseBranch]
  | .call _ _ arguments => congrArg _ (renameList_id arguments)

theorem renameList_id : ∀ exprs : List Expr, renameList id exprs = exprs
  | [] => rfl
  | expr :: exprs => congrArg₂ _ (rename_id expr) (renameList_id exprs)

end

end Expr

namespace Initializer

mutual

theorem rename_id : ∀ init : Initializer, init.rename id = init
  | .single _ value => congrArg _ value.rename_id
  | .compound _ items => congrArg _ (renameList_id items)

theorem renameList_id : ∀ items : List Initializer, renameList id items = items
  | [] => rfl
  | item :: items => congrArg₂ _ (rename_id item) (renameList_id items)

end

end Initializer

theorem TreeMap.renamed_id : TreeMap.renamed id = .identity := by
  have expr : Expr.rename id = id := funext Expr.rename_id
  have object : VarDecl.rename id = id := by
    funext decl
    have init : Initializer.rename id = id := funext Initializer.rename_id
    simp [VarDecl.rename, init]
  have param : Param.rename id = id := by
    funext param
    unfold Param.rename
    split
    · rename_i unnamed
      rw [← List.isEmpty_iff.1 unnamed]
      rfl
    · rfl
  have function : FunDecl.rename id = id := by
    funext decl
    simp [FunDecl.rename, param]
  simp only [TreeMap.renamed, expr, object, function]
  rfl

end SubsetC
