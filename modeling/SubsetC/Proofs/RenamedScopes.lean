import SubsetC.Analysis.Scope
import SubsetC.Proofs.MirroredPasses
import SubsetC.Proofs.Renaming

/-!
# Renamed sources

If the identifiers of a source are permuted, resolution finds the same ones, and the internal names
that it makes from them change along. The main statement is `Program.resolve_mirrored`.
-/

namespace SubsetC

variable {names : NameChange}

open Pass (Mirrored)

/-- A change that leaves the empty name alone does not have to spare parameters without a name. -/
theorem Param.rename_eq {change : Text → Text} (empty : change [] = []) (param : Param) :
    param.rename change = { param with name := change param.name } := by
  unfold Param.rename
  split
  · rename_i unnamed
    rw [List.isEmpty_iff.1 unnamed, empty]
  · rfl

/-! ### Scopes -/

section

variable (change internal : Text → Text)

/-- What a name stands for, with the internal name changed. -/
def Binding.rename (binding : Binding) : Binding :=
  { binding with name := internal binding.name }

/-- The scope with its names and their internal names changed. -/
def Scope.rename (scope : Scope) : Scope :=
  scope.map fun entry => (change entry.1, entry.2.rename internal)

/-- The scopes with their names and the internal names changed. -/
def Scopes.renameAll (scopes : Scopes) : Scopes :=
  ⟨Scope.rename change internal scopes.inner, scopes.outer.map (Scope.rename change internal)⟩

end

namespace Scopes

variable {change internal : Text → Text}

theorem renameAll_declare (scopes : Scopes) (name : Text) (binding : Binding) :
    (scopes.declare name binding).renameAll change internal =
      (scopes.renameAll change internal).declare (change name) (binding.rename internal) := rfl

theorem renameAll_enter (scopes : Scopes) :
    scopes.enter.renameAll change internal = (scopes.renameAll change internal).enter := rfl

variable (permutes : Text.Permutes change)

include permutes

theorem lookup_rename (name : Text) : ∀ scope : Scope,
    (Scope.rename change internal scope).lookup (change name) =
      (scope.lookup name).map (Binding.rename internal)
  | [] => rfl
  | (known, binding) :: scope => by
      rw [Scope.rename, List.map_cons, List.lookup_cons, List.lookup_cons]
      by_cases same : name = known
      · simp [same]
      · have differ : change name ≠ change known := fun equal => same (permutes.injective equal)
        simp only [beq_eq_false_iff_ne.2 same, beq_eq_false_iff_ne.2 differ]
        exact lookup_rename name scope

theorem local?_renameAll (scopes : Scopes) (name : Text) :
    (scopes.renameAll change internal).local? (change name) =
      (scopes.local? name).map (Binding.rename internal) :=
  lookup_rename permutes name scopes.inner

theorem find?_renameAll (scopes : Scopes) (name : Text) :
    (scopes.renameAll change internal).find? (change name) =
      (scopes.find? name).map (Binding.rename internal) := by
  have all : ∀ outer : List Scope,
      (outer.map (Scope.rename change internal)).findSome? (·.lookup (change name)) =
        (outer.findSome? (·.lookup name)).map (Binding.rename internal) := by
    intro outer
    induction outer with
    | nil => rfl
    | cons scope outer ih =>
        rw [List.map_cons, List.findSome?_cons, List.findSome?_cons, lookup_rename permutes]
        cases scope.lookup name with
        | none => exact ih
        | some binding => rfl
  exact all (scopes.inner :: scopes.outer)

end Scopes

/-! ### Trees -/

-- The recursive calls of a mutual block hide that its theorems use the hypothesis.
set_option linter.unusedSectionVars false

section

variable {change : Text → Text} (carries : names.Carries change)

include carries

namespace Expr

mutual

theorem resolve_mirrored (scopes : Scopes) : ∀ expr : Expr,
    Mirrored names (expr.resolve scopes)
      ((expr.rename change).resolve (scopes.renameAll change names.internal))
      (rename names.internal)
  | .constant _ _ | .string _ _ | .sizeofType _ _ => .pure rfl
  | .var _ name => by
      rw [rename, resolve, resolve, Scopes.find?_renameAll carries.permutes]
      cases scopes.find? name with
      | none => exact .nameError rfl
      | some binding => exact .pure rfl
  | .unary _ _ operand | .addressOf _ operand | .dereference _ operand | .step _ _ _ operand
  | .sizeofExpr _ operand | .cast _ _ operand _ =>
      (resolve_mirrored scopes operand).bind fun _ => .pure rfl
  | .binary _ _ left right | .subscript _ left right | .assign _ _ left right _ =>
      (resolve_mirrored scopes left).bind fun _ =>
        (resolve_mirrored scopes right).bind fun _ => .pure rfl
  | .conditional _ condition thenBranch elseBranch =>
      (resolve_mirrored scopes condition).bind fun _ =>
        (resolve_mirrored scopes thenBranch).bind fun _ =>
          (resolve_mirrored scopes elseBranch).bind fun _ => .pure rfl
  | .call _ name arguments => by
      rw [rename, resolve, resolve, Scopes.find?_renameAll carries.permutes]
      cases scopes.find? name with
      | none => exact .nameError rfl
      | some binding => exact (resolveList_mirrored scopes arguments).bind fun _ => .pure rfl
  | .decay _ _ => .throw (.refl _)

theorem resolveList_mirrored (scopes : Scopes) : ∀ exprs : List Expr,
    Mirrored names (resolveList scopes exprs)
      (resolveList (scopes.renameAll change names.internal) (renameList change exprs))
      (renameList names.internal)
  | [] => .pure rfl
  | expr :: exprs =>
      (resolve_mirrored scopes expr).bind fun _ =>
        (resolveList_mirrored scopes exprs).bind fun _ => .pure rfl

end

theorem resolveOption_mirrored (scopes : Scopes) : ∀ value : Option Expr,
    Mirrored names (resolveOption scopes value)
      (resolveOption (scopes.renameAll change names.internal) (value.map (rename change)))
      (Option.map (rename names.internal))
  | none => .pure rfl
  | some expr => (resolve_mirrored carries scopes expr).bind fun _ => .pure rfl

end Expr

namespace Initializer

mutual

theorem resolve_mirrored (scopes : Scopes) : ∀ init : Initializer,
    Mirrored names (init.resolve scopes)
      ((init.rename change).resolve (scopes.renameAll change names.internal))
      (rename names.internal)
  | .single _ value => (Expr.resolve_mirrored carries scopes value).bind fun _ => .pure rfl
  | .compound _ items => (resolveList_mirrored scopes items).bind fun _ => .pure rfl

theorem resolveList_mirrored (scopes : Scopes) : ∀ items : List Initializer,
    Mirrored names (resolveList scopes items)
      (resolveList (scopes.renameAll change names.internal) (renameList change items))
      (renameList names.internal)
  | [] => .pure rfl
  | item :: items =>
      (resolve_mirrored scopes item).bind fun _ =>
        (resolveList_mirrored scopes items).bind fun _ => .pure rfl

end

end Initializer

/-- What is resolved of a declaration, and the scopes behind it, with internal names changed. -/
abbrev Scopes.alongside {α β : Type} (change internal : Text → Text) (adapt : α → β) :
    α × Scopes → β × Scopes :=
  Prod.map adapt (Scopes.renameAll change internal)

namespace VarDecl

/-- The initializer of an object is resolved that has its internal name already. -/
theorem resolveInit_mirrored (scopes : Scopes) (decl : VarDecl) :
    Mirrored names (decl.resolveInit scopes)
      (({ decl.rename change with name := names.internal decl.name } : VarDecl).resolveInit
        (scopes.renameAll change names.internal)) (rename names.internal) := by
  unfold resolveInit
  cases isInit : decl.init with
  | none =>
      simp only [rename, isInit, Option.map_none]
      exact .pure (by rw [rename, isInit, Option.map_none])
  | some init =>
      simp only [rename, isInit, Option.map_some]
      exact (Initializer.resolve_mirrored carries scopes init).bind fun _ => .pure rfl

/-- An object with linkage is declared, and visible in its own initializer. -/
theorem resolveInit_linked (scopes : Scopes) {decl : VarDecl} (isPlain : decl.name.IsPlain) :
    Mirrored names (decl.resolveInit (scopes.declare decl.name ⟨decl.name, true⟩))
      ((decl.rename change).resolveInit
        ((scopes.renameAll change names.internal).declare (change decl.name)
          ⟨change decl.name, true⟩))
      (rename names.internal) := by
  have named := carries.plain decl.name isPlain
  have sameDecl : ({ decl.rename change with name := names.internal decl.name } : VarDecl) =
      decl.rename change := by
    rw [named]
    rfl
  have declares := resolveInit_mirrored carries (scopes.declare decl.name ⟨decl.name, true⟩) decl
  rw [sameDecl, Scopes.renameAll_declare, Binding.rename, named] at declares
  exact declares

theorem resolveFile_mirrored (scopes : Scopes) {decl : VarDecl} (isPlain : decl.name.IsPlain) :
    Mirrored names (decl.resolveFile scopes)
      ((decl.rename change).resolveFile (scopes.renameAll change names.internal))
      (Scopes.alongside change names.internal (rename names.internal)) :=
  (resolveInit_linked carries scopes isPlain).bind fun _ => .pure (by
    rw [Scopes.alongside, Prod.map, Scopes.renameAll_declare, Binding.rename,
      carries.plain decl.name isPlain]
    rfl)

theorem checkRedeclaration_mirrored (scopes : Scopes) (decl : VarDecl) :
    Mirrored names (decl.checkRedeclaration scopes)
      ((decl.rename change).checkRedeclaration (scopes.renameAll change names.internal)) id := by
  unfold checkRedeclaration
  rw [show (decl.rename change).name = change decl.name from rfl,
    Scopes.local?_renameAll carries.permutes]
  cases scopes.local? decl.name with
  | none => exact .pure rfl
  | some previous =>
      exact .ite (.nameError rfl) (.ite (.nameError rfl) (.pure rfl))

theorem resolveLocal_mirrored (scopes : Scopes) {decl : VarDecl} (isPlain : decl.name.IsPlain) :
    Mirrored names (decl.resolveLocal scopes)
      ((decl.rename change).resolveLocal (scopes.renameAll change names.internal))
      (Scopes.alongside change names.internal (rename names.internal)) := by
  refine (checkRedeclaration_mirrored carries scopes decl).bind fun _ => .ite ?_ ?_
  · exact resolveFile_mirrored carries scopes isPlain
  · exact (carries.uniqueName_mirrored isPlain).bind fun name =>
      (resolveInit_mirrored carries (scopes.declare decl.name ⟨name, false⟩)
        { decl with name }).bind fun _ => .pure rfl

theorem resolveLocals_mirrored : ∀ {decls : List VarDecl} (scopes : Scopes),
    (∀ decl ∈ decls, decl.name.IsPlain) → Mirrored names (resolveLocals scopes decls)
      (resolveLocals (scopes.renameAll change names.internal) (decls.map (rename change)))
      (Scopes.alongside change names.internal (List.map (rename names.internal)))
  | [], _, _ => .pure rfl
  | decl :: decls, scopes, arePlain => by
      rw [List.forall_mem_cons] at arePlain
      exact (resolveLocal_mirrored carries scopes arePlain.1).bind fun first =>
        (resolveLocals_mirrored first.2 arePlain.2).bind fun _ => .pure rfl

end VarDecl

theorem Param.resolveList_mirrored : ∀ {params : List Param} (scopes : Scopes),
    (∀ param ∈ params, param.name = [] ∨ param.name.IsPlain) →
      Mirrored names (Param.resolveList scopes params)
        (Param.resolveList (scopes.renameAll change names.internal)
          (params.map (Param.rename change)))
        (Scopes.alongside change names.internal (List.map (Param.rename names.internal)))
  | [], _, _ => .pure rfl
  | param :: params, scopes, arePlain => by
      rw [List.forall_mem_cons] at arePlain
      have renamed (param : Param) := param.rename_eq carries.empty
      rw [List.map_cons, param.rename_eq carries.permutes.empty, Param.resolveList,
        Param.resolveList]
      refine .ite_iff (by rw [carries.permutes.isEmpty]) (fun unnamed => ?_) fun isNamed => ?_
      · refine (resolveList_mirrored scopes arePlain.2).bind fun _ => .pure ?_
        have none : param.name = [] := List.isEmpty_iff.1 unnamed
        simp [Scopes.alongside, renamed, none, carries.empty, carries.permutes.empty]
      · have isPlain : param.name.IsPlain :=
          arePlain.1.resolve_left fun none => isNamed (List.isEmpty_iff.2 none)
        have declares : Mirrored names (do
            let name ← Pass.uniqueName param.name
            let scopes := scopes.declare param.name ⟨name, false⟩
            let rest ← Param.resolveList scopes params
            pure ({ param with name } :: rest.1, rest.2)) (do
            let name ← Pass.uniqueName (change param.name)
            let scopes := (scopes.renameAll change names.internal).declare (change param.name)
              ⟨name, false⟩
            let rest ← Param.resolveList scopes (params.map (Param.rename change))
            pure ({ param with name } :: rest.1, rest.2))
            (Scopes.alongside change names.internal (List.map (Param.rename names.internal))) :=
          (carries.uniqueName_mirrored isPlain).bind fun name =>
            (resolveList_mirrored (scopes.declare param.name ⟨name, false⟩) arePlain.2).bind
              fun _ => .pure (by simp [Scopes.alongside, renamed])
        refine .ite_iff ?_ (fun _ => .nameError_bind rfl) fun _ => declares
        rw [Scopes.local?_renameAll carries.permutes, Option.isSome_map]

theorem FunDecl.resolve_mirrored (scopes : Scopes) {decl : FunDecl}
    (isWritten : decl.IsWritten Origin.plain) :
    Mirrored names (decl.resolve scopes)
      ((decl.rename change).resolve (scopes.renameAll change names.internal))
      (Prod.map (FunDecl.rename names.internal)
        (Prod.map (Scopes.renameAll change names.internal)
          (Scopes.renameAll change names.internal))) := by
  have named := carries.plain decl.name isWritten.name
  have params := Param.resolveList_mirrored carries
    (scopes.declare decl.name ⟨decl.name, true⟩).enter fun param mem =>
      (isWritten.params param mem).name
  have declares : Mirrored names (do
      let inside ← Param.resolveList (scopes.declare decl.name ⟨decl.name, true⟩).enter decl.params
      pure ({ decl with params := inside.1 }, scopes.declare decl.name ⟨decl.name, true⟩,
        inside.2)) (do
      let inside ←
        Param.resolveList ((scopes.renameAll change names.internal).declare (change decl.name)
          ⟨change decl.name, true⟩).enter (decl.params.map (Param.rename change))
      pure ({ decl.rename change with params := inside.1 },
        (scopes.renameAll change names.internal).declare (change decl.name)
          ⟨change decl.name, true⟩, inside.2))
      (Prod.map (FunDecl.rename names.internal)
        (Prod.map (Scopes.renameAll change names.internal)
          (Scopes.renameAll change names.internal))) := by
    rw [Scopes.renameAll_enter, Scopes.renameAll_declare, Binding.rename, named] at params
    refine params.bind fun _ => .pure ?_
    simp only [Prod.map, FunDecl.rename, named, Scopes.renameAll_declare, Binding.rename,
      Scopes.alongside]
  refine .ite_iff ?_ (fun _ => .nameError_bind rfl) fun _ => declares
  rw [show (decl.rename change).name = change decl.name from rfl,
    Scopes.local?_renameAll carries.permutes, Option.any_map]
  rfl

theorem ForInit.resolve_mirrored (scopes : Scopes) : ∀ {init : ForInit},
    init.Forall Origin.plain.parts → Mirrored names (init.resolve scopes)
      ((init.map (.renamed change)).resolve (scopes.renameAll change names.internal))
      (Scopes.alongside change names.internal (ForInit.map (.renamed names.internal)))
  | .declarations _ _, isWritten =>
      (VarDecl.resolveLocals_mirrored carries scopes fun decl mem =>
        (isWritten.2 decl mem).name).bind fun _ => .pure rfl
  | .expression _ value, _ =>
      (Expr.resolveOption_mirrored carries scopes value).bind fun _ => .pure rfl

mutual

theorem Stmt.resolve_mirrored : ∀ {stmt : Stmt} (scopes : Scopes), stmt.Forall Origin.plain.parts →
    Mirrored names (stmt.resolve scopes)
      ((stmt.map (.renamed change)).resolve (scopes.renameAll change names.internal))
      (Stmt.map (.renamed names.internal))
  | .ret _ value, scopes, _ =>
      (Expr.resolveOption_mirrored carries scopes value).bind fun _ => .pure rfl
  | .expr _ value, scopes, _ => (Expr.resolve_mirrored carries scopes value).bind fun _ => .pure rfl
  | .ifThen _ condition _, scopes, isWritten =>
      (Expr.resolve_mirrored carries scopes condition).bind fun _ =>
        (Stmt.resolve_mirrored scopes isWritten.2.2).bind fun _ => .pure rfl
  | .ifElse _ condition _ _, scopes, isWritten =>
      (Expr.resolve_mirrored carries scopes condition).bind fun _ =>
        (Stmt.resolve_mirrored scopes isWritten.2.2.1).bind fun _ =>
          (Stmt.resolve_mirrored scopes isWritten.2.2.2).bind fun _ => .pure rfl
  | .block _ _, scopes, isWritten =>
      (Item.resolveList_mirrored scopes.enter isWritten.2).bind fun _ => .pure rfl
  | .whileLoop _ _ condition _, scopes, isWritten =>
      (Expr.resolve_mirrored carries scopes condition).bind fun _ =>
        (Stmt.resolve_mirrored scopes isWritten.2.2.2).bind fun _ => .pure rfl
  | .doWhile _ _ _ condition, scopes, isWritten =>
      (Stmt.resolve_mirrored scopes isWritten.2.2.2).bind fun _ =>
        (Expr.resolve_mirrored carries scopes condition).bind fun _ => .pure rfl
  | .forLoop _ _ _ condition post _, scopes, isWritten => by
      rcases isWritten with ⟨_, _, init, _, _, body⟩
      exact (ForInit.resolve_mirrored carries scopes.enter init).bind fun resolved =>
        (Expr.resolveOption_mirrored carries resolved.2 condition).bind fun _ =>
          (Expr.resolveOption_mirrored carries resolved.2 post).bind fun _ =>
            (Stmt.resolve_mirrored resolved.2 body).bind fun _ => .pure rfl
  | .switch _ _ value _ _, scopes, isWritten =>
      (Expr.resolve_mirrored carries scopes value).bind fun _ =>
        (Stmt.resolve_mirrored scopes isWritten.2.2.2.1).bind fun _ => .pure rfl
  | .case _ _ value _, scopes, isWritten =>
      (Expr.resolve_mirrored carries scopes value).bind fun _ =>
        (Stmt.resolve_mirrored scopes isWritten.2.2.2).bind fun _ => .pure rfl
  | .default _ _ _, scopes, isWritten =>
      (Stmt.resolve_mirrored scopes isWritten.2.2).bind fun _ => .pure rfl
  | .break _ _, _, _ | .continue _ _, _, _ | .null _, _, _ => .pure rfl

theorem Decl.resolve_mirrored (isFile : Bool) : ∀ {decl : Decl} (scopes : Scopes),
    decl.Forall Origin.plain.parts isFile → Mirrored names (decl.resolve isFile scopes)
      ((decl.map (.renamed change) isFile).resolve isFile (scopes.renameAll change names.internal))
      (Scopes.alongside change names.internal (Decl.map (.renamed names.internal) isFile))
  | .object _, scopes, isWritten => by
      cases isFile with
      | true =>
          exact (VarDecl.resolveFile_mirrored carries scopes isWritten.name).bind fun _ => .pure rfl
      | false =>
          exact (VarDecl.resolveLocal_mirrored carries scopes isWritten.name).bind fun _ =>
            .pure rfl
  | .function _, scopes, isWritten =>
      (FunDecl.resolve_mirrored carries scopes isWritten).bind fun _ => .pure rfl
  | .definition _ _ _, scopes, isWritten =>
      (FunDecl.resolve_mirrored carries scopes isWritten.1).bind fun resolved =>
        (Item.resolveList_mirrored resolved.2.2 isWritten.2.2).bind fun _ => .pure rfl

theorem Item.resolveList_mirrored : ∀ {items : List Item} (scopes : Scopes),
    Item.ForallList Origin.plain.parts items → Mirrored names (Item.resolveList scopes items)
      (Item.resolveList (scopes.renameAll change names.internal)
        (Item.mapList (.renamed change) items))
      (Item.mapList (.renamed names.internal))
  | [], _, _ => .pure rfl
  | .stmt _ :: _, scopes, isWritten =>
      (Stmt.resolve_mirrored scopes isWritten.1).bind fun _ =>
        (Item.resolveList_mirrored scopes isWritten.2).bind fun _ => .pure rfl
  | .decl _ :: _, scopes, isWritten =>
      (Decl.resolve_mirrored false scopes isWritten.1).bind fun first =>
        (Item.resolveList_mirrored first.2 isWritten.2).bind fun _ => .pure rfl

end

namespace Program

theorem resolveFrom_mirrored : ∀ {program : Program} (scopes : Scopes),
    program.Forall Origin.plain.parts → Mirrored names (program.resolveFrom scopes)
      ((program.mapParts (.renamed change)).resolveFrom (scopes.renameAll change names.internal))
      (Program.mapParts (.renamed names.internal))
  | [], _, _ => .pure rfl
  | _ :: _, scopes, isWritten => by
      rw [Program.Forall, List.forall_mem_cons] at isWritten
      exact (Decl.resolve_mirrored carries true scopes isWritten.1).bind fun first =>
        (resolveFrom_mirrored first.2 isWritten.2).bind fun _ => .pure rfl

/-- A source with other identifiers is resolved alike, to internal names that change along. -/
theorem resolve_mirrored {program : Program} (isWritten : program.Forall Origin.plain.parts) :
    Mirrored names program.resolve (program.mapParts (.renamed change)).resolve
      (Program.mapParts (.renamed names.internal)) :=
  resolveFrom_mirrored carries .file isWritten

end Program

end

end SubsetC
