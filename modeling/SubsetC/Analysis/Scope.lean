import SubsetC.Pass

/-!
# Scopes of names

Resolution gives every parameter and every block-scope object a fresh internal name, and replaces
each use of an identifier by the internal name of the declaration that is visible there. Names
with linkage keep their spelling.
-/

namespace SubsetC

/-- What a name stands for in a scope. -/
structure Binding where
  /-- The internal name. -/
  name : Text
  /-- Whether the name means the same object or function in every scope that declares it so. -/
  hasLinkage : Bool
  deriving DecidableEq, Repr

/-- The names declared in one scope, the newest first. -/
abbrev Scope := List (Text × Binding)

/-- The scopes around a place in a program. -/
structure Scopes where
  inner : Scope
  /-- The scopes around it, from the inside out. -/
  outer : List Scope
  deriving DecidableEq, Repr

namespace Scopes

/-- The file scope before any declaration. -/
def file : Scopes := ⟨[], []⟩

/-- The scopes with a new one inside. -/
def enter (scopes : Scopes) : Scopes := ⟨[], scopes.inner :: scopes.outer⟩

/-- What a name stands for in the innermost scope. -/
def local? (scopes : Scopes) (name : Text) : Option Binding := scopes.inner.lookup name

/-- What a name stands for in the innermost scope that declares it. -/
def find? (scopes : Scopes) (name : Text) : Option Binding :=
  (scopes.inner :: scopes.outer).findSome? fun scope => scope.lookup name

/-- The scopes with a name declared in the innermost one. -/
def declare (scopes : Scopes) (name : Text) (binding : Binding) : Scopes :=
  { scopes with inner := (name, binding) :: scopes.inner }

end Scopes

namespace Expr

mutual

/-- The expression with its identifiers replaced by internal names. -/
def resolve (scopes : Scopes) : Expr → Pass Expr
  | .constant note value => pure (.constant note value)
  | .string note bytes => pure (.string note bytes)
  | .var note name =>
    match scopes.find? name with
    | some binding => pure (.var note binding.name)
    | none => Pass.nameError note.loc.span (.undeclaredIdentifier name)
  | .unary note op operand => do
    pure (.unary note op (← operand.resolve scopes))
  | .binary note op left right => do
    let left ← left.resolve scopes
    let right ← right.resolve scopes
    pure (.binary note op left right)
  | .assign note op left right opType => do
    let left ← left.resolve scopes
    let right ← right.resolve scopes
    pure (.assign note op left right opType)
  | .conditional note condition thenBranch elseBranch => do
    let condition ← condition.resolve scopes
    let thenBranch ← thenBranch.resolve scopes
    let elseBranch ← elseBranch.resolve scopes
    pure (.conditional note condition thenBranch elseBranch)
  | .call note name arguments =>
    match scopes.find? name with
    | some binding => do pure (.call note binding.name (← resolveList scopes arguments))
    | none => Pass.nameError note.loc.span (.undeclaredFunction name)
  | .cast note target operand isImplicit => do
    pure (.cast note target (← operand.resolve scopes) isImplicit)
  | .addressOf note operand => do
    pure (.addressOf note (← operand.resolve scopes))
  | .dereference note operand => do
    pure (.dereference note (← operand.resolve scopes))
  | .subscript note array index => do
    let array ← array.resolve scopes
    let index ← index.resolve scopes
    pure (.subscript note array index)
  | .step note form op operand => do
    pure (.step note form op (← operand.resolve scopes))
  | .sizeofExpr note operand => do
    pure (.sizeofExpr note (← operand.resolve scopes))
  | .sizeofType note operand => pure (.sizeofType note operand)
  | .decay _ _ => throw (.internal .alreadyTyped)

def resolveList (scopes : Scopes) : List Expr → Pass (List Expr)
  | [] => pure []
  | expr :: exprs => do
    let expr ← expr.resolve scopes
    pure (expr :: (← resolveList scopes exprs))

end

def resolveOption (scopes : Scopes) : Option Expr → Pass (Option Expr)
  | some expr => do pure (some (← expr.resolve scopes))
  | none => pure none

end Expr

namespace Initializer

mutual

/-- The initializer with its identifiers replaced by internal names. -/
def resolve (scopes : Scopes) : Initializer → Pass Initializer
  | .single loc value => do pure (.single loc (← value.resolve scopes))
  | .compound loc items => do pure (.compound loc (← resolveList scopes items))

def resolveList (scopes : Scopes) : List Initializer → Pass (List Initializer)
  | [] => pure []
  | item :: items => do
    let item ← item.resolve scopes
    pure (item :: (← resolveList scopes items))

end

end Initializer

namespace VarDecl

/-- The declaration with the identifiers of its initializer replaced by internal names. -/
def resolveInit (scopes : Scopes) (decl : VarDecl) : Pass VarDecl :=
  match decl.init with
  | some init => do pure { decl with init := some (← init.resolve scopes) }
  | none => pure decl

/-- Checks that a block-scope object may be declared in the innermost scope. A name declared there
before must have linkage exactly if the new declaration is external, and may be declared again only
then. -/
def checkRedeclaration (scopes : Scopes) (decl : VarDecl) : Pass Unit :=
  match scopes.local? decl.name with
  | none => pure ()
  | some previous =>
    if previous.hasLinkage != (decl.storageClass = some .external) then
      Pass.nameError decl.loc.span (.conflictingLinkage decl.name)
    else if !previous.hasLinkage then
      Pass.nameError decl.loc.span (.redeclaration decl.name)
    else
      pure ()

/-- Declares a block-scope object, which is visible in its own initializer. -/
def resolveLocal (scopes : Scopes) (decl : VarDecl) : Pass (VarDecl × Scopes) := do
  decl.checkRedeclaration scopes
  if decl.storageClass = some .external then
    let scopes := scopes.declare decl.name ⟨decl.name, true⟩
    pure (← decl.resolveInit scopes, scopes)
  else
    let name ← Pass.uniqueName decl.name
    let scopes := scopes.declare decl.name ⟨name, false⟩
    pure (← { decl with name }.resolveInit scopes, scopes)

/-- Declares several block-scope objects one after the other. -/
def resolveLocals (scopes : Scopes) : List VarDecl → Pass (List VarDecl × Scopes)
  | [] => pure ([], scopes)
  | decl :: decls => do
    let (decl, scopes) ← decl.resolveLocal scopes
    let (decls, scopes) ← resolveLocals scopes decls
    pure (decl :: decls, scopes)

def resolveFile (scopes : Scopes) (decl : VarDecl) : Pass (VarDecl × Scopes) := do
  let scopes := scopes.declare decl.name ⟨decl.name, true⟩
  pure (← decl.resolveInit scopes, scopes)

end VarDecl

/-- Declares the named parameters of a function. -/
def Param.resolveList (scopes : Scopes) : List Param → Pass (List Param × Scopes)
  | [] => pure ([], scopes)
  | param :: params => do
    if param.name.isEmpty then
      let (params, scopes) ← resolveList scopes params
      pure (param :: params, scopes)
    else
      if (scopes.local? param.name).isSome then
        Pass.nameError param.span (.duplicateParameter param.name)
      let name ← Pass.uniqueName param.name
      let scopes := scopes.declare param.name ⟨name, false⟩
      let (params, scopes) ← resolveList scopes params
      pure ({ param with name } :: params, scopes)

/-- Declares a function and its parameters. The results are the scopes after the declaration and
those inside the function. -/
def FunDecl.resolve (scopes : Scopes) (decl : FunDecl) : Pass (FunDecl × Scopes × Scopes) := do
  if (scopes.local? decl.name).any (!·.hasLinkage) then
    Pass.nameError decl.loc.span (.functionRedeclared decl.name)
  let scopes := scopes.declare decl.name ⟨decl.name, true⟩
  let (params, inside) ← Param.resolveList scopes.enter decl.params
  pure ({ decl with params }, scopes, inside)

/-- Resolves the first clause of a for statement, which may declare objects. -/
def ForInit.resolve (scopes : Scopes) : ForInit → Pass (ForInit × Scopes)
  | .declarations loc decls => do
    let (decls, scopes) ← VarDecl.resolveLocals scopes decls
    pure (.declarations loc decls, scopes)
  | .expression loc value => do
    pure (.expression loc (← Expr.resolveOption scopes value), scopes)

mutual

/-- The statement with its identifiers replaced by internal names. -/
def Stmt.resolve (scopes : Scopes) : Stmt → Pass Stmt
  | .ret loc value => do pure (.ret loc (← Expr.resolveOption scopes value))
  | .expr loc value => do pure (.expr loc (← value.resolve scopes))
  | .ifThen loc condition thenBranch => do
    let condition ← condition.resolve scopes
    let thenBranch ← thenBranch.resolve scopes
    pure (.ifThen loc condition thenBranch)
  | .ifElse loc condition thenBranch elseBranch => do
    let condition ← condition.resolve scopes
    let thenBranch ← thenBranch.resolve scopes
    let elseBranch ← elseBranch.resolve scopes
    pure (.ifElse loc condition thenBranch elseBranch)
  | .block loc items => do pure (.block loc (← Item.resolveList scopes.enter items))
  | .whileLoop loc label condition body => do
    let condition ← condition.resolve scopes
    let body ← body.resolve scopes
    pure (.whileLoop loc label condition body)
  | .doWhile loc label body condition => do
    let body ← body.resolve scopes
    let condition ← condition.resolve scopes
    pure (.doWhile loc label body condition)
  | .forLoop loc label init condition post body => do
    let (init, scopes) ← init.resolve scopes.enter
    let condition ← Expr.resolveOption scopes condition
    let post ← Expr.resolveOption scopes post
    let body ← body.resolve scopes
    pure (.forLoop loc label init condition post body)
  | .switch loc label value body cases => do
    let value ← value.resolve scopes
    let body ← body.resolve scopes
    pure (.switch loc label value body cases)
  | .case loc label value body => do
    let value ← value.resolve scopes
    let body ← body.resolve scopes
    pure (.case loc label value body)
  | .default loc label body => do pure (.default loc label (← body.resolve scopes))
  | .break loc label => pure (.break loc label)
  | .continue loc label => pure (.continue loc label)
  | .null loc => pure (.null loc)

/-- The declaration with its identifiers replaced by internal names, and the scopes after it. -/
def Decl.resolve (isFile : Bool) (scopes : Scopes) : Decl → Pass (Decl × Scopes)
  | .object decl => do
    let (decl, scopes) ←
      if isFile then decl.resolveFile scopes else decl.resolveLocal scopes
    pure (.object decl, scopes)
  | .function decl => do
    let (decl, scopes, _) ← decl.resolve scopes
    pure (.function decl, scopes)
  | .definition decl bodyLoc body => do
    let (decl, scopes, inside) ← decl.resolve scopes
    let body ← Item.resolveList inside body
    pure (.definition decl bodyLoc body, scopes)

def Item.resolveList (scopes : Scopes) : List Item → Pass (List Item)
  | [] => pure []
  | .stmt stmt :: items => do
    let stmt ← stmt.resolve scopes
    pure (.stmt stmt :: (← Item.resolveList scopes items))
  | .decl decl :: items => do
    let (decl, scopes) ← decl.resolve false scopes
    pure (.decl decl :: (← Item.resolveList scopes items))

end

namespace Program

/-- The declarations of a file with their identifiers replaced by internal names. -/
def resolveFrom (scopes : Scopes) : Program → Pass Program
  | [] => pure []
  | decl :: decls => do
    let (decl, scopes) ← decl.resolve true scopes
    pure (decl :: (← resolveFrom scopes decls))

/-- The compilation unit with its identifiers replaced by internal names. -/
def resolve (program : Program) : Pass Program := resolveFrom .file program

end Program

end SubsetC
