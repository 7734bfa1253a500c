import SubsetC.Proofs.Naming
import SubsetC.Ast

/-!
# Names in trees

Which names a tree mentions, and which it declares. `IsSource` says what holds of every tree that
comes from a source until types are checked: nothing is typed yet, names with linkage are plain,
the parameters of definitions are named, and declared types are of the kinds a source can write.
`Scoped` says of a resolved tree that every name it mentions is declared before. The declarations in
a function body are listed with what matters about them, so that a pass can be said to keep them.

`Program.selfInitializes` singles out the compilation units in which an object with static storage
is first declared by a declaration whose initializer already uses it.
-/

namespace SubsetC

/-! ### Mentioned names -/

namespace Expr

mutual

/-- The names of the objects and functions that an expression mentions. -/
def mentioned : Expr → List Text
  | .constant _ _ | .string _ _ | .sizeofType _ _ => []
  | .var _ name => [name]
  | .unary _ _ operand | .cast _ _ operand _ | .addressOf _ operand | .dereference _ operand
  | .step _ _ _ operand | .sizeofExpr _ operand | .decay _ operand => operand.mentioned
  | .binary _ _ left right | .assign _ _ left right _ | .subscript _ left right =>
      left.mentioned ++ right.mentioned
  | .conditional _ condition thenBranch elseBranch =>
      condition.mentioned ++ (thenBranch.mentioned ++ elseBranch.mentioned)
  | .call _ name arguments => name :: mentionedList arguments

def mentionedList : List Expr → List Text
  | [] => []
  | expr :: exprs => expr.mentioned ++ mentionedList exprs

end

def mentionedOption : Option Expr → List Text
  | none => []
  | some expr => expr.mentioned

end Expr

namespace Initializer

mutual

def mentioned : Initializer → List Text
  | .single _ value => value.mentioned
  | .compound _ items => mentionedList items

def mentionedList : List Initializer → List Text
  | [] => []
  | item :: items => item.mentioned ++ mentionedList items

end

end Initializer

/-- The names that the initializer of an object mentions. -/
def VarDecl.mentioned (decl : VarDecl) : List Text :=
  match decl.init with
  | none => []
  | some init => init.mentioned

/-! ### Trees of sources -/

namespace Expr

mutual

/-- No node is typed yet, and no array decay is written out. -/
def IsSource : Expr → Prop
  | .constant note _ | .string note _ | .var note _ | .sizeofType note _ => note.type = none
  | .unary note _ operand | .cast note _ operand _ | .addressOf note operand
  | .dereference note operand | .step note _ _ operand | .sizeofExpr note operand =>
      note.type = none ∧ operand.IsSource
  | .binary note _ left right | .assign note _ left right _ | .subscript note left right =>
      note.type = none ∧ left.IsSource ∧ right.IsSource
  | .conditional note condition thenBranch elseBranch =>
      note.type = none ∧ condition.IsSource ∧ thenBranch.IsSource ∧ elseBranch.IsSource
  | .call note _ arguments => note.type = none ∧ IsSourceList arguments
  | .decay _ _ => False

def IsSourceList : List Expr → Prop
  | [] => True
  | expr :: exprs => expr.IsSource ∧ IsSourceList exprs

end

end Expr

namespace Initializer

mutual

/-- No expression of the initializer is typed yet. -/
def IsSource : Initializer → Prop
  | .single _ value => value.IsSource
  | .compound _ items => IsSourceList items

def IsSourceList : List Initializer → Prop
  | [] => True
  | item :: items => item.IsSource ∧ IsSourceList items

end

end Initializer

/-- The declaration of an object in a source. -/
structure VarDecl.IsSource (decl : VarDecl) : Prop where
  /-- A name with linkage is plain. -/
  plain : decl.storageClass = some .external → decl.name.IsPlain
  /-- No expression is typed yet. -/
  init : ∀ init ∈ decl.init, init.IsSource
  notFunction : decl.type.isFunction = false

/-- The declaration of a function in a source. -/
structure FunDecl.IsSource (decl : FunDecl) : Prop where
  plain : decl.name.IsPlain
  params : ∀ type ∈ decl.params.map Param.type, type.isFunction = false
  result : decl.result.isArray = false ∧ decl.result.isFunction = false

/-- The first clause of a for statement in a source. -/
def ForInit.IsSource : ForInit → Prop
  | .declarations _ decls => ∀ decl ∈ decls, decl.IsSource
  | .expression _ value => ∀ expr ∈ value, expr.IsSource

mutual

/-- A statement of a source. -/
def Stmt.IsSource : Stmt → Prop
  | .ret _ value => ∀ expr ∈ value, expr.IsSource
  | .expr _ value => value.IsSource
  | .ifThen _ condition thenBranch => condition.IsSource ∧ thenBranch.IsSource
  | .ifElse _ condition thenBranch elseBranch =>
      condition.IsSource ∧ thenBranch.IsSource ∧ elseBranch.IsSource
  | .block _ items => Item.IsSourceList items
  | .whileLoop _ _ condition body | .doWhile _ _ body condition =>
      condition.IsSource ∧ body.IsSource
  | .forLoop _ _ init condition post body =>
      init.IsSource ∧ (∀ expr ∈ condition, expr.IsSource) ∧ (∀ expr ∈ post, expr.IsSource) ∧
        body.IsSource
  | .switch _ _ value body _ | .case _ _ value body => value.IsSource ∧ body.IsSource
  | .default _ _ body => body.IsSource
  | .break _ _ | .continue _ _ | .null _ => True

/-- A declaration of a source. -/
def Decl.IsSource : Decl → Prop
  | .object decl => decl.IsSource
  | .function decl => decl.IsSource
  | .definition decl _ body =>
      decl.IsSource ∧ (∀ param ∈ decl.params, param.name ≠ []) ∧ Item.IsSourceList body

def Item.IsSourceList : List Item → Prop
  | [] => True
  | .stmt stmt :: items => stmt.IsSource ∧ Item.IsSourceList items
  | .decl decl :: items => decl.IsSource ∧ Item.IsSourceList items

end

def Decl.name : Decl → Text
  | .object decl => decl.name
  | .function decl | .definition decl _ _ => decl.name

/-- A compilation unit of a source. All its declarations have linkage, so their names are plain. -/
def Program.IsSource (program : Program) : Prop :=
  ∀ decl ∈ program, decl.IsSource ∧ decl.name.IsPlain

/-! ### Scopes -/

/-- Every object of a list is initialized with names that are known before it, or its own. -/
def VarDecl.ScopedList (known : List Text) : List VarDecl → Prop
  | [] => True
  | decl :: decls =>
      decl.mentioned ⊆ decl.name :: known ∧ VarDecl.ScopedList (decl.name :: known) decls

namespace ForInit

/-- The names that the first clause of a for statement declares. -/
def names : ForInit → List Text
  | .declarations _ decls => (decls.map VarDecl.name).reverse
  | .expression _ _ => []

/-- The first clause of a for statement mentions known names only. -/
def Scoped (known : List Text) : ForInit → Prop
  | .declarations _ decls => VarDecl.ScopedList known decls
  | .expression _ value => Expr.mentionedOption value ⊆ known

end ForInit

mutual

/-- The statement mentions only known names and those it declares before. -/
def Stmt.Scoped (known : List Text) : Stmt → Prop
  | .ret _ value => Expr.mentionedOption value ⊆ known
  | .expr _ value => value.mentioned ⊆ known
  | .ifThen _ condition thenBranch => condition.mentioned ⊆ known ∧ thenBranch.Scoped known
  | .ifElse _ condition thenBranch elseBranch =>
      condition.mentioned ⊆ known ∧ thenBranch.Scoped known ∧ elseBranch.Scoped known
  | .block _ items => Item.ScopedList known items
  | .whileLoop _ _ condition body | .doWhile _ _ body condition =>
      condition.mentioned ⊆ known ∧ body.Scoped known
  | .forLoop _ _ init condition post body =>
      init.Scoped known ∧ Expr.mentionedOption condition ⊆ init.names ++ known ∧
        Expr.mentionedOption post ⊆ init.names ++ known ∧ body.Scoped (init.names ++ known)
  | .switch _ _ value body _ | .case _ _ value body =>
      value.mentioned ⊆ known ∧ body.Scoped known
  | .default _ _ body => body.Scoped known
  | .break _ _ | .continue _ _ | .null _ => True

/-- The items of a block mention only known names and those declared before. -/
def Item.ScopedList (known : List Text) : List Item → Prop
  | [] => True
  | .stmt stmt :: items => stmt.Scoped known ∧ Item.ScopedList known items
  | .decl (.object decl) :: items =>
      decl.mentioned ⊆ decl.name :: known ∧ Item.ScopedList (decl.name :: known) items
  | .decl (.function decl) :: items => Item.ScopedList (decl.name :: known) items
  | .decl (.definition _ _ _) :: _ => True

end

/-- The declarations of a file mention only known names and those declared before. -/
def Program.Scoped (known : List Text) : Program → Prop
  | [] => True
  | .object decl :: decls =>
      decl.mentioned ⊆ decl.name :: known ∧ Program.Scoped (decl.name :: known) decls
  | .function decl :: decls => Program.Scoped (decl.name :: known) decls
  | .definition decl _ body :: decls =>
      Item.ScopedList (decl.params.map Param.name ++ decl.name :: known) body ∧
        Program.Scoped (decl.name :: known) decls

/-! ### Declarations in blocks -/

/-- What matters about a declaration in a block. -/
structure Local where
  name : Text
  /-- Whether the name is shared with other scopes. -/
  hasLinkage : Bool
  /-- Whether a static object occurs in its own initializer. -/
  isCircular : Bool
  deriving DecidableEq

/-- The declaration of an object in a block. -/
def VarDecl.toLocal (decl : VarDecl) : Local :=
  ⟨decl.name, decl.storageClass = some .external,
    decl.storageClass = some .static ∧ decl.name ∈ decl.mentioned⟩

/-- The declaration of a function in a block. -/
def FunDecl.toLocal (decl : FunDecl) : Local := ⟨decl.name, true, false⟩

/-- The declarations in the first clause of a for statement. -/
def ForInit.locals : ForInit → List Local
  | .declarations _ decls => decls.map VarDecl.toLocal
  | .expression _ _ => []

mutual

/-- The declarations in a statement, in order. -/
def Stmt.locals : Stmt → List Local
  | .ret _ _ | .expr _ _ | .break _ _ | .continue _ _ | .null _ => []
  | .ifThen _ _ body | .whileLoop _ _ _ body | .doWhile _ _ body _ | .switch _ _ _ body _
  | .case _ _ _ body | .default _ _ body => body.locals
  | .ifElse _ _ thenBranch elseBranch => thenBranch.locals ++ elseBranch.locals
  | .block _ items => Item.localsList items
  | .forLoop _ _ init _ _ body => init.locals ++ body.locals

/-- The declarations in the items of a block, in order. Functions defined there do not count. -/
def Item.localsList : List Item → List Local
  | [] => []
  | .stmt stmt :: items => stmt.locals ++ Item.localsList items
  | .decl (.object decl) :: items => decl.toLocal :: Item.localsList items
  | .decl (.function decl) :: items => decl.toLocal :: Item.localsList items
  | .decl (.definition _ _ _) :: items => Item.localsList items

end

/-- The declaration of a parameter. -/
def Param.toLocal (param : Param) : Local := ⟨param.name, false, false⟩

/-- The declarations that a file-scope declaration makes: its own, and those of parameters and in
the body of a definition. -/
def Decl.locals : Decl → List Local
  | .object decl => [⟨decl.name, true, false⟩]
  | .function decl => [decl.toLocal]
  | .definition decl _ body =>
      decl.toLocal :: (decl.params.map Param.toLocal ++ Item.localsList body)

/-- All declarations of a compilation unit, in order. -/
def Program.locals (program : Program) : List Local := program.flatMap Decl.locals

theorem Program.locals_cons (decl : Decl) (decls : Program) :
    Program.locals (decl :: decls) = decl.locals ++ decls.locals := rfl

namespace Local

/-- The names among declarations that are shared with other scopes. -/
def linked (locals : List Local) : List Text :=
  (locals.filter fun decl => decl.hasLinkage).map Local.name

/-- The names among declarations that are not shared with other scopes. -/
def unlinked (locals : List Local) : List Text :=
  (locals.filter fun decl => !decl.hasLinkage).map Local.name

/-- Whether a static object among declarations occurs in its own initializer. -/
def anyCircular (locals : List Local) : Bool := locals.any Local.isCircular

end Local

namespace Program

/-- Whether, given the names that are declared before, the first declaration of some object with
static storage uses the object in its initializer. -/
def selfInitializesAfter (known : List Text) : Program → Bool
  | [] => false
  | .object decl :: decls =>
      decl.name ∉ known && decl.name ∈ decl.mentioned ||
        selfInitializesAfter (decl.name :: known) decls
  | .function decl :: decls => selfInitializesAfter (decl.name :: known) decls
  | .definition decl _ body :: decls =>
      Local.anyCircular (Item.localsList body) ||
        selfInitializesAfter (Local.linked (Item.localsList body) ++ decl.name :: known) decls

/-- Whether the first declaration of some object with static storage uses the object in its
initializer: a block-scope static object, or a file-scope object that is not declared before. -/
def selfInitializes (program : Program) : Bool := selfInitializesAfter [] program

end Program

end SubsetC
