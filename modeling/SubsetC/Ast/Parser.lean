import SubsetC.Ast.ExprParser

/-!
# Parsing compilation units

Declarations, initializers and statements. A block-scope function definition is parsed here and
refused when types are checked.
-/

namespace SubsetC

variable {σ : Type} [TokenSource σ]

namespace Initializer

mutual

/-- Parses an initializer: an expression or a list in braces. -/
def parseWith : (fuel : Nat) → Parser σ Initializer
  | 0 => throw .outOfFuel
  | fuel + 1 => do
    let token ← Parser.current
    if token.kind = .punctuator .leftBrace then
      Parser.skip
      let first ← Parser.current
      if first.kind = .punctuator .rightBrace then
        Parser.fail first.span .emptyInitializer
      let items ← itemsWith fuel
      let _ ← Parser.expectMark .rightBrace
      pure (.compound (← Parser.newLoc token.span) items)
    else
      let value ← Expr.parse
      pure (.single (← Parser.newLoc value.span) value)

/-- Parses one or more initializers separated by commas, with an optional comma at the end. -/
def itemsWith : (fuel : Nat) → Parser σ (List Initializer)
  | 0 => throw .outOfFuel
  | fuel + 1 => do
    let item ← parseWith fuel
    if ← Parser.accept .comma then
      if ← Parser.currentIsMark .rightBrace then
        pure [item]
      else
        pure (item :: (← itemsWith fuel))
    else
      pure [item]

end

def parse : Parser σ Initializer := do
  parseWith (← Parser.fuel)

end Initializer

/-- Parses an expression, unless the given delimiter stands in its place. -/
def Expr.parseUnless (mark : Punctuator) : Parser σ (Option Expr) := do
  if ← Parser.currentIsMark mark then
    pure none
  else
    pure (some (← Expr.parse))

def Expr.parseParenthesized : Parser σ Expr := do
  let _ ← Parser.expectMark .leftParen
  let expr ← Expr.parse
  let _ ← Parser.expectMark .rightParen
  pure expr

/-- Parses the rest of an object declaration behind its declarator. -/
def VarDecl.parseRest (declared : Declared) (storageClass : Option StorageClass) :
    Parser σ VarDecl := do
  let init ← if ← Parser.accept .assign then pure (some (← Initializer.parse)) else pure none
  pure ⟨← Parser.newLoc declared.span, declared.name, declared.type, storageClass, init⟩

/-- Checks that all parameters of a function definition have names. -/
def Declared.requireNames (declared : Declared) : Parser σ Unit :=
  declared.params.forM fun param => do
    if param.name.isEmpty then
      Parser.fail param.span (.parameterNameOmitted declared.name)

/-- Whether the current token opens the body of a function, which only the first declarator of a
declaration can have. -/
def Declared.opensBody (isFirst : Bool) : Parser σ Bool :=
  if isFirst then Parser.currentIsMark .leftBrace else pure false

/-- The declaration of the function a declarator declares. -/
def Declared.funDecl (declared : Declared) (loc : Loc) (result : CType)
    (storageClass : Option StorageClass) : FunDecl :=
  ⟨loc, declared.name, declared.params, result, storageClass⟩

/-- Parses the declarators of a first clause of a for statement, which declare objects only. -/
def VarDecl.parseListWith (specifiers : Specifiers) : (fuel : Nat) → Parser σ (List VarDecl)
  | 0 => throw .outOfFuel
  | fuel + 1 => do
    let declared ← (← Declarator.parse).declare specifiers.base
    if declared.type.isFunction then
      Parser.fail declared.span .functionInForInit
    let decl ← VarDecl.parseRest declared specifiers.storageClass
    if ← Parser.accept .comma then
      pure (decl :: (← VarDecl.parseListWith specifiers fuel))
    else
      let _ ← Parser.expectMark .semicolon
      pure [decl]

/-- Parses the first clause of a for statement with the semicolon behind it. -/
def ForInit.parse : Parser σ ForInit := do
  let token ← Parser.current
  if token.kind.isSpecifier then
    let specifiers ← Specifiers.parse true
    let decls ← VarDecl.parseListWith specifiers (← Parser.fuel)
    pure (.declarations (← Parser.newLoc token.span) decls)
  else
    let value ← Expr.parseUnless .semicolon
    let _ ← Parser.expectMark .semicolon
    pure (.expression (← Parser.newLoc token.span) value)

mutual

/-- Parses the declarators of a declaration through its semicolon, or through the body of a
function that is its only declarator. -/
def Decl.parseDeclarators :
    (fuel : Nat) → Specifiers → (isFirst : Bool) → Parser σ (List Decl)
  | 0, _, _ => throw .outOfFuel
  | fuel + 1, specifiers, isFirst => do
    let declared ← (← Declarator.parse).declare specifiers.base
    match declared.type with
    | .function _ result =>
      if ← Declared.opensBody isFirst then
        declared.requireNames
        let (bodyLoc, body) ← Stmt.parseBlock fuel
        let loc ← Parser.newLoc declared.span
        pure [.definition (declared.funDecl loc result specifiers.storageClass) bodyLoc body]
      else
        let loc ← Parser.newLoc declared.span
        Decl.parseMore fuel specifiers
          (.function (declared.funDecl loc result specifiers.storageClass))
    | _ =>
      let decl ← VarDecl.parseRest declared specifiers.storageClass
      Decl.parseMore fuel specifiers (.object decl)

/-- Parses the declarators behind a first one. -/
def Decl.parseMore : (fuel : Nat) → Specifiers → Decl → Parser σ (List Decl)
  | 0, _, _ => throw .outOfFuel
  | fuel + 1, specifiers, decl => do
    if ← Parser.accept .comma then
      pure (decl :: (← Decl.parseDeclarators fuel specifiers false))
    else
      let _ ← Parser.expectMark .semicolon
      pure [decl]

def Stmt.parseBlock : (fuel : Nat) → Parser σ (Loc × List Item)
  | 0 => throw .outOfFuel
  | fuel + 1 => do
    let brace ← Parser.expectMark .leftBrace
    let items ← Item.parseList fuel
    Parser.skip
    pure (← Parser.newLoc brace.span, items)

/-- Parses the items of a block up to its closing brace. -/
def Item.parseList : (fuel : Nat) → Parser σ (List Item)
  | 0 => throw .outOfFuel
  | fuel + 1 => do
    let token ← Parser.current
    if token.kind = .punctuator .rightBrace then
      pure []
    else if token.kind = .endOfInput then
      Parser.fail token.span (.expected (.punctuator .rightBrace) token)
    else if token.kind.isSpecifier then
      let decls ← Decl.parseDeclarators fuel (← Specifiers.parse true) true
      pure (decls.map .decl ++ (← Item.parseList fuel))
    else
      let stmt ← Stmt.parseWith fuel
      pure (.stmt stmt :: (← Item.parseList fuel))

def Stmt.parseWith : (fuel : Nat) → Parser σ Stmt
  | 0 => throw .outOfFuel
  | fuel + 1 => do
    let token ← Parser.current
    match token.kind with
    | .keyword .return =>
      Parser.skip
      let value ← Expr.parseUnless .semicolon
      let _ ← Parser.expectMark .semicolon
      pure (.ret (← Parser.newLoc token.span) value)
    | .keyword .if =>
      Parser.skip
      let condition ← Expr.parseParenthesized
      let thenBranch ← Stmt.parseWith fuel
      if ← Parser.currentIs (.keyword .else) then
        Parser.skip
        let elseBranch ← Stmt.parseWith fuel
        pure (.ifElse (← Parser.newLoc token.span) condition thenBranch elseBranch)
      else
        pure (.ifThen (← Parser.newLoc token.span) condition thenBranch)
    | .punctuator .leftBrace =>
      let (loc, items) ← Stmt.parseBlock fuel
      pure (.block loc items)
    | .keyword .while =>
      Parser.skip
      let condition ← Expr.parseParenthesized
      let body ← Stmt.parseWith fuel
      pure (.whileLoop (← Parser.newLoc token.span) none condition body)
    | .keyword .do =>
      Parser.skip
      let body ← Stmt.parseWith fuel
      let _ ← Parser.expect (.keyword .while)
      let condition ← Expr.parseParenthesized
      let _ ← Parser.expectMark .semicolon
      pure (.doWhile (← Parser.newLoc token.span) none body condition)
    | .keyword .for =>
      Parser.skip
      let _ ← Parser.expectMark .leftParen
      let init ← ForInit.parse
      let condition ← Expr.parseUnless .semicolon
      let _ ← Parser.expectMark .semicolon
      let post ← Expr.parseUnless .rightParen
      let _ ← Parser.expectMark .rightParen
      let body ← Stmt.parseWith fuel
      pure (.forLoop (← Parser.newLoc token.span) none init condition post body)
    | .keyword .switch =>
      Parser.skip
      let value ← Expr.parseParenthesized
      let body ← Stmt.parseWith fuel
      pure (.switch (← Parser.newLoc token.span) none value body [])
    | .keyword .case =>
      Parser.skip
      let value ← Expr.parse
      let _ ← Parser.expectMark .colon
      let body ← Stmt.parseWith fuel
      pure (.case (← Parser.newLoc token.span) none value body)
    | .keyword .default =>
      Parser.skip
      let _ ← Parser.expectMark .colon
      let body ← Stmt.parseWith fuel
      pure (.default (← Parser.newLoc token.span) none body)
    | .keyword .break =>
      Parser.skip
      let _ ← Parser.expectMark .semicolon
      pure (.break (← Parser.newLoc token.span) none)
    | .keyword .continue =>
      Parser.skip
      let _ ← Parser.expectMark .semicolon
      pure (.continue (← Parser.newLoc token.span) none)
    | .punctuator .semicolon =>
      Parser.skip
      pure (.null (← Parser.newLoc token.span))
    | kind =>
      if kind.isSpecifier then
        Parser.fail token.span .declarationNotAllowed
      let value ← Expr.parse
      let _ ← Parser.expectMark .semicolon
      pure (.expr (← Parser.newLoc token.span) value)

end

/-- Parses a declaration with any number of declarators. -/
def Decl.parse : Parser σ (List Decl) := do
  let specifiers ← Specifiers.parse true
  Decl.parseDeclarators (← Parser.fuel) specifiers true

namespace Program

/-- Parses declarations up to the end of the input. -/
def parseWith : (fuel : Nat) → Parser σ Program
  | 0 => throw .outOfFuel
  | fuel + 1 => do
    if ← Parser.currentIs .endOfInput then
      pure []
    else
      let decls ← Decl.parse
      pure (decls ++ (← parseWith fuel))

/-- Parses a compilation unit. -/
def parseAll : Parser σ Program := do
  parseWith (← Parser.fuel)

/-- The tree of what a stream hands out, and the number of its newest node. -/
def ofStream (stream : TokenStream) : Except Failure (Program × Nat) := do
  let (program, state) ← parseAll.run (⟨stream, 0⟩ : StreamState)
  pure (program, state.lastId)

/-- The tree of a source, and the number of its newest node. Tokens are lexed as they are looked
at. -/
def parse (source : Text) : Except Failure (Program × Nat) := ofStream (.ofSource source)

end Program

end SubsetC
