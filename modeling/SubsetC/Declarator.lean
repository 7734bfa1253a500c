import SubsetC.Parser
import SubsetC.Ast.Literal

/-!
# Declarators

A declarator is read as a shape first and applied to its base type afterwards. It is applied from
the outside in, so that the derivation next to the name ends up outermost in the type.
-/

namespace SubsetC

mutual

/-- The shape of a declarator. -/
inductive Declarator where
  | named (name : Text) (span : Span)
  /-- The place of a name that is left out. -/
  | abstract
  /-- A star in front. -/
  | pointer (inner : Declarator)
  /-- A dimension behind. -/
  | array (inner : Declarator) (size : Int)
  /-- Parentheses around. -/
  | paren (inner : Declarator)
  /-- A parameter list behind. -/
  | function (inner : Declarator) (params : List ParamDeclarator) (span : Span)

/-- The shape of a parameter, with the type its specifiers give. -/
inductive ParamDeclarator where
  | mk (base : CType) (declarator : Declarator) (span : Span)

end

/-- What a declarator declares. -/
structure Declared where
  /-- The name, which is empty if it is left out. -/
  name : Text
  /-- The place of the name. -/
  span : Span
  type : CType
  /-- The parameters, if a function is declared. -/
  params : List Param

namespace Declarator

/-- The declarator without the parentheses around it. -/
def unparen : Declarator → Declarator
  | .paren inner => inner.unparen
  | declarator => declarator

/-- Whether a parameter list is the outermost suffix inside the parentheses. -/
def isFunction (declarator : Declarator) : Bool :=
  match declarator.unparen with
  | .function _ _ _ => true
  | _ => false

mutual

/-- What a declarator declares with a base type. A parameter list must stand next to the name, and
the result of a function must not be an array; but an array written behind parentheses around a
whole function declarator makes the result a pointer to that array. -/
def resolve : Declarator → CType → Except (Span × SyntaxError) Declared
  | .named name span, base => pure ⟨name, span, base, []⟩
  | .abstract, base => pure ⟨[], .none, base, []⟩
  | .pointer inner, base => inner.resolve (.pointer base)
  | .array inner size, base => inner.resolve (.array size base)
  | .paren inner, base =>
    inner.resolve (if inner.isFunction && base.isArray then .pointer base else base)
  | .function inner params span, base => do
    let (name, nameSpan) ← match inner.unparen with
      | .named name nameSpan => pure (name, nameSpan)
      | .abstract => pure ([], span)
      | _ => throw (span, .functionDerivation)
    if base.isArray then
      throw (nameSpan, .arrayResult name)
    let params ← resolveParams params
    pure ⟨name, nameSpan, .function (params.map Param.type) base, params⟩

/-- The parameters that a list of parameter declarators declares. -/
def resolveParams : List ParamDeclarator → Except (Span × SyntaxError) (List Param)
  | [] => pure []
  | .mk base declarator span :: rest => do
    let declared ← declarator.resolve base
    let place := if declared.name.isEmpty then span else declared.span
    if declared.type.isFunction then
      throw (place, .functionParameter declared.name)
    let params ← resolveParams rest
    pure (⟨declared.name, declared.type, place⟩ :: params)

end

/-- What a declarator declares, as a parser that consumes nothing. -/
def declare {σ : Type} (declarator : Declarator) (base : CType) : Parser σ Declared :=
  match declarator.resolve base with
  | .ok declared => pure declared
  | .error (span, error) => Parser.fail span error

end Declarator

/-! ### Specifiers -/

/-- The specifiers at the start of a declaration. -/
structure Specifiers where
  /-- The type they give. -/
  base : CType
  storageClass : Option StorageClass

namespace Specifiers

/-- The type keywords and the storage class seen so far. -/
abbrev Seen := List Keyword × Option StorageClass

/-- Adds one specifier to those seen so far. -/
def note {σ : Type} (storageAllowed : Bool) (seen : Seen) (span : Span) (keyword : Keyword) :
    Parser σ Seen :=
  if keyword.isType then
    if keyword ∈ seen.1 then Parser.fail span (.duplicateSpecifier keyword)
    else pure (keyword :: seen.1, seen.2)
  else if !storageAllowed then Parser.fail span .storageNotAllowed
  else if seen.2.isSome then Parser.fail span .multipleStorage
  else pure (seen.1, some (if keyword = .static then .static else .external))

/-- The type that a set of type keywords denotes. -/
def type (keywords : List Keyword) : Except SyntaxError CType :=
  if .void ∈ keywords then
    if keywords.length = 1 then pure .void else throw .voidCombined
  else if .double ∈ keywords then
    if keywords.length = 1 then pure .double else throw .doubleCombined
  else if .signed ∈ keywords ∧ .unsigned ∈ keywords then throw .signedAndUnsigned
  else if .char ∈ keywords then
    if .long ∈ keywords ∨ .int ∈ keywords then throw .charCombined
    else if .signed ∈ keywords then pure .schar
    else if .unsigned ∈ keywords then pure .uchar
    else pure .char
  else if .long ∈ keywords then
    if .unsigned ∈ keywords then pure .ulong else pure .long
  else if .unsigned ∈ keywords then pure .uint
  else pure .int

variable {σ : Type} [TokenSource σ]

/-- Reads specifiers in any order, as many as there are. -/
def collect (storageAllowed : Bool) : (fuel : Nat) → Seen → Parser σ Seen
  | 0, _ => throw .outOfFuel
  | fuel + 1, seen => do
    let token ← Parser.current
    match token.kind with
    | .keyword keyword =>
      if keyword.isSpecifier then
        Parser.skip
        collect storageAllowed fuel (← note storageAllowed seen token.span keyword)
      else
        pure seen
    | _ => pure seen

def parse (storageAllowed : Bool) : Parser σ Specifiers := do
  let start ← Parser.current
  let (keywords, storageClass) ← collect storageAllowed (← Parser.fuel) ([], none)
  if keywords.isEmpty then
    Parser.fail start.span (.expectedSpecifier start)
  match type keywords with
  | .ok base => pure ⟨base, storageClass⟩
  | .error error => Parser.fail start.span error

end Specifiers

/-! ### Parsing declarators -/

namespace Declarator

variable {σ : Type} [TokenSource σ]

/-- Parses a dimension in brackets. -/
def dimension : Parser σ Int := do
  let _ ← Parser.expectMark .leftBracket
  let token ← Parser.current
  match token.kind with
  | .integer => pure ()
  | .floating => Parser.fail token.span .dimensionNotInteger
  | .punctuator .minus => Parser.fail token.span .dimensionNotPositive
  | .punctuator .rightBracket => Parser.fail token.span .dimensionMissing
  | _ => Parser.fail token.span (.dimensionNotConstant token)
  Parser.skip
  let size ← match Literal.integer token.literal with
    | .ok constant => pure constant.toInt64.toInt
    | .error error => Parser.fail token.span error
  if size ≤ 0 then
    Parser.fail token.span .dimensionNotPositive
  let _ ← Parser.expectMark .rightBracket
  pure size

/-- Whether the parenthesis at the current token opens a parameter list. It does not where a name
is required. -/
def opensParams (nameOptional : Bool) : Parser σ Bool := do
  if nameOptional then
    let next ← Parser.following
    pure (next.kind = .punctuator .rightParen || next.kind.isSpecifier)
  else
    pure false

/-- Whether the current token is the word void before a closing parenthesis. -/
def isVoidList : Parser σ Bool :=
  Parser.currentIsBefore (.keyword .void) fun next => next = .punctuator .rightParen

mutual

/-- Parses a declarator, the name of which may be left out if it is a parameter's. -/
def parseWith : (fuel : Nat) → (nameOptional : Bool) → Parser σ Declarator
  | 0, _ => throw .outOfFuel
  | fuel + 1, nameOptional => do
    if ← Parser.accept .star then
      pure (.pointer (← parseWith fuel nameOptional))
    else
      let token ← Parser.current
      match token.kind with
      | .identifier =>
        Parser.skip
        suffixes fuel (.named token.literal token.span)
      | .punctuator .leftParen =>
        if ← opensParams nameOptional then
          suffixes fuel .abstract
        else
          Parser.skip
          let inner ← parseWith fuel nameOptional
          let _ ← Parser.expectMark .rightParen
          suffixes fuel (.paren inner)
      | _ =>
        if nameOptional then suffixes fuel .abstract
        else Parser.fail token.span (.expectedDeclarator token)

/-- Parses dimensions and parameter lists behind a declarator. -/
def suffixes : (fuel : Nat) → Declarator → Parser σ Declarator
  | 0, _ => throw .outOfFuel
  | fuel + 1, declarator => do
    let token ← Parser.current
    match token.kind with
    | .punctuator .leftBracket => suffixes fuel (.array declarator (← dimension))
    | .punctuator .leftParen => suffixes fuel (.function declarator (← params fuel) token.span)
    | _ => pure declarator

/-- Parses a parameter list in parentheses. -/
def params : (fuel : Nat) → Parser σ (List ParamDeclarator)
  | 0 => throw .outOfFuel
  | fuel + 1 => do
    let _ ← Parser.expectMark .leftParen
    if ← Parser.accept .rightParen then
      pure []
    else if ← isVoidList then
      Parser.skip
      Parser.skip
      pure []
    else
      let params ← paramList fuel
      let _ ← Parser.expectMark .rightParen
      pure params

/-- Parses one or more parameters separated by commas. -/
def paramList : (fuel : Nat) → Parser σ (List ParamDeclarator)
  | 0 => throw .outOfFuel
  | fuel + 1 => do
    let start ← Parser.current
    let specifiers ← Specifiers.parse false
    let param := .mk specifiers.base (← parseWith fuel true) start.span
    if ← Parser.accept .comma then
      pure (param :: (← paramList fuel))
    else
      pure [param]

end

/-- Parses a declarator with a name. -/
def parse : Parser σ Declarator := do
  parseWith (← Parser.fuel) false

/-- Parses dimensions behind the declarator of a type name. -/
def dimensions : (fuel : Nat) → Declarator → Parser σ Declarator
  | 0, _ => throw .outOfFuel
  | fuel + 1, declarator => do
    if ← Parser.currentIsMark .leftBracket then
      dimensions fuel (.array declarator (← dimension))
    else
      pure declarator

/-- Parses the declarator of a type name, which has no name and no parameter lists. Parentheses in
it must not be empty. -/
def parseAbstractWith : (fuel : Nat) → Parser σ Declarator
  | 0 => throw .outOfFuel
  | fuel + 1 => do
    let token ← Parser.current
    match token.kind with
    | .punctuator .star =>
      Parser.skip
      pure (.pointer (← parseAbstractWith fuel))
    | .punctuator .leftParen =>
      Parser.skip
      let inner ← parseAbstractWith fuel
      if let .abstract := inner then
        Parser.fail token.span .expectedAbstractDeclarator
      let _ ← Parser.expectMark .rightParen
      dimensions fuel inner
    | _ => dimensions fuel .abstract

def parseTypeName : Parser σ CType := do
  let specifiers ← Specifiers.parse false
  let declarator ← parseAbstractWith (← Parser.fuel)
  pure (← declarator.declare specifiers.base).type

end Declarator

end SubsetC
