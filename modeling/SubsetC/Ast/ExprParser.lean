import SubsetC.Declarator

/-!
# Parsing expressions

Binary operators are parsed by precedence climbing. Assignment and the conditional operator belong
to the same scheme, as the two loosest levels; both group to the right.
-/

namespace SubsetC

/-- How strongly an operator binds. -/
def ArithOp.level : ArithOp → Nat
  | .mul | .div | .rem => 50
  | .add | .sub => 45
  | .shiftLeft | .shiftRight => 40
  | .bitAnd => 25
  | .bitXor => 20
  | .bitOr => 15

/-- How strongly a comparison binds. -/
def CompareOp.level : CompareOp → Nat
  | .less | .lessEqual | .greater | .greaterEqual => 35
  | .equal | .notEqual => 30

/-- How strongly a logical operator binds. -/
def LogicOp.level : LogicOp → Nat
  | .and => 10
  | .or => 5

/-- How strongly a binary operator binds. -/
def BinaryOp.level : BinaryOp → Nat
  | .arith op => op.level
  | .compare op => op.level
  | .logic op => op.level

namespace Expr

/-- What an operator behind an operand starts. -/
inductive Continuation where
  /-- The right side of an assignment. -/
  | assign (op : AssignOp)
  /-- The branches of the conditional operator. -/
  | conditional
  /-- The right operand of a binary operator. -/
  | binary (op : BinaryOp)
  deriving DecidableEq, Repr

namespace Continuation

/-- What an operator starts behind an operand. -/
def ofMark? : Punctuator → Option Continuation
  | .assign => some (.assign .plain)
  | .plusAssign => some (.assign (.compound .add))
  | .minusAssign => some (.assign (.compound .sub))
  | .starAssign => some (.assign (.compound .mul))
  | .slashAssign => some (.assign (.compound .div))
  | .percentAssign => some (.assign (.compound .rem))
  | .ampersandAssign => some (.assign (.compound .bitAnd))
  | .barAssign => some (.assign (.compound .bitOr))
  | .caretAssign => some (.assign (.compound .bitXor))
  | .shiftLeftAssign => some (.assign (.compound .shiftLeft))
  | .shiftRightAssign => some (.assign (.compound .shiftRight))
  | .question => some .conditional
  | .star => some (.binary (.arith .mul))
  | .slash => some (.binary (.arith .div))
  | .percent => some (.binary (.arith .rem))
  | .plus => some (.binary (.arith .add))
  | .minus => some (.binary (.arith .sub))
  | .shiftLeft => some (.binary (.arith .shiftLeft))
  | .shiftRight => some (.binary (.arith .shiftRight))
  | .less => some (.binary (.compare .less))
  | .lessEqual => some (.binary (.compare .lessEqual))
  | .greater => some (.binary (.compare .greater))
  | .greaterEqual => some (.binary (.compare .greaterEqual))
  | .equal => some (.binary (.compare .equal))
  | .notEqual => some (.binary (.compare .notEqual))
  | .ampersand => some (.binary (.arith .bitAnd))
  | .caret => some (.binary (.arith .bitXor))
  | .bar => some (.binary (.arith .bitOr))
  | .andAnd => some (.binary (.logic .and))
  | .orOr => some (.binary (.logic .or))
  | _ => none

/-- What a token starts behind an operand. -/
def ofKind? : TokenKind → Option Continuation
  | .punctuator mark => ofMark? mark
  | _ => none

/-- How strongly it binds. -/
def level : Continuation → Nat
  | .assign _ => 1
  | .conditional => 3
  | .binary op => op.level

end Continuation

/-- The unary operator an operator denotes in front of an operand. -/
def unaryOp? : TokenKind → Option UnaryOp
  | .punctuator .minus => some .negate
  | .punctuator .plus => some .plus
  | .punctuator .bang => some .not
  | .punctuator .tilde => some .complement
  | _ => none

/-- The step an operator denotes. -/
def stepOp? : TokenKind → Option StepOp
  | .punctuator .increment => some .increment
  | .punctuator .decrement => some .decrement
  | _ => none

variable {σ : Type} [TokenSource σ]

/-- Whether the current token is a parenthesis around a type name. -/
def opensTypeName : Parser σ Bool :=
  Parser.currentIsBefore (.punctuator .leftParen) TokenKind.isSpecifier

def parenTypeName : Parser σ CType := do
  Parser.skip
  let type ← Declarator.parseTypeName
  let _ ← Parser.expectMark .rightParen
  pure type

/-- Reads string literals that stand next to each other, behind a place and bytes so far. -/
def stringRun : (fuel : Nat) → (seen : Span × Text) → Parser σ (Span × Text)
  | 0, _ => throw .outOfFuel
  | fuel + 1, seen => do
    let token ← Parser.current
    if token.kind = .string then
      Parser.skip
      stringRun fuel (seen.1.through token.span, seen.2 ++ Text.unescape token.literal)
    else
      pure seen

/-- Parses string literals that stand next to each other as one. -/
def strings : Parser σ Expr := do
  let first ← Parser.current
  let (span, bytes) ← stringRun (← Parser.fuel) (first.span, [])
  pure (.string (← Parser.newNote span) bytes)

mutual

/-- Parses an expression of operators that bind at least at a level. -/
def parseWith : (fuel : Nat) → (level : Nat) → Parser σ Expr
  | 0, _ => throw .outOfFuel
  | fuel + 1, level => do
    continuations fuel level (← operand fuel)

/-- Parses what operators of at least a level make of the expression in front of them. -/
def continuations : (fuel : Nat) → (level : Nat) → Expr → Parser σ Expr
  | 0, _, _ => throw .outOfFuel
  | fuel + 1, level, left => do
    let token ← Parser.current
    match Continuation.ofKind? token.kind with
    | none => pure left
    | some continuation =>
      if continuation.level < level then
        pure left
      else
        Parser.skip
        match continuation with
        | .assign op =>
          let right ← parseWith fuel continuation.level
          let note ← Parser.newNote token.span
          continuations fuel level (.assign note op left right none)
        | .conditional =>
          let thenBranch ← parseWith fuel 0
          let _ ← Parser.expectMark .colon
          let elseBranch ← parseWith fuel continuation.level
          let note ← Parser.newNote token.span
          continuations fuel level (.conditional note left thenBranch elseBranch)
        | .binary op =>
          let right ← parseWith fuel (continuation.level + 1)
          let note ← Parser.newNote token.span
          continuations fuel level (.binary note op left right)

/-- Parses an operand with the operators in front of it, casts and sizeof included. -/
def operand : (fuel : Nat) → Parser σ Expr
  | 0 => throw .outOfFuel
  | fuel + 1 => do
    let token ← Parser.current
    match token.kind with
    | .punctuator .star =>
      Parser.skip
      let inner ← operand fuel
      pure (.dereference (← Parser.newNote token.span) inner)
    | .punctuator .ampersand =>
      Parser.skip
      let inner ← operand fuel
      pure (.addressOf (← Parser.newNote token.span) inner)
    | .keyword .sizeof =>
      Parser.skip
      if ← opensTypeName then
        let type ← parenTypeName
        pure (.sizeofType (← Parser.newNote token.span) type)
      else
        let inner ← operand fuel
        pure (.sizeofExpr (← Parser.newNote token.span) inner)
    | .punctuator .leftParen =>
      if ← opensTypeName then
        let target ← parenTypeName
        let inner ← operand fuel
        pure (.cast (← Parser.newNote token.span) target inner false)
      else
        trailing fuel (← atom fuel)
    | kind =>
      match unaryOp? kind, stepOp? kind with
      | some op, _ =>
        Parser.skip
        let inner ← operand fuel
        pure (.unary (← Parser.newNote token.span) op inner)
      | none, some op =>
        Parser.skip
        let inner ← operand fuel
        pure (.step (← Parser.newNote token.span) .before op inner)
      | none, none => trailing fuel (← atom fuel)

/-- Parses subscripts and steps behind an operand. -/
def trailing : (fuel : Nat) → Expr → Parser σ Expr
  | 0, _ => throw .outOfFuel
  | fuel + 1, operand => do
    let token ← Parser.current
    match token.kind with
    | .punctuator .leftBracket =>
      Parser.skip
      let index ← parseWith fuel 0
      let _ ← Parser.expectMark .rightBracket
      let note ← Parser.newNote token.span
      trailing fuel (.subscript note operand index)
    | kind =>
      match stepOp? kind with
      | some op =>
        Parser.skip
        let note ← Parser.newNote token.span
        trailing fuel (.step note .after op operand)
      | none => pure operand

/-- Parses a literal, an identifier, a call or an expression in parentheses. -/
def atom : (fuel : Nat) → Parser σ Expr
  | 0 => throw .outOfFuel
  | fuel + 1 => do
    let token ← Parser.current
    match token.kind with
    | .integer =>
      Parser.skip
      match Literal.integer token.literal with
      | .ok value => pure (.constant (← Parser.newNote token.span) value)
      | .error error => Parser.fail token.span error
    | .floating =>
      Parser.skip
      pure (.constant (← Parser.newNote token.span) (Literal.floating token.literal))
    | .character =>
      Parser.skip
      pure (.constant (← Parser.newNote token.span) (Literal.character token.literal))
    | .string => strings
    | .identifier =>
      Parser.skip
      if ← Parser.accept .leftParen then
        let arguments ← if ← Parser.currentIsMark .rightParen then pure [] else arguments fuel
        let _ ← Parser.expectMark .rightParen
        pure (.call (← Parser.newNote token.span) token.literal arguments)
      else
        pure (.var (← Parser.newNote token.span) token.literal)
    | .punctuator .leftParen =>
      Parser.skip
      let inner ← parseWith fuel 0
      let _ ← Parser.expectMark .rightParen
      pure inner
    | _ => Parser.fail token.span (.expectedExpression token)

/-- Parses one or more arguments separated by commas. -/
def arguments : (fuel : Nat) → Parser σ (List Expr)
  | 0 => throw .outOfFuel
  | fuel + 1 => do
    let argument ← parseWith fuel 0
    if ← Parser.accept .comma then
      pure (argument :: (← arguments fuel))
    else
      pure [argument]

end

def parse : Parser σ Expr := do
  parseWith (← Parser.fuel) 0

end Expr

end SubsetC
