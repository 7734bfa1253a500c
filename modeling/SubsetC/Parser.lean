import SubsetC.Failure
import SubsetC.Ast
import SubsetC.Token.Stream

/-!
# Parser state

A parser looks at tokens, consumes them one by one and numbers the nodes it builds. It knows its
tokens only through a few operations (`TokenSource`), which those of a stream are an instance of. An
illegal token is reported when the parser comes to it, not when it looks ahead, and none is ever
consumed.

Parsers for nested constructs recurse on a bound that is computed from the number of tokens left;
every nested construct consumes a token, so the bound is never reached.
-/

namespace SubsetC

/-- A parser over a state, with results of the given type. -/
abbrev Parser (σ : Type) := StateT σ (Except Failure)

/-- What parsers need of their states: tokens to look at and consume, and numbers of nodes. -/
class TokenSource (σ : Type) where
  /-- The token a number of places ahead; zero is the next token. -/
  peekAt : Nat → Parser σ Token
  /-- Consumes the next token, unless it is the end of the input. -/
  next : Parser σ Unit
  /-- The number of a new node. -/
  newId : Parser σ Nat
  /-- A bound on the number of tokens before the end of the input. -/
  bound : σ → Nat

namespace Parser

variable {σ : Type}

/-- Fails with a syntax error at a place. -/
def fail {α : Type} (span : Span) (error : SyntaxError) : Parser σ α :=
  throw (.user span (.syntactic error))

variable [TokenSource σ]

/-- The current token, which must not be illegal. -/
def current : Parser σ Token := do
  let token ← TokenSource.peekAt 0
  if token.kind = .illegal then
    fail token.span (.invalidToken token.literal)
  pure token

/-- The token after the current one. -/
def following : Parser σ Token := do
  let _ ← current
  TokenSource.peekAt 1

/-- Consumes the current token. -/
def skip : Parser σ Unit := do
  let _ ← current
  TokenSource.next

def currentIs (kind : TokenKind) : Parser σ Bool := do
  pure ((← current).kind = kind)

/-- Whether the current token is an operator or delimiter. -/
def currentIsMark (mark : Punctuator) : Parser σ Bool := currentIs (.punctuator mark)

/-- Whether the current token is of a kind and the token after it passes a test. -/
def currentIsBefore (kind : TokenKind) (test : TokenKind → Bool) : Parser σ Bool := do
  if ← currentIs kind then
    pure (test (← following).kind)
  else
    pure false

/-- Consumes a token that must be of a kind. -/
def expect (kind : TokenKind) : Parser σ Token := do
  let token ← current
  if token.kind ≠ kind then
    fail token.span (.expected kind token)
  skip
  pure token

/-- Consumes an operator or delimiter. -/
def expectMark (mark : Punctuator) : Parser σ Token := expect (.punctuator mark)

/-- Consumes an operator or delimiter if it is the current token. -/
def accept (mark : Punctuator) : Parser σ Bool := do
  if ← currentIsMark mark then
    skip
    pure true
  else
    pure false

/-- A new node at a place. -/
def newLoc (span : Span) : Parser σ Loc := do
  pure ⟨← TokenSource.newId, span⟩

/-- The note of a new expression at a place. -/
def newNote (span : Span) : Parser σ Note := do
  pure (.untyped (← newLoc span))

/-- A bound on the depth of recursion for what is left to parse. -/
def fuel : Parser σ Nat := do
  pure (8 * (TokenSource.bound (← get) + 2))

end Parser

/-! ### Parsing from a stream -/

/-- The limit of the machine that a stream hits when it has no token to show. -/
def StreamFault.limit : StreamFault → Fault
  | .overrun ⟨length⟩ => .overrun length
  | .exhausted => .index (-1)
  | .before place => .index place

/-- The stream that a parser reads, and the number of the newest node. -/
structure StreamState where
  stream : TokenStream
  lastId : Nat

namespace StreamState

/-- An operation on the stream, a fault of which is the end of the parser. -/
def onStream {α : Type} (operation : StreamM α) : Parser StreamState α := fun state =>
  match operation.run.run state.stream with
  | (.ok result, stream) => .ok (result, { state with stream })
  | (.error fault, _) => .error (.fault fault.limit)

instance : TokenSource StreamState where
  peekAt place := onStream (TokenStream.peekAt place)
  next := do
    let _ ← onStream TokenStream.next
  newId := do
    modify fun state => { state with lastId := state.lastId + 1 }
    pure (← get).lastId
  bound state := state.stream.bound

end StreamState

end SubsetC
