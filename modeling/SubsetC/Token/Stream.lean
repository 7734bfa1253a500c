import SubsetC.Token.Lexer

/-!
# Token streams

A stream hands out tokens one by one with unbounded lookahead. It reads from a source, lexing no
further than it is asked to look, or from tokens that are already there, whose last one is repeated
as often as needed. The end of the input is handed out again and again and never consumed.
-/

namespace SubsetC

/-- Where a stream takes the tokens that are not buffered yet. -/
inductive Supply where
  /-- The rest of a source. -/
  | source (cursor : Lexer.Cursor)
  /-- Copies of the last buffered token. -/
  | lastToken
  deriving DecidableEq, Repr

/-- A stream of tokens. -/
structure TokenStream where
  /-- Where further tokens come from. -/
  supply : Supply
  /-- The tokens that were looked at and not consumed. -/
  buffer : List Token
  /-- The span of the token handed out last. -/
  last : Span
  deriving DecidableEq, Repr

/-- Why a stream has no token to show. -/
inductive StreamFault where
  /-- A string literal overruns the source. -/
  | overrun (overrun : Lexer.Overrun)
  /-- All tokens were consumed, so there is none to repeat. -/
  | exhausted
  /-- The place asked for lies before the next token. -/
  | before (place : Int)
  deriving DecidableEq, Repr

/-- An operation on a stream. A fault keeps the changes made before it. -/
abbrev StreamM := ExceptT StreamFault (StateM TokenStream)

namespace TokenStream

def ofSource (source : Text) : TokenStream := ⟨.source (.start source), [], .none⟩

/-- The stream over given tokens; over no tokens, it is at the end of the input. -/
def ofTokens (tokens : List Token) : TokenStream :=
  ⟨.lastToken, if tokens.isEmpty then [⟨.endOfInput, [], .none⟩] else tokens, .none⟩

/-- A bound on the number of tokens before the end of the input. -/
def bound (stream : TokenStream) : Nat :=
  match stream.supply with
  | .source cursor => stream.buffer.length + cursor.rest.length
  | .lastToken => stream.buffer.length

def pull : StreamM Unit := do
  let stream ← get
  match stream.supply with
  | .lastToken =>
    match stream.buffer.getLast? with
    | some token => set { stream with buffer := stream.buffer ++ [token] }
    | none => throw .exhausted
  | .source cursor =>
    match Lexer.read cursor with
    | .token token next | .endOfInput token next =>
      set { stream with supply := .source next, buffer := stream.buffer ++ [token] }
    | .overrun next =>
      set { stream with supply := .source next }
      throw (.overrun ⟨next.position.offset - 1⟩)

/-- Buffers the given number of further tokens. -/
def pulls : Nat → StreamM Unit
  | 0 => pure ()
  | count + 1 => do
    pull
    pulls count

/-- The token a number of places ahead, without consuming anything; zero is the next token. -/
def peekAt (ahead : Int) : StreamM Token := do
  pulls ((ahead + 1).toNat - (← get).buffer.length)
  match ahead with
  | .ofNat place =>
    match (← get).buffer[place]? with
    | some token => pure token
    | none => throw .exhausted
  | .negSucc _ => throw (.before ahead)

/-- The next token, without consuming it. -/
def peek : StreamM Token := peekAt 0

/-- Consumes the next token, unless it is the end of the input. -/
def next : StreamM Token := do
  let token ← peek
  modify fun stream =>
    { stream with
      buffer := if token.kind = .endOfInput then stream.buffer else stream.buffer.tail
      last := token.span }
  pure token

/-- The span of the token handed out last. -/
def lastSpan : StreamM Span := do
  pure (← get).last

end TokenStream

end SubsetC
