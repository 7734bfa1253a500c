import SubsetC.Ast.Parser

/-!
# Parsing from a list

What parsers make of a source is said of parsers over a list, which has all tokens before the end of
the input at hand. The end, or the failure that replaces it, stands behind them and is never
consumed. That a parser over a stream does the same is the subject of `SubsetC.Proofs.StreamParsing`.
-/

namespace SubsetC

/-- What is left to parse. -/
structure ParseState where
  /-- The tokens before the end of the input. -/
  tokens : List Token
  /-- The end of the input, or the failure that replaces it. -/
  ending : Except Lexer.Overrun Token
  /-- The number of the newest node. -/
  lastId : Nat

/-- The end of the input as a token. -/
def Parser.ending (state : ParseState) : Parser ParseState Token :=
  match state.ending with
  | .ok token => pure token
  | .error overrun => throw (.fault (.overrun overrun.length))

instance : TokenSource ParseState where
  peekAt place := do
    let state ← get
    match state.tokens[place]? with
    | some token => pure token
    | none => Parser.ending state
  next := modify fun state => { state with tokens := state.tokens.tail }
  newId := do
    modify fun state => { state with lastId := state.lastId + 1 }
    pure (← get).lastId
  bound state := state.tokens.length

section

variable {left : ParseState} {place : Nat} {token : Token}

theorem Parser.run_peekAt_of_some (found : left.tokens[place]? = some token) :
    (TokenSource.peekAt place : Parser ParseState Token).run left = .ok (token, left) := by
  change StateT.run (match left.tokens[place]? with
    | some token => pure token
    | none => Parser.ending left) _ = _
  rw [found]
  rfl

theorem Parser.run_peekAt_of_none (found : left.tokens[place]? = none) :
    (TokenSource.peekAt place : Parser ParseState Token).run left = (ending left).run left := by
  change StateT.run (match left.tokens[place]? with
    | some token => pure token
    | none => Parser.ending left) _ = _
  rw [found]

end

/-- The tree of lexed tokens, and the number of its newest node. -/
def Program.ofLexed (lexed : Lexer.Lexed) : Except Failure (Program × Nat) := do
  let (program, state) ← parseAll.run (⟨lexed.tokens, lexed.ending, 0⟩ : ParseState)
  pure (program, state.lastId)

end SubsetC
