import SubsetC.Compilation
import SubsetC.Proofs.JoinedSources
import SubsetC.Proofs.StreamParsing

/-!
# Eager and lazy lexing

A compilation lexes all of a source before it parses any of it, refuses the source at its first
illegal token, and parses a stream that repeats the last of the tokens. A parser on its own reads a
stream that lexes no further than it is looked ahead, and goes on behind illegal tokens that are not
looked at. The two parse the same sources to the same trees, since both streams show the tokens of
the source (`Program.parse_eq_ofLexed`, `Program.ofStream_ofTokens`) and a parser that succeeds has
come to all of them (`Program.parseWith_moves`). They differ only in how they fail at a source with
an illegal token or an overrun. The main statement is `compile_parse_agrees`.
-/

namespace SubsetC

/-! ### Sources that are parsed -/

namespace Lexer

/-- Lexed tokens that a compilation goes on with: none is illegal, and nothing replaces the end. -/
structure Lexed.IsLegal (lexed : Lexed) : Prop where
  tokens : ∀ token ∈ lexed.tokens, token.kind ≠ .illegal
  /-- Nothing replaces the end. -/
  ending : ∃ ending, lexed.ending = .ok ending

end Lexer

/-- Only a source without illegal tokens and with an end is parsed. -/
theorem Program.isLegal_of_parse {source : Text} {parsed : Program × Nat}
    (parses : Program.parse source = .ok parsed) : (Lexer.lex source).IsLegal := by
  let start : ParseState := ⟨(Lexer.lex source).tokens, (Lexer.lex source).ending, 0⟩
  have isLexed : start.IsLexed := Lexer.lexFrom_isLexed (.start source) 0
  rw [Program.parse_eq_ofLexed, Program.ofLexed] at parses
  cases runs : Program.parseAll.run start with
  | error failure =>
      rw [runs] at parses
      cases parses
  | ok result =>
      rcases (Program.parseAll_moves start isLexed).of_ok runs with
        ⟨⟨sameEnding, front, split, legal⟩, none, _, isEnding, -⟩
      rw [none, List.append_nil] at split
      subst split
      exact ⟨legal, _, sameEnding.symm.trans isEnding⟩

/-! ### Compiling up to the tree -/

namespace Artifact

open Lexer

variable {source : Text}

theorem ofSource_of_isLegal (isLegal : (lex source).IsLegal) :
    ∃ ending, (lex source).ending = .ok ending ∧
      ofSource source = .ok (.tokens (lex source).tokens ending) := by
  rcases isLegal with ⟨legal, ending, isEnding⟩
  refine ⟨ending, isEnding, ?_⟩
  simp only [ofSource, Lexed.illegal?_eq_none.2 legal, isEnding]

theorem ofSource_of_not_isLegal (notLegal : ¬(lex source).IsLegal) :
    ∃ failure, ofSource source = .error failure := by
  unfold ofSource
  dsimp only
  split
  · exact ⟨_, rfl⟩
  · exact ⟨_, rfl⟩
  · rename_i none isEnding
    exact absurd ⟨Lexed.illegal?_eq_none.1 none, _, isEnding⟩ notLegal

end Artifact

namespace Compilation

variable {stop stage : Stage} {stages : List Stage} {product : Product}

/-- A stage that fails ends a compilation. -/
theorem outcome_of_error {failure : Failure}
    (fails : product.artifact.next.run product.context = .error failure) :
    (run stop (stage :: stages) product).outcome = .error failure := by
  rw [run, fails]

/-- A stage that succeeds hands on what it made, or else leaves it behind. -/
theorem outcome_of_ok {artifact : Artifact} {context : Context}
    (makes : product.artifact.next.run product.context = .ok (artifact, context)) :
    (run stop (stage :: stages) product).outcome =
      if stage = stop then .ok ⟨stage, artifact, context⟩
      else (run stop stages ⟨stage, artifact, context⟩).outcome := by
  rw [run, makes]
  dsimp only
  split <;> rfl

end Compilation

theorem compile_parse_of_error {source : Text} {failure : Failure}
    (lexes : Artifact.ofSource source = .error failure) :
    (compile .parse source).outcome = .error failure := by
  refine Compilation.outcome_of_error ?_
  change (liftM (Artifact.ofSource source) : Pass Artifact).run _ = _
  rw [lexes]
  rfl

theorem compile_parse_of_ok {source : Text} {tokens : List Token} {ending : Token}
    (lexes : Artifact.ofSource source = .ok (.tokens tokens ending)) :
    (compile .parse source).outcome =
      (Program.ofStream (.ofTokens (tokens ++ [ending]))).map fun parsed =>
        ⟨.parse, .tree parsed.1, { Context.empty with lastId := parsed.2 }⟩ := by
  have lexed : (Artifact.next (.source source)).run Context.empty =
      .ok (.tokens tokens ending, Context.empty) := by
    change (liftM (Artifact.ofSource source) : Pass Artifact).run _ = _
    rw [lexes]
    rfl
  refine (Compilation.outcome_of_ok lexed).trans ?_
  rw [if_neg nofun]
  cases parses : Program.ofStream (.ofTokens (tokens ++ [ending])) with
  | error failure =>
      refine Compilation.outcome_of_error ?_
      change (Artifact.ofTokens tokens ending).run _ = _
      rw [Artifact.ofTokens]
      dsimp only
      rw [parses]
      rfl
  | ok parsed =>
      have made : (Artifact.next (.tokens tokens ending)).run Context.empty =
          .ok (.tree parsed.1, { Context.empty with lastId := parsed.2 }) := by
        change (Artifact.ofTokens tokens ending).run _ = _
        rw [Artifact.ofTokens]
        dsimp only
        rw [parses]
        rfl
      exact (Compilation.outcome_of_ok made).trans (if_pos rfl)

/-- A source without illegal tokens and with an end is compiled as it is parsed. -/
theorem compile_parse_of_isLegal {source : Text} (isLegal : (Lexer.lex source).IsLegal) :
    (compile .parse source).outcome = (Program.parse source).map fun parsed =>
      ⟨.parse, .tree parsed.1, { Context.empty with lastId := parsed.2 }⟩ := by
  rcases Artifact.ofSource_of_isLegal isLegal with ⟨ending, isEnding, lexes⟩
  have isLexed := Lexer.lex_isLexed source
  rw [isEnding] at isLexed
  rw [compile_parse_of_ok lexes, Program.ofStream_ofTokens isLexed, Program.parse_eq_ofLexed,
    ← isEnding]

/-- Only a source without illegal tokens and with an end is compiled. -/
theorem isLegal_of_compile_parse {source : Text} {product : Product}
    (compiles : (compile .parse source).outcome = .ok product) : (Lexer.lex source).IsLegal := by
  by_contra notLegal
  rcases Artifact.ofSource_of_not_isLegal notLegal with ⟨failure, fails⟩
  cases compiles.symm.trans (compile_parse_of_error fails)

/-- A source is compiled to a tree if and only if it is parsed, and to the same tree with the same
number of its newest node. The two also fail alike at a source with an end and no illegal tokens.
Parsing gives what a parser over the list of all tokens of the source does. -/
theorem compile_parse_agrees (source : Text) :
    (∀ product, (compile .parse source).outcome = .ok product ↔
      ∃ program lastId, Program.parse source = .ok (program, lastId) ∧
        product = ⟨.parse, .tree program, { Context.empty with lastId }⟩) ∧
    (∀ tokens ending, Lexer.tokenize source = .ok (tokens ++ [ending]) →
      ending.kind = .endOfInput →
      ∀ failure, (compile .parse source).outcome = .error failure ↔
        Program.parse source = .error failure) ∧
    Program.parse source = Program.ofLexed (Lexer.lex source) := by
  refine ⟨fun product => ⟨fun compiles => ?_, ?_⟩, fun tokens ending lexes isEnd failure => ?_,
    Program.parse_eq_ofLexed source⟩
  · rw [compile_parse_of_isLegal (isLegal_of_compile_parse compiles)] at compiles
    cases parses : Program.parse source with
    | error failure =>
        rw [parses] at compiles
        cases compiles
    | ok parsed =>
        rw [parses] at compiles
        cases compiles
        exact ⟨parsed.1, parsed.2, rfl, rfl⟩
  · rintro ⟨program, lastId, parses, rfl⟩
    rw [compile_parse_of_isLegal (Program.isLegal_of_parse parses), parses]
    rfl
  · rcases Lexer.Lexed.of_throughIllegal lexes isEnd with ⟨-, isEnding, legal⟩
    rw [compile_parse_of_isLegal ⟨legal, ending, isEnding⟩]
    cases Program.parse source <;> simp [Except.map]

/-- The case of a declaration of an object, and of one that lacks its declarator. -/
theorem compile_parse_agrees_declarations :
    (∃ product, (compile .parse "int x;").outcome = .ok product ∧ product.context.lastId = 1) ∧
    (compile .parse "int 1;").outcome = .error (.user ⟨4, 5, 1, 5⟩
      (.syntactic (.expectedDeclarator ⟨.integer, "1", ⟨4, 5, 1, 5⟩⟩))) := by
  constructor
  · have parsed : (Program.parse "int x;").toOption.map Prod.snd = some 1 := by decide +kernel
    cases parses : Program.parse "int x;" with
    | error failure => simp [parses, Except.toOption] at parsed
    | ok result =>
        rcases result with ⟨program, lastId⟩
        rw [parses] at parsed
        refine ⟨_, ((compile_parse_agrees "int x;").1 _).2 ⟨program, lastId, parses, rfl⟩, ?_⟩
        exact Option.some.inj parsed
  · have lexes : Lexer.tokenize "int 1;" =
        .ok ([⟨.keyword .int, "int", ⟨0, 3, 1, 1⟩⟩, ⟨.integer, "1", ⟨4, 5, 1, 5⟩⟩,
          ⟨.punctuator .semicolon, ";", ⟨5, 6, 1, 6⟩⟩] ++
            [⟨.endOfInput, [], ⟨6, 6, 1, 7⟩⟩]) := by
      decide +kernel
    refine ((compile_parse_agrees "int 1;").2.1 _ _ lexes rfl _).2 ?_
    have refused : (Program.parse "int 1;").map (fun _ => ()) = .error (.user ⟨4, 5, 1, 5⟩
        (.syntactic (.expectedDeclarator ⟨.integer, "1", ⟨4, 5, 1, 5⟩⟩))) := by
      decide +kernel
    cases parses : Program.parse "int 1;" with
    | error failure =>
        rw [parses] at refused
        cases refused
        rfl
    | ok result =>
        rw [parses] at refused
        cases refused

end SubsetC
