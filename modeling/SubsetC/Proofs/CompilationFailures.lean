import SubsetC.Proofs.DiagnosticPlaces
import SubsetC.Proofs.EagerLexing
import SubsetC.Proofs.ParsedTrees

/-!
# Where compilations fail

Every failure of a compilation that is the user's stands at a token of the source, or at a run of
its string literals, and so at a line and column of the source. The main statement is
`compile_marks`.

Each stage hands on an artifact whose places are among those of the tokens (`Artifact.IsMarked`),
and fails only at one of them (`Artifact.next_marks`). What is said of the stages then holds of any
sequence of them (`Compilation.run_ensures`). Lowering and assembly fail only internally.
-/

namespace SubsetC

/-! ### Places of tokens -/

/-- A span is that of a token, or goes from a string literal through a later one with only string
literals between them. -/
inductive Span.Marks (tokens : List Token) : Span → Prop
  | token {token : Token} : token ∈ tokens → Marks tokens token.span
  | strings {first last : Token} {between : List Token} :
      first :: (between ++ [last]) <:+: tokens →
      (∀ token ∈ first :: (between ++ [last]), token.kind = .string) →
      Marks tokens { first.span with stop := last.span.stop }

theorem Span.Marks.widen {tokens others : List Token} {span : Span} (marks : span.Marks tokens)
    (isPart : tokens <:+: others) : span.Marks others := by
  cases marks with
  | token mem => exact .token (isPart.subset mem)
  | strings run areStrings => exact .strings (run.trans isPart) areStrings

/-- No token is at the span of nothing, since lines start at one. -/
theorem Span.Marks.ne_none {tokens : List Token} {span : Span} (marks : span.Marks tokens)
    (lines : ∀ token ∈ tokens, 1 ≤ token.span.line) : span ≠ .none := by
  have line : 1 ≤ span.line := by
    cases marks with
    | token mem => exact lines _ mem
    | strings run => exact lines _ (run.subset List.mem_cons_self)
  rintro rfl
  exact absurd line (by decide)

theorem Span.stop_through (span other : Span) :
    (span.through other).stop = max span.stop other.stop := rfl

/-- Spans that end no later than a place are joined to one that does so. -/
theorem Span.foldl_through {bound : Int} {tokens : List Token} {span : Span}
    (inFront : span.stop ≤ bound) (areInFront : ∀ token ∈ tokens, token.span.stop ≤ bound) :
    ∃ stop ≤ bound,
      tokens.foldl (fun span token => span.through token.span) span = { span with stop } := by
  induction tokens generalizing span with
  | nil => exact ⟨span.stop, inFront, rfl⟩
  | cons token tokens ih =>
      rw [List.forall_mem_cons] at areInFront
      have joined : (span.through token.span).stop ≤ bound := by
        rw [Span.stop_through]
        exact Int.max_le.2 ⟨inFront, areInFront.1⟩
      exact ih joined areInFront.2

/-- A run of tokens goes from the start of the first through the end of the last. -/
theorem Token.runSpan_append {first last : Token} {between : List Token}
    (inFront : ∀ token ∈ first :: between, token.span.stop ≤ last.span.stop) :
    first.runSpan (between ++ [last]) = { first.span with stop := last.span.stop } := by
  rcases Span.foldl_through (inFront first List.mem_cons_self) inFront with ⟨stop, atMost, joined⟩
  rw [Token.runSpan, ← List.cons_append, List.foldl_append, joined]
  simp [Span.through, Int.max_eq_right atMost]

theorem Token.runSpan_nil (token : Token) : token.runSpan [] = token.span := by
  simp [Token.runSpan, Span.through]

/-- Tokens follow one another on the lines of a source. -/
structure Token.InOrder (tokens : List Token) : Prop where
  /-- No token ends before one in front of it. -/
  stops : tokens.Pairwise fun first second => first.span.stop ≤ second.span.stop
  /-- Lines start at one. -/
  lines : ∀ token ∈ tokens, 1 ≤ token.span.line

theorem Token.InOrder.marks_run {tokens rest : List Token} {first : Token} (inOrder : InOrder tokens)
    (run : first :: rest <:+: tokens) (strings : ∀ token ∈ first :: rest, token.kind = .string) :
    (first.runSpan rest).Marks tokens := by
  rcases List.eq_nil_or_concat' rest with rfl | ⟨between, last, rfl⟩
  · rw [Token.runSpan_nil]
    exact .token (run.subset List.mem_cons_self)
  · have stops := inOrder.stops.sublist run.sublist
    rw [← List.cons_append, List.pairwise_append] at stops
    rw [Token.runSpan_append fun token mem => stops.2.2 token mem last List.mem_cons_self]
    exact .strings run strings


/-! ### Tokens of a source -/

theorem Token.Takes.one_le_line {token : Token} {source : Text} {start stop : Nat}
    (takes : token.Takes source start stop) : 1 ≤ token.span.line := by
  rw [takes.line]
  omega

namespace Lexer

variable {source : Text}

/-- Tokens behind a place of a source end no earlier, and come in order. -/
theorem lexFrom_inOrder (cursor : Cursor) (isIn : cursor.In source) :
    Token.InOrder (lexFrom cursor).tokens ∧
      ∀ token ∈ (lexFrom cursor).tokens, (cursor.position.offset : Int) ≤ token.span.stop := by
  fun_induction lexFrom cursor with
  | case1 cursor token next reads shorter lexed ih =>
      rcases isIn.read_token reads with ⟨nextIn, start, gap, nonempty, inside, kind, takes⟩
      rcases ih nextIn with ⟨inOrder, behind⟩
      have stop : token.span.stop = next.position.offset := takes.span.2
      have further : (cursor.position.offset : Int) ≤ next.position.offset := by
        have := gap.1
        omega
      refine ⟨⟨?_, ?_⟩, ?_⟩
      · exact List.pairwise_cons.2 ⟨fun other mem => stop ▸ behind other mem, inOrder.stops⟩
      · exact List.forall_mem_cons.2 ⟨takes.one_le_line, inOrder.lines⟩
      · exact List.forall_mem_cons.2
          ⟨stop ▸ further, fun other mem => Int.le_trans further (behind other mem)⟩
  | case2 cursor token next reads => exact ⟨⟨.nil, by simp⟩, by simp⟩
  | case3 cursor next reads => exact ⟨⟨.nil, by simp⟩, by simp⟩

/-- The end of a source is on one of its lines. -/
theorem one_le_line_of_lexFrom {ending : Token} (cursor : Cursor) (isIn : cursor.In source)
    (isEnding : (lexFrom cursor).ending = .ok ending) : 1 ≤ ending.span.line := by
  fun_induction lexFrom cursor with
  | case1 cursor token next reads shorter lexed ih => exact ih (isIn.read_token reads).1 isEnding
  | case2 cursor token next reads =>
      cases isEnding
      exact (isIn.read_endOfInput reads).2.2.one_le_line
  | case3 cursor next reads => cases isEnding

/-- A compilation of a source may complain at a span: it is that of tokens of the source, and not
that of nothing. -/
def IsMarked (source : Text) (span : Span) : Prop :=
  ∃ tokens, tokenize source = .ok tokens ∧ span.Marks tokens ∧ span ≠ .none

/-- The place of the first illegal token. -/
theorem isMarked_illegal {illegal : Token} (found : (lex source).illegal? = some illegal) :
    IsMarked source illegal.span := by
  have mem : illegal ∈ (lex source).tokens := List.mem_of_find?_eq_some found
  have line := (lexFrom_inOrder (.start source) (Cursor.start_in source)).1.lines illegal mem
  have tokenizes : ∃ front, tokenize source = .ok (front ++ [illegal]) := by
    unfold tokenize Lexed.throughIllegal
    rw [found]
    exact ⟨_, rfl⟩
  rcases tokenizes with ⟨front, tokenizes⟩
  refine ⟨_, tokenizes, .token (by simp), ?_⟩
  intro isNone
  rw [isNone] at line
  exact absurd line (by decide)

/-- The tokens of a source that is parsed are at its places, and so are its runs of string
literals. -/
theorem isFrom_of_lex {front : List Token} {ending : Token}
    (lexes : lex source = ⟨front, .ok ending⟩) (legal : ∀ token ∈ front, token.kind ≠ .illegal) :
    (⟨front, .ok ending, 0⟩ : ParseState).IsFrom (.ofSpans (IsMarked source)) := by
  have inOrder : Token.InOrder front := by
    have := (lexFrom_inOrder (.start source) (Cursor.start_in source)).1
    change Token.InOrder (lex source).tokens at this
    rwa [lexes] at this
  have atEnd : 1 ≤ ending.span.line :=
    one_le_line_of_lexFrom (.start source) (Cursor.start_in source) (congrArg Lexed.ending lexes)
  have lines : ∀ token ∈ front ++ [ending], 1 ≤ token.span.line :=
    List.forall_mem_append.2 ⟨inOrder.lines, List.forall_mem_singleton.2 atEnd⟩
  have tokenizes : tokenize source = .ok (front ++ [ending]) := by
    have none : Lexed.illegal? ⟨front, .ok ending⟩ = none := Lexed.illegal?_eq_none.2 legal
    have all : front.takeWhile (fun token => decide (token.kind ≠ .illegal)) = front :=
      List.takeWhile_eq_self_iff.2 (by simpa using legal)
    rw [tokenize, lexes, Lexed.throughIllegal, none]
    dsimp only
    rw [all]
    rfl
  have isMarked {span : Span} (marks : span.Marks (front ++ [ending])) : IsMarked source span :=
    ⟨_, tokenizes, marks, marks.ne_none lines⟩
  refine ⟨fun token mem => ⟨isMarked (.token (by simp [mem])), fun _ => trivial⟩, ?_, ?_, ?_⟩
  · intro first rest run strings
    exact isMarked ((inOrder.marks_run run strings).widen (List.prefix_append _ _).isInfix)
  · rintro _ ⟨⟩
    exact ⟨isMarked (.token (by simp)), fun _ => trivial⟩
  · have isLexed := lex_isLexed source
    rw [lexes] at isLexed
    exact isLexed.ending_ne_string

end Lexer

/-! ### Stages -/

theorem Failure.IsInternal.isAt {isSpan : Span → Prop} {failure : Failure}
    (isInternal : failure.IsInternal) : failure.IsAt isSpan := by
  rintro span error rfl
  cases error <;> cases isInternal

/-- A computation without a state ensures what its outcome shows. -/
theorem Ensures.lift {σ α : Type} {outcome : Except Failure α} {state : σ}
    {allowed : Failure → Prop} {wanted : α → σ → Prop}
    (fails : ∀ failure, outcome = .error failure → allowed failure)
    (yields : ∀ result, outcome = .ok result → wanted result state) :
    Ensures (liftM outcome : StateT σ (Except Failure) α) state allowed wanted := by
  cases outcome with
  | ok result => exact yields result rfl
  | error failure => exact fails failure rfl

/-- A computation fails only internally. -/
def FailsInternally {α : Type} (outcome : Except Failure α) : Prop :=
  ∀ failure, outcome = .error failure → failure.IsInternal

namespace FailsInternally

variable {α β : Type} {outcome : Except Failure α} {next : α → Except Failure β}

theorem pure {result : α} : FailsInternally (Pure.pure result : Except Failure α) := by
  rintro _ ⟨⟩

theorem throw {failure : Failure} (isInternal : failure.IsInternal) :
    FailsInternally (MonadExcept.throw failure : Except Failure α) := by
  rintro _ ⟨⟩
  exact isInternal

theorem bind (first : FailsInternally outcome) (rest : ∀ result, FailsInternally (next result)) :
    FailsInternally (outcome >>= next) := by
  cases outcome with
  | ok result => exact rest result
  | error failure =>
      rintro _ ⟨⟩
      exact first failure rfl

theorem mapM {step : α → Except Failure β} (each : ∀ item, FailsInternally (step item))
    (items : List α) : FailsInternally (items.mapM step) := by
  induction items with
  | nil => exact pure
  | cons item items ih =>
      rw [List.mapM_cons]
      exact (each item).bind fun _ => ih.bind fun _ => pure

end FailsInternally

namespace Frame

theorem align_failsInternally (size alignment : Size) : FailsInternally (align size alignment) := by
  unfold align
  split
  · exact .pure
  · exact .throw rfl

theorem addNames_failsInternally (table : SymbolTable) : ∀ (names : List Text) (frame : Frame),
    FailsInternally (frame.addNames table names)
  | [], _ => .pure
  | name :: names, frame => by
      unfold addNames
      split
      · exact .throw rfl
      · rename_i symbol _
        have adds : FailsInternally (frame.addSymbol symbol) := by
          unfold addSymbol
          split
          · exact (align_failsInternally _ _).bind fun _ => .pure
          · exact .pure
        exact adds.bind fun frame => addNames_failsInternally table names frame

end Frame

/-- Assembly complains about no program. -/
theorem LinearProgram.assemble_failsInternally (table : SymbolTable) (program : LinearProgram) :
    FailsInternally (program.assemble table) := by
  refine .mapM (fun item => ?_) program
  cases item with
  | function item =>
      have frames : FailsInternally (item.frame table) :=
        (Frame.addNames_failsInternally table _ _).bind fun _ =>
          (Frame.align_failsInternally _ _).bind fun _ => .pure
      exact frames.bind fun _ => .pure
  | object | constant => exact .pure

/-- Lowering complains about no tree. -/
theorem Program.lower_failsInternally (program : Program) (context : Context) :
    Ensures program.lower context Failure.IsInternal fun _ _ => True := by
  have any : Symbol.Permits fun _ => True := by constructor <;> simp
  exact (lower_preserves any program context fun _ _ => trivial).mono fun _ _ _ => trivial

namespace Artifact

open Lexer (IsMarked)

variable {source : Text}

/-- The places of an artifact are those of tokens of the source it is made from. -/
def IsMarked (source : Text) : Artifact → Prop
  | .source bytes => bytes = source
  | .tokens front ending =>
      Lexer.lex source = ⟨front, .ok ending⟩ ∧ ∀ token ∈ front, token.kind ≠ .illegal
  | .tree program => program.Forall (.placed (Lexer.IsMarked source))
  | .analysed _ | .linear _ | .assembly _ => True

theorem ofSource_marks (context : Context) :
    Ensures (Artifact.next (.source source)) context (Failure.IsAt (Lexer.IsMarked source))
      fun made _ => made.IsMarked source := by
  refine Ensures.lift ?_ ?_
  · intro failure fails
    unfold ofSource at fails
    dsimp only at fails
    split at fails
    · rename_i illegal _ found
      cases fails
      exact Failure.isAt_user (Lexer.isMarked_illegal found)
    · cases fails
      exact Failure.isAt_fault
    · cases fails
  · intro made makes
    unfold ofSource at makes
    dsimp only at makes
    split at makes
    · cases makes
    · cases makes
    · rename_i ending none isEnding
      cases makes
      exact ⟨by rw [← isEnding], Lexer.Lexed.illegal?_eq_none.1 none⟩

theorem ofTokens_marks {front : List Token} {ending : Token} (context : Context)
    (isMarked : (Artifact.tokens front ending).IsMarked source) :
    Ensures (Artifact.next (.tokens front ending)) context (Failure.IsAt (Lexer.IsMarked source))
      fun made _ => made.IsMarked source := by
  let lexed : Lexer.Lexed := ⟨front, .ok ending⟩
  let stream := TokenStream.ofTokens (front ++ [ending])
  have isFrom : (⟨lexed.tokens, lexed.ending, 0⟩ : ParseState).IsFrom
      (.ofSpans (Lexer.IsMarked source)) := Lexer.isFrom_of_lex isMarked.1 isMarked.2
  have isLexed := Lexer.lex_isLexed source
  rw [isMarked.1] at isLexed
  have same : Program.ofStream stream = Program.ofLexed lexed := Program.ofStream_ofTokens isLexed
  have written := Program.written_of_ofLexed isFrom
  have parses : Ensures (liftM (Program.ofStream stream) : Pass (Program × Nat)) context
      (Failure.IsAt (Lexer.IsMarked source)) fun parsed _ =>
        parsed.1.Forall (.placed (Lexer.IsMarked source)) := by
    rw [same]
    exact Ensures.lift written.2 fun parsed parses =>
      Program.placed_of_written (written.1 parsed.1 parsed.2 parses).1
  exact parses.bind fun _ _ placed => placed

/-- A stage complains only at places of tokens, and hands on no other places. -/
theorem next_marks {artifact : Artifact} (context : Context) (isMarked : artifact.IsMarked source) :
    Ensures artifact.next context (Failure.IsAt (Lexer.IsMarked source))
      fun made _ => made.IsMarked source := by
  cases artifact with
  | source bytes =>
      cases isMarked
      exact ofSource_marks context
  | tokens front ending => exact ofTokens_marks context isMarked
  | tree program =>
      have analyses := Program.analyze_reports isMarked context
      exact analyses.bind fun _ _ _ => Ensures.pure trivial
  | analysed program =>
      have lowers : Ensures program.lower context (Failure.IsAt (Lexer.IsMarked source))
          fun _ _ => True :=
        (program.lower_failsInternally context).allow fun _ => Failure.IsInternal.isAt
      exact lowers.bind fun _ _ _ => Ensures.pure trivial
  | linear program =>
      have assembles : Ensures (liftM (program.assemble context.symbols) : Pass Assembly) context
          (Failure.IsAt (Lexer.IsMarked source)) fun _ _ => True :=
        Ensures.lift (fun failure fails =>
          (program.assemble_failsInternally _ failure fails).isAt) fun _ _ => trivial
      refine Ensures.bind_ok (Pass.run_get context) ?_
      exact assembles.bind fun _ _ _ => Ensures.pure trivial
  | assembly items => exact Ensures.pure trivial

end Artifact

/-- What every stage preserves holds of each product of a sequence of stages, and a failure of the
sequence is one of a stage. -/
theorem Compilation.run_fails {good : Artifact → Prop} {allowed : Failure → Prop} (stop : Stage)
    (step : ∀ artifact context, good artifact →
      Ensures artifact.next context allowed fun made _ => good made) :
    ∀ (stages : List Stage) {product : Product} {failure : Failure}, good product.artifact →
      (run stop stages product).outcome = .error failure → allowed failure
  | [], _, _, _, fails => by cases fails
  | stage :: stages, product, failure, isGood, fails => by
      have ensures := step product.artifact product.context isGood
      cases runs : product.artifact.next.run product.context with
      | error other =>
          rw [outcome_of_error runs] at fails
          cases fails
          exact ensures.of_error runs
      | ok made =>
          rw [outcome_of_ok runs] at fails
          split at fails
          · cases fails
          · exact run_fails stop step stages (ensures.of_ok runs) fails

/-- A compilation that fails, and does not fail internally, complains at a token of the source or
at a run of its string literals, and never at the span of nothing. -/
theorem compile_marks {stop : Stage} {source : Text} {failure : Failure}
    (fails : (compile stop source).outcome = .error failure)
    (isUser : failure.diagnostic.kind ≠ .internal) :
    ∃ tokens, Lexer.tokenize source = .ok tokens ∧ failure.diagnostic.span.Marks tokens ∧
      failure.diagnostic.span ≠ .none := by
  have step : ∀ (artifact : Artifact) (context : Context), artifact.IsMarked source →
      Ensures artifact.next context (Failure.IsAt (Lexer.IsMarked source))
        fun made _ => made.IsMarked source :=
    fun _ context isMarked => Artifact.next_marks context isMarked
  have isMarked : (Artifact.source source).IsMarked source := rfl
  have isAt := Compilation.run_fails stop step Stage.all isMarked fails
  cases failure with
  | user span error =>
      have isMarked := isAt span error rfl
      cases error <;> exact isMarked
  | internal | missing | fault | outOfFuel => exact absurd rfl isUser

/-- The case of a function that returns two adjacent string literals as an integer. -/
theorem compile_marks_adjacent_strings :
    let source : Text := "int f(void) \x7b return \"a\" \"b\"; \x7d"
    let failure : Failure := .user ⟨21, 28, 1, 22⟩ (.type (.cannotConvert (.pointer .char) .int))
    (compile .emit source).outcome = .error failure ∧
      ∃ tokens, Lexer.tokenize source = .ok tokens ∧ failure.diagnostic.span.Marks tokens ∧
        failure.diagnostic.span ≠ .none := by
  intro source failure
  have refused : (compile .emit source).outcome.map (fun _ => ()) = .error failure := by
    decide +kernel
  have fails : (compile .emit source).outcome = .error failure := by
    cases compiles : (compile .emit source).outcome with
    | error other =>
        rw [compiles] at refused
        cases refused
        rfl
    | ok product =>
        rw [compiles] at refused
        cases refused
  exact ⟨fails, compile_marks fails (by decide)⟩

end SubsetC
