import SubsetC.Proofs.Consumption
import SubsetC.Proofs.ParserRounds
import SubsetC.Proofs.TokenForms
import SubsetC.Proofs.TokenStreams

/-!
# Parsing from a stream

A parser over a stream does what it does over the list of all tokens that the stream shows, however
many of them are lexed or made up already, and however much fuel it has beyond what it has over the
list. `Parser.Follows` is carried through the parsers, and through each loop by way of its rounds. The
main statements are `Program.parse_eq_ofLexed`, for a stream that lexes a source on demand, and
`Program.ofStream_ofTokens`, for one that hands out given tokens.
-/

namespace SubsetC

open Lexer

/-! ### Lists that streams show -/

/-- What is left to parse, as a stream would show it. -/
def ParseState.outlook (left : ParseState) : Outlook :=
  Lexed.outlook ⟨left.tokens, left.ending⟩

/-- What a stream that is repeated may end in. -/
def TokenKind.IsFinal (kind : TokenKind) : Prop := kind = .endOfInput ∨ kind = .illegal

/-- A stream has the tokens of a list to show. -/
structure StreamState.Shows (state : StreamState) (left : ParseState) : Prop where
  shows : state.stream.shows = left.outlook
  lastId : state.lastId = left.lastId
  repeats : state.stream.Repeats TokenKind.IsFinal
  /-- There is a supply for all tokens. -/
  stock : left.tokens.length ≤ state.stream.stock
  isLexed : left.IsLexed

namespace Parser

variable {α β : Type}

/-- A parser over streams does what a parser over the lists that they show does: it fails alike or
has the same result and again shows what is left, unless the list's runs out of fuel. -/
def Follows (listed : Parser ParseState α) (streamed : Parser StreamState α) : Prop :=
  ∀ ⦃state : StreamState⦄ ⦃left : ParseState⦄, state.Shows left →
    match listed.run left with
    | .ok (result, left') => ∃ state', streamed.run state = .ok (result, state') ∧ state'.Shows left'
    | .error failure => failure = .outOfFuel ∨ streamed.run state = .error failure

section Rules

variable {listed : Parser ParseState α} {streamed : Parser StreamState α}
  {listedNext : α → Parser ParseState β} {streamedNext : α → Parser StreamState β}

theorem Follows.pure {result : α} :
    Follows (Pure.pure result : Parser ParseState α) (Pure.pure result) :=
  fun state _ shows => ⟨state, rfl, shows⟩

theorem Follows.throw {failure : Failure} :
    Follows (MonadExcept.throw failure : Parser ParseState α) (MonadExcept.throw failure) :=
  fun _ _ _ => .inr rfl

theorem Follows.fail {span : Span} {error : SyntaxError} :
    Follows (fail span error : Parser ParseState α) (Parser.fail span error) :=
  Follows.throw

/-- Anything follows a list's parser without fuel. -/
theorem Follows.outOfFuel :
    Follows (MonadExcept.throw Failure.outOfFuel : Parser ParseState α) streamed :=
  fun _ _ _ => .inl rfl

theorem Follows.bind (first : Follows listed streamed)
    (rest : ∀ result, Follows (listedNext result) (streamedNext result)) :
    Follows (listed >>= listedNext) (streamed >>= streamedNext) := by
  intro state left shows
  have here := first shows
  rw [StateT.run_bind]
  cases runs : listed.run left with
  | error failure =>
      rw [runs] at here
      refine here.imp_right fun fails => ?_
      rw [StateT.run_bind, fails]
      rfl
  | ok result =>
      rw [runs] at here
      rcases here with ⟨state', runs', shows'⟩
      rw [Ensures.run_bind_of_ok runs']
      exact rest result.1 shows'

theorem Follows.fail_bind {span : Span} {error : SyntaxError} :
    Follows ((Parser.fail span error : Parser ParseState α) >>= listedNext)
      (Parser.fail span error >>= streamedNext) :=
  fun _ _ _ => .inr rfl

theorem Follows.ite {condition : Prop} [Decidable condition]
    {listedElse : Parser ParseState α} {streamedElse : Parser StreamState α}
    (whenTrue : Follows listed streamed) (whenFalse : Follows listedElse streamedElse) :
    Follows (if condition then listed else listedElse)
      (if condition then streamed else streamedElse) := by
  split
  · exact whenTrue
  · exact whenFalse

/-- What a parser over a list ensures, one over a stream that shows the list does. -/
theorem Follows.ensures {state : StreamState} {left : ParseState}
    {wanted : α → ParseState → Prop} (follows : Follows listed streamed) (shows : state.Shows left)
    (moves : listed.Moves left wanted) :
    Ensures streamed state left.MayFail fun result after =>
      ∃ left', after.Shows left' ∧ left.Reaches left' ∧ wanted result left' := by
  have follows := follows shows
  have moves := moves shows.isLexed
  unfold Ensures at moves ⊢
  cases runs : listed.run left with
  | error failure =>
      rw [runs] at follows moves
      have notFuel : failure ≠ .outOfFuel := by
        rintro rfl
        rcases moves with ⟨_, _, same⟩ | ⟨_, _, same⟩ <;> cases same
      rw [follows.resolve_left notFuel]
      exact moves
  | ok result =>
      rw [runs] at follows moves
      rcases follows with ⟨after, runs', shows'⟩
      rw [runs']
      exact ⟨result.2, shows', moves⟩

end Rules

/-! ### Primitives -/

/-- What an operation on a stream ends in, a parser ends in. -/
theorem onStream_ends {operation : StreamM α} {state : StreamState}
    {wanted : α → TokenStream → Prop} {allowed : StreamFault → Prop}
    (ends : TokenStream.Ends operation state.stream wanted allowed) :
    (∃ result after, (StreamState.onStream operation).run state =
      .ok (result, { state with stream := after }) ∧ wanted result after) ∨
    ∃ fault, (StreamState.onStream operation).run state = .error (.fault fault.limit) ∧
      allowed fault := by
  unfold TokenStream.Ends at ends
  split at ends
  · rename_i result after runs
    refine .inl ⟨result, after, ?_, ends⟩
    rw [StateT.run, StreamState.onStream, runs]
  · rename_i fault after runs
    refine .inr ⟨fault, ?_, ends⟩
    rw [StateT.run, StreamState.onStream, runs]

/-- A look at a list shows its outlook. -/
theorem run_peekAt (left : ParseState) (place : Nat) :
    (TokenSource.peekAt place : Parser ParseState Token).run left =
      match left.outlook place with
      | .ok token => .ok (token, left)
      | .error fault => .error (.fault fault.limit) := by
  rw [ParseState.outlook, Lexed.outlook, Outlook.behind]
  cases found : left.tokens[place]? with
  | none =>
      rw [run_peekAt_of_none found]
      unfold Parser.ending
      cases left.ending <;> rfl
  | some token => exact run_peekAt_of_some found

theorem peekAt_follows (place : Nat) :
    Follows (TokenSource.peekAt place) (TokenSource.peekAt place) := by
  intro state left shows
  rw [run_peekAt, ← shows.shows]
  rcases onStream_ends (TokenStream.peekAt_ends shows.repeats place) with
    ⟨token, after, runs, same, shown, -⟩ | ⟨fault, fails, shown⟩
  · have isShown : state.stream.shows place = .ok token := shown
    rw [isShown]
    exact ⟨_, runs, same.shows.trans shows.shows, shows.lastId, same.repeats,
      Nat.le_trans shows.stock same.stock, shows.isLexed⟩
  · have isShown : state.stream.shows place = .error fault := shown
    rw [isShown]
    exact .inr fails

theorem current_follows : Follows current current :=
  (peekAt_follows 0).bind fun _ => Follows.ite Follows.fail_bind Follows.pure

theorem following_follows : Follows following following :=
  current_follows.bind fun _ => peekAt_follows 1

end Parser

namespace ParseState

variable {left : ParseState} {token : Token}

theorem StandsAt.outlook (stands : left.StandsAt token) : left.outlook 0 = .ok token := by
  by_cases isEnd : token.kind = .endOfInput
  · rcases stands.ending_eq isEnd with ⟨none, isEnding⟩
    rw [ParseState.outlook, none, isEnding]
    rfl
  · rcases stands.exists_rest isEnd with ⟨rest, same⟩
    rw [ParseState.outlook, same]
    rfl

/-- Without its current token, a list shows what is behind it. -/
theorem StandsAt.outlook_tail (stands : left.StandsAt token) :
    left.outlook.past token = ParseState.outlook ⟨left.tokens.tail, left.ending, left.lastId⟩ := by
  unfold Outlook.past
  by_cases isEnd : token.kind = .endOfInput
  · rcases stands.ending_eq isEnd with ⟨none, -⟩
    rw [if_pos isEnd, ParseState.outlook, ParseState.outlook, none]
    rfl
  · rcases stands.exists_rest isEnd with ⟨rest, same⟩
    rw [if_neg isEnd, ParseState.outlook, ParseState.outlook, same]
    funext place
    exact Lexed.outlook_cons_succ token rest left.ending place

end ParseState

namespace Parser

variable {α β : Type}

/-- The current token is consumed, which is legal, so that what is repeated is never used up. -/
theorem skip_follows : Follows skip skip := by
  intro state left shows
  unfold skip
  have here := current_follows shows
  cases looks : (current : Parser ParseState Token).run left with
  | error failure =>
      rw [looks] at here
      rw [StateT.run_bind, looks]
      refine here.imp_right fun fails => ?_
      rw [StateT.run_bind, fails]
      rfl
  | ok result =>
      rcases result with ⟨token, left⟩
      rcases (current_peeks shows.isLexed).of_ok looks with ⟨-, rfl, stands⟩
      rw [looks] at here
      rcases here with ⟨state', looks', shows'⟩
      rw [Ensures.run_bind_of_ok looks, Ensures.run_bind_of_ok looks']
      have notLast : ∀ other, state'.stream.shows 0 = .ok other →
          other.kind = .endOfInput ∨ ¬other.kind.IsFinal := by
        intro other shown
        rw [shows'.shows, stands.outlook] at shown
        cases shown
        by_cases isEnd : token.kind = .endOfInput
        · exact .inl isEnd
        · exact .inr fun isFinal => isFinal.elim isEnd stands.1
      rcases onStream_ends (TokenStream.next_ends shows'.repeats notLast) with
        ⟨other, after, runs, shown, moved, -, repeats, stock⟩ | ⟨fault, -, shown⟩
      · rw [shows'.shows, stands.outlook] at shown
        cases shown
        rw [shows'.shows, stands.outlook_tail] at moved
        refine ⟨_, Ensures.run_bind_of_ok runs, moved, shows'.lastId, repeats, ?_, ?_⟩
        · have := shows'.stock
          have := List.length_tail (l := left.tokens)
          change left.tokens.tail.length ≤ after.stock
          omega
        · exact ⟨fun token mem => shows.isLexed.tokens token (List.mem_of_mem_tail mem),
            shows.isLexed.ending⟩
      · rw [shows'.shows, stands.outlook] at shown
        cases shown

theorem newLoc_follows (span : Span) : Follows (newLoc span) (newLoc span) := by
  rintro ⟨stream, lastId⟩ ⟨tokens, ending, _⟩ ⟨shows, rfl, repeats, stock, isLexed⟩
  exact ⟨⟨stream, lastId + 1⟩, rfl, shows, rfl, repeats, stock, isLexed.tokens, isLexed.ending⟩

theorem newNote_follows (span : Span) : Follows (newNote span) (newNote span) :=
  (newLoc_follows span).bind fun _ => Follows.pure

/-- A stream bounds the depth of recursion no less than the list that it shows. -/
theorem Follows.fuel_bind {listed : Nat → Parser ParseState α}
    {streamed : Nat → Parser StreamState α}
    (rest : ∀ {fuel fuel'}, fuel ≤ fuel' → Follows (listed fuel) (streamed fuel')) :
    Follows (fuel >>= listed) (fuel >>= streamed) := by
  intro state left shows
  have enough : left.tokens.length ≤ state.stream.bound :=
    Nat.le_trans shows.stock state.stream.stock_le_bound
  have more : 8 * (left.tokens.length + 2) ≤ 8 * (state.stream.bound + 2) := by omega
  exact rest more shows

theorem currentIs_follows (kind : TokenKind) : Follows (currentIs kind) (currentIs kind) :=
  current_follows.bind fun _ => Follows.pure

theorem currentIsMark_follows (mark : Punctuator) :
    Follows (currentIsMark mark) (currentIsMark mark) :=
  currentIs_follows _

theorem currentIsBefore_follows (kind : TokenKind) (test : TokenKind → Bool) :
    Follows (currentIsBefore kind test) (currentIsBefore kind test) :=
  (currentIs_follows kind).bind fun _ =>
    Follows.ite (following_follows.bind fun _ => Follows.pure) Follows.pure

theorem expect_follows (kind : TokenKind) : Follows (expect kind) (expect kind) :=
  current_follows.bind fun _ =>
    Follows.ite Follows.fail_bind (skip_follows.bind fun _ => Follows.pure)

theorem expectMark_follows (mark : Punctuator) : Follows (expectMark mark) (expectMark mark) :=
  expect_follows _

theorem accept_follows (mark : Punctuator) : Follows (accept mark) (accept mark) :=
  (currentIsMark_follows mark).bind fun _ =>
    Follows.ite (skip_follows.bind fun _ => Follows.pure) Follows.pure

/-- Behind rounds that follow each other, so do the rests of their loops. -/
theorem Round.rest_follows {listed : α → Parser ParseState β} {streamed : α → Parser StreamState β}
    (step : Round α β) (follows : ∀ next, Follows (listed next) (streamed next)) :
    Follows (step.rest listed) (step.rest streamed) := by
  cases step with
  | done result => exact Follows.pure
  | again next build => exact (follows next).bind fun _ => Follows.pure

end Parser

open SubsetC.Parser (Follows)

/-! ### Specifiers -/

namespace Specifiers

theorem note_follows (storageAllowed : Bool) (seen : Seen) (span : Span) (keyword : Keyword) :
    Follows (note storageAllowed seen span keyword) (note storageAllowed seen span keyword) := by
  unfold note
  repeat' refine Follows.ite ?_ ?_
  all_goals first | exact Follows.fail | exact Follows.pure

theorem round_follows (storageAllowed : Bool) (fuel fuel' : Nat) (seen : Seen) :
    Follows (round storageAllowed fuel seen) (round storageAllowed fuel' seen) := by
  unfold round
  refine Parser.current_follows.bind fun token => ?_
  split
  · refine Follows.ite (Parser.skip_follows.bind fun _ => ?_) Follows.pure
    exact (note_follows _ _ _ _).bind fun _ => Follows.pure
  · exact Follows.pure

theorem collect_follows (storageAllowed : Bool) : ∀ {fuel fuel' : Nat}, fuel ≤ fuel' → ∀ seen,
    Follows (collect storageAllowed fuel seen) (collect storageAllowed fuel' seen)
  | 0, _, _, _ => Follows.outOfFuel
  | _ + 1, 0, enough, _ => absurd enough (Nat.not_succ_le_zero _)
  | fuel + 1, fuel' + 1, enough, seen => by
      rw [collect_round, collect_round]
      refine (round_follows storageAllowed fuel fuel' seen).bind fun step => ?_
      exact step.rest_follows (collect_follows storageAllowed (Nat.le_of_succ_le_succ enough))

theorem parse_follows (storageAllowed : Bool) :
    Follows (parse storageAllowed) (parse storageAllowed) := by
  unfold parse
  refine Parser.current_follows.bind fun start => ?_
  refine Follows.fuel_bind fun enough => ?_
  refine (collect_follows storageAllowed enough _).bind fun seen => ?_
  refine Follows.ite Follows.fail_bind ?_
  dsimp only
  split
  · exact Follows.pure
  · exact Follows.fail

end Specifiers

/-! ### Declarators -/

namespace Declarator

theorem declare_follows (declarator : Declarator) (base : CType) :
    Follows (declarator.declare base) (declarator.declare base) := by
  unfold declare
  split
  · exact Follows.pure
  · exact Follows.fail

theorem dimension_follows : Follows dimension dimension := by
  have sized (span : Span) (size : Int) : Follows (do
      if size ≤ 0 then Parser.fail span .dimensionNotPositive
      let _ ← Parser.expectMark .rightBracket
      pure size) (do
      if size ≤ 0 then Parser.fail span .dimensionNotPositive
      let _ ← Parser.expectMark .rightBracket
      pure size) :=
    Follows.ite Follows.fail_bind ((Parser.expectMark_follows _).bind fun _ => Follows.pure)
  unfold dimension
  refine (Parser.expectMark_follows _).bind fun _ => ?_
  refine Parser.current_follows.bind fun token => ?_
  dsimp only
  split
  · refine Parser.skip_follows.bind fun _ => ?_
    split
    · exact sized _ _
    · exact Follows.fail_bind
  all_goals exact Follows.fail_bind

theorem opensParams_follows (nameOptional : Bool) :
    Follows (opensParams nameOptional) (opensParams nameOptional) :=
  Follows.ite (Parser.following_follows.bind fun _ => Follows.pure) Follows.pure

section Rounds

variable {fuel fuel' : Nat}

theorem suffixRound_follows (params : Follows (params fuel) (params fuel'))
    (declarator : Declarator) :
    Follows (suffixRound fuel declarator) (suffixRound fuel' declarator) := by
  unfold suffixRound
  refine Parser.current_follows.bind fun token => ?_
  split
  · exact dimension_follows.bind fun _ => Follows.pure
  · exact params.bind fun _ => Follows.pure
  · exact Follows.pure

theorem paramRound_follows (inner : Follows (parseWith fuel true) (parseWith fuel' true))
    (start : Unit) : Follows (paramRound fuel start) (paramRound fuel' start) := by
  unfold paramRound
  refine Parser.current_follows.bind fun start => ?_
  refine (Specifiers.parse_follows false).bind fun specifiers => ?_
  refine inner.bind fun declarator => ?_
  exact (Parser.accept_follows _).bind fun _ => Follows.ite Follows.pure Follows.pure

theorem dimensionRound_follows (fuel fuel' : Nat) (declarator : Declarator) :
    Follows (dimensionRound fuel declarator) (dimensionRound fuel' declarator) := by
  unfold dimensionRound
  refine (Parser.currentIsMark_follows _).bind fun _ => ?_
  exact Follows.ite (dimension_follows.bind fun _ => Follows.pure) Follows.pure

end Rounds

mutual

theorem parseWith_follows : ∀ {fuel fuel' : Nat}, fuel ≤ fuel' → ∀ nameOptional,
    Follows (parseWith fuel nameOptional) (parseWith fuel' nameOptional)
  | 0, _, _, _ => by
      rw [parseWith]
      exact Follows.outOfFuel
  | _ + 1, 0, enough, _ => absurd enough (Nat.not_succ_le_zero _)
  | fuel + 1, fuel' + 1, enough, nameOptional => by
      have enough := Nat.le_of_succ_le_succ enough
      simp only [parseWith]
      refine (Parser.accept_follows _).bind fun _ => Follows.ite ?_ ?_
      · exact (parseWith_follows enough nameOptional).bind fun _ => Follows.pure
      refine Parser.current_follows.bind fun token => ?_
      split
      · exact Parser.skip_follows.bind fun _ => suffixes_follows enough _
      · refine (opensParams_follows _).bind fun _ => Follows.ite (suffixes_follows enough _) ?_
        refine Parser.skip_follows.bind fun _ => ?_
        refine (parseWith_follows enough nameOptional).bind fun inner => ?_
        exact (Parser.expectMark_follows _).bind fun _ => suffixes_follows enough _
      · exact Follows.ite (suffixes_follows enough _) Follows.fail

theorem suffixes_follows : ∀ {fuel fuel' : Nat}, fuel ≤ fuel' → ∀ declarator,
    Follows (suffixes fuel declarator) (suffixes fuel' declarator)
  | 0, _, _, _ => by
      rw [suffixes]
      exact Follows.outOfFuel
  | _ + 1, 0, enough, _ => absurd enough (Nat.not_succ_le_zero _)
  | fuel + 1, fuel' + 1, enough, declarator => by
      have enough := Nat.le_of_succ_le_succ enough
      rw [suffixes_round, suffixes_round]
      refine (suffixRound_follows (params_follows enough) declarator).bind fun step => ?_
      exact step.rest_follows (suffixes_follows enough)

theorem params_follows : ∀ {fuel fuel' : Nat}, fuel ≤ fuel' →
    Follows (params fuel) (params fuel')
  | 0, _, _ => by
      rw [params]
      exact Follows.outOfFuel
  | _ + 1, 0, enough => absurd enough (Nat.not_succ_le_zero _)
  | fuel + 1, fuel' + 1, enough => by
      simp only [params]
      refine (Parser.expectMark_follows _).bind fun _ => ?_
      refine (Parser.accept_follows _).bind fun _ => Follows.ite Follows.pure ?_
      refine (Parser.currentIsBefore_follows _ _).bind fun _ => Follows.ite ?_ ?_
      · exact Parser.skip_follows.bind fun _ => Parser.skip_follows.bind fun _ => Follows.pure
      · refine (paramList_follows (Nat.le_of_succ_le_succ enough)).bind fun params => ?_
        exact (Parser.expectMark_follows _).bind fun _ => Follows.pure

theorem paramList_follows : ∀ {fuel fuel' : Nat}, fuel ≤ fuel' →
    Follows (paramList fuel) (paramList fuel')
  | 0, _, _ => by
      rw [paramList]
      exact Follows.outOfFuel
  | _ + 1, 0, enough => absurd enough (Nat.not_succ_le_zero _)
  | fuel + 1, fuel' + 1, enough => by
      have enough := Nat.le_of_succ_le_succ enough
      rw [paramList_round fuel (), paramList_round fuel' ()]
      refine (paramRound_follows (parseWith_follows enough true) ()).bind fun step => ?_
      exact step.rest_follows fun _ => paramList_follows enough

end

theorem parse_follows : Follows parse parse :=
  Follows.fuel_bind fun enough => parseWith_follows enough false

theorem dimensions_follows : ∀ {fuel fuel' : Nat}, fuel ≤ fuel' → ∀ declarator,
    Follows (dimensions fuel declarator) (dimensions fuel' declarator)
  | 0, _, _, _ => Follows.outOfFuel
  | _ + 1, 0, enough, _ => absurd enough (Nat.not_succ_le_zero _)
  | fuel + 1, fuel' + 1, enough, declarator => by
      rw [dimensions_round, dimensions_round]
      refine (dimensionRound_follows fuel fuel' declarator).bind fun step => ?_
      exact step.rest_follows (dimensions_follows (Nat.le_of_succ_le_succ enough))

theorem parseAbstractWith_follows : ∀ {fuel fuel' : Nat}, fuel ≤ fuel' →
    Follows (parseAbstractWith fuel) (parseAbstractWith fuel')
  | 0, _, _ => Follows.outOfFuel
  | _ + 1, 0, enough => absurd enough (Nat.not_succ_le_zero _)
  | fuel + 1, fuel' + 1, enough => by
      have enough := Nat.le_of_succ_le_succ enough
      simp only [parseAbstractWith]
      refine Parser.current_follows.bind fun token => ?_
      split
      · refine Parser.skip_follows.bind fun _ => ?_
        exact (parseAbstractWith_follows enough).bind fun _ => Follows.pure
      · refine Parser.skip_follows.bind fun _ => ?_
        refine (parseAbstractWith_follows enough).bind fun inner => ?_
        split
        · exact Follows.fail_bind
        · exact (Parser.expectMark_follows _).bind fun _ => dimensions_follows enough _
      · exact dimensions_follows enough _

theorem parseTypeName_follows : Follows parseTypeName parseTypeName := by
  unfold parseTypeName
  refine (Specifiers.parse_follows false).bind fun specifiers => ?_
  refine Follows.fuel_bind fun enough => ?_
  refine (parseAbstractWith_follows enough).bind fun declarator => ?_
  exact (declare_follows _ _).bind fun _ => Follows.pure

end Declarator

/-! ### Expressions -/

namespace Expr

theorem parenTypeName_follows : Follows parenTypeName parenTypeName :=
  Parser.skip_follows.bind fun _ => Declarator.parseTypeName_follows.bind fun _ =>
    (Parser.expectMark_follows _).bind fun _ => Follows.pure

theorem stringRound_follows (fuel fuel' : Nat) (seen : Span × Text) :
    Follows (stringRound fuel seen) (stringRound fuel' seen) := by
  unfold stringRound
  refine Parser.current_follows.bind fun token => ?_
  exact Follows.ite (Parser.skip_follows.bind fun _ => Follows.pure) Follows.pure

theorem stringRun_follows : ∀ {fuel fuel' : Nat}, fuel ≤ fuel' → ∀ seen,
    Follows (stringRun fuel seen) (stringRun fuel' seen)
  | 0, _, _, _ => Follows.outOfFuel
  | _ + 1, 0, enough, _ => absurd enough (Nat.not_succ_le_zero _)
  | fuel + 1, fuel' + 1, enough, seen => by
      rw [stringRun_round, stringRun_round]
      refine (stringRound_follows fuel fuel' seen).bind fun step => ?_
      exact step.rest_follows (stringRun_follows (Nat.le_of_succ_le_succ enough))

theorem strings_follows : Follows strings strings := by
  unfold strings
  refine Parser.current_follows.bind fun first => ?_
  refine Follows.fuel_bind fun enough => ?_
  refine (stringRun_follows enough _).bind fun seen => ?_
  exact (Parser.newNote_follows _).bind fun _ => Follows.pure

/-- An expression that is built last follows. -/
theorem noted_follows (span : Span) (build : Note → Expr) :
    Follows (do pure (build (← Parser.newNote span))) (do pure (build (← Parser.newNote span))) :=
  (Parser.newNote_follows span).bind fun _ => Follows.pure

section Rounds

variable {fuel fuel' : Nat}
  (inner : ∀ level, Follows (parseWith fuel level) (parseWith fuel' level))

include inner

theorem operatorRound_follows (level : Nat) (left : Expr) :
    Follows (operatorRound level fuel left) (operatorRound level fuel' left) := by
  unfold operatorRound
  refine Parser.current_follows.bind fun token => ?_
  split
  · exact Follows.pure
  refine Follows.ite Follows.pure (Parser.skip_follows.bind fun _ => ?_)
  split
  · exact (inner _).bind fun right => (Parser.newNote_follows _).bind fun note => Follows.pure
  · refine (inner _).bind fun thenBranch => (Parser.expectMark_follows _).bind fun _ => ?_
    exact (inner _).bind fun elseBranch => (Parser.newNote_follows _).bind fun note => Follows.pure
  · exact (inner _).bind fun right => (Parser.newNote_follows _).bind fun note => Follows.pure

theorem trailingRound_follows (operand : Expr) :
    Follows (trailingRound fuel operand) (trailingRound fuel' operand) := by
  unfold trailingRound
  refine Parser.current_follows.bind fun token => ?_
  split
  · refine Parser.skip_follows.bind fun _ => (inner 0).bind fun index => ?_
    refine (Parser.expectMark_follows _).bind fun _ => ?_
    exact (Parser.newNote_follows _).bind fun note => Follows.pure
  · split
    · refine Parser.skip_follows.bind fun _ => ?_
      exact (Parser.newNote_follows _).bind fun note => Follows.pure
    · exact Follows.pure

theorem argumentRound_follows (start : Unit) :
    Follows (argumentRound fuel start) (argumentRound fuel' start) := by
  unfold argumentRound
  refine (inner 0).bind fun argument => ?_
  exact (Parser.accept_follows _).bind fun _ => Follows.ite Follows.pure Follows.pure

end Rounds

mutual

theorem parseWith_follows : ∀ {fuel fuel' : Nat}, fuel ≤ fuel' → ∀ level,
    Follows (parseWith fuel level) (parseWith fuel' level)
  | 0, _, _, _ => by
      rw [parseWith]
      exact Follows.outOfFuel
  | _ + 1, 0, enough, _ => absurd enough (Nat.not_succ_le_zero _)
  | fuel + 1, fuel' + 1, enough, level => by
      have enough := Nat.le_of_succ_le_succ enough
      simp only [parseWith]
      exact (operand_follows enough).bind fun left => continuations_follows enough level left

theorem continuations_follows : ∀ {fuel fuel' : Nat}, fuel ≤ fuel' → ∀ level left,
    Follows (continuations fuel level left) (continuations fuel' level left)
  | 0, _, _, _, _ => by
      rw [continuations]
      exact Follows.outOfFuel
  | _ + 1, 0, enough, _, _ => absurd enough (Nat.not_succ_le_zero _)
  | fuel + 1, fuel' + 1, enough, level, left => by
      have enough := Nat.le_of_succ_le_succ enough
      rw [continuations_round, continuations_round]
      refine (operatorRound_follows (parseWith_follows enough) level left).bind fun step => ?_
      exact step.rest_follows (continuations_follows enough level)

theorem operand_follows : ∀ {fuel fuel' : Nat}, fuel ≤ fuel' →
    Follows (operand fuel) (operand fuel')
  | 0, _, _ => by
      rw [operand]
      exact Follows.outOfFuel
  | _ + 1, 0, enough => absurd enough (Nat.not_succ_le_zero _)
  | fuel + 1, fuel' + 1, enough => by
      have enough := Nat.le_of_succ_le_succ enough
      have inner (span : Span) (build : Note → Expr → Expr) : Follows (do
          let inner ← operand fuel
          pure (build (← Parser.newNote span) inner)) (do
          let inner ← operand fuel'
          pure (build (← Parser.newNote span) inner)) :=
        (operand_follows enough).bind fun inner => noted_follows span (build · inner)
      have suffixed : Follows (do trailing fuel (← atom fuel)) (do trailing fuel' (← atom fuel')) :=
        (atom_follows enough).bind (trailing_follows enough)
      simp only [operand]
      refine Parser.current_follows.bind fun token => ?_
      split
      -- a dereference
      · exact Parser.skip_follows.bind fun _ => inner _ .dereference
      -- an address
      · exact Parser.skip_follows.bind fun _ => inner _ .addressOf
      -- sizeof
      · refine Parser.skip_follows.bind fun _ => ?_
        refine (Parser.currentIsBefore_follows _ _).bind fun _ => Follows.ite ?_ ?_
        · exact parenTypeName_follows.bind fun type => noted_follows _ (.sizeofType · type)
        · exact inner _ .sizeofExpr
      -- a parenthesis, perhaps of a cast
      · refine (Parser.currentIsBefore_follows _ _).bind fun _ => Follows.ite ?_ suffixed
        exact parenTypeName_follows.bind fun target => inner _ (.cast · target · false)
      -- other operators
      · split
        · exact Parser.skip_follows.bind fun _ => inner _ (.unary · _ ·)
        · exact Parser.skip_follows.bind fun _ => inner _ (.step · .before _ ·)
        · exact suffixed

theorem trailing_follows : ∀ {fuel fuel' : Nat}, fuel ≤ fuel' → ∀ operand,
    Follows (trailing fuel operand) (trailing fuel' operand)
  | 0, _, _, _ => by
      rw [trailing]
      exact Follows.outOfFuel
  | _ + 1, 0, enough, _ => absurd enough (Nat.not_succ_le_zero _)
  | fuel + 1, fuel' + 1, enough, operand => by
      have enough := Nat.le_of_succ_le_succ enough
      rw [trailing_round, trailing_round]
      refine (trailingRound_follows (parseWith_follows enough) operand).bind fun step => ?_
      exact step.rest_follows (trailing_follows enough)

theorem atom_follows : ∀ {fuel fuel' : Nat}, fuel ≤ fuel' → Follows (atom fuel) (atom fuel')
  | 0, _, _ => by
      rw [atom]
      exact Follows.outOfFuel
  | _ + 1, 0, enough => absurd enough (Nat.not_succ_le_zero _)
  | fuel + 1, fuel' + 1, enough => by
      have enough := Nat.le_of_succ_le_succ enough
      have build (span : Span) (make : Note → Expr) := noted_follows span make
      simp only [atom]
      refine Parser.current_follows.bind fun token => ?_
      split
      -- an integer
      · refine Parser.skip_follows.bind fun _ => ?_
        split
        · exact build _ (.constant · _)
        · exact Follows.fail
      -- a floating literal
      · exact Parser.skip_follows.bind fun _ => build _ (.constant · _)
      -- a character
      · exact Parser.skip_follows.bind fun _ => build _ (.constant · _)
      -- string literals
      · exact strings_follows
      -- a call or a variable
      · refine Parser.skip_follows.bind fun _ => ?_
        refine (Parser.accept_follows _).bind fun _ => Follows.ite ?_ (build _ (.var · _))
        refine (Parser.currentIsMark_follows _).bind fun _ => ?_
        have called (arguments : List Expr) : Follows (do
            let _ ← Parser.expectMark .rightParen
            pure (Expr.call (← Parser.newNote token.span) token.literal arguments)) (do
            let _ ← Parser.expectMark .rightParen
            pure (Expr.call (← Parser.newNote token.span) token.literal arguments)) :=
          (Parser.expectMark_follows _).bind fun _ => build _ (.call · token.literal arguments)
        split
        · exact called []
        · exact (arguments_follows enough).bind called
      -- a parenthesis
      · refine Parser.skip_follows.bind fun _ => (parseWith_follows enough 0).bind fun inner => ?_
        exact (Parser.expectMark_follows _).bind fun _ => Follows.pure
      -- anything else
      · exact Follows.fail

theorem arguments_follows : ∀ {fuel fuel' : Nat}, fuel ≤ fuel' →
    Follows (arguments fuel) (arguments fuel')
  | 0, _, _ => by
      rw [arguments]
      exact Follows.outOfFuel
  | _ + 1, 0, enough => absurd enough (Nat.not_succ_le_zero _)
  | fuel + 1, fuel' + 1, enough => by
      have enough := Nat.le_of_succ_le_succ enough
      rw [arguments_round fuel (), arguments_round fuel' ()]
      refine (argumentRound_follows (parseWith_follows enough) ()).bind fun step => ?_
      exact step.rest_follows fun _ => arguments_follows enough

end

theorem parse_follows : Follows parse parse :=
  Follows.fuel_bind fun enough => parseWith_follows enough 0

end Expr

/-! ### Initializers -/

namespace Initializer

theorem itemRound_follows {fuel fuel' : Nat} (inner : Follows (parseWith fuel) (parseWith fuel'))
    (start : Unit) : Follows (itemRound fuel start) (itemRound fuel' start) := by
  unfold itemRound
  refine inner.bind fun item => (Parser.accept_follows _).bind fun _ => Follows.ite ?_ Follows.pure
  exact (Parser.currentIsMark_follows _).bind fun _ => Follows.ite Follows.pure Follows.pure

mutual

theorem parseWith_follows : ∀ {fuel fuel' : Nat}, fuel ≤ fuel' →
    Follows (parseWith fuel) (parseWith fuel')
  | 0, _, _ => by
      rw [parseWith]
      exact Follows.outOfFuel
  | _ + 1, 0, enough => absurd enough (Nat.not_succ_le_zero _)
  | fuel + 1, fuel' + 1, enough => by
      simp only [parseWith]
      refine Parser.current_follows.bind fun token => Follows.ite ?_ ?_
      · refine Parser.skip_follows.bind fun _ => Parser.current_follows.bind fun first => ?_
        refine Follows.ite Follows.fail_bind ?_
        refine (itemsWith_follows (Nat.le_of_succ_le_succ enough)).bind fun items => ?_
        refine (Parser.expectMark_follows _).bind fun _ => ?_
        exact (Parser.newLoc_follows _).bind fun _ => Follows.pure
      · refine Expr.parse_follows.bind fun value => ?_
        exact (Parser.newLoc_follows _).bind fun _ => Follows.pure

theorem itemsWith_follows : ∀ {fuel fuel' : Nat}, fuel ≤ fuel' →
    Follows (itemsWith fuel) (itemsWith fuel')
  | 0, _, _ => by
      rw [itemsWith]
      exact Follows.outOfFuel
  | _ + 1, 0, enough => absurd enough (Nat.not_succ_le_zero _)
  | fuel + 1, fuel' + 1, enough => by
      have enough := Nat.le_of_succ_le_succ enough
      rw [itemsWith_round fuel (), itemsWith_round fuel' ()]
      refine (itemRound_follows (parseWith_follows enough) ()).bind fun step => ?_
      exact step.rest_follows fun _ => itemsWith_follows enough

end

theorem parse_follows : Follows parse parse :=
  Follows.fuel_bind fun enough => parseWith_follows enough

end Initializer

/-! ### Declarations and statements -/

theorem Expr.parseUnless_follows (mark : Punctuator) :
    Follows (parseUnless mark) (parseUnless mark) :=
  (Parser.currentIsMark_follows mark).bind fun _ =>
    Follows.ite Follows.pure (Expr.parse_follows.bind fun _ => Follows.pure)

theorem Expr.parseParenthesized_follows : Follows parseParenthesized parseParenthesized :=
  (Parser.expectMark_follows _).bind fun _ => Expr.parse_follows.bind fun _ =>
    (Parser.expectMark_follows _).bind fun _ => Follows.pure

theorem Declared.requireNames_follows (declared : Declared) :
    Follows declared.requireNames declared.requireNames := by
  unfold requireNames
  induction declared.params with
  | nil => exact Follows.pure
  | cons param params ih =>
      exact (Follows.ite Follows.fail Follows.pure).bind fun _ => ih

theorem Declared.opensBody_follows (isFirst : Bool) :
    Follows (opensBody isFirst) (opensBody isFirst) :=
  Follows.ite (Parser.currentIsMark_follows _) Follows.pure

namespace VarDecl

theorem parseRest_follows (declared : Declared) (storageClass : Option StorageClass) :
    Follows (parseRest declared storageClass) (parseRest declared storageClass) := by
  have made (init : Option Initializer) : Follows (do
      pure (⟨← Parser.newLoc declared.span, declared.name, declared.type, storageClass, init⟩ :
        VarDecl)) (do
      pure (⟨← Parser.newLoc declared.span, declared.name, declared.type, storageClass, init⟩ :
        VarDecl)) :=
    (Parser.newLoc_follows _).bind fun _ => Follows.pure
  unfold parseRest
  refine (Parser.accept_follows _).bind fun _ => ?_
  split
  · exact Initializer.parse_follows.bind fun init => made (some init)
  · exact made none

theorem declaratorRound_follows (specifiers : Specifiers) (fuel fuel' : Nat) (start : Unit) :
    Follows (declaratorRound specifiers fuel start) (declaratorRound specifiers fuel' start) := by
  unfold declaratorRound
  refine Declarator.parse_follows.bind fun declarator => ?_
  refine (declarator.declare_follows _).bind fun declared => Follows.ite Follows.fail_bind ?_
  refine (parseRest_follows _ _).bind fun decl => ?_
  refine (Parser.accept_follows _).bind fun _ => Follows.ite Follows.pure ?_
  exact (Parser.expectMark_follows _).bind fun _ => Follows.pure

theorem parseListWith_follows (specifiers : Specifiers) : ∀ {fuel fuel' : Nat}, fuel ≤ fuel' →
    Follows (parseListWith specifiers fuel) (parseListWith specifiers fuel')
  | 0, _, _ => Follows.outOfFuel
  | _ + 1, 0, enough => absurd enough (Nat.not_succ_le_zero _)
  | fuel + 1, fuel' + 1, enough => by
      rw [parseListWith_round specifiers fuel (), parseListWith_round specifiers fuel' ()]
      refine (declaratorRound_follows specifiers fuel fuel' ()).bind fun step => ?_
      exact step.rest_follows fun _ =>
        parseListWith_follows specifiers (Nat.le_of_succ_le_succ enough)

end VarDecl

theorem ForInit.parse_follows : Follows parse parse := by
  unfold parse
  refine Parser.current_follows.bind fun token => Follows.ite ?_ ?_
  · refine (Specifiers.parse_follows true).bind fun specifiers => ?_
    refine Follows.fuel_bind fun enough => ?_
    refine (VarDecl.parseListWith_follows specifiers enough).bind fun decls => ?_
    exact (Parser.newLoc_follows _).bind fun _ => Follows.pure
  · refine (Expr.parseUnless_follows _).bind fun value => ?_
    refine (Parser.expectMark_follows _).bind fun _ => ?_
    exact (Parser.newLoc_follows _).bind fun _ => Follows.pure

theorem Item.round_follows {fuel fuel' : Nat}
    (decls : ∀ specifiers, Follows (Decl.parseDeclarators fuel specifiers true)
      (Decl.parseDeclarators fuel' specifiers true))
    (stmt : Follows (Stmt.parseWith fuel) (Stmt.parseWith fuel')) (start : Unit) :
    Follows (round fuel start) (round fuel' start) := by
  unfold round
  refine Parser.current_follows.bind fun token => Follows.ite Follows.pure ?_
  refine Follows.ite Follows.fail (Follows.ite ?_ ?_)
  · refine (Specifiers.parse_follows true).bind fun specifiers => ?_
    exact (decls specifiers).bind fun _ => Follows.pure
  · exact stmt.bind fun _ => Follows.pure

mutual

theorem Decl.parseDeclarators_follows : ∀ {fuel fuel' : Nat}, fuel ≤ fuel' →
    ∀ specifiers isFirst, Follows (Decl.parseDeclarators fuel specifiers isFirst)
      (Decl.parseDeclarators fuel' specifiers isFirst)
  | 0, _, _, _, _ => by
      rw [Decl.parseDeclarators]
      exact Follows.outOfFuel
  | _ + 1, 0, enough, _, _ => absurd enough (Nat.not_succ_le_zero _)
  | fuel + 1, fuel' + 1, enough, specifiers, isFirst => by
      have enough := Nat.le_of_succ_le_succ enough
      simp only [Decl.parseDeclarators]
      refine Declarator.parse_follows.bind fun declarator => ?_
      refine (declarator.declare_follows _).bind fun declared => ?_
      split
      · refine (Declared.opensBody_follows isFirst).bind fun _ => Follows.ite ?_ ?_
        · refine declared.requireNames_follows.bind fun _ => ?_
          refine (Stmt.parseBlock_follows enough).bind fun block => ?_
          exact (Parser.newLoc_follows _).bind fun _ => Follows.pure
        · refine (Parser.newLoc_follows _).bind fun loc => ?_
          exact Decl.parseMore_follows enough specifiers _
      · refine (VarDecl.parseRest_follows _ _).bind fun decl => ?_
        exact Decl.parseMore_follows enough specifiers _

theorem Decl.parseMore_follows : ∀ {fuel fuel' : Nat}, fuel ≤ fuel' → ∀ specifiers decl,
    Follows (Decl.parseMore fuel specifiers decl) (Decl.parseMore fuel' specifiers decl)
  | 0, _, _, _, _ => by
      rw [Decl.parseMore]
      exact Follows.outOfFuel
  | _ + 1, 0, enough, _, _ => absurd enough (Nat.not_succ_le_zero _)
  | fuel + 1, fuel' + 1, enough, specifiers, decl => by
      simp only [Decl.parseMore]
      refine (Parser.accept_follows _).bind fun _ => Follows.ite ?_ ?_
      · exact (Decl.parseDeclarators_follows (Nat.le_of_succ_le_succ enough) specifiers false).bind
          fun _ => Follows.pure
      · exact (Parser.expectMark_follows _).bind fun _ => Follows.pure

theorem Stmt.parseBlock_follows : ∀ {fuel fuel' : Nat}, fuel ≤ fuel' →
    Follows (Stmt.parseBlock fuel) (Stmt.parseBlock fuel')
  | 0, _, _ => by
      rw [Stmt.parseBlock]
      exact Follows.outOfFuel
  | _ + 1, 0, enough => absurd enough (Nat.not_succ_le_zero _)
  | fuel + 1, fuel' + 1, enough => by
      simp only [Stmt.parseBlock]
      refine (Parser.expectMark_follows _).bind fun brace => ?_
      refine (Item.parseList_follows (Nat.le_of_succ_le_succ enough)).bind fun items => ?_
      refine Parser.skip_follows.bind fun _ => ?_
      exact (Parser.newLoc_follows _).bind fun _ => Follows.pure

theorem Item.parseList_follows : ∀ {fuel fuel' : Nat}, fuel ≤ fuel' →
    Follows (Item.parseList fuel) (Item.parseList fuel')
  | 0, _, _ => by
      rw [Item.parseList]
      exact Follows.outOfFuel
  | _ + 1, 0, enough => absurd enough (Nat.not_succ_le_zero _)
  | fuel + 1, fuel' + 1, enough => by
      have enough := Nat.le_of_succ_le_succ enough
      rw [Item.parseList_round fuel (), Item.parseList_round fuel' ()]
      refine (Item.round_follows (fun specifiers =>
        Decl.parseDeclarators_follows enough specifiers true)
        (Stmt.parseWith_follows enough) ()).bind fun step => ?_
      exact step.rest_follows fun _ => Item.parseList_follows enough

theorem Stmt.parseWith_follows : ∀ {fuel fuel' : Nat}, fuel ≤ fuel' →
    Follows (Stmt.parseWith fuel) (Stmt.parseWith fuel')
  | 0, _, _ => by
      rw [Stmt.parseWith]
      exact Follows.outOfFuel
  | _ + 1, 0, enough => absurd enough (Nat.not_succ_le_zero _)
  | fuel + 1, fuel' + 1, enough => by
      have enough := Nat.le_of_succ_le_succ enough
      have build (span : Span) (make : Loc → Stmt) : Follows
          (do pure (make (← Parser.newLoc span))) (do pure (make (← Parser.newLoc span))) :=
        (Parser.newLoc_follows span).bind fun _ => Follows.pure
      have jump (span : Span) (make : Loc → Stmt) : Follows (do
          Parser.skip
          let _ ← Parser.expectMark .semicolon
          pure (make (← Parser.newLoc span))) (do
          Parser.skip
          let _ ← Parser.expectMark .semicolon
          pure (make (← Parser.newLoc span))) :=
        Parser.skip_follows.bind fun _ => (Parser.expectMark_follows _).bind fun _ => build span make
      have nested (span : Span) (make : Stmt → Loc → Stmt) : Follows (do
          let body ← Stmt.parseWith fuel
          pure (make body (← Parser.newLoc span))) (do
          let body ← Stmt.parseWith fuel'
          pure (make body (← Parser.newLoc span))) :=
        (Stmt.parseWith_follows enough).bind fun body => build span (make body)
      simp only [Stmt.parseWith]
      refine Parser.current_follows.bind fun token => ?_
      split
      -- return
      · refine Parser.skip_follows.bind fun _ => (Expr.parseUnless_follows _).bind fun value => ?_
        exact (Parser.expectMark_follows _).bind fun _ => build _ (.ret · value)
      -- if
      · refine Parser.skip_follows.bind fun _ => ?_
        refine Expr.parseParenthesized_follows.bind fun condition => ?_
        refine (Stmt.parseWith_follows enough).bind fun thenBranch => ?_
        refine (Parser.currentIs_follows _).bind fun _ => Follows.ite ?_ ?_
        · exact Parser.skip_follows.bind fun _ =>
            nested _ fun elseBranch loc => .ifElse loc condition thenBranch elseBranch
        · exact build _ (.ifThen · condition thenBranch)
      -- a block
      · exact (Stmt.parseBlock_follows enough).bind fun _ => Follows.pure
      -- while
      · refine Parser.skip_follows.bind fun _ => ?_
        refine Expr.parseParenthesized_follows.bind fun condition => ?_
        exact nested _ fun body loc => .whileLoop loc none condition body
      -- do
      · refine Parser.skip_follows.bind fun _ => (Stmt.parseWith_follows enough).bind fun body => ?_
        refine (Parser.expect_follows _).bind fun _ => ?_
        refine Expr.parseParenthesized_follows.bind fun condition => ?_
        exact (Parser.expectMark_follows _).bind fun _ => build _ (.doWhile · none body condition)
      -- for
      · refine Parser.skip_follows.bind fun _ => (Parser.expectMark_follows _).bind fun _ => ?_
        refine ForInit.parse_follows.bind fun init => ?_
        refine (Expr.parseUnless_follows _).bind fun condition => ?_
        refine (Parser.expectMark_follows _).bind fun _ => ?_
        refine (Expr.parseUnless_follows _).bind fun post => ?_
        refine (Parser.expectMark_follows _).bind fun _ => ?_
        exact nested _ fun body loc => .forLoop loc none init condition post body
      -- switch
      · refine Parser.skip_follows.bind fun _ => ?_
        refine Expr.parseParenthesized_follows.bind fun value => ?_
        exact nested _ fun body loc => .switch loc none value body []
      -- case
      · refine Parser.skip_follows.bind fun _ => Expr.parse_follows.bind fun value => ?_
        refine (Parser.expectMark_follows _).bind fun _ => ?_
        exact nested _ fun body loc => .case loc none value body
      -- default
      · refine Parser.skip_follows.bind fun _ => (Parser.expectMark_follows _).bind fun _ => ?_
        exact nested _ fun body loc => .default loc none body
      -- break
      · exact jump _ (.break · none)
      -- continue
      · exact jump _ (.continue · none)
      -- a semicolon
      · exact Parser.skip_follows.bind fun _ => build _ .null
      -- an expression
      · refine Follows.ite Follows.fail_bind (Expr.parse_follows.bind fun value => ?_)
        exact (Parser.expectMark_follows _).bind fun _ => build _ (.expr · value)

end

/-- A comma or a semicolon behind a declarator. -/
theorem Decl.separator_follows (decl : Decl) : Follows (separator decl) (separator decl) :=
  (Parser.accept_follows _).bind fun _ =>
    Follows.ite Follows.pure ((Parser.expectMark_follows _).bind fun _ => Follows.pure)

theorem Decl.declaratorRound_follows (specifiers : Specifiers) {fuel fuel' : Nat}
    (enough : fuel ≤ fuel') (isFirst : Bool) :
    Follows (declaratorRound specifiers fuel isFirst) (declaratorRound specifiers fuel' isFirst) := by
  unfold declaratorRound
  refine Declarator.parse_follows.bind fun declarator => ?_
  refine (declarator.declare_follows _).bind fun declared => ?_
  split
  · refine (Declared.opensBody_follows isFirst).bind fun _ => Follows.ite ?_ ?_
    · refine declared.requireNames_follows.bind fun _ => ?_
      refine (Stmt.parseBlock_follows (Nat.succ_le_succ enough)).bind fun _ => ?_
      exact (Parser.newLoc_follows _).bind fun _ => Follows.pure
    · exact (Parser.newLoc_follows _).bind fun _ => separator_follows _
  · exact (VarDecl.parseRest_follows _ _).bind fun _ => separator_follows _

theorem Decl.parse_follows : Follows parse parse := by
  unfold parse
  refine (Specifiers.parse_follows true).bind fun specifiers => ?_
  exact Follows.fuel_bind fun enough => parseDeclarators_follows enough specifiers true

/-! ### Compilation units -/

namespace Program

theorem declarationRound_follows (fuel fuel' : Nat) (start : Unit) :
    Follows (declarationRound fuel start) (declarationRound fuel' start) := by
  unfold declarationRound
  refine (Parser.currentIs_follows _).bind fun _ => Follows.ite Follows.pure ?_
  exact Decl.parse_follows.bind fun _ => Follows.pure

theorem parseWith_follows : ∀ {fuel fuel' : Nat}, fuel ≤ fuel' →
    Follows (parseWith fuel) (parseWith fuel')
  | 0, _, _ => Follows.outOfFuel
  | _ + 1, 0, enough => absurd enough (Nat.not_succ_le_zero _)
  | fuel + 1, fuel' + 1, enough => by
      rw [parseWith_round fuel (), parseWith_round fuel' ()]
      refine (declarationRound_follows fuel fuel' ()).bind fun step => ?_
      exact step.rest_follows fun _ => parseWith_follows (Nat.le_of_succ_le_succ enough)

theorem parseAll_follows : Follows parseAll parseAll :=
  Follows.fuel_bind fun enough => parseWith_follows enough

end Program

/-! ### Whole inputs -/

namespace Lexer

/-- No token of a source is its end, and its end is none of its tokens. -/
theorem lexFrom_isLexed (cursor : Cursor) (lastId : Nat) :
    ParseState.IsLexed ⟨(lexFrom cursor).tokens, (lexFrom cursor).ending, lastId⟩ := by
  fun_induction lexFrom cursor with
  | case1 cursor token next reads shorter lexed ih =>
      rcases Cursor.exists_of_read_token reads with ⟨lead, rest, lexeme, -, found, -, rfl⟩
      exact ⟨List.forall_mem_cons.2 ⟨(fits_of_lexeme? found).kind, ih.tokens⟩, ih.ending⟩
  | case2 cursor token next reads =>
      rcases Cursor.rest_of_read_endOfInput reads with ⟨-, rfl⟩
      refine ⟨by simp, fun token isEnding => .inl ?_⟩
      cases isEnding
      rfl
  | case3 => exact ⟨by simp, by simp⟩

theorem lex_isLexed (source : Text) :
    ParseState.IsLexed ⟨(lex source).tokens, (lex source).ending, 0⟩ :=
  lexFrom_isLexed (.start source) 0

end Lexer

namespace StreamState

/-- A stream over a source shows all that the source is lexed to. -/
theorem shows_ofSource (source : Text) :
    Shows ⟨.ofSource source, 0⟩ ⟨(lex source).tokens, (lex source).ending, 0⟩ where
  shows := rfl
  lastId := rfl
  repeats := nofun
  stock := Nat.le_add_left _ _
  isLexed := lex_isLexed source

/-- A stream over tokens shows them and repeats the last of them. -/
theorem shows_ofTokens {tokens : List Token} {last : Token}
    (isLexed : ParseState.IsLexed ⟨tokens, .ok last, 0⟩) :
    Shows ⟨.ofTokens (tokens ++ [last]), 0⟩ ⟨tokens, .ok last, 0⟩ where
  shows := TokenStream.shows_ofTokens tokens last
  lastId := rfl
  repeats := fun _ => ⟨last, by simp [TokenStream.ofTokens], isLexed.ending last rfl⟩
  stock := by simp [TokenStream.ofTokens, TokenStream.stock]
  isLexed := isLexed

end StreamState

namespace Program

variable {stream : TokenStream} {lexed : Lexed}

/-- A compilation unit is parsed from a stream as it is from the list that the stream shows. -/
theorem ofStream_eq_ofLexed
    (shows : StreamState.Shows ⟨stream, 0⟩ ⟨lexed.tokens, lexed.ending, 0⟩) :
    ofStream stream = ofLexed lexed := by
  have follows := parseAll_follows shows
  have moves := parseAll_moves ⟨lexed.tokens, lexed.ending, 0⟩ shows.isLexed
  unfold ofStream ofLexed
  cases runs : parseAll.run (⟨lexed.tokens, lexed.ending, 0⟩ : ParseState) with
  | error failure =>
      rw [runs] at follows
      have fails := follows.resolve_left ?_
      · rw [fails]
        rfl
      · rintro rfl
        rcases moves.of_error runs with ⟨_, _, same⟩ | ⟨_, _, same⟩ <;> cases same
  | ok result =>
      rw [runs] at follows
      rcases follows with ⟨state, runs', shows'⟩
      rw [runs']
      change Except.ok (result.1, state.lastId) = .ok (result.1, result.2.lastId)
      rw [shows'.lastId]

/-- A parser that lexes a source as it goes gives what one over all of its tokens does. -/
theorem parse_eq_ofLexed (source : Text) : parse source = ofLexed (lex source) :=
  ofStream_eq_ofLexed (StreamState.shows_ofSource source)

/-- A parser over a stream of tokens that is padded with the last of them gives what one over the
tokens does. -/
theorem ofStream_ofTokens {tokens : List Token} {last : Token}
    (isLexed : ParseState.IsLexed ⟨tokens, .ok last, 0⟩) :
    ofStream (.ofTokens (tokens ++ [last])) = ofLexed ⟨tokens, .ok last⟩ :=
  ofStream_eq_ofLexed (StreamState.shows_ofTokens isLexed)

end Program

end SubsetC
