import SubsetC.Proofs.ParserRounds
import SubsetC.Proofs.TokenLists
import SubsetC.Proofs.Outcome

/-!
# Consumed tokens

A parser that succeeds consumes tokens from the front, and only tokens that the lexer accepts: an
illegal token is reported where the parser comes to it, and no parser steps over one. A parser that
fails reports a syntax error or the overrun that replaces the end of the input. It never runs out
of fuel: whatever goes deeper has consumed a token or stands at one of a few levels that do not, so
eight steps for each token and a few more are enough.

`Parser.Moves` carries this through the parsers. The main statement is `Program.parseWith_moves`: a
parsed compilation unit consumes all tokens.
-/

namespace SubsetC

namespace ParseState

/-- Only the end of the input is of the kind for it. -/
structure IsLexed (state : ParseState) : Prop where
  /-- No token before the end is. -/
  tokens : ∀ token ∈ state.tokens, token.kind ≠ .endOfInput
  /-- The end is, unless an illegal token or an overrun replaces it. -/
  ending : ∀ token, state.ending = .ok token → token.kind = .endOfInput ∨ token.kind = .illegal

/-- A later state, with tokens in between that the lexer accepts. -/
def Reaches (state after : ParseState) : Prop :=
  after.ending = state.ending ∧
    ∃ front, state.tokens = front ++ after.tokens ∧ ∀ token ∈ front, token.kind ≠ .illegal

/-- What a parser may fail with. -/
def MayFail (state : ParseState) (failure : Failure) : Prop :=
  (∃ span error, failure = .user span (.syntactic error)) ∨
    ∃ overrun, state.ending = .error overrun ∧ failure = .fault (.overrun overrun.length)

/-- The current token, which the lexer accepts: the end of the input or a token in front of it. -/
def StandsAt (state : ParseState) (token : Token) : Prop :=
  token.kind ≠ .illegal ∧
    if token.kind = .endOfInput then state.tokens = [] ∧ state.ending = .ok token
    else ∃ rest, state.tokens = token :: rest

variable {state middle after : ParseState}

/-- No string literal is at the end of the input. -/
theorem IsLexed.ending_ne_string (isLexed : state.IsLexed) (token : Token)
    (isEnding : state.ending = .ok token) : token.kind ≠ .string := by
  rcases isLexed.ending token isEnding with kind | kind <;> simp [kind]

theorem Reaches.refl (state : ParseState) : state.Reaches state :=
  ⟨rfl, [], rfl, by simp⟩

theorem Reaches.trans (first : state.Reaches middle) (second : middle.Reaches after) :
    state.Reaches after := by
  rcases first with ⟨sameEnding, front, split, legal⟩
  rcases second with ⟨sameEnding', back, split', legal'⟩
  refine ⟨sameEnding'.trans sameEnding, front ++ back, ?_, ?_⟩
  · rw [split, split', List.append_assoc]
  · exact List.forall_mem_append.2 ⟨legal, legal'⟩

theorem Reaches.length_le (reaches : state.Reaches after) :
    after.tokens.length ≤ state.tokens.length := by
  rcases reaches with ⟨-, front, split, -⟩
  rw [split, List.length_append]
  exact Nat.le_add_left _ _

theorem Reaches.isLexed (reaches : state.Reaches after) (isLexed : state.IsLexed) :
    after.IsLexed := by
  rcases reaches with ⟨sameEnding, front, split, -⟩
  refine ⟨fun token isIn => isLexed.tokens token ?_, fun token isEnding => isLexed.ending token ?_⟩
  · rw [split]
    exact List.mem_append_right front isIn
  · rw [← sameEnding, isEnding]

theorem Reaches.mayFail (reaches : state.Reaches after) {failure : Failure}
    (mayFail : after.MayFail failure) : state.MayFail failure := by
  rw [MayFail, reaches.1] at mayFail
  exact mayFail

theorem StandsAt.exists_rest {token : Token} (stands : state.StandsAt token)
    (notEnd : token.kind ≠ .endOfInput) : ∃ rest, state.tokens = token :: rest := by
  rcases stands with ⟨-, place⟩
  rwa [if_neg notEnd] at place

theorem StandsAt.ending_eq {token : Token} (stands : state.StandsAt token)
    (isEnd : token.kind = .endOfInput) : state.tokens = [] ∧ state.ending = .ok token := by
  rcases stands with ⟨-, place⟩
  rwa [if_pos isEnd] at place

/-- There is one current token. -/
theorem StandsAt.unique {token other : Token} (stands : state.StandsAt token)
    (stands' : state.StandsAt other) : token = other := by
  rcases stands with ⟨-, place⟩
  rcases stands' with ⟨-, place'⟩
  split at place <;> split at place'
  · cases place.2.symm.trans place'.2
    rfl
  · rcases place' with ⟨rest, split⟩
    cases place.1.symm.trans split
  · rcases place with ⟨rest, split⟩
    cases place'.1.symm.trans split
  · rcases place with ⟨rest, split⟩
    rcases place' with ⟨rest', split'⟩
    cases split.symm.trans split'
    rfl

end ParseState

namespace Parser

variable {α β : Type} {state : ParseState} {bound : Nat}

/-- From lexed tokens, a parser fails only as it may, or consumes tokens that the lexer accepts and
ends as wanted. -/
def Moves (parser : Parser ParseState α) (state : ParseState) (wanted : α → ParseState → Prop) :
    Prop :=
  state.IsLexed → Ensures parser state state.MayFail fun result after =>
    state.Reaches after ∧ wanted result after

/-- A parser leaves fewer tokens than a bound. -/
abbrev Leaves (parser : Parser ParseState α) (state : ParseState) (bound : Nat) : Prop :=
  parser.Moves state fun _ after => after.tokens.length < bound

/-- A parser looks at tokens and consumes none. -/
abbrev Peeks (parser : Parser ParseState α) (state : ParseState) (wanted : α → Prop) : Prop :=
  parser.Moves state fun result after => after = state ∧ wanted result

section Rules

variable {parser : Parser ParseState α} {next : α → Parser ParseState β}
  {middle wanted : α → ParseState → Prop}
  {final : β → ParseState → Prop}

theorem Moves.mono {wanted' : α → ParseState → Prop} (moves : parser.Moves state wanted)
    (weaken : ∀ result after, wanted result after → wanted' result after) :
    parser.Moves state wanted' :=
  fun isLexed => (moves isLexed).mono fun result after holds =>
    ⟨holds.1, weaken result after holds.2⟩

theorem Moves.pure {result : α} (holds : wanted result state) :
    Moves (Pure.pure result : Parser ParseState α) state wanted :=
  fun _ => Ensures.pure ⟨.refl state, holds⟩

theorem Moves.bind (first : parser.Moves state middle)
    (rest : ∀ result after, middle result after → (next result).Moves after final) :
    Moves (parser >>= next) state final := by
  intro isLexed
  refine (first isLexed).bind ?_
  rintro result after ⟨reaches, holds⟩
  refine ((rest result after holds (reaches.isLexed isLexed)).mono ?_).allow ?_
  · rintro _ _ ⟨reaches', holds⟩
    exact ⟨reaches.trans reaches', holds⟩
  · intro failure mayFail
    exact reaches.mayFail mayFail

theorem Moves.fail {span : Span} {error : SyntaxError} :
    Moves (fail span error : Parser ParseState α) state wanted :=
  fun _ => Ensures.throw (.inl ⟨span, error, rfl⟩)

theorem Moves.fail_bind {span : Span} {error : SyntaxError} :
    Moves (Parser.fail span error >>= next) state final :=
  fun _ => Ensures.throw (.inl ⟨span, error, rfl⟩)

theorem Moves.ite {condition : Prop} [Decidable condition] {whenTrue whenFalse : Parser ParseState α}
    (isTrue : condition → whenTrue.Moves state wanted)
    (isFalse : ¬condition → whenFalse.Moves state wanted) :
    Moves (if condition then whenTrue else whenFalse) state wanted := by
  split
  · exact isTrue ‹_›
  · exact isFalse ‹_›

theorem Peeks.pure {result : α} {seen : α → Prop} (holds : seen result) :
    Peeks (Pure.pure result : Parser ParseState α) state seen :=
  Moves.pure ⟨rfl, holds⟩

/-- What is done behind a look at the tokens. -/
theorem Peeks.bind {seen : α → Prop} (first : parser.Peeks state seen)
    (rest : ∀ result, seen result → (next result).Moves state final) :
    Moves (parser >>= next) state final := by
  refine Moves.bind first ?_
  rintro result _ ⟨rfl, holds⟩
  exact rest result holds

end Rules

/-! ### Rounds of loops -/

section Rounds

variable {loop : α → Parser ParseState β} {round : Parser ParseState (Round α β)}

/-- A round of a loop takes tokens, unless it is the last one. -/
abbrev Advances (round : Parser ParseState (Round α β)) (state : ParseState) : Prop :=
  round.Moves state fun step after => after.tokens.length ≤ state.tokens.length ∧
    (step.GoesOn → after.tokens.length < state.tokens.length)

theorem Advances.done {result : β} :
    Advances (pure (.done result) : Parser ParseState (Round α β)) state :=
  Moves.pure ⟨Nat.le_refl _, fun goesOn => absurd goesOn id⟩

/-- A round that takes tokens at any rate. -/
theorem Leaves.advances (leaves : round.Leaves state state.tokens.length) : round.Advances state :=
  leaves.mono fun _ _ shorter => ⟨Nat.le_of_lt shorter, fun _ => shorter⟩

theorem Leaves.rest {step : Round α β} (ends : ¬step.GoesOn → state.tokens.length < bound)
    (goesOn : step.GoesOn → ∀ next, (loop next).Leaves state bound) :
    (step.rest loop).Leaves state bound := by
  cases step with
  | done result => exact Moves.pure (ends id)
  | again next build => exact (goesOn trivial next).bind fun _ _ shorter => Moves.pure shorter

/-- A loop leaves what its last round leaves. -/
theorem Advances.bind_rest (advances : round.Advances state) (fits : state.tokens.length < bound)
    (goesOn : ∀ next {after : ParseState}, after.tokens.length < state.tokens.length →
      (loop next).Leaves after bound) :
    Leaves (do (← round).rest loop) state bound :=
  Moves.bind advances fun _ _ ⟨le, shorter⟩ =>
    Leaves.rest (fun _ => Nat.lt_of_le_of_lt le fits) fun more next => goesOn next (shorter more)

/-- Rounds that take tokens at any rate need not leave as many as the bound. -/
theorem Leaves.bind_rest (leaves : round.Leaves state state.tokens.length)
    (fits : state.tokens.length ≤ bound)
    (goesOn : ∀ next {after : ParseState}, after.tokens.length < state.tokens.length →
      (loop next).Leaves after bound) :
    Leaves (do (← round).rest loop) state bound :=
  Moves.bind leaves fun _ _ shorter =>
    Leaves.rest (fun _ => Nat.lt_of_lt_of_le shorter fits) fun _ next => goesOn next shorter

end Rounds

/-! ### Primitives -/

theorem get_peeks : Peeks get state (· = state) :=
  fun _ => ⟨.refl state, rfl, rfl⟩

theorem fuel_peeks : fuel.Peeks state (· = 8 * (state.tokens.length + 2)) :=
  fun _ => ⟨.refl state, rfl, rfl⟩

theorem newLoc_leaves {span : Span} (fits : state.tokens.length < bound) :
    (newLoc span).Leaves state bound :=
  fun _ => ⟨⟨rfl, [], rfl, by simp⟩, fits⟩

theorem newNote_leaves {span : Span} (fits : state.tokens.length < bound) :
    (newNote span).Leaves state bound :=
  (newLoc_leaves fits).bind fun _ _ shorter => Moves.pure shorter

/-- A node that is built last takes no tokens. -/
theorem located_leaves {span : Span} (build : Loc → α) (fits : state.tokens.length < bound) :
    Leaves (do pure (build (← newLoc span))) state bound :=
  (newLoc_leaves fits).bind fun _ _ shorter => Moves.pure shorter

/-- An expression that is built last takes no tokens. -/
theorem noted_leaves {span : Span} (build : Note → α) (fits : state.tokens.length < bound) :
    Leaves (do pure (build (← newNote span))) state bound :=
  (newNote_leaves fits).bind fun _ _ shorter => Moves.pure shorter

theorem ending_peeks : (ending state).Peeks state fun token =>
    (token.kind = .endOfInput ∨ token.kind = .illegal) ∧ state.ending = .ok token := by
  intro isLexed
  unfold Parser.ending
  split
  · rename_i token same
    exact ⟨.refl state, rfl, isLexed.ending token same, same⟩
  · rename_i overrun same
    exact Ensures.throw (.inr ⟨overrun, same, rfl⟩)

/-- The token at a place, or what stands at the end of the input. -/
theorem peekAt_peeks (place : Nat) : Peeks (TokenSource.peekAt place) state fun token =>
    state.tokens[place]? = some token ∨ state.tokens[place]? = none ∧
      (token.kind = .endOfInput ∨ token.kind = .illegal) ∧ state.ending = .ok token := by
  refine get_peeks.bind ?_
  rintro _ rfl
  split
  · rename_i token found
    exact Peeks.pure (.inl found)
  · rename_i none
    exact ending_peeks.mono fun token _ ⟨same, isEnding⟩ => ⟨same, .inr ⟨none, isEnding⟩⟩

theorem current_peeks : current.Peeks state state.StandsAt := by
  intro isLexed
  unfold current
  refine (peekAt_peeks 0).bind ?_ isLexed
  intro token place
  refine Moves.ite (fun _ => Moves.fail_bind) fun legal => Peeks.pure ⟨legal, ?_⟩
  rcases place with found | ⟨none, isEnd, isEnding⟩
  · rw [← List.head?_eq_getElem?] at found
    rcases List.head?_eq_some_iff.1 found with ⟨rest, same⟩
    rw [if_neg (isLexed.tokens token (by simp [same]))]
    exact ⟨rest, same⟩
  · rw [← List.head?_eq_getElem?, List.head?_eq_none_iff] at none
    rw [if_pos (isEnd.resolve_right legal)]
    exact ⟨none, isEnding⟩

/-- The second token, or what stands at the end of the input. -/
theorem following_peeks : following.Peeks state fun token =>
    (token.kind = .endOfInput ∨ token.kind = .illegal) ∨
      ∃ first rest, state.tokens = first :: token :: rest := by
  unfold following
  refine current_peeks.bind ?_
  intro _ _
  refine (peekAt_peeks 1).mono ?_
  rintro token _ ⟨same, found | ⟨-, isEnd, -⟩⟩
  · refine ⟨same, .inr ?_⟩
    rcases split : state.tokens with _ | ⟨first, _ | ⟨second, rest⟩⟩
    all_goals
      rw [split] at found
      cases found
    exact ⟨first, rest, rfl⟩
  · exact ⟨same, .inl isEnd⟩

theorem currentIs_peeks (kind : TokenKind) : (currentIs kind).Peeks state fun found =>
    found = true → ∃ token, state.StandsAt token ∧ token.kind = kind := by
  unfold currentIs
  refine current_peeks.bind ?_
  intro token stands
  exact Peeks.pure fun isKind => ⟨token, stands, of_decide_eq_true isKind⟩

theorem currentIsMark_peeks (mark : Punctuator) : (currentIsMark mark).Peeks state fun found =>
    found = true → ∃ token, state.StandsAt token ∧ token.kind = .punctuator mark :=
  currentIs_peeks _

/-- A test that looks ahead finds two tokens, unless it accepts what stands at the end. -/
theorem currentIsBefore_peeks (kind : TokenKind) (test : TokenKind → Bool) :
    (currentIsBefore kind test).Peeks state fun found => found = true →
      ∃ token, state.StandsAt token ∧ token.kind = kind ∧
        (test .endOfInput = true ∨ test .illegal = true ∨
          ∃ first next rest, state.tokens = first :: next :: rest ∧ test next.kind = true) := by
  unfold currentIsBefore
  refine (currentIs_peeks kind).bind ?_
  intro found isKind
  refine Moves.ite ?_ fun _ => Peeks.pure nofun
  intro isFound
  rcases isKind isFound with ⟨token, stands, sameKind⟩
  refine following_peeks.bind ?_
  intro next isSecond
  refine Peeks.pure fun passes => ⟨token, stands, sameKind, ?_⟩
  rcases isSecond with (isEnd | isIllegal) | ⟨first, rest, split⟩
  · exact .inl (isEnd ▸ passes)
  · exact .inr (.inl (isIllegal ▸ passes))
  · exact .inr (.inr ⟨first, next, rest, split, passes⟩)

/-- A current token that the lexer accepts is consumed. -/
theorem skip_moves {token : Token} {rest : List Token} (split : state.tokens = token :: rest)
    (legal : token.kind ≠ .illegal) : skip.Moves state fun _ after => after.tokens = rest := by
  unfold skip
  refine current_peeks.bind ?_
  intro _ _ _
  have left : state.tokens.tail = rest := by rw [split, List.tail_cons]
  have reaches : state.Reaches { state with tokens := state.tokens.tail } :=
    ⟨rfl, [token], by simp [split], by simpa using legal⟩
  exact ⟨reaches, left⟩

/-- The current token is consumed. -/
theorem skip_leaves {token : Token} (stands : state.StandsAt token)
    (notEnd : token.kind ≠ .endOfInput) (fits : state.tokens.length ≤ bound) :
    skip.Leaves state bound := by
  rcases stands.exists_rest notEnd with ⟨rest, same⟩
  rw [same, List.length_cons] at fits
  refine (skip_moves same stands.1).mono ?_
  intro _ after left
  rw [left]
  exact fits

theorem accept_moves (mark : Punctuator) : (accept mark).Moves state fun accepted after =>
    after.tokens.length ≤ state.tokens.length ∧
      (accepted = true → after.tokens.length < state.tokens.length) := by
  unfold accept
  refine (currentIsMark_peeks mark).bind ?_
  intro found isMark
  refine Moves.ite ?_ ?_
  · intro isFound
    rcases isMark isFound with ⟨token, stands, kind⟩
    refine (skip_leaves stands (by simp [kind]) (Nat.le_refl _)).bind ?_
    intro _ after shorter
    exact Moves.pure ⟨Nat.le_of_lt shorter, fun _ => shorter⟩
  · intro _
    exact Moves.pure ⟨Nat.le_refl _, nofun⟩

theorem expect_leaves {kind : TokenKind} (notEnd : kind ≠ .endOfInput)
    (fits : state.tokens.length ≤ bound) : (expect kind).Leaves state bound := by
  unfold expect
  refine current_peeks.bind ?_
  intro token stands
  refine Moves.ite (fun _ => Moves.fail_bind) ?_
  intro isKind
  rw [Decidable.not_not] at isKind
  exact (skip_leaves stands (isKind ▸ notEnd) fits).bind fun _ _ shorter => Moves.pure shorter

theorem expectMark_leaves {mark : Punctuator} (fits : state.tokens.length ≤ bound) :
    (expectMark mark).Leaves state bound :=
  expect_leaves nofun fits

end Parser

open SubsetC.Parser (Moves Peeks Leaves Advances)

variable {state : ParseState} {bound : Nat}

/-! ### Specifiers -/

namespace Specifiers

theorem note_peeks (storageAllowed : Bool) (seen : Seen) (span : Span) (keyword : Keyword) :
    (note storageAllowed seen span keyword).Peeks state fun found =>
      found.1.length ≤ seen.1.length + 1 := by
  unfold note
  repeat' split
  all_goals first
    | exact Moves.fail
    | exact Peeks.pure (Nat.le_refl _)
    | exact Peeks.pure (Nat.le_succ _)

/-- A keyword that is found is a token that is consumed. -/
theorem round_moves (storageAllowed : Bool) (fuel : Nat) (seen : Seen) :
    (round storageAllowed fuel seen).Moves state fun step after =>
      (∀ found, step = .done found → found = seen ∧ after = state) ∧
        ∀ next build, step = .again next build → build = id ∧
          next.1.length ≤ seen.1.length + 1 ∧ after.tokens.length < state.tokens.length := by
  have ends : Moves (pure (.done seen) : Parser ParseState (Parser.Round Seen Seen)) state
      fun step after => (∀ found, step = .done found → found = seen ∧ after = state) ∧
        ∀ next build, step = .again next build → build = id ∧
          next.1.length ≤ seen.1.length + 1 ∧ after.tokens.length < state.tokens.length := by
    refine Moves.pure ⟨fun found same => ?_, fun _ _ same => ?_⟩
    · cases same
      exact ⟨rfl, rfl⟩
    · cases same
  refine Parser.current_peeks.bind ?_
  intro token stands
  split
  · rename_i keyword isKeyword
    refine Moves.ite ?_ fun _ => ends
    intro _
    refine (Parser.skip_leaves stands (by simp [isKeyword]) (Nat.le_refl _)).bind ?_
    intro _ after shorter
    refine (note_peeks storageAllowed seen token.span keyword).bind ?_
    intro found counted
    refine Moves.pure ⟨fun _ same => ?_, fun _ _ same => ?_⟩
    · cases same
    · cases same
      exact ⟨rfl, counted, shorter⟩
  · exact ends

/-- Each keyword that is found is a token that is consumed. -/
theorem collect_moves (storageAllowed : Bool) : ∀ (fuel : Nat) {state : ParseState} (seen : Seen),
    1 + 8 * state.tokens.length ≤ fuel →
      (collect storageAllowed fuel seen).Moves state fun found after =>
        found.1.length + after.tokens.length ≤ seen.1.length + state.tokens.length
  | 0, _, _, enough => absurd enough (by omega)
  | fuel + 1, state, seen, enough => by
      rw [collect_round]
      refine (round_moves storageAllowed fuel seen).bind ?_
      rintro (found | ⟨next, build⟩) after ⟨ends, goesOn⟩
      · rcases ends found rfl with ⟨rfl, rfl⟩
        exact Moves.pure (Nat.le_refl _)
      · rcases goesOn next build rfl with ⟨rfl, counted, shorter⟩
        refine (collect_moves storageAllowed fuel next (by omega)).bind ?_
        intro found last counted'
        exact Moves.pure (by simp only [id_eq]; omega)

theorem parse_leaves (storageAllowed : Bool) (fits : state.tokens.length ≤ bound) :
    (parse storageAllowed).Leaves state bound := by
  unfold parse
  refine Parser.current_peeks.bind ?_
  intro start _
  refine Parser.fuel_peeks.bind ?_
  rintro _ rfl
  refine (collect_moves storageAllowed _ _ (by omega)).bind ?_
  intro seen after counted
  refine Moves.ite (fun _ => Moves.fail_bind) ?_
  intro nonempty
  have positive : 0 < seen.1.length := List.length_pos_iff.2 (by simpa using nonempty)
  dsimp only
  split
  · exact Moves.pure (by simp only [List.length_nil] at counted; omega)
  · exact Moves.fail

end Specifiers

/-! ### Declarators -/

namespace Declarator

theorem declare_peeks (declarator : Declarator) (base : CType) :
    (declarator.declare base).Peeks state fun _ => True := by
  unfold declare
  split
  · exact Peeks.pure trivial
  · exact Moves.fail

theorem dimension_leaves (fits : state.tokens.length ≤ bound) : dimension.Leaves state bound := by
  unfold dimension
  refine (Parser.expectMark_leaves (Nat.le_refl _)).bind ?_
  intro _ middle shorter
  refine Parser.current_peeks.bind ?_
  intro token stands
  have sized (size : Int) {after : ParseState}
      (shorter' : after.tokens.length < middle.tokens.length) : Leaves (do
        if size ≤ 0 then Parser.fail token.span .dimensionNotPositive
        let _ ← Parser.expectMark .rightBracket
        pure size) after bound := by
    refine Moves.ite (fun _ => Moves.fail_bind) ?_
    intro _
    refine (Parser.expectMark_leaves (Nat.le_refl _)).bind ?_
    intro _ last shorter''
    exact Moves.pure (by omega)
  dsimp only
  split
  · rename_i isInteger
    refine (Parser.skip_leaves stands (by simp [isInteger]) (Nat.le_refl _)).bind ?_
    intro _ after shorter'
    split
    · exact sized _ shorter'
    · exact Moves.fail_bind
  all_goals exact Moves.fail_bind

theorem opensParams_peeks (nameOptional : Bool) :
    (opensParams nameOptional).Peeks state fun opens => opens = true → nameOptional = true := by
  unfold opensParams
  refine Moves.ite ?_ fun _ => Peeks.pure nofun
  intro isOptional
  exact Parser.following_peeks.bind fun _ _ => Peeks.pure fun _ => isOptional

/-- The word void and the parenthesis behind it can be consumed. -/
theorem isVoidList_peeks : isVoidList.Peeks state fun found => found = true →
    ∃ word closing rest, state.tokens = word :: closing :: rest ∧ word.kind = .keyword .void ∧
      closing.kind = .punctuator .rightParen := by
  refine (Parser.currentIsBefore_peeks _ _).mono ?_
  rintro found _ ⟨same, finds⟩
  refine ⟨same, fun isFound => ?_⟩
  rcases finds isFound with ⟨word, stands, wordKind, isEnd | isIllegal | two⟩
  · cases isEnd
  · cases isIllegal
  · rcases two with ⟨first, closing, rest, split, isClosing⟩
    rcases stands.exists_rest (by simp [wordKind]) with ⟨more, split'⟩
    cases split'.symm.trans split
    exact ⟨word, closing, rest, split, wordKind, of_decide_eq_true isClosing⟩

/-- A dimension or a parameter list takes tokens. -/
theorem suffixRound_advances {fuel : Nat} (declarator : Declarator)
    (inner : (params fuel).Leaves state state.tokens.length) :
    (suffixRound fuel declarator).Advances state := by
  refine Parser.current_peeks.bind ?_
  intro token _
  split
  · refine Leaves.advances ((dimension_leaves (Nat.le_refl _)).bind ?_)
    exact fun _ _ shorter => Moves.pure shorter
  · exact Leaves.advances (inner.bind fun _ _ shorter => Moves.pure shorter)
  · exact Advances.done

theorem dimensionRound_advances (fuel : Nat) (declarator : Declarator) :
    (dimensionRound fuel declarator).Advances state := by
  refine (Parser.currentIsMark_peeks _).bind ?_
  intro isOpen _
  refine Moves.ite ?_ fun _ => Advances.done
  intro _
  refine Leaves.advances ((dimension_leaves (Nat.le_refl _)).bind ?_)
  exact fun _ _ shorter => Moves.pure shorter

theorem paramRound_leaves {fuel : Nat} (inner : ∀ {middle : ParseState},
      middle.tokens.length < state.tokens.length →
        (parseWith fuel true).Leaves middle (middle.tokens.length + 1)) (start : Unit) :
    (paramRound fuel start).Leaves state state.tokens.length := by
  refine Parser.current_peeks.bind ?_
  intro start _
  refine (Specifiers.parse_leaves false (Nat.le_refl _)).bind ?_
  intro specifiers middle shorter
  refine (inner shorter).bind ?_
  intro declarator after shorter'
  refine (Parser.accept_moves _).bind ?_
  intro accepted last moved
  have := moved.1
  exact Moves.ite (fun _ => Moves.pure (by omega)) fun _ => Moves.pure (by omega)

mutual

/-- A declarator takes tokens, unless its name may be left out. -/
theorem parseWith_leaves : ∀ (fuel : Nat) (nameOptional : Bool) {state : ParseState} {bound : Nat},
    3 + 8 * state.tokens.length ≤ fuel → state.tokens.length ≤ bound →
    (nameOptional = true → state.tokens.length < bound) →
    (parseWith fuel nameOptional).Leaves state bound
  | 0, _, _, _, enough, _, _ => absurd enough (by omega)
  | fuel + 1, nameOptional, state, bound, enough, fits, fitsNothing => by
      rw [parseWith]
      refine (Parser.accept_moves _).bind ?_
      intro accepted middle moved
      refine Moves.ite ?_ ?_
      · intro isAccepted
        have shorter := moved.2 isAccepted
        refine (parseWith_leaves fuel nameOptional (by omega) (Nat.le_succ _)
          fun _ => Nat.lt_succ_self _).bind ?_
        intro inner after shorter'
        exact Moves.pure (by omega)
      · intro _
        refine Parser.current_peeks.bind ?_
        intro token stands
        split
        · rename_i isName
          refine (Parser.skip_leaves stands (by simp [isName]) (Nat.le_refl _)).bind ?_
          intro _ after shorter
          exact suffixes_leaves fuel _ (by omega) (by omega)
        · rename_i isOpening
          refine (opensParams_peeks nameOptional).bind ?_
          intro opens isOptional
          refine Moves.ite ?_ ?_
          · intro isOpen
            have := fitsNothing (isOptional isOpen)
            exact suffixes_leaves fuel _ (by omega) (by omega)
          · intro _
            refine (Parser.skip_leaves stands (by simp [isOpening]) (Nat.le_refl _)).bind ?_
            intro _ after shorter
            refine (parseWith_leaves fuel nameOptional (by omega) (Nat.le_succ _)
              fun _ => Nat.lt_succ_self _).bind ?_
            intro inner last shorter'
            refine (Parser.expectMark_leaves (Nat.le_refl _)).bind ?_
            intro _ last shorter''
            exact suffixes_leaves fuel _ (by omega) (by omega)
        · refine Moves.ite ?_ fun _ => Moves.fail
          intro isOptional
          have := fitsNothing isOptional
          exact suffixes_leaves fuel _ (by omega) (by omega)

theorem suffixes_leaves : ∀ (fuel : Nat) (declarator : Declarator) {state : ParseState}
    {bound : Nat}, 2 + 8 * state.tokens.length ≤ fuel → state.tokens.length < bound →
    (suffixes fuel declarator).Leaves state bound
  | 0, _, _, _, enough, _ => absurd enough (by omega)
  | fuel + 1, declarator, state, bound, enough, fits => by
      rw [suffixes_round]
      have inner : (params fuel).Leaves state state.tokens.length :=
        params_leaves fuel (by omega) (Nat.le_refl _)
      exact (suffixRound_advances declarator inner).bind_rest fits fun next _ shorter =>
        suffixes_leaves fuel next (by omega) (by omega)

theorem params_leaves : ∀ (fuel : Nat) {state : ParseState} {bound : Nat},
    1 + 8 * state.tokens.length ≤ fuel → state.tokens.length ≤ bound →
    (params fuel).Leaves state bound
  | 0, _, _, enough, _ => absurd enough (by omega)
  | fuel + 1, state, bound, enough, fits => by
      rw [params]
      refine (Parser.expectMark_leaves (Nat.le_refl _)).bind ?_
      intro _ middle shorter
      refine (Parser.accept_moves _).bind ?_
      intro accepted after moved
      have := moved.1
      refine Moves.ite (fun _ => Moves.pure (by omega)) ?_
      intro _
      refine isVoidList_peeks.bind ?_
      intro isVoid pair
      refine Moves.ite ?_ ?_
      · intro isFound
        rcases pair isFound with ⟨word, closing, rest, split, wordKind, closingKind⟩
        refine (Parser.skip_moves split (by simp [wordKind])).bind ?_
        intro _ middle left
        refine (Parser.skip_moves left (by simp [closingKind])).bind ?_
        intro _ last left
        have length := congrArg List.length split
        simp only [List.length_cons] at length
        exact Moves.pure (by rw [left]; omega)
      · intro _
        refine (paramList_leaves fuel (by omega) (Nat.le_refl _)).bind ?_
        intro params last shorter'
        refine (Parser.expectMark_leaves (Nat.le_refl _)).bind ?_
        intro _ _ shorter''
        exact Moves.pure (by omega)

theorem paramList_leaves : ∀ (fuel : Nat) {state : ParseState} {bound : Nat},
    1 + 8 * state.tokens.length ≤ fuel → state.tokens.length ≤ bound →
    (paramList fuel).Leaves state bound
  | 0, _, _, enough, _ => absurd enough (by omega)
  | fuel + 1, state, bound, enough, fits => by
      rw [paramList_round fuel ()]
      have inner {middle : ParseState} (shorter : middle.tokens.length < state.tokens.length) :
          (parseWith fuel true).Leaves middle (middle.tokens.length + 1) :=
        parseWith_leaves fuel true (by omega) (Nat.le_succ _) fun _ => Nat.lt_succ_self _
      exact (paramRound_leaves inner ()).bind_rest fits fun _ _ shorter =>
        paramList_leaves fuel (by omega) (by omega)

end

/-- A declarator with a name takes tokens. -/
theorem parse_leaves (fits : state.tokens.length ≤ bound) : parse.Leaves state bound := by
  unfold parse
  refine Parser.fuel_peeks.bind ?_
  rintro _ rfl
  exact parseWith_leaves _ false (by omega) fits nofun

theorem dimensions_leaves : ∀ (fuel : Nat) (declarator : Declarator) {state : ParseState}
    {bound : Nat}, 1 + 8 * state.tokens.length ≤ fuel → state.tokens.length < bound →
    (dimensions fuel declarator).Leaves state bound
  | 0, _, _, _, enough, _ => absurd enough (by omega)
  | fuel + 1, declarator, state, bound, enough, fits => by
      rw [dimensions_round]
      exact (dimensionRound_advances fuel declarator).bind_rest fits fun next _ shorter =>
        dimensions_leaves fuel next (by omega) (by omega)

theorem parseAbstractWith_leaves : ∀ (fuel : Nat) {state : ParseState} {bound : Nat},
    2 + 8 * state.tokens.length ≤ fuel → state.tokens.length < bound →
    (parseAbstractWith fuel).Leaves state bound
  | 0, _, _, enough, _ => absurd enough (by omega)
  | fuel + 1, state, bound, enough, fits => by
      rw [parseAbstractWith]
      refine Parser.current_peeks.bind ?_
      intro token stands
      split
      · rename_i isStar
        refine (Parser.skip_leaves stands (by simp [isStar]) (Nat.le_refl _)).bind ?_
        intro _ after shorter
        refine (parseAbstractWith_leaves fuel (by omega) (Nat.lt_succ_self _)).bind ?_
        intro inner last shorter'
        exact Moves.pure (by omega)
      · rename_i isOpening
        refine (Parser.skip_leaves stands (by simp [isOpening]) (Nat.le_refl _)).bind ?_
        intro _ after shorter
        refine (parseAbstractWith_leaves fuel (by omega) (Nat.lt_succ_self _)).bind ?_
        intro inner last shorter'
        dsimp only
        split
        · exact Moves.fail_bind
        · refine (Parser.expectMark_leaves (Nat.le_refl _)).bind ?_
          intro _ _ shorter''
          exact dimensions_leaves fuel _ (by omega) (by omega)
      · exact dimensions_leaves fuel _ (by omega) fits

theorem parseTypeName_leaves (fits : state.tokens.length ≤ bound) :
    parseTypeName.Leaves state bound := by
  unfold parseTypeName
  refine (Specifiers.parse_leaves false (Nat.le_refl _)).bind ?_
  intro specifiers middle shorter
  refine Parser.fuel_peeks.bind ?_
  rintro _ rfl
  refine (parseAbstractWith_leaves _ (by omega) (Nat.lt_succ_self _)).bind ?_
  intro declarator after shorter'
  refine (declare_peeks declarator specifiers.base).bind ?_
  intro declared _
  exact Moves.pure (by omega)

end Declarator

/-! ### Expressions -/

namespace Expr

theorem opensTypeName_peeks : opensTypeName.Peeks state fun opens =>
    opens = true → ∃ token, state.StandsAt token ∧ token.kind = .punctuator .leftParen := by
  refine (Parser.currentIsBefore_peeks _ _).mono ?_
  rintro opens _ ⟨same, finds⟩
  refine ⟨same, fun isOpen => ?_⟩
  rcases finds isOpen with ⟨token, stands, kind, -⟩
  exact ⟨token, stands, kind⟩

theorem parenTypeName_leaves {token : Token} (stands : state.StandsAt token)
    (notEnd : token.kind ≠ .endOfInput) (fits : state.tokens.length ≤ bound) :
    parenTypeName.Leaves state bound := by
  unfold parenTypeName
  refine (Parser.skip_leaves stands notEnd (Nat.le_refl _)).bind ?_
  intro _ middle shorter
  refine (Declarator.parseTypeName_leaves (Nat.le_refl _)).bind ?_
  intro type after shorter'
  refine (Parser.expectMark_leaves (Nat.le_refl _)).bind ?_
  intro _ last shorter''
  exact Moves.pure (by omega)

/-- A string literal is a token that is consumed. -/
theorem stringRound_moves (fuel : Nat) (seen : Span × Text) :
    (stringRound fuel seen).Moves state fun step after =>
      after.tokens.length ≤ state.tokens.length ∧
        (step.GoesOn → after.tokens.length < state.tokens.length) ∧
        (¬step.GoesOn → ∀ token, state.StandsAt token → token.kind ≠ .string) := by
  refine Parser.current_peeks.bind ?_
  intro token stands
  refine Moves.ite ?_ ?_
  · intro isString
    refine (Parser.skip_leaves stands (by simp [isString]) (Nat.le_refl _)).bind ?_
    intro _ after shorter
    exact Moves.pure ⟨Nat.le_of_lt shorter, fun _ => shorter, fun ends => absurd trivial ends⟩
  · intro notString
    refine Moves.pure ⟨Nat.le_refl _, fun goesOn => absurd goesOn id, fun _ other stands' => ?_⟩
    cases stands.unique stands'
    exact notString

/-- String literals next to each other are tokens that are consumed. -/
theorem stringRun_moves : ∀ (fuel : Nat) {state : ParseState} (seen : Span × Text),
    1 + 8 * state.tokens.length ≤ fuel → (stringRun fuel seen).Moves state fun _ after =>
      after.tokens.length ≤ state.tokens.length ∧ ∀ token, state.StandsAt token →
        token.kind = .string → after.tokens.length < state.tokens.length
  | 0, _, _, enough => absurd enough (by omega)
  | fuel + 1, state, seen, enough => by
      rw [stringRun_round]
      refine (stringRound_moves fuel seen).bind ?_
      rintro (result | ⟨next, build⟩) after ⟨le, shorter, ends⟩
      · exact Moves.pure ⟨le, fun token stands isString => absurd isString (ends id token stands)⟩
      · have shorter := shorter trivial
        refine (stringRun_moves fuel next (by omega)).bind ?_
        rintro result last ⟨le', -⟩
        exact Moves.pure ⟨by omega, fun _ _ _ => by omega⟩

theorem strings_leaves {token : Token} (stands : state.StandsAt token)
    (isString : token.kind = .string) (fits : state.tokens.length ≤ bound) :
    strings.Leaves state bound := by
  unfold strings
  refine Parser.current_peeks.bind ?_
  intro first _
  refine Parser.fuel_peeks.bind ?_
  rintro _ rfl
  refine (stringRun_moves _ _ (by omega)).bind ?_
  rintro seen after ⟨-, shorter⟩
  exact Parser.noted_leaves _ (Nat.lt_of_lt_of_le (shorter token stands isString) fits)

/-- The end of the input means nothing to an expression. -/
theorem kind_ne_endOfInput {γ : Type} {meaning : TokenKind → Option γ} {kind : TokenKind}
    {value : γ} (isMeant : meaning kind = some value)
    (endMeansNothing : meaning .endOfInput = none) : kind ≠ .endOfInput := by
  rintro rfl
  rw [endMeansNothing] at isMeant
  cases isMeant

/-- An operator is a token that is consumed, before what stands behind it. -/
theorem operatorRound_advances {fuel : Nat} (level : Nat) (left : Expr)
    (inner : ∀ (level : Nat) {middle : ParseState},
      middle.tokens.length < state.tokens.length →
        (parseWith fuel level).Leaves middle middle.tokens.length) :
    (operatorRound level fuel left).Advances state := by
  refine Parser.current_peeks.bind ?_
  intro token stands
  split
  · exact Advances.done
  rename_i continuation starts
  refine Moves.ite (fun _ => Advances.done) ?_
  intro _
  refine Leaves.advances ?_
  refine (Parser.skip_leaves stands (kind_ne_endOfInput starts rfl) (Nat.le_refl _)).bind ?_
  intro _ middle shorter
  have ends (build : Note → Expr) {after : ParseState}
      (shorter : after.tokens.length < state.tokens.length) : Leaves (do
        let note ← Parser.newNote token.span
        pure (.again (build note) id : Parser.Round Expr Expr)) after state.tokens.length :=
    (Parser.newNote_leaves shorter).bind fun _ _ shorter => Moves.pure shorter
  split
  · refine (inner _ shorter).bind ?_
    intro right after shorter'
    exact ends (fun note => .assign note _ left right none) (by omega)
  · refine (inner _ shorter).bind ?_
    intro thenBranch after shorter'
    refine (Parser.expectMark_leaves (Nat.le_refl _)).bind ?_
    intro _ after _
    refine (inner _ (by omega)).bind ?_
    intro elseBranch after _
    exact ends (fun note => .conditional note left thenBranch elseBranch) (by omega)
  · refine (inner _ shorter).bind ?_
    intro right after shorter'
    exact ends (fun note => .binary note _ left right) (by omega)

theorem trailingRound_advances {fuel : Nat} (operand : Expr)
    (inner : ∀ {middle : ParseState}, middle.tokens.length < state.tokens.length →
      (parseWith fuel 0).Leaves middle middle.tokens.length) :
    (trailingRound fuel operand).Advances state := by
  refine Parser.current_peeks.bind ?_
  intro token stands
  split
  · rename_i isBracket
    refine Leaves.advances ?_
    refine (Parser.skip_leaves stands (by simp [isBracket]) (Nat.le_refl _)).bind ?_
    intro _ middle shorter
    refine (inner shorter).bind ?_
    intro index after _
    refine (Parser.expectMark_leaves (Nat.le_refl _)).bind ?_
    intro _ last _
    have shorter' : last.tokens.length < state.tokens.length := by omega
    exact (Parser.newNote_leaves shorter').bind fun _ _ shorter => Moves.pure shorter
  · split
    · rename_i isStep
      have notEnd := kind_ne_endOfInput isStep rfl
      refine Leaves.advances ?_
      refine (Parser.skip_leaves stands notEnd (Nat.le_refl _)).bind ?_
      intro _ after shorter
      exact (Parser.newNote_leaves shorter).bind fun _ _ shorter => Moves.pure shorter
    · exact Advances.done

theorem argumentRound_leaves {fuel : Nat}
    (inner : (parseWith fuel 0).Leaves state state.tokens.length) (start : Unit) :
    (argumentRound fuel start).Leaves state state.tokens.length := by
  refine inner.bind ?_
  intro argument middle shorter
  refine (Parser.accept_moves _).bind ?_
  intro accepted after moved
  have shorter' : after.tokens.length < state.tokens.length := Nat.lt_of_le_of_lt moved.1 shorter
  exact Moves.ite (fun _ => Moves.pure shorter') fun _ => Moves.pure shorter'

mutual

theorem parseWith_leaves : ∀ (fuel level : Nat) {state : ParseState} {bound : Nat},
    3 + 8 * state.tokens.length ≤ fuel → state.tokens.length ≤ bound →
    (parseWith fuel level).Leaves state bound
  | 0, _, _, _, enough, _ => absurd enough (by omega)
  | fuel + 1, level, state, bound, enough, fits => by
      rw [parseWith]
      refine (operand_leaves fuel (by omega) (Nat.le_refl _)).bind ?_
      intro left after shorter
      exact continuations_leaves fuel level left (by omega) (by omega)

theorem continuations_leaves : ∀ (fuel level : Nat) (left : Expr) {state : ParseState}
    {bound : Nat}, 1 + 8 * state.tokens.length ≤ fuel → state.tokens.length < bound →
    (continuations fuel level left).Leaves state bound
  | 0, _, _, _, _, enough, _ => absurd enough (by omega)
  | fuel + 1, level, left, state, bound, enough, fits => by
      rw [continuations_round]
      have inner (level : Nat) {middle : ParseState}
          (shorter : middle.tokens.length < state.tokens.length) :
          (parseWith fuel level).Leaves middle middle.tokens.length :=
        parseWith_leaves fuel level (by omega) (Nat.le_refl _)
      exact (operatorRound_advances level left inner).bind_rest fits fun next _ shorter =>
        continuations_leaves fuel level next (by omega) (by omega)

theorem operand_leaves : ∀ (fuel : Nat) {state : ParseState} {bound : Nat},
    2 + 8 * state.tokens.length ≤ fuel → state.tokens.length ≤ bound →
    (operand fuel).Leaves state bound
  | 0, _, _, enough, _ => absurd enough (by omega)
  | fuel + 1, state, bound, enough, fits => by
      have inner (span : Span) (build : Note → Expr → Expr) {after : ParseState}
          (shorter : after.tokens.length < state.tokens.length) : Leaves (do
            let inner ← operand fuel
            pure (build (← Parser.newNote span) inner)) after bound := by
        refine (operand_leaves fuel (by omega) (Nat.le_refl _)).bind ?_
        intro expr last shorter'
        exact Parser.noted_leaves _ (by omega)
      have suffixed : Leaves (do trailing fuel (← atom fuel)) state bound := by
        refine (atom_leaves fuel (by omega) (Nat.le_refl _)).bind ?_
        intro expr after shorter
        exact trailing_leaves fuel expr (by omega) (by omega)
      rw [operand]
      refine Parser.current_peeks.bind ?_
      intro token stands
      split
      -- a dereference
      · rename_i isMark
        refine (Parser.skip_leaves stands (by simp [isMark]) (Nat.le_refl _)).bind ?_
        intro _ after shorter
        exact inner token.span .dereference shorter
      -- an address
      · rename_i isMark
        refine (Parser.skip_leaves stands (by simp [isMark]) (Nat.le_refl _)).bind ?_
        intro _ after shorter
        exact inner token.span .addressOf shorter
      -- sizeof
      · rename_i isWord
        refine (Parser.skip_leaves stands (by simp [isWord]) (Nat.le_refl _)).bind ?_
        intro _ after shorter
        refine opensTypeName_peeks.bind ?_
        intro opens isOpening
        refine Moves.ite ?_ ?_
        · intro isOpen
          rcases isOpening isOpen with ⟨opening, stands, kind⟩
          refine (parenTypeName_leaves stands (by simp [kind]) (Nat.le_refl _)).bind ?_
          intro type last shorter'
          exact Parser.noted_leaves _ (by omega)
        · intro _
          exact inner token.span .sizeofExpr shorter
      -- a parenthesis, perhaps of a cast
      · refine opensTypeName_peeks.bind ?_
        intro opens isOpening
        refine Moves.ite ?_ ?_
        · intro isOpen
          rcases isOpening isOpen with ⟨opening, stands, kind⟩
          refine (parenTypeName_leaves stands (by simp [kind]) (Nat.le_refl _)).bind ?_
          intro target after shorter
          exact inner token.span (fun note expr => .cast note target expr false) shorter
        · intro _
          exact suffixed
      -- any other token
      · split
        · rename_i isUnary
          have notEnd := kind_ne_endOfInput isUnary rfl
          refine (Parser.skip_leaves stands notEnd (Nat.le_refl _)).bind ?_
          intro _ after shorter
          exact inner token.span (fun note expr => .unary note _ expr) shorter
        · rename_i isStep
          have notEnd := kind_ne_endOfInput isStep rfl
          refine (Parser.skip_leaves stands notEnd (Nat.le_refl _)).bind ?_
          intro _ after shorter
          exact inner token.span (fun note expr => .step note .before _ expr) shorter
        · exact suffixed

theorem trailing_leaves : ∀ (fuel : Nat) (operand : Expr) {state : ParseState} {bound : Nat},
    1 + 8 * state.tokens.length ≤ fuel → state.tokens.length < bound →
    (trailing fuel operand).Leaves state bound
  | 0, _, _, _, enough, _ => absurd enough (by omega)
  | fuel + 1, operand, state, bound, enough, fits => by
      rw [trailing_round]
      have inner {middle : ParseState} (shorter : middle.tokens.length < state.tokens.length) :
          (parseWith fuel 0).Leaves middle middle.tokens.length :=
        parseWith_leaves fuel 0 (by omega) (Nat.le_refl _)
      exact (trailingRound_advances operand inner).bind_rest fits fun next _ shorter =>
        trailing_leaves fuel next (by omega) (by omega)

theorem atom_leaves : ∀ (fuel : Nat) {state : ParseState} {bound : Nat},
    1 + 8 * state.tokens.length ≤ fuel → state.tokens.length ≤ bound →
    (atom fuel).Leaves state bound
  | 0, _, _, enough, _ => absurd enough (by omega)
  | fuel + 1, state, bound, enough, fits => by
      rw [atom]
      refine Parser.current_peeks.bind ?_
      intro token stands
      split
      -- an integer literal
      · rename_i isInteger
        refine (Parser.skip_leaves stands (by simp [isInteger]) fits).bind ?_
        intro _ after shorter
        split
        · exact Parser.noted_leaves _ shorter
        · exact Moves.fail
      -- a floating literal
      · rename_i isFloating
        refine (Parser.skip_leaves stands (by simp [isFloating]) fits).bind ?_
        intro _ after shorter
        exact Parser.noted_leaves _ shorter
      -- a character literal
      · rename_i isCharacter
        refine (Parser.skip_leaves stands (by simp [isCharacter]) fits).bind ?_
        intro _ after shorter
        exact Parser.noted_leaves _ shorter
      -- string literals
      · rename_i isString
        exact strings_leaves stands isString fits
      -- a name, perhaps of a call
      · rename_i isName
        refine (Parser.skip_leaves stands (by simp [isName]) (Nat.le_refl _)).bind ?_
        intro _ middle shorter
        refine (Parser.accept_moves _).bind ?_
        intro accepted after moved
        have := moved.1
        refine Moves.ite ?_ fun _ => Parser.noted_leaves _ (by omega)
        intro isAccepted
        have := moved.2 isAccepted
        have call (arguments : List Expr) {last : ParseState}
            (shorter' : last.tokens.length < after.tokens.length + 1) : Leaves (do
              let _ ← Parser.expectMark .rightParen
              let note ← Parser.newNote token.span
              pure (Expr.call note token.literal arguments)) last bound := by
          refine (Parser.expectMark_leaves (Nat.le_refl _)).bind ?_
          intro _ _ shorter''
          exact Parser.noted_leaves _ (by omega)
        refine (Parser.currentIsMark_peeks _).bind ?_
        intro isEmpty _
        refine Moves.ite (fun _ => call [] (Nat.lt_succ_self _)) ?_
        intro _
        refine (arguments_leaves fuel (by omega) (Nat.le_refl _)).bind ?_
        intro arguments last shorter'
        exact call arguments (by omega)
      -- a parenthesis
      · rename_i isOpening
        refine (Parser.skip_leaves stands (by simp [isOpening]) (Nat.le_refl _)).bind ?_
        intro _ middle shorter
        refine (parseWith_leaves fuel 0 (by omega) (Nat.le_refl _)).bind ?_
        intro inner after shorter'
        refine (Parser.expectMark_leaves (Nat.le_refl _)).bind ?_
        intro _ last shorter''
        exact Moves.pure (by omega)
      -- no expression
      · exact Moves.fail

theorem arguments_leaves : ∀ (fuel : Nat) {state : ParseState} {bound : Nat},
    4 + 8 * state.tokens.length ≤ fuel → state.tokens.length ≤ bound →
    (arguments fuel).Leaves state bound
  | 0, _, _, enough, _ => absurd enough (by omega)
  | fuel + 1, state, bound, enough, fits => by
      rw [arguments_round fuel ()]
      have inner : (parseWith fuel 0).Leaves state state.tokens.length :=
        parseWith_leaves fuel 0 (by omega) (Nat.le_refl _)
      exact (argumentRound_leaves inner ()).bind_rest fits fun _ _ shorter =>
        arguments_leaves fuel (by omega) (by omega)

end

theorem parse_leaves (fits : state.tokens.length ≤ bound) : parse.Leaves state bound := by
  unfold parse
  refine Parser.fuel_peeks.bind ?_
  rintro _ rfl
  exact parseWith_leaves _ 0 (by omega) fits

theorem parseUnless_leaves (mark : Punctuator) (fits : state.tokens.length < bound) :
    (parseUnless mark).Leaves state bound := by
  unfold parseUnless
  refine (Parser.currentIsMark_peeks _).bind ?_
  intro found _
  refine Moves.ite (fun _ => Moves.pure fits) ?_
  intro _
  refine (parse_leaves (Nat.le_of_lt fits)).bind ?_
  intro value after shorter
  exact Moves.pure shorter

theorem parseParenthesized_leaves (fits : state.tokens.length ≤ bound) :
    parseParenthesized.Leaves state bound := by
  unfold parseParenthesized
  refine (Parser.expectMark_leaves (Nat.le_refl _)).bind ?_
  intro _ middle shorter
  refine (parse_leaves (Nat.le_refl _)).bind ?_
  intro expr after shorter'
  refine (Parser.expectMark_leaves (Nat.le_refl _)).bind ?_
  intro _ last shorter''
  exact Moves.pure (by omega)

end Expr

/-! ### Declarations and statements -/

namespace Initializer

theorem itemRound_leaves {fuel : Nat} (inner : (parseWith fuel).Leaves state state.tokens.length)
    (start : Unit) : (itemRound fuel start).Leaves state state.tokens.length := by
  refine inner.bind ?_
  intro item middle shorter
  refine (Parser.accept_moves _).bind ?_
  intro accepted after moved
  have shorter' : after.tokens.length < state.tokens.length := Nat.lt_of_le_of_lt moved.1 shorter
  refine Moves.ite ?_ fun _ => Moves.pure shorter'
  intro _
  refine (Parser.currentIsMark_peeks _).bind ?_
  intro isEnd _
  exact Moves.ite (fun _ => Moves.pure shorter') fun _ => Moves.pure shorter'

mutual

theorem parseWith_leaves : ∀ (fuel : Nat) {state : ParseState} {bound : Nat},
    1 + 8 * state.tokens.length ≤ fuel → state.tokens.length ≤ bound →
    (parseWith fuel).Leaves state bound
  | 0, _, _, enough, _ => absurd enough (by omega)
  | fuel + 1, state, bound, enough, fits => by
      rw [parseWith]
      refine Parser.current_peeks.bind ?_
      intro token stands
      refine Moves.ite ?_ ?_
      · intro isBrace
        refine (Parser.skip_leaves stands (by simp [isBrace]) (Nat.le_refl _)).bind ?_
        intro _ middle shorter
        refine Parser.current_peeks.bind ?_
        intro first _
        refine Moves.ite (fun _ => Moves.fail_bind) ?_
        intro _
        refine (itemsWith_leaves fuel (by omega) (Nat.le_refl _)).bind ?_
        intro items after shorter'
        refine (Parser.expectMark_leaves (Nat.le_refl _)).bind ?_
        intro _ last shorter''
        exact Parser.located_leaves _ (by omega)
      · intro _
        refine (Expr.parse_leaves fits).bind ?_
        intro value after shorter
        exact Parser.located_leaves _ shorter

theorem itemsWith_leaves : ∀ (fuel : Nat) {state : ParseState} {bound : Nat},
    2 + 8 * state.tokens.length ≤ fuel → state.tokens.length ≤ bound →
    (itemsWith fuel).Leaves state bound
  | 0, _, _, enough, _ => absurd enough (by omega)
  | fuel + 1, state, bound, enough, fits => by
      rw [itemsWith_round fuel ()]
      have inner : (parseWith fuel).Leaves state state.tokens.length :=
        parseWith_leaves fuel (by omega) (Nat.le_refl _)
      exact (itemRound_leaves inner ()).bind_rest fits fun _ _ shorter =>
        itemsWith_leaves fuel (by omega) (by omega)

end

theorem parse_leaves (fits : state.tokens.length ≤ bound) : parse.Leaves state bound := by
  unfold parse
  refine Parser.fuel_peeks.bind ?_
  rintro _ rfl
  exact parseWith_leaves _ (by omega) fits

end Initializer

theorem VarDecl.parseRest_leaves (declared : Declared) (storageClass : Option StorageClass)
    (fits : state.tokens.length < bound) :
    (VarDecl.parseRest declared storageClass).Leaves state bound := by
  have made (init : Option Initializer) {after : ParseState}
      (shorter : after.tokens.length < bound) : Leaves (do
        pure (⟨← Parser.newLoc declared.span, declared.name, declared.type, storageClass, init⟩ :
          VarDecl)) after bound :=
    Parser.located_leaves _ shorter
  unfold VarDecl.parseRest
  refine (Parser.accept_moves _).bind ?_
  intro accepted middle moved
  have := moved.1
  refine Moves.ite ?_ fun _ => made none (by omega)
  intro _
  refine (Initializer.parse_leaves (Nat.le_refl _)).bind ?_
  intro init after shorter
  exact made (some init) (by omega)

theorem Declared.requireNames_peeks (declared : Declared) :
    declared.requireNames.Peeks state fun _ => True := by
  unfold Declared.requireNames
  induction declared.params with
  | nil => exact Peeks.pure trivial
  | cons param params ih =>
      have named : Peeks (do
          if param.name.isEmpty then
            Parser.fail param.span (.parameterNameOmitted declared.name)) state fun _ => True :=
        Moves.ite (fun _ => Moves.fail) fun _ => Peeks.pure trivial
      exact named.bind fun _ _ => ih

theorem Declared.opensBody_peeks (isFirst : Bool) :
    (Declared.opensBody isFirst).Peeks state fun _ => True := by
  unfold Declared.opensBody
  split
  · exact (Parser.currentIsMark_peeks _).mono fun _ _ holds => ⟨holds.1, trivial⟩
  · exact Peeks.pure trivial

theorem VarDecl.declaratorRound_leaves (specifiers : Specifiers) (fuel : Nat) (start : Unit) :
    (VarDecl.declaratorRound specifiers fuel start).Leaves state state.tokens.length := by
  refine (Declarator.parse_leaves (Nat.le_refl _)).bind ?_
  intro declarator middle shorter
  refine (Declarator.declare_peeks _ _).bind ?_
  intro declared _
  refine Moves.ite (fun _ => Moves.fail_bind) ?_
  intro _
  refine (VarDecl.parseRest_leaves _ _ (Nat.lt_succ_self _)).bind ?_
  intro decl after shorter'
  refine (Parser.accept_moves _).bind ?_
  intro accepted last moved
  have := moved.1
  refine Moves.ite (fun _ => Moves.pure (by omega)) ?_
  intro _
  exact (Parser.expectMark_leaves (Nat.le_refl _)).bind fun _ _ shorter'' =>
    Moves.pure (by omega)

theorem VarDecl.parseListWith_leaves (specifiers : Specifiers) : ∀ (fuel : Nat)
    {state : ParseState} {bound : Nat}, 1 + 8 * state.tokens.length ≤ fuel →
    state.tokens.length ≤ bound → (VarDecl.parseListWith specifiers fuel).Leaves state bound
  | 0, _, _, enough, _ => absurd enough (by omega)
  | fuel + 1, state, bound, enough, fits => by
      rw [VarDecl.parseListWith_round specifiers fuel ()]
      exact (VarDecl.declaratorRound_leaves specifiers fuel ()).bind_rest fits fun _ _ shorter =>
        VarDecl.parseListWith_leaves specifiers fuel (by omega) (by omega)

theorem ForInit.parse_leaves (fits : state.tokens.length ≤ bound) :
    ForInit.parse.Leaves state bound := by
  unfold ForInit.parse
  refine Parser.current_peeks.bind ?_
  intro token _
  refine Moves.ite ?_ ?_
  · intro _
    refine (Specifiers.parse_leaves true (Nat.le_refl _)).bind ?_
    intro specifiers middle shorter
    refine Parser.fuel_peeks.bind ?_
    rintro _ rfl
    refine (VarDecl.parseListWith_leaves specifiers _ (by omega) (Nat.le_refl _)).bind ?_
    intro decls after shorter'
    exact Parser.located_leaves _ (by omega)
  · intro _
    refine (Expr.parseUnless_leaves _ (Nat.lt_succ_self _)).bind ?_
    intro value middle shorter
    refine (Parser.expectMark_leaves (Nat.le_refl _)).bind ?_
    intro _ after shorter'
    exact Parser.located_leaves _ (by omega)

theorem Decl.separator_leaves (decl : Decl) (fits : state.tokens.length < bound) :
    (Decl.separator decl).Leaves state bound := by
  refine (Parser.accept_moves _).bind ?_
  intro accepted middle moved
  have := moved.1
  refine Moves.ite (fun _ => Moves.pure (by omega)) ?_
  intro _
  exact (Parser.expectMark_leaves (Nat.le_refl _)).bind fun _ _ shorter => Moves.pure (by omega)

theorem Decl.declaratorRound_leaves {fuel : Nat} (specifiers : Specifiers) (isFirst : Bool)
    (inner : ∀ {middle : ParseState}, middle.tokens.length < state.tokens.length →
      (Stmt.parseBlock (fuel + 1)).Leaves middle middle.tokens.length) :
    (Decl.declaratorRound specifiers fuel isFirst).Leaves state state.tokens.length := by
  refine (Declarator.parse_leaves (Nat.le_refl _)).bind ?_
  intro declarator middle shorter
  refine (Declarator.declare_peeks _ _).bind ?_
  intro declared _
  split
  · refine (Declared.opensBody_peeks isFirst).bind ?_
    intro opens _
    refine Moves.ite ?_ ?_
    · intro _
      refine declared.requireNames_peeks.bind ?_
      intro _ _
      refine (inner shorter).bind ?_
      intro block after shorter'
      exact Parser.located_leaves _ (by omega)
    · intro _
      refine (Parser.newLoc_leaves (Nat.lt_succ_self _)).bind ?_
      intro loc after shorter'
      exact Decl.separator_leaves _ (by omega)
  · refine (VarDecl.parseRest_leaves _ _ (Nat.lt_succ_self _)).bind ?_
    intro decl after shorter'
    exact Decl.separator_leaves _ (by omega)

/-- A statement or declaration takes tokens, and the last round stands at the closing brace. -/
theorem Item.round_moves {fuel : Nat} (declarators : ∀ (specifiers : Specifiers)
      {middle : ParseState}, middle.tokens.length < state.tokens.length →
        (Decl.parseDeclarators fuel specifiers true).Leaves middle middle.tokens.length)
    (stmt : (Stmt.parseWith fuel).Leaves state state.tokens.length) (start : Unit) :
    (Item.round fuel start).Moves state fun step after =>
      after.tokens.length ≤ state.tokens.length ∧
        (step.GoesOn → after.tokens.length < state.tokens.length) ∧
        (¬step.GoesOn → ∃ closing, after.StandsAt closing ∧
          closing.kind = .punctuator .rightBrace) := by
  refine Parser.current_peeks.bind ?_
  intro token stands
  refine Moves.ite ?_ ?_
  · intro isBrace
    exact Moves.pure ⟨Nat.le_refl _, fun goesOn => absurd goesOn id, fun _ => ⟨_, stands, isBrace⟩⟩
  intro _
  refine Moves.ite (fun _ => Moves.fail) ?_
  intro _
  have goesOn (build : List Item → List Item) {after : ParseState}
      (shorter : after.tokens.length < state.tokens.length) :
      Moves (pure (.again () build : Parser.Round Unit (List Item))) after fun step after =>
        after.tokens.length ≤ state.tokens.length ∧
          (step.GoesOn → after.tokens.length < state.tokens.length) ∧
          (¬step.GoesOn → ∃ closing, after.StandsAt closing ∧
            closing.kind = .punctuator .rightBrace) :=
    Moves.pure ⟨Nat.le_of_lt shorter, fun _ => shorter, fun ends => absurd trivial ends⟩
  refine Moves.ite ?_ ?_
  · intro _
    refine (Specifiers.parse_leaves true (Nat.le_refl _)).bind ?_
    intro specifiers middle shorter
    refine (declarators specifiers shorter).bind ?_
    intro decls after shorter'
    exact goesOn _ (by omega)
  · intro _
    exact stmt.bind fun _ _ shorter => goesOn _ shorter

mutual

theorem Decl.parseDeclarators_leaves : ∀ (fuel : Nat) (specifiers : Specifiers) (isFirst : Bool)
    {state : ParseState} {bound : Nat}, 2 + 8 * state.tokens.length ≤ fuel →
    state.tokens.length ≤ bound →
    (Decl.parseDeclarators fuel specifiers isFirst).Leaves state bound
  | 0, _, _, _, _, enough, _ | 1, _, _, _, _, enough, _ => absurd enough (by omega)
  | fuel + 2, specifiers, isFirst, state, bound, enough, fits => by
      rw [Decl.parseDeclarators_round]
      have inner {middle : ParseState} (shorter : middle.tokens.length < state.tokens.length) :
          (Stmt.parseBlock (fuel + 1)).Leaves middle middle.tokens.length :=
        Stmt.parseBlock_leaves (fuel + 1) (by omega) (Nat.le_refl _)
      exact (Decl.declaratorRound_leaves specifiers isFirst inner).bind_rest fits
        fun next _ shorter => Decl.parseDeclarators_leaves fuel specifiers next (by omega) (by omega)

theorem Stmt.parseBlock_leaves : ∀ (fuel : Nat) {state : ParseState} {bound : Nat},
    1 + 8 * state.tokens.length ≤ fuel → state.tokens.length ≤ bound →
    (Stmt.parseBlock fuel).Leaves state bound
  | 0, _, _, enough, _ => absurd enough (by omega)
  | fuel + 1, state, bound, enough, fits => by
      rw [Stmt.parseBlock]
      refine (Parser.expectMark_leaves (Nat.le_refl _)).bind ?_
      intro brace middle shorter
      refine (Item.parseList_moves fuel (by omega)).bind ?_
      rintro items after ⟨shorter', closing, stands, kind⟩
      refine (Parser.skip_leaves stands (by simp [kind]) (Nat.le_refl _)).bind ?_
      intro _ last shorter''
      exact Parser.located_leaves _ (by omega)

/-- The items of a block end in front of its closing brace. -/
theorem Item.parseList_moves : ∀ (fuel : Nat) {state : ParseState},
    3 + 8 * state.tokens.length ≤ fuel → (Item.parseList fuel).Moves state fun _ after =>
      after.tokens.length ≤ state.tokens.length ∧
        ∃ closing, after.StandsAt closing ∧ closing.kind = .punctuator .rightBrace
  | 0, _, enough => absurd enough (by omega)
  | fuel + 1, state, enough => by
      rw [Item.parseList_round fuel ()]
      have declarators (specifiers : Specifiers) {middle : ParseState}
          (shorter : middle.tokens.length < state.tokens.length) :
          (Decl.parseDeclarators fuel specifiers true).Leaves middle middle.tokens.length :=
        Decl.parseDeclarators_leaves fuel specifiers true (by omega) (Nat.le_refl _)
      have stmt : (Stmt.parseWith fuel).Leaves state state.tokens.length :=
        Stmt.parseWith_leaves fuel (by omega) (Nat.le_refl _)
      refine (Item.round_moves declarators stmt ()).bind ?_
      rintro (items | ⟨next, build⟩) after ⟨le, shorter, closes⟩
      · exact Moves.pure ⟨le, closes id⟩
      · have shorter := shorter trivial
        refine (Item.parseList_moves fuel (by omega)).bind ?_
        rintro items last ⟨le', closes⟩
        exact Moves.pure ⟨by omega, closes⟩

theorem Stmt.parseWith_leaves : ∀ (fuel : Nat) {state : ParseState} {bound : Nat},
    2 + 8 * state.tokens.length ≤ fuel → state.tokens.length ≤ bound →
    (Stmt.parseWith fuel).Leaves state bound
  | 0, _, _, enough, _ => absurd enough (by omega)
  | fuel + 1, state, bound, enough, fits => by
      have build (span : Span) (make : Loc → Stmt) {after : ParseState}
          (shorter : after.tokens.length < state.tokens.length) : Leaves (do
            pure (make (← Parser.newLoc span))) after bound :=
        Parser.located_leaves make (Nat.lt_of_lt_of_le shorter fits)
      have jump (span : Span) (make : Loc → Stmt) {token : Token} (stands : state.StandsAt token)
          (notEnd : token.kind ≠ .endOfInput) : Leaves (do
            Parser.skip
            let _ ← Parser.expectMark .semicolon
            pure (make (← Parser.newLoc span))) state bound := by
        refine (Parser.skip_leaves stands notEnd (Nat.le_refl _)).bind ?_
        intro _ middle shorter
        refine (Parser.expectMark_leaves (Nat.le_refl _)).bind ?_
        intro _ after shorter'
        exact build span make (by omega)
      have nested (span : Span) (make : Stmt → Loc → Stmt) {after : ParseState}
          (shorter : after.tokens.length < state.tokens.length) : Leaves (do
            let body ← Stmt.parseWith fuel
            pure (make body (← Parser.newLoc span))) after bound := by
        refine (Stmt.parseWith_leaves fuel (by omega) (Nat.le_refl _)).bind ?_
        intro body last shorter'
        exact build span (make body) (by omega)
      rw [Stmt.parseWith]
      refine Parser.current_peeks.bind ?_
      intro token stands
      have word {keyword : Keyword} (isWord : token.kind = .keyword keyword) :
          (Parser.skip).Leaves state state.tokens.length :=
        Parser.skip_leaves stands (by simp [isWord]) (Nat.le_refl _)
      split
      -- return
      · refine (word ‹_›).bind ?_
        intro _ middle shorter
        refine (Expr.parseUnless_leaves _ (Nat.lt_succ_self _)).bind ?_
        intro value after shorter'
        refine (Parser.expectMark_leaves (Nat.le_refl _)).bind ?_
        intro _ last shorter''
        exact build token.span (fun loc => .ret loc value) (by omega)
      -- if
      · refine (word ‹_›).bind ?_
        intro _ middle shorter
        refine (Expr.parseParenthesized_leaves (Nat.le_refl _)).bind ?_
        intro condition after shorter'
        refine (Stmt.parseWith_leaves fuel (by omega) (Nat.le_refl _)).bind ?_
        intro thenBranch after shorter''
        refine (Parser.currentIs_peeks _).bind ?_
        intro found isElse
        refine Moves.ite ?_ ?_
        · intro isFound
          rcases isElse isFound with ⟨other, stands, kind⟩
          refine (Parser.skip_leaves stands (by simp [kind]) (Nat.le_refl _)).bind ?_
          intro _ last _
          exact nested token.span
            (fun elseBranch loc => .ifElse loc condition thenBranch elseBranch) (by omega)
        · intro _
          exact build token.span (fun loc => .ifThen loc condition thenBranch) (by omega)
      -- a block
      · refine (Stmt.parseBlock_leaves fuel (by omega) fits).bind ?_
        intro block after shorter
        exact Moves.pure shorter
      -- while
      · refine (word ‹_›).bind ?_
        intro _ middle shorter
        refine (Expr.parseParenthesized_leaves (Nat.le_refl _)).bind ?_
        intro condition after shorter'
        exact nested token.span (fun body loc => .whileLoop loc none condition body) (by omega)
      -- do
      · refine (word ‹_›).bind ?_
        intro _ middle shorter
        refine (Stmt.parseWith_leaves fuel (by omega) (Nat.le_refl _)).bind ?_
        intro body after shorter'
        have notEnd : TokenKind.keyword .while ≠ .endOfInput := nofun
        refine (Parser.expect_leaves notEnd (Nat.le_refl _)).bind ?_
        intro _ after _
        refine (Expr.parseParenthesized_leaves (Nat.le_refl _)).bind ?_
        intro condition after _
        refine (Parser.expectMark_leaves (Nat.le_refl _)).bind ?_
        intro _ last _
        exact build token.span (fun loc => .doWhile loc none body condition) (by omega)
      -- for
      · refine (word ‹_›).bind ?_
        intro _ middle shorter
        refine (Parser.expectMark_leaves (Nat.le_refl _)).bind ?_
        intro _ after _
        refine (ForInit.parse_leaves (Nat.le_refl _)).bind ?_
        intro init after _
        refine (Expr.parseUnless_leaves _ (Nat.lt_succ_self _)).bind ?_
        intro condition after _
        refine (Parser.expectMark_leaves (Nat.le_refl _)).bind ?_
        intro _ after _
        refine (Expr.parseUnless_leaves _ (Nat.lt_succ_self _)).bind ?_
        intro post after _
        refine (Parser.expectMark_leaves (Nat.le_refl _)).bind ?_
        intro _ after _
        exact nested token.span
          (fun body loc => .forLoop loc none init condition post body) (by omega)
      -- switch
      · refine (word ‹_›).bind ?_
        intro _ middle shorter
        refine (Expr.parseParenthesized_leaves (Nat.le_refl _)).bind ?_
        intro value after shorter'
        exact nested token.span (fun body loc => .switch loc none value body []) (by omega)
      -- case
      · refine (word ‹_›).bind ?_
        intro _ middle shorter
        refine (Expr.parse_leaves (Nat.le_refl _)).bind ?_
        intro value after shorter'
        refine (Parser.expectMark_leaves (Nat.le_refl _)).bind ?_
        intro _ after shorter''
        exact nested token.span (fun body loc => .case loc none value body) (by omega)
      -- default
      · refine (word ‹_›).bind ?_
        intro _ middle shorter
        refine (Parser.expectMark_leaves (Nat.le_refl _)).bind ?_
        intro _ after shorter'
        exact nested token.span (fun body loc => .default loc none body) (by omega)
      -- break
      · rename_i isBreak
        exact jump token.span (fun loc => .break loc none) stands (by simp [isBreak])
      -- continue
      · rename_i isContinue
        exact jump token.span (fun loc => .continue loc none) stands (by simp [isContinue])
      -- a semicolon
      · rename_i isSemicolon
        refine (Parser.skip_leaves stands (by simp [isSemicolon]) (Nat.le_refl _)).bind ?_
        intro _ after shorter
        exact build token.span .null shorter
      -- an expression
      · refine Moves.ite (fun _ => Moves.fail_bind) ?_
        intro _
        refine (Expr.parse_leaves (Nat.le_refl _)).bind ?_
        intro value after shorter
        refine (Parser.expectMark_leaves (Nat.le_refl _)).bind ?_
        intro _ last shorter'
        exact build token.span (fun loc => .expr loc value) (by omega)

end

theorem Decl.parse_leaves (fits : state.tokens.length ≤ bound) : Decl.parse.Leaves state bound := by
  unfold Decl.parse
  refine (Specifiers.parse_leaves true (Nat.le_refl _)).bind ?_
  intro specifiers after shorter
  refine Parser.fuel_peeks.bind ?_
  rintro _ rfl
  exact Decl.parseDeclarators_leaves _ _ true (by omega) (by omega)

namespace Program

/-- A declaration takes tokens, and the last round stands at the end. -/
theorem declarationRound_moves (fuel : Nat) (start : Unit) :
    (declarationRound fuel start).Moves state fun step after =>
      after.tokens.length ≤ state.tokens.length ∧
        (step.GoesOn → after.tokens.length < state.tokens.length) ∧
        (¬step.GoesOn → after.tokens = [] ∧ ∃ token, after.ending = .ok token ∧
          token.kind = .endOfInput) := by
  refine (Parser.currentIs_peeks _).bind ?_
  intro found isEnd
  refine Moves.ite ?_ ?_
  · intro isFound
    rcases isEnd isFound with ⟨token, stands, kind⟩
    rcases stands.ending_eq kind with ⟨none, isEnding⟩
    exact Moves.pure ⟨Nat.le_refl _, fun goesOn => absurd goesOn id,
      fun _ => ⟨none, token, isEnding, kind⟩⟩
  · intro _
    refine (Decl.parse_leaves (Nat.le_refl _)).bind ?_
    intro decls after shorter
    exact Moves.pure ⟨Nat.le_of_lt shorter, fun _ => shorter, fun ends => absurd trivial ends⟩

/-- A compilation unit takes all tokens, up to an end that nothing replaces. -/
theorem parseWith_moves : ∀ (fuel : Nat) {state : ParseState},
    1 + 8 * state.tokens.length ≤ fuel → (parseWith fuel).Moves state fun _ after =>
      after.tokens = [] ∧ ∃ token, after.ending = .ok token ∧ token.kind = .endOfInput
  | 0, _, enough => absurd enough (by omega)
  | fuel + 1, state, enough => by
      rw [parseWith_round fuel ()]
      refine (declarationRound_moves fuel ()).bind ?_
      rintro (decls | ⟨next, build⟩) after ⟨_, shorter, ends⟩
      · exact Moves.pure (ends id)
      · have shorter := shorter trivial
        refine (parseWith_moves fuel (by omega)).bind ?_
        exact fun _ _ atEnd => Moves.pure atEnd

/-- The number of tokens bounds the depth of recursion. -/
theorem parseAll_moves (state : ParseState) :
    parseAll.Moves state fun _ after =>
      after.tokens = [] ∧ ∃ token, after.ending = .ok token ∧ token.kind = .endOfInput := by
  unfold parseAll
  refine Parser.fuel_peeks.bind ?_
  rintro _ rfl
  exact parseWith_moves _ (by omega)

end Program

end SubsetC
