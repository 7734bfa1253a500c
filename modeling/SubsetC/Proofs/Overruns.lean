import SubsetC.Proofs.JoinedSources

/-!
# Sources that run out

There is one way for the lexer to fail: behind legal tokens, a string literal goes on to the end of
the source and ends there in a lone backslash, so that the byte behind the backslash would lie
beyond the end. On every other source the lexer hands on tokens up to the end of the source or up to
an illegal token, whichever comes first. The main statement is `Lexer.tokenize_outcome`.
-/

namespace SubsetC

namespace Lexer

/-- Behind legal tokens, the source ends in a string literal with a lone backslash. -/
def RunsOut (source : Text) : Prop :=
  ∃ terminals gap body, Scans source terminals (gap ++ quote :: (body ++ [backslash])) ∧
    IsGap False gap ∧ IsStringBody body

/-- A source that runs out has no tokens. -/
theorem RunsOut.terminals? {source : Text} (runsOut : RunsOut source) :
    terminals? source = none := by
  rcases runsOut with ⟨terminals, gap, body, scans, isGap, isBody⟩
  have atQuote := isGap.skipGap_append (quote :: (body ++ [backslash]))
  rw [skipGap_cons_self (by decide) fun opens => absurd opens.1 (by decide)] at atQuote
  rw [scans.terminals?, terminals?_of_cons atQuote, lexeme?_eq_none_iff.2 ⟨body, isBody, rfl⟩]
  rfl

/-- If the lexer fails, then at the end of a source that runs out. -/
theorem runsOut_of_lexFrom {source : Text} {overrun : Overrun} (cursor : Cursor)
    (isIn : cursor.In source) (fails : (lexFrom cursor).throughIllegal = .error overrun) :
    overrun = ⟨source.length⟩ ∧ RunsOut cursor.rest := by
  fun_induction lexFrom cursor with
  | case1 cursor token next reads shorter lexed ih =>
      by_cases illegal : token.kind = .illegal
      · rw [Lexed.throughIllegal_cons_illegal illegal] at fails
        cases fails
      · rw [Lexed.throughIllegal_cons_legal illegal] at fails
        have failsNext : lexed.throughIllegal = .error overrun := by
          cases outcome : lexed.throughIllegal with
          | error => rwa [outcome] at fails
          | ok => rw [outcome] at fails; cases fails
        rcases isIn.read_token reads with ⟨nextIn, -⟩
        rcases ih nextIn failsNext with ⟨place, terminals, gap, body, scans, ends⟩
        rcases isToken_of_read reads illegal with ⟨front, text, isGap, split, -, -, isToken⟩
        refine ⟨place, token.terminal :: terminals, gap, body, ?_, ends⟩
        rw [split]
        exact .token isGap isToken scans
  | case2 => cases fails
  | case3 cursor next reads =>
      rcases Cursor.exists_of_read_overrun reads with ⟨lead, rest, atLead, overruns, rfl⟩
      rcases lexeme?_eq_none_iff.1 overruns with ⟨body, isBody, split⟩
      have notNull : lead ≠ 0 := by
        cases split
        decide
      rcases exists_gap_of_skipGap atLead notNull with ⟨gap, isGap, behindGap⟩
      constructor
      · cases fails
        have isEnd := isIn.skip.1.offset_add_length
        rw [← Position.offset_advance] at isEnd
        rw [← isEnd]
        rfl
      · exact ⟨[], gap, body, by rw [behindGap, split]; exact .start, isGap, isBody⟩

/-- If the lexer hands on tokens, then the last of them, and no other one, is the end of the source
or an illegal token. -/
theorem exists_last_of_lexFrom (cursor : Cursor) (tokens : List Token)
    (accepts : (lexFrom cursor).throughIllegal = .ok tokens) :
    ∃ (front : List Token) (last : Token), tokens = front ++ [last] ∧
      (last.kind = .endOfInput ∨ last.kind = .illegal) ∧
      ∀ token ∈ front, token.kind ≠ .endOfInput ∧ token.kind ≠ .illegal := by
  fun_induction lexFrom cursor generalizing tokens with
  | case1 cursor token next reads shorter lexed ih =>
      by_cases illegal : token.kind = .illegal
      · rw [Lexed.throughIllegal_cons_illegal illegal] at accepts
        cases accepts
        exact ⟨[], token, rfl, .inr illegal, List.forall_mem_nil _⟩
      · rw [Lexed.throughIllegal_cons_legal illegal] at accepts
        cases outcome : lexed.throughIllegal with
        | error =>
            rw [outcome] at accepts
            cases accepts
        | ok more =>
            rw [outcome] at accepts
            cases accepts
            rcases ih more outcome with ⟨front, last, rfl, isLast, others⟩
            rcases Cursor.exists_of_read_token reads with ⟨lead, rest, lexeme, -, found, -, rfl⟩
            have notEnd := (fits_of_lexeme? found).kind
            exact ⟨_ :: front, last, rfl, isLast,
              List.forall_mem_cons.2 ⟨⟨notEnd, illegal⟩, others⟩⟩
  | case2 cursor token next reads =>
      cases accepts
      exact ⟨[], token, rfl, .inl (by rw [(Cursor.rest_of_read_endOfInput reads).2]),
        List.forall_mem_nil _⟩
  | case3 => cases accepts

/-- The lexer fails at the end of every source that runs out, and on no other source. Otherwise it
hands on tokens, of which the last is the end of the source or an illegal one, and no other is. -/
theorem tokenize_outcome (source : Text) :
    match tokenize source with
    | .error overrun => overrun = ⟨source.length⟩ ∧ RunsOut source
    | .ok tokens => ¬RunsOut source ∧ ∃ front last, tokens = front ++ [last] ∧
        (last.kind = .endOfInput ∨ last.kind = .illegal) ∧
        ∀ token ∈ front, token.kind ≠ .endOfInput ∧ token.kind ≠ .illegal := by
  cases outcome : tokenize source with
  | error => exact runsOut_of_lexFrom (.start source) (Cursor.start_in source) outcome
  | ok tokens =>
      refine ⟨fun runsOut => ?_, exists_last_of_lexFrom (.start source) tokens outcome⟩
      have none := runsOut.terminals?
      rw [terminals?_of_tokenize outcome] at none
      cases none

/-- A lone backslash at the end of a source matters in a string literal, but not in a comment. -/
theorem tokenize_outcome_backslash : RunsOut "x \"a\\" ∧ ¬RunsOut "x //\"a\\" := by
  constructor
  · have fails : tokenize "x \"a\\" = .error ⟨5⟩ := by decide +kernel
    have outcome := tokenize_outcome "x \"a\\"
    rw [fails] at outcome
    exact outcome.2
  · have accepts : tokenize "x //\"a\\" =
        .ok [⟨.identifier, "x", ⟨0, 1, 1, 1⟩⟩, ⟨.endOfInput, [], ⟨7, 7, 1, 8⟩⟩] := by
      decide +kernel
    have outcome := tokenize_outcome "x //\"a\\"
    rw [accepts] at outcome
    exact outcome.1

end Lexer

end SubsetC
