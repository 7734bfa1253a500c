import SubsetC.Proofs.Reading
import SubsetC.Proofs.TokenForms
import Mathlib.Data.List.TakeWhile

/-!
# Sources one behind the other

A newline behind a source leaves its tokens as they are, so the tokens of two sources with a newline
between them are those of the first and then those of the second. There is one exception: a comment
in stars may lack its end at the end of a source, and such a comment goes on in the next source. The
main statement is `Lexer.tokenize_append_newline`.

Only the places of the tokens differ, so the tokens are compared without them (`Lexer.terminals?`).
-/

namespace SubsetC

namespace Lexer

/-! ### Tokens without places -/

theorem length_lt_of_skipGap {source rest : Text} {lead : UInt8}
    (atLead : skipGap .blank source = lead :: rest) (extra : Nat) :
    rest.length - extra < source.length := by
  have := length_skipGap_le .blank source
  rw [atLead, List.length_cons] at this
  omega

/-- The tokens of a source without their places, through the first illegal one or the end. There are
none if a string literal overruns the source. -/
def terminals? (source : Text) : Option (List Terminal) :=
  match atLead : skipGap .blank source with
  | [] => some [⟨.endOfInput, []⟩]
  | lead :: rest =>
    match lexeme? lead rest with
    | some lexeme =>
      have := length_lt_of_skipGap atLead lexeme.extra
      if lexeme.kind = .illegal then some [lexeme.terminal]
      else (terminals? (rest.drop lexeme.extra)).map (lexeme.terminal :: ·)
    | none => none
termination_by source.length

theorem terminals?_of_nil {source : Text} (atEnd : skipGap .blank source = []) :
    terminals? source = some [⟨.endOfInput, []⟩] := by
  unfold terminals?
  split
  · rfl
  · simp_all

theorem terminals?_of_cons {source rest : Text} {lead : UInt8}
    (atLead : skipGap .blank source = lead :: rest) :
    terminals? source =
      match lexeme? lead rest with
      | some lexeme =>
        if lexeme.kind = .illegal then some [lexeme.terminal]
        else (terminals? (rest.drop lexeme.extra)).map (lexeme.terminal :: ·)
      | none => none := by
  rw [terminals?]
  split
  · simp_all
  · rename_i other more same
    cases same.symm.trans atLead
    rfl

/-- The gap at the start of a source does not matter. -/
theorem terminals?_congr {source other : Text}
    (same : skipGap .blank source = skipGap .blank other) :
    terminals? source = terminals? other := by
  cases atLead : skipGap .blank other with
  | nil => rw [terminals?_of_nil (same.trans atLead), terminals?_of_nil atLead]
  | cons lead rest => rw [terminals?_of_cons (same.trans atLead), terminals?_of_cons atLead]

/-- A legal token is the first one of the source in which only a gap stands in front of it. -/
theorem IsToken.terminals? {source text behind : Text} {terminal : Terminal}
    (isToken : IsToken terminal text behind) (atToken : skipGap .blank source = text ++ behind) :
    terminals? source = (Lexer.terminals? behind).map (terminal :: ·) := by
  have legal := isToken.legal
  rcases isToken.exists_cons with ⟨lead, rest, rfl, -⟩
  rw [List.cons_append] at atToken
  rw [terminals?_of_cons atToken, isToken.lexeme?_eq]
  dsimp only
  rw [if_neg legal, List.drop_left]
  rfl

/-- The tokens that a source starts with come first. -/
theorem Scans.terminals? {source left : Text} {terminals : List Terminal}
    (scans : Scans source terminals left) :
    terminals? source = (Lexer.terminals? left).map (terminals ++ ·) := by
  induction scans with
  | start => simp
  | @token gap text behind _ _ _ isGap isToken _ ih =>
      have atToken := isGap.skipGap_append (text ++ behind)
      rw [isToken.skipGap_eq] at atToken
      rw [isToken.terminals? atToken, ih, Option.map_map]
      rfl

theorem Lexed.throughIllegal_cons_illegal {token : Token} (illegal : token.kind = .illegal)
    (tokens : List Token) (ending : Except Overrun Token) :
    throughIllegal ⟨token :: tokens, ending⟩ = .ok [token] := by
  simp [throughIllegal, illegal?, illegal]

theorem Lexed.throughIllegal_cons_legal {token : Token} (legal : token.kind ≠ .illegal)
    (tokens : List Token) (ending : Except Overrun Token) :
    throughIllegal ⟨token :: tokens, ending⟩ =
      (throughIllegal ⟨tokens, ending⟩).map (token :: ·) := by
  have skips : illegal? ⟨token :: tokens, ending⟩ = illegal? ⟨tokens, ending⟩ := by
    simp [illegal?, legal]
  simp only [throughIllegal, skips, List.takeWhile_cons, legal, ne_eq, not_false_eq_true,
    decide_true, if_true, List.cons_append]
  cases illegal? ⟨tokens, ending⟩ with
  | some illegal => rfl
  | none => cases ending <;> rfl

theorem map_toOption {α β ε : Type} (result : Except ε α) (f : α → β) :
    (result.map f).toOption = result.toOption.map f := by
  cases result <;> rfl

/-- Tokens are read the same way at any place. -/
theorem lexFrom_terminals (cursor : Cursor) :
    (lexFrom cursor).throughIllegal.toOption.map (List.map Token.terminal) =
      terminals? cursor.rest := by
  fun_induction lexFrom cursor with
  | case1 cursor token next reads shorter lexed ih =>
      rcases Cursor.exists_of_read_token reads with ⟨lead, rest, lexeme, atLead, found, rfl, rfl⟩
      rw [terminals?_of_cons atLead, found]
      dsimp only
      by_cases illegal : lexeme.kind = .illegal
      · rw [if_pos illegal, Lexed.throughIllegal_cons_illegal illegal]
        rfl
      · rw [if_neg illegal, Lexed.throughIllegal_cons_legal illegal, map_toOption, Option.map_map]
        rw [Cursor.rest_advance_skip atLead] at ih
        rw [← ih, Option.map_map]
        rfl
  | case2 cursor token next reads =>
      rcases Cursor.rest_of_read_endOfInput reads with ⟨atEnd, rfl⟩
      rw [terminals?_of_nil atEnd]
      rfl
  | case3 cursor next reads =>
      rcases Cursor.exists_of_read_overrun reads with ⟨lead, rest, atLead, overruns, -⟩
      rw [terminals?_of_cons atLead, overruns]
      rfl

theorem tokenize_terminals (source : Text) :
    (tokenize source).toOption.map (List.map Token.terminal) = terminals? source :=
  lexFrom_terminals (.start source)

/-! ### A newline behind a source -/

/-- The place where the last of some tokens ends, which are behind a given place. -/
def stopOf (place : Nat) : List Token → Nat
  | [] => place
  | token :: tokens => stopOf token.span.stop.toNat tokens

/-- A newline and more text behind a source leave all tokens of the source as they are. What is
behind the last token becomes the start of what is left to read. -/
theorem lexFrom_append_newline {source : Text} {ending : Token} (cursor : Cursor)
    (isIn : cursor.In source) (lexes : (lexFrom cursor).ending = .ok ending)
    (legal : ∀ token ∈ (lexFrom cursor).tokens, token.kind ≠ .illegal) :
    let behind := source.drop (stopOf cursor.position.offset (lexFrom cursor).tokens)
    IsGap True behind ∧ ∀ more, terminals? (cursor.rest ++ newline :: more) =
      (terminals? (behind ++ newline :: more)).map
        ((lexFrom cursor).tokens.map Token.terminal ++ ·) := by
  fun_induction lexFrom cursor with
  | case1 cursor token next reads shorter lexed ih =>
      have legalNext : ∀ token ∈ (lexFrom next).tokens, token.kind ≠ .illegal :=
        fun other isIn => legal other (List.mem_cons_of_mem token isIn)
      rcases isIn.read_token reads with ⟨nextIn, start, -, -, -, -, takes⟩
      rcases ih nextIn lexes legalNext with ⟨isGap, appends⟩
      have stop : token.span.stop.toNat = next.position.offset := by
        rw [takes.span.2, Int.toNat_natCast]
      dsimp only [stopOf]
      rw [stop]
      refine ⟨isGap, fun more => ?_⟩
      have isLegal : token.kind ≠ .illegal := legal _ List.mem_cons_self
      rcases isToken_of_read reads isLegal with ⟨gap, text, isFirst, split, -, -, isToken⟩
      have scans : Scans (gap ++ (text ++ (next.rest ++ newline :: more))) [token.terminal]
          (next.rest ++ newline :: more) :=
        .token isFirst (isToken.append (by decide : isBlank newline) more) .start
      rw [split, List.append_assoc, List.append_assoc, scans.terminals?, appends more,
        Option.map_map]
      rfl
  | case2 cursor token next reads =>
      rcases Cursor.rest_of_read_endOfInput reads with ⟨atEnd, -⟩
      rcases skipGap_blank cursor.rest with ⟨gap, split, isGap⟩
      rw [atEnd, List.append_nil] at split
      dsimp only [stopOf]
      rw [isIn.drop_offset, split]
      refine ⟨isGap.mono fun _ => trivial, fun more => ?_⟩
      simp
  | case3 => cases lexes

theorem Lexed.illegal?_eq_none {lexed : Lexed} :
    lexed.illegal? = none ↔ ∀ token ∈ lexed.tokens, token.kind ≠ .illegal := by
  simp [illegal?]

/-- All tokens are handed on if the last of them is the end of the source. -/
theorem Lexed.of_throughIllegal {lexed : Lexed} {tokens : List Token} {ending : Token}
    (accepts : lexed.throughIllegal = .ok (tokens ++ [ending]))
    (isEnd : ending.kind = .endOfInput) :
    lexed.tokens = tokens ∧ lexed.ending = .ok ending ∧
      ∀ token ∈ lexed.tokens, token.kind ≠ .illegal := by
  unfold throughIllegal at accepts
  dsimp only at accepts
  split at accepts
  · rename_i illegal found
    have isIllegal := List.find?_some found
    rcases List.append_inj' (Except.ok.inj accepts) rfl with ⟨-, same⟩
    cases same
    rw [isEnd] at isIllegal
    cases isIllegal
  · rename_i none
    have legal := Lexed.illegal?_eq_none.1 none
    have all : lexed.tokens.takeWhile (fun token => decide (token.kind ≠ .illegal)) =
        lexed.tokens := List.takeWhile_eq_self_iff.2 (by simpa using legal)
    rw [all] at accepts
    cases same : lexed.ending with
    | error => simp [same, Except.map] at accepts
    | ok last =>
        rw [same] at accepts
        rcases List.append_inj' (Except.ok.inj accepts) rfl with ⟨front, back⟩
        cases back
        exact ⟨front, rfl, legal⟩

theorem terminals?_of_tokenize {source : Text} {tokens : List Token}
    (lexes : tokenize source = .ok tokens) :
    terminals? source = some (tokens.map Token.terminal) := by
  rw [← tokenize_terminals, lexes]
  rfl

theorem tokenize_of_terminals? {source : Text} {terminals : List Terminal}
    (same : terminals? source = some terminals) :
    ∃ tokens, tokenize source = .ok tokens ∧ tokens.map Token.terminal = terminals := by
  rw [← tokenize_terminals] at same
  cases lexes : tokenize source with
  | error => simp [lexes, Except.toOption] at same
  | ok tokens => exact ⟨tokens, rfl, by simpa [lexes, Except.toOption] using same⟩

/-- A token that takes a whole source is read alone. -/
theorem IsToken.tokenize {terminal : Terminal} {text : Text} (isToken : IsToken terminal text []) :
    ∃ tokens, tokenize text = .ok tokens ∧
      tokens.map Token.terminal = [terminal, ⟨.endOfInput, []⟩] := by
  refine tokenize_of_terminals? ?_
  have scans : Scans ([] ++ (text ++ [])) [terminal] [] := .token .nil isToken .start
  rw [List.nil_append, List.append_nil] at scans
  rw [scans.terminals?, terminals?_of_nil rfl]
  rfl

/-- The tokens of two sources with a newline between them are those of the first, without its end,
and then those of the second. If what is behind the last token of the first source leaves a comment
open, that comment goes on in the second source and hides the tokens of it up to its end. -/
theorem tokenize_append_newline {front back : Text} {frontTokens backTokens : List Token}
    {frontEnd : Token} (frontLexes : tokenize front = .ok (frontTokens ++ [frontEnd]))
    (isEnd : frontEnd.kind = .endOfInput) (backLexes : tokenize back = .ok backTokens) :
    let behind := front.drop (stopOf 0 frontTokens)
    (¬LeavesCommentOpen behind → ∃ tokens, tokenize (front ++ newline :: back) = .ok tokens ∧
        tokens.map Token.terminal = (frontTokens ++ backTokens).map Token.terminal) ∧
      (LeavesCommentOpen behind →
        (tokenize (front ++ newline :: back)).toOption.map (List.map Token.terminal) =
          (tokenize (skipGap .block back)).toOption.map fun left =>
            (frontTokens ++ left).map Token.terminal) := by
  intro behind
  rcases Lexed.of_throughIllegal frontLexes isEnd with ⟨tokens, ends, legal⟩
  rcases lexFrom_append_newline (.start front) (Cursor.start_in front) ends legal with
    ⟨isGap, appends⟩
  change (lexFrom (.start front)).tokens = frontTokens at tokens
  rw [tokens] at isGap appends
  change IsGap True behind at isGap
  have joined : terminals? (front ++ newline :: back) =
      (terminals? (behind ++ newline :: back)).map (frontTokens.map Token.terminal ++ ·) :=
    appends back
  refine ⟨fun closes => ?_, fun opens => ?_⟩
  · rw [terminals?_congr (isGap.skipGap_append_newline closes back),
      terminals?_of_tokenize backLexes, ← tokenize_terminals] at joined
    cases lexes : tokenize (front ++ newline :: back) with
    | error => simp [lexes, Except.toOption] at joined
    | ok tokens =>
        refine ⟨tokens, rfl, ?_⟩
        simpa [lexes, Except.toOption] using joined
  · have skips : skipGap .blank (behind ++ newline :: back) =
        skipGap .blank (skipGap .block back) := by
      rw [opens.skipGap_append_newline, skipGap_skipGap]
    rw [tokenize_terminals, joined, terminals?_congr skips, ← tokenize_terminals, Option.map_map]
    congr 1
    funext left
    simp

/-- A comment that its line ends is closed by the newline. A comment in stars without its end hides
the identifier on the next line. -/
theorem tokenize_append_newline_comments :
    (∃ tokens, tokenize "a // b\nc" = .ok tokens ∧
      tokens.map Token.terminal = [.name "a", .name "c", ⟨.endOfInput, []⟩]) ∧
    (tokenize "/*\nc").toOption.map (List.map Token.terminal) = some [⟨.endOfInput, []⟩] := by
  have line : tokenize "a // b" =
      .ok ([⟨.identifier, "a", ⟨0, 1, 1, 1⟩⟩] ++ [⟨.endOfInput, [], ⟨6, 6, 1, 7⟩⟩]) := by
    decide +kernel
  have block : tokenize "/*" = .ok ([] ++ [⟨.endOfInput, [], ⟨2, 2, 1, 3⟩⟩]) := by
    decide +kernel
  have back : tokenize "c" =
      .ok [⟨.identifier, "c", ⟨0, 1, 1, 1⟩⟩, ⟨.endOfInput, [], ⟨1, 1, 1, 2⟩⟩] := by
    decide +kernel
  constructor
  · have closes : ¬LeavesCommentOpen (Text.ofString " // b") := by
      rintro ⟨closed, body, -, -, same⟩
      have hasStar : star ∈ Text.ofString " // b" := same ▸ by simp
      exact absurd hasStar (by decide)
    exact (tokenize_append_newline line rfl back).1 closes
  · have opens : LeavesCommentOpen (Text.ofString "/*") :=
      ⟨[], [], .nil, isBlockBody_nil, rfl⟩
    have joined := (tokenize_append_newline block rfl back).2 opens
    have rest : tokenize (skipGap .block (Text.ofString "c")) =
        .ok [⟨.endOfInput, [], ⟨0, 0, 1, 1⟩⟩] := by
      decide +kernel
    rw [rest] at joined
    exact joined

end Lexer

end SubsetC
