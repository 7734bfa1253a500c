import SubsetC.Proofs.Lexemes

/-!
# Spans of tokens

The tokens of a source and the gaps between them make up the source. The main statement is
`Lexer.lex_tiles`: each token, the illegal ones included, starts where the gap behind the token
before it ends, its span says where it stands, and its literal is what stands there.

A reader that stands at a place of a source has counted the lines and columns of all bytes in front
of the place (`Cursor.In`), however it got there.
-/

namespace SubsetC

/-! ### Places -/

/-- The column of a place: its distance from the last newline in front of it, or one more than its
offset if there is none. -/
def IsColumn (source : Text) (place column : Nat) : Prop :=
  (∃ last < place, source[last]? = some Lexer.newline ∧
      (∀ between, last < between → between < place → source[between]? ≠ some Lexer.newline) ∧
      column = place - last) ∨
    (∀ before < place, source[before]? ≠ some Lexer.newline) ∧ column = place + 1

namespace Position

theorem step_newline (position : Position) :
    position.step Lexer.newline = ⟨position.offset + 1, position.line + 1, 1⟩ := by
  simp [step]

theorem step_of_ne (position : Position) {byte : UInt8} (notNewline : byte ≠ Lexer.newline) :
    position.step byte = ⟨position.offset + 1, position.line, position.column + 1⟩ := by
  simp [step, notNewline]

theorem advance_append (position : Position) (front back : Text) :
    position.advance (front ++ back) = (position.advance front).advance back :=
  List.foldl_append

theorem advance_cons (position : Position) (byte : UInt8) (text : Text) :
    position.advance (byte :: text) = (position.step byte).advance text := rfl

theorem offset_advance (position : Position) (text : Text) :
    (position.advance text).offset = position.offset + text.length := by
  induction text generalizing position with
  | nil => rfl
  | cons byte text ih =>
      have stepped : (position.step byte).offset = position.offset + 1 := by
        unfold step
        split <;> rfl
      rw [advance_cons, ih, stepped, List.length_cons]
      omega

theorem line_advance (position : Position) (text : Text) :
    (position.advance text).line = position.line + text.count Lexer.newline := by
  induction text generalizing position with
  | nil => rfl
  | cons byte text ih =>
      rw [advance_cons, ih]
      by_cases isNewline : byte = Lexer.newline
      · rw [isNewline, step_newline, List.count_cons_self]
        dsimp only
        omega
      · rw [step_of_ne position isNewline, List.count_cons_of_ne isNewline]

/-- The column behind a text, wherever the text goes on. -/
theorem column_advance (front back : Text) :
    IsColumn (front ++ back) front.length (start.advance front).column := by
  induction front using List.reverseRecOn generalizing back with
  | nil => exact .inr ⟨by simp, rfl⟩
  | append_singleton front byte ih =>
      have here : (front ++ byte :: back)[front.length]? = some byte := by simp
      have earlier := ih (byte :: back)
      rw [advance_append, List.length_append, List.length_singleton, List.append_assoc,
        List.singleton_append, advance_cons]
      by_cases isNewline : byte = Lexer.newline
      · rw [isNewline, step_newline]
        refine .inl ⟨front.length, by omega, isNewline ▸ here, by omega, ?_⟩
        exact (Nat.add_sub_cancel_left ..).symm
      rw [step_of_ne _ isNewline]
      have solid : (front ++ byte :: back)[front.length]? ≠ some Lexer.newline := by
        rw [here]
        simpa using isNewline
      have inFront {place : Nat} (before : place < front.length + 1)
          (other : place ≠ front.length) : place < front.length := by omega
      rcases earlier with ⟨last, lastInFront, lastNewline, isLast, column⟩ | ⟨none, column⟩
      · refine .inl ⟨last, by omega, lastNewline, ?_, ?_⟩
        · intro between behind before
          by_cases other : between = front.length
          · exact other ▸ solid
          · exact isLast between behind (inFront before other)
        · change (start.advance front).column + 1 = _
          omega
      · refine .inr ⟨?_, congrArg (· + 1) column⟩
        intro place before
        by_cases other : place = front.length
        · exact other ▸ solid
        · exact none place (inFront before other)

end Position

/-! ### Tokens in their source -/

/-- A token takes the text between two places of a source. -/
structure Token.Takes (token : Token) (source : Text) (start stop : Nat) : Prop where
  /-- The span is between the places. -/
  span : token.span.start = start ∧ token.span.stop = stop
  /-- The line is one more than the number of newlines in front. -/
  line : token.span.line = 1 + (source.take start).count Lexer.newline
  /-- The column counts from the last newline in front. -/
  column : ∃ column : Nat, token.span.column = column ∧ IsColumn source start column
  literal : token.literal = Lexer.literalOf token.kind (source.extract start stop)

namespace Lexer

/-- Between two places of a source there is only a gap. -/
def HasGap (source : Text) (start stop : Nat) : Prop :=
  start ≤ stop ∧ IsGap (CutsOff (source.drop stop)) (source.extract start stop)

/-- Tokens and the gaps in front of them make up a source from a place on. The last token is the end
of the source, which takes no text. -/
inductive Tiles (source : Text) : Nat → List Token → Prop
  | ending {place : Nat} {token : Token} : HasGap source place source.length →
      token.kind = .endOfInput → token.Takes source source.length source.length →
      Tiles source place [token]
  | token {place start stop : Nat} {token : Token} {tokens : List Token} :
      HasGap source place start → start < stop → stop ≤ source.length →
      token.kind ≠ .endOfInput → token.Takes source start stop → Tiles source stop tokens →
      Tiles source place (token :: tokens)

/-! ### Reading -/

namespace Cursor

/-- The reader stands at a place of a source, and knows its line and column. -/
def In (cursor : Cursor) (source : Text) : Prop :=
  ∃ before, source = before ++ cursor.rest ∧ cursor.position = Position.start.advance before

theorem start_in (source : Text) : (start source).In source := ⟨[], rfl, rfl⟩

/-- White space and comments are skipped up to a place where neither starts. -/
theorem rest_skip (cursor : Cursor) : cursor.skip.rest = skipGap .blank cursor.rest := by
  rcases skipGap_blank cursor.rest with ⟨gap, split, -⟩
  have width : cursor.rest.length - (skipGap .blank cursor.rest).length = gap.length := by
    have := congrArg List.length split
    rw [List.length_append] at this
    omega
  change cursor.rest.drop (cursor.rest.length - (skipGap .blank cursor.rest).length) = _
  rw [width]
  conv_lhs => rw [split]
  exact List.drop_left

theorem rest_advance_skip {cursor : Cursor} {lead : UInt8} {rest : Text}
    (atLead : skipGap .blank cursor.rest = lead :: rest) (extra : Nat) :
    (cursor.skip.advance (extra + 1)).rest = rest.drop extra := by
  change cursor.skip.rest.drop (extra + 1) = _
  rw [rest_skip, atLead, List.drop_succ_cons]

/-- A token that is read is the lexeme behind the gap, and the reader goes on behind it. -/
theorem exists_of_read_token {cursor next : Cursor} {token : Token}
    (reads : read cursor = .token token next) :
    ∃ lead rest lexeme, skipGap .blank cursor.rest = lead :: rest ∧
      lexeme? lead rest = some lexeme ∧ next = cursor.skip.advance (lexeme.extra + 1) ∧
      token = ⟨lexeme.kind, lexeme.literal, .ofWidth cursor.skip.position (lexeme.extra + 1)⟩ := by
  unfold read readToken at reads
  rw [rest_skip] at reads
  split at reads
  · cases reads
  · rename_i lead rest atLead
    split at reads
    · rename_i kind literal extra found
      cases reads
      exact ⟨lead, rest, _, atLead, found, rfl, rfl⟩
    · cases reads

section In

variable {cursor : Cursor} {source : Text}

theorem In.advance (isIn : cursor.In source) (width : Nat) : (cursor.advance width).In source := by
  rcases isIn with ⟨before, split, counted⟩
  refine ⟨before ++ cursor.rest.take width, ?_, ?_⟩
  · change source = _ ++ cursor.rest.drop width
    rw [List.append_assoc, List.take_append_drop, split]
  · rw [Position.advance_append, ← counted]
    rfl

theorem In.offset_eq {before : Text} (counted : cursor.position = Position.start.advance before) :
    cursor.position.offset = before.length := by
  rw [counted, Position.offset_advance]
  exact Nat.zero_add _

theorem In.drop_offset (isIn : cursor.In source) :
    source.drop cursor.position.offset = cursor.rest := by
  rcases isIn with ⟨before, split, counted⟩
  rw [In.offset_eq counted, split, List.drop_left]

theorem In.offset_add_length (isIn : cursor.In source) :
    cursor.position.offset + cursor.rest.length = source.length := by
  rcases isIn with ⟨before, split, counted⟩
  rw [In.offset_eq counted, split, List.length_append]

theorem offset_advance (cursor : Cursor) {width : Nat} (fits : width ≤ cursor.rest.length) :
    (cursor.advance width).position.offset = cursor.position.offset + width := by
  change (cursor.position.advance _).offset = _
  rw [Position.offset_advance, List.length_take, Nat.min_eq_left fits]

/-- The text between the reader and a place that it reaches. -/
theorem In.extract_advance (isIn : cursor.In source) (width : Nat) :
    source.extract cursor.position.offset (cursor.position.offset + width) =
      cursor.rest.take width := by
  rw [List.extract_eq_take_drop, isIn.drop_offset, Nat.add_sub_cancel_left]

/-- A token that is as wide as it should be takes the text in front of the reader. -/
theorem In.takes (isIn : cursor.In source) (width : Nat) {kind : TokenKind} {literal : Text}
    (isLiteral : literal = literalOf kind (cursor.rest.take width)) :
    Token.Takes ⟨kind, literal, .ofWidth cursor.position width⟩ source cursor.position.offset
      (cursor.position.offset + width) := by
  refine ⟨⟨rfl, by simp [Span.ofWidth]⟩, ?_, ⟨cursor.position.column, rfl, ?_⟩, ?_⟩
  · rcases isIn with ⟨before, split, counted⟩
    rw [In.offset_eq counted, split, List.take_left, counted]
    change ((Position.start.advance before).line : Int) = _
    rw [Position.line_advance]
    simp [Position.start]
  · rcases isIn with ⟨before, split, counted⟩
    rw [In.offset_eq counted, split, counted]
    exact Position.column_advance before cursor.rest
  · rw [isIn.extract_advance]
    exact isLiteral

/-- What is skipped is a gap. -/
theorem In.skip (isIn : cursor.In source) :
    cursor.skip.In source ∧ HasGap source cursor.position.offset cursor.skip.position.offset := by
  rcases skipGap_blank cursor.rest with ⟨gap, split, isGap⟩
  have width : cursor.rest.length - (skipGap .blank cursor.rest).length = gap.length := by
    have := congrArg List.length split
    rw [List.length_append] at this
    omega
  have fits : gap.length ≤ cursor.rest.length := by omega
  have skipped : cursor.skip = cursor.advance gap.length := by rw [Cursor.skip, width]
  have skipIn : cursor.skip.In source := skipped ▸ isIn.advance _
  refine ⟨skipIn, ?_, ?_⟩
  · rw [skipped, offset_advance cursor fits]
    omega
  · rw [skipIn.drop_offset, rest_skip, skipped, offset_advance cursor fits, isIn.extract_advance]
    have isText : cursor.rest.take gap.length = gap := by
      conv_lhs => rw [split]
      exact List.take_left
    rw [isText]
    exact isGap

/-- A token that is read takes text behind a gap, and the reader goes on behind that text. -/
theorem In.read_token {token : Token} {next : Cursor} (isIn : cursor.In source)
    (reads : read cursor = .token token next) :
    next.In source ∧ ∃ start, HasGap source cursor.position.offset start ∧
      start < next.position.offset ∧ next.position.offset ≤ source.length ∧
      token.kind ≠ .endOfInput ∧ token.Takes source start next.position.offset := by
  rcases isIn.skip with ⟨skipIn, gap⟩
  rcases exists_of_read_token reads with ⟨lead, rest, lexeme, atLead, found, rfl, rfl⟩
  have fits := fits_of_lexeme? found
  rw [← atLead, ← rest_skip] at fits
  have reaches : (cursor.skip.advance (lexeme.extra + 1)).position.offset = _ :=
    offset_advance cursor.skip fits.length
  have length := (skipIn.advance (lexeme.extra + 1)).offset_add_length
  refine ⟨skipIn.advance _, _, gap, by omega, by omega, fits.kind, ?_⟩
  rw [reaches]
  exact skipIn.takes _ fits.literal

/-- The end of a source is read where only a gap is left. -/
theorem rest_of_read_endOfInput {token : Token} {next : Cursor}
    (reads : read cursor = .endOfInput token next) : skipGap .blank cursor.rest = [] ∧
      token = ⟨.endOfInput, [], .ofWidth cursor.skip.position 0⟩ := by
  unfold read readToken at reads
  rw [rest_skip] at reads
  split at reads
  · rename_i atEnd
    cases reads
    exact ⟨atEnd, rfl⟩
  · split at reads <;> cases reads

/-- The source is overrun by what stands behind the gap. -/
theorem exists_of_read_overrun {next : Cursor} (reads : read cursor = .overrun next) :
    ∃ lead rest, skipGap .blank cursor.rest = lead :: rest ∧ lexeme? lead rest = none ∧
      next = cursor.skip.overrun := by
  unfold read readToken at reads
  rw [rest_skip] at reads
  split at reads
  · cases reads
  · rename_i lead rest atLead
    split at reads
    · cases reads
    · rename_i overruns
      cases reads
      exact ⟨lead, rest, atLead, overruns, rfl⟩

/-- The end of a source is read behind a gap, where nothing is left. -/
theorem In.read_endOfInput {token : Token} {next : Cursor} (isIn : cursor.In source)
    (reads : read cursor = .endOfInput token next) :
    HasGap source cursor.position.offset source.length ∧ token.kind = .endOfInput ∧
      token.Takes source source.length source.length := by
  rcases isIn.skip with ⟨skipIn, gap⟩
  rcases rest_of_read_endOfInput reads with ⟨atEnd, rfl⟩
  have isEnd := skipIn.offset_add_length
  rw [rest_skip, atEnd, List.length_nil, Nat.add_zero] at isEnd
  rw [← isEnd]
  exact ⟨gap, rfl, skipIn.takes 0 rfl⟩

end In

end Cursor

/-- Reading on from a place of a source tiles what is left of it. -/
theorem lexFrom_tiles {source : Text} {ending : Token} (cursor : Cursor)
    (isIn : cursor.In source) (lexes : (lexFrom cursor).ending = .ok ending) :
    Tiles source cursor.position.offset ((lexFrom cursor).tokens ++ [ending]) := by
  fun_induction lexFrom cursor with
  | case1 cursor token next reads shorter lexed ih =>
      rcases isIn.read_token reads with ⟨nextIn, start, gap, nonempty, inside, kind, takes⟩
      exact .token gap nonempty inside kind takes (ih nextIn lexes)
  | case2 cursor token next reads =>
      cases lexes
      rcases isIn.read_endOfInput reads with ⟨gap, kind, takes⟩
      exact .ending gap kind takes
  | case3 cursor next reads => cases lexes

/-- The tokens of a source, through its end and whether or not some are illegal, tile the source. -/
theorem lex_tiles {source : Text} {ending : Token} (lexes : (lex source).ending = .ok ending) :
    Tiles source 0 ((lex source).tokens ++ [ending]) :=
  lexFrom_tiles (.start source) (Cursor.start_in source) lexes

/-- The case of two lines with a comment on the first and an illegal byte on the second. -/
theorem lex_tiles_lines :
    let source : Text := "x // y\n @ 'a'"
    let ending : Token := ⟨.endOfInput, [], ⟨13, 13, 2, 7⟩⟩
    (lex source).ending = .ok ending ∧
      Tiles source 0 [⟨.identifier, "x", ⟨0, 1, 1, 1⟩⟩, ⟨.illegal, "@", ⟨8, 9, 2, 2⟩⟩,
        ⟨.character, "a", ⟨10, 13, 2, 4⟩⟩, ending] := by
  intro source ending
  have lexes : (lex source).ending = .ok ending := by decide +kernel
  have tokens : (lex source).tokens = [⟨.identifier, "x", ⟨0, 1, 1, 1⟩⟩,
      ⟨.illegal, "@", ⟨8, 9, 2, 2⟩⟩, ⟨.character, "a", ⟨10, 13, 2, 4⟩⟩] := by decide +kernel
  have tiles := lex_tiles lexes
  rw [tokens] at tiles
  exact ⟨lexes, tiles⟩

end Lexer

end SubsetC
