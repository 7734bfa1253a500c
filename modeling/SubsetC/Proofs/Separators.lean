import SubsetC.Proofs.JoinedSources

/-!
# Separators of tokens

White space behind a token ends it, whatever follows, so the white space and the comments between
tokens can be replaced without changing the tokens. The main statement is `Lexer.tokenize_respaced`.
-/

namespace SubsetC

namespace Lexer

/-- White space and then white space and comments, each with its end. -/
inductive IsSeparator : Text → Prop where
  | intro {byte : UInt8} {rest : Text} (blank : isBlank byte) (isGap : IsGap False rest) :
      IsSeparator (byte :: rest)

theorem IsSeparator.isGap {gap : Text} (isSeparator : IsSeparator gap) : IsGap False gap := by
  rcases isSeparator with ⟨blank, isGap⟩
  exact .blank blank isGap

/-- A token goes on with no separator. -/
theorem IsToken.separated {terminal : Terminal} {text behind gap : Text}
    (isToken : IsToken terminal text behind) (isSeparator : IsSeparator gap) (more : Text) :
    IsToken terminal text (gap ++ more) := by
  refine isToken.congr fun byte isHead => .inl ?_
  rcases isSeparator with ⟨blank, -⟩
  cases isHead
  exact blank

/-- Some texts, with a gap behind each of them and one in front of the first. -/
def spaced (first : Text) (texts gaps : List Text) : Text :=
  first ++ (List.zipWith (· ++ ·) texts gaps).flatten

theorem spaced_nil (first : Text) (gaps : List Text) : spaced first [] gaps = first := by
  rw [spaced, List.zipWith_nil_left, List.flatten_nil, List.append_nil]

theorem spaced_cons (first text gap : Text) (texts gaps : List Text) :
    spaced first (text :: texts) (gap :: gaps) = first ++ (text ++ spaced gap texts gaps) := by
  rw [spaced, List.zipWith_cons_cons, List.flatten_cons, List.append_assoc, spaced]

/-- What is read of a source is the texts of its tokens and gaps. -/
theorem exists_gaps_of_lexFrom {source : Text} {ending : Token} (cursor : Cursor)
    (isIn : cursor.In source) (lexes : (lexFrom cursor).ending = .ok ending)
    (legal : ∀ token ∈ (lexFrom cursor).tokens, token.kind ≠ .illegal) :
    ∃ first gaps, IsGap True first ∧ (∀ gap ∈ gaps, IsGap True gap) ∧
      gaps.length = (lexFrom cursor).tokens.length ∧
      cursor.rest = spaced first ((lexFrom cursor).tokens.map (Token.textIn source)) gaps := by
  fun_induction lexFrom cursor with
  | case1 cursor token next reads shorter lexed ih =>
      rw [List.forall_mem_cons] at legal
      rcases ih (isIn.read_token reads).1 lexes legal.2 with
        ⟨gap, gaps, isGap, areGaps, enough, split⟩
      rcases isIn.isToken_of_read reads legal.1 with ⟨first, isFirst, behindFirst, -⟩
      refine ⟨first, gap :: gaps, isFirst.mono False.elim,
        List.forall_mem_cons.2 ⟨isGap, areGaps⟩, congrArg Nat.succ enough, ?_⟩
      rw [behindFirst, split, List.map_cons, spaced_cons]
  | case2 cursor token next reads =>
      rcases Cursor.rest_of_read_endOfInput reads with ⟨atEnd, -⟩
      rcases skipGap_blank cursor.rest with ⟨gap, split, isGap⟩
      rw [atEnd, List.append_nil] at split
      exact ⟨gap, [], isGap.mono fun _ => trivial, List.forall_mem_nil _, rfl,
        by rw [split, List.map_nil, spaced_nil]⟩
  | case3 => cases lexes

/-- Texts of tokens, each with a separator behind it, are read as these tokens, and the last
separator is left. -/
theorem scans_spaced (source : Text) {tokens : List Token}
    (areTokens : ∀ token ∈ tokens,
      ∃ behind, IsToken token.terminal (token.textIn source) behind)
    {gaps : List Text} (areSeparators : ∀ gap ∈ gaps, IsSeparator gap)
    (enough : gaps.length = tokens.length) {first : Text} (isGap : IsGap False first) :
    ∃ left, IsGap False left ∧
      Scans (spaced first (tokens.map (Token.textIn source)) gaps) (tokens.map Token.terminal)
        left := by
  induction tokens generalizing gaps first with
  | nil =>
      refine ⟨first, isGap, ?_⟩
      rw [List.map_nil, spaced_nil]
      exact .start
  | cons token tokens ih =>
      match gaps, enough with
      | gap :: gaps, enough =>
          rw [List.forall_mem_cons] at areTokens areSeparators
          rcases ih areTokens.2 areSeparators.2 (Nat.succ.inj enough) areSeparators.1.isGap with
            ⟨left, isLast, scans⟩
          rcases areTokens.1 with ⟨behind, isToken⟩
          refine ⟨left, isLast, ?_⟩
          rw [List.map_cons, spaced_cons]
          exact .token isGap (isToken.separated areSeparators.1 _) scans

/-- A source that is lexed through its end consists of the texts of its tokens and of gaps. With
other gaps, it keeps its tokens, if those behind a token are separators. -/
theorem tokenize_respaced {source first : Text} {tokens : List Token} {ending : Token}
    {gaps : List Text} (lexes : tokenize source = .ok (tokens ++ [ending]))
    (isEnd : ending.kind = .endOfInput) (isGap : IsGap False first)
    (areSeparators : ∀ gap ∈ gaps, IsSeparator gap) (enough : gaps.length = tokens.length) :
    (∃ ownFirst ownGaps, IsGap True ownFirst ∧ (∀ gap ∈ ownGaps, IsGap True gap) ∧
      ownGaps.length = tokens.length ∧
      source = spaced ownFirst (tokens.map (Token.textIn source)) ownGaps) ∧
    ∃ others,
      tokenize (spaced first (tokens.map (Token.textIn source)) gaps) = .ok others ∧
      others.map Token.terminal = (tokens ++ [ending]).map Token.terminal := by
  rcases Lexed.of_throughIllegal lexes isEnd with ⟨rfl, isEnding, legal⟩
  refine ⟨exists_gaps_of_lexFrom (.start source) (Cursor.start_in source) isEnding legal, ?_⟩
  have areTokens : ∀ token ∈ (lex source).tokens,
      ∃ behind, IsToken token.terminal (token.textIn source) behind :=
    fun token mem => isToken_of_mem_lex token mem (legal token mem)
  rcases scans_spaced source areTokens areSeparators enough isGap with ⟨left, isLast, scans⟩
  have atEnd : skipGap .blank left = [] := by
    have skips := isLast.skipGap_append []
    rwa [List.append_nil, skipGap] at skips
  have respaced := scans.terminals?
  rw [terminals?_of_nil atEnd, ← terminal_of_lexFrom_ending (.start source) isEnding] at respaced
  rcases tokenize_of_terminals? respaced with ⟨others, relexes, terminals⟩
  refine ⟨others, relexes, ?_⟩
  rw [terminals, List.map_append, List.map_singleton]

/-- A comment between two operators keeps them two, and a tab parts a word and a number. -/
theorem tokenize_respaced_operators :
    ∃ others, tokenize "//\n+ /**/+\tx\n1 //z\n" = .ok others ∧
      others.map Token.terminal =
        [.mark .plus, .mark .plus, .name "x", ⟨.integer, "1"⟩, ⟨.endOfInput, []⟩] := by
  have lexes : tokenize "+ +x/**/1" = .ok ([⟨.punctuator .plus, "+", ⟨0, 1, 1, 1⟩⟩,
      ⟨.punctuator .plus, "+", ⟨2, 3, 1, 3⟩⟩, ⟨.identifier, "x", ⟨3, 4, 1, 4⟩⟩,
      ⟨.integer, "1", ⟨8, 9, 1, 9⟩⟩] ++ [⟨.endOfInput, [], ⟨9, 9, 1, 10⟩⟩]) := by
    decide +kernel
  have lineBody : IsLineBody (Text.ofString "z") := ⟨by decide, by decide⟩
  have isGap : IsGap False (Text.ofString "//\n") := .line isLineBody_nil .nil
  have separators : ∀ gap ∈ ([" /**/", "\t", "\n", " //z\n"] : List Text), IsSeparator gap := by
    simp only [List.forall_mem_cons]
    exact ⟨.intro (by decide) (.block isBlockBody_nil .nil), .intro (by decide) .nil,
      .intro (by decide) .nil, .intro (by decide) (.line lineBody .nil), List.forall_mem_nil _⟩
  exact (tokenize_respaced lexes rfl isGap separators rfl).2

end Lexer

end SubsetC
