import SubsetC.Proofs.DeclReading

/-!
# Statements are read back

The main statement is `Stmt.parseBlock_spelling`. A text of a block is parsed as that block, up to
the numbers and places of its nodes, and nothing behind it is consumed, if no else in it stands
behind a branch that would take it over. And in all blocks that are parsed, none does.

The token behind a statement matters only if it is an else. One lemma for each form of statements
puts texts together that are read as `Stmt.ReadAs` says, in front of a token that `Stmt.Follows`
the statement. Conversely a statement that ends open leaves the parser in front of no else, for it
would have been taken.
-/

namespace SubsetC

open SubsetC.Parser (Reads Sees sees_of_spell)

variable {ending : Except Lexer.Overrun Token} {before middle after : List Token}
  {text : List Terminal}

/-! ### What texts of statements are read as -/

/-- A kind with which a statement can start. -/
def Stmt.Starts (kind : TokenKind) : Prop :=
  kind ≠ .illegal ∧ kind ≠ .endOfInput ∧ kind ≠ .punctuator .rightBrace ∧
    kind.isSpecifier = false ∧ kind ≠ .keyword .else

/-- A kind that goes on with no statement in front of it. -/
def Stmt.Follows (stmt : Stmt) (kind : TokenKind) : Prop :=
  stmt.EndsOpen → kind ≠ .keyword .else

/-- A text is read as a statement. Two steps are enough for each token. -/
structure Stmt.ReadAs (text : List Terminal) (stmt : Stmt) : Prop where
  /-- It starts like a statement. -/
  starts : ∃ terminal rest, text = terminal :: rest ∧ Stmt.Starts terminal.kind
  /-- Behind it, there is nothing that goes on with the statement. -/
  reads : ∀ (ending : Except Lexer.Overrun Token) (before after : List Token) (fuel : Nat),
    Terminal.Spell before text after → Sees ending after stmt.Follows → 2 * text.length ≤ fuel →
    Reads ending (Stmt.parseWith fuel) before after
      fun result => result.unplaced = stmt.unplaced

/-- A text is read as the items of a block, up to the brace behind them. -/
structure Item.ReadListAs (text : List Terminal) (items : List Item) : Prop where
  /-- It goes on with no statement. -/
  starts : ∀ terminal ∈ text.head?, terminal.kind ≠ .illegal ∧ terminal.kind ≠ .keyword .else
  /-- Behind it, there is a closing brace. -/
  reads : ∀ (ending : Except Lexer.Overrun Token) (before after : List Token) (closing : Token)
    (fuel : Nat), closing.kind = .punctuator .rightBrace →
    Terminal.Spell before text (closing :: after) → 2 * text.length + 1 ≤ fuel →
    Reads ending (Item.parseList fuel) before (closing :: after)
      fun results => Item.unplacedList results = Item.unplacedList items

/-- Items in braces are read as a block, whatever is behind them. -/
theorem Item.ReadListAs.parseBlock_reads {items : List Item} {fuel : Nat}
    (areItems : Item.ReadListAs text items)
    (spell : Terminal.Spell before (Terminal.braces text) after)
    (enough : 2 * text.length + 2 ≤ fuel) :
    Reads ending (Stmt.parseBlock fuel) before after
      fun result => Item.unplacedList result.2 = Item.unplacedList items := by
  rcases Nat.exists_eq_add_of_le' (by omega : 1 ≤ fuel) with ⟨fuel, rfl⟩
  rcases spell.cons with ⟨opening, tokens, rfl, isOpening, -, spell⟩
  rcases spell.snoc with ⟨closing, itemsSpell, isClosing⟩
  rw [Stmt.parseBlock]
  refine (Parser.expectMark_reads isOpening).bind ?_
  intro _ _
  refine (areItems.reads ending tokens after closing fuel isClosing itemsSpell (by omega)).bind ?_
  intro results same
  refine Parser.skip_bind (Parser.legal_of_mark isClosing) ?_
  exact Parser.located_reads _ fun _ => same

namespace Stmt.ReadAs

open Stmt

variable {loc : Loc} {value condition : Expr} {stmt body : Stmt} {bodyText : List Terminal}

/-- A text that starts with a reserved word. -/
theorem of_word {word : Keyword} {more : List Terminal} (starts : Stmt.Starts (.keyword word))
    (reads : ∀ (ending : Except Lexer.Overrun Token) (token : Token) (tokens after : List Token)
      (fuel : Nat), token.kind = .keyword word → Terminal.Spell tokens more after →
      Sees ending after stmt.Follows → 2 * more.length + 1 ≤ fuel →
      Reads ending (parseWith (fuel + 1)) (token :: tokens) after
        fun result => result.unplaced = stmt.unplaced) :
    ReadAs (.word word :: more) stmt where
  starts := ⟨_, _, rfl, starts⟩
  reads := by
    intro ending before after fuel spell sees enough
    rcases spell.cons with ⟨token, tokens, rfl, isWord, -, spell⟩
    rw [List.length_cons] at enough
    rcases Nat.exists_eq_add_of_le' (by omega : 1 ≤ fuel) with ⟨fuel, rfl⟩
    exact reads ending token tokens after fuel isWord spell sees (by omega)

theorem starts_word {word : Keyword}
    (isStmt : word ∈ [.return, .if, .while, .do, .for, .switch, .case, .default, .break,
      .continue]) : Stmt.Starts (.keyword word) := by
  simp only [List.mem_cons, List.not_mem_nil, or_false] at isStmt
  rcases isStmt with rfl | rfl | rfl | rfl | rfl | rfl | rfl | rfl | rfl | rfl
  all_goals exact ⟨by simp, by simp, by simp, rfl, by simp⟩

theorem starts_expr {kind : TokenKind} (starts : Expr.Starts kind) : Stmt.Starts kind := by
  refine ⟨starts.legal, ?_, starts.ne_mark (by simp), starts.not_specifier, ?_⟩
  · rintro rfl
    exact starts
  · rintro rfl
    exact starts

theorem ret {value : Option Expr} (isValue : Expr.SpelledAsOption value text) :
    ReadAs (.word .return :: (text ++ [Terminal.mark .semicolon])) (.ret loc value) := by
  refine of_word (starts_word (by simp)) ?_
  intro ending token tokens after fuel isWord spell _ _
  rcases spell.snoc with ⟨closing, valueSpell, isClosing⟩
  rw [parseWith]
  refine Parser.current_bind (by simp [isWord]) ?_
  simp only [isWord]
  refine Parser.skip_bind (by simp [isWord]) ?_
  refine (isValue.parseUnless_reads (.inl rfl) isClosing valueSpell).bind ?_
  intro found same
  refine (Parser.expectMark_reads isClosing).bind ?_
  intro _ _
  exact Parser.located_reads _ fun _ => by simp only [unplaced, same]

theorem expr (isValue : value.SpelledAs true text) :
    ReadAs (text ++ [Terminal.mark .semicolon]) (.expr loc value) where
  starts := by
    rcases isValue.readAs.starts with ⟨terminal, rest, rfl, starts⟩
    exact ⟨terminal, _, rfl, starts_expr starts⟩
  reads := by
    intro ending before after fuel spell _ enough
    rcases spell.snoc with ⟨closing, valueSpell, isClosing⟩
    rw [List.length_append, List.length_singleton] at enough
    rcases Nat.exists_eq_add_of_le' (by omega : 1 ≤ fuel) with ⟨fuel, rfl⟩
    rw [parseWith]
    refine (Parser.current_reads_sees (isValue.sees_starts valueSpell)).bind ?_
    intro token starts
    split
    case h_13 =>
      rw [if_neg (by simp [starts.not_specifier])]
      refine (isValue.parse_reads valueSpell (Expr.sees_closing isClosing (by simp))).bind ?_
      intro found same
      refine (Parser.expectMark_reads isClosing).bind ?_
      intro _ _
      exact Parser.located_reads _ fun _ => by simp only [unplaced, same]
    -- No other statement starts like an expression.
    all_goals
      rename_i isOther
      rw [isOther] at starts
      simp [Expr.Starts, Expr.unaryOp?, Expr.stepOp?] at starts

theorem block {items : List Item} (areItems : Item.ReadListAs text items) :
    ReadAs (Terminal.braces text) (.block loc items) where
  starts := ⟨_, _, rfl, by simp, by simp, by simp, rfl, by simp⟩
  reads := by
    intro ending before after fuel spell _ enough
    have length : (Terminal.braces text).length = text.length + 2 := by simp [Terminal.braces]
    rcases Nat.exists_eq_add_of_le' (by omega : 1 ≤ fuel) with ⟨fuel, rfl⟩
    rcases spell.cons with ⟨opening, tokens, rfl, isOpening, -, -⟩
    rw [parseWith]
    refine Parser.current_bind (Parser.legal_of_mark isOpening) ?_
    simp only [isOpening]
    refine (areItems.parseBlock_reads spell (by omega)).bind ?_
    rintro ⟨_, found⟩ same
    exact Reads.pure (by simp only [unplaced, same])

/-- The statement that another one ends in is read, and the node of the other is numbered. -/
theorem last_reads {build : Loc → Stmt → Stmt} {fuel : Nat} {span : Span}
    (isBody : ReadAs text body) (spell : Terminal.Spell before text after)
    (sees : Sees ending after body.Follows) (enough : 2 * text.length ≤ fuel)
    (agrees : ∀ loc found, found.unplaced = body.unplaced →
      (build loc found).unplaced = stmt.unplaced) :
    Reads ending (do
      let body ← parseWith fuel
      pure (build (← Parser.newLoc span) body)) before after
        fun found => found.unplaced = stmt.unplaced :=
  (isBody.reads ending before after fuel spell sees enough).bind fun found same =>
    Parser.located_reads span fun loc => agrees loc found same

theorem ifThen (isCondition : condition.SpelledAs true text) (isThen : ReadAs bodyText body) :
    ReadAs (.word .if :: (Terminal.enclose true text ++ bodyText))
      (.ifThen loc condition body) := by
  refine of_word (starts_word (by simp)) ?_
  intro ending token tokens after fuel isWord spell sees enough
  rcases spell.append with ⟨middle, conditionSpell, bodySpell⟩
  rw [List.length_append] at enough
  rw [parseWith]
  refine Parser.current_bind (by simp [isWord]) ?_
  simp only [isWord]
  refine Parser.skip_bind (by simp [isWord]) ?_
  refine (isCondition.parseParenthesized_reads conditionSpell).bind ?_
  intro found same
  refine (isThen.reads ending middle after fuel bodySpell
    (sees.mono fun _ follows _ => follows trivial) (by omega)).bind ?_
  intro thenFound thenSame
  refine (Parser.currentIs_reads_not (sees.mono fun _ follows => follows trivial)).bind ?_
  rintro _ rfl
  exact Parser.located_reads _ fun _ => by simp only [unplaced, same, thenSame]

theorem ifElse {elseBranch : Stmt} {elseText : List Terminal} (closed : ¬body.EndsOpen)
    (isCondition : condition.SpelledAs true text) (isThen : ReadAs bodyText body)
    (isElse : ReadAs elseText elseBranch) :
    ReadAs (.word .if :: (Terminal.enclose true text ++ (bodyText ++ .word .else :: elseText)))
      (.ifElse loc condition body elseBranch) := by
  refine of_word (starts_word (by simp)) ?_
  intro ending token tokens after fuel isWord spell sees enough
  rcases spell.append with ⟨middle, conditionSpell, spell⟩
  rcases spell.append with ⟨behind, bodySpell, spell⟩
  rcases spell.cons with ⟨word, rest, rfl, isElseWord, -, elseSpell⟩
  simp only [List.length_append, List.length_cons] at enough
  rw [parseWith]
  refine Parser.current_bind (by simp [isWord]) ?_
  simp only [isWord]
  refine Parser.skip_bind (by simp [isWord]) ?_
  refine (isCondition.parseParenthesized_reads conditionSpell).bind ?_
  intro found same
  refine (isThen.reads ending middle _ fuel bodySpell
    (Parser.sees_cons (by simp [isElseWord]) fun opens => absurd opens closed) (by omega)).bind ?_
  intro thenFound thenSame
  refine (Parser.currentIs_reads isElseWord (by simp [isElseWord])).bind ?_
  rintro _ rfl
  refine Parser.skip_bind (by simp [isElseWord]) ?_
  exact isElse.last_reads elseSpell sees (by omega)
    fun _ _ elseSame => by simp only [unplaced, same, thenSame, elseSame]

theorem whileLoop (isCondition : condition.SpelledAs true text) (isBody : ReadAs bodyText body) :
    ReadAs (.word .while :: (Terminal.enclose true text ++ bodyText))
      (.whileLoop loc none condition body) := by
  refine of_word (starts_word (by simp)) ?_
  intro ending token tokens after fuel isWord spell sees enough
  rcases spell.append with ⟨middle, conditionSpell, bodySpell⟩
  rw [List.length_append] at enough
  rw [parseWith]
  refine Parser.current_bind (by simp [isWord]) ?_
  simp only [isWord]
  refine Parser.skip_bind (by simp [isWord]) ?_
  refine (isCondition.parseParenthesized_reads conditionSpell).bind ?_
  intro found same
  exact isBody.last_reads bodySpell sees (by omega)
    fun _ _ bodySame => by simp only [unplaced, same, bodySame]

theorem doWhile (isBody : ReadAs bodyText body) (isCondition : condition.SpelledAs true text) :
    ReadAs (.word .do :: (bodyText ++ Terminal.word .while ::
      (Terminal.enclose true text ++ [Terminal.mark .semicolon])))
      (.doWhile loc none body condition) := by
  refine of_word (starts_word (by simp)) ?_
  intro ending token tokens after fuel isWord spell _ enough
  rcases spell.append with ⟨middle, bodySpell, spell⟩
  rcases spell.cons with ⟨word, rest, rfl, isWhile, -, spell⟩
  rcases spell.snoc with ⟨closing, conditionSpell, isClosing⟩
  rw [List.length_append] at enough
  rw [parseWith]
  refine Parser.current_bind (by simp [isWord]) ?_
  simp only [isWord]
  refine Parser.skip_bind (by simp [isWord]) ?_
  refine (isBody.reads ending _ _ fuel bodySpell
    (Parser.sees_cons (by simp [isWhile]) fun _ => by simp [isWhile]) (by omega)).bind ?_
  intro found same
  refine (Parser.expect_reads isWhile (by simp [isWhile])).bind ?_
  intro _ _
  refine (isCondition.parseParenthesized_reads conditionSpell).bind ?_
  intro conditionFound conditionSame
  refine (Parser.expectMark_reads isClosing).bind ?_
  intro _ _
  exact Parser.located_reads _ fun _ => by simp only [unplaced, same, conditionSame]

theorem forLoop {init : ForInit} {condition post : Option Expr}
    {initText conditionText postText : List Terminal} (isInit : init.SpelledAs initText)
    (isCondition : Expr.SpelledAsOption condition conditionText)
    (isPost : Expr.SpelledAsOption post postText) (isBody : ReadAs bodyText body) :
    ReadAs (.word .for :: .mark .leftParen :: (initText ++ (conditionText ++ .mark .semicolon ::
      (postText ++ .mark .rightParen :: bodyText))))
      (.forLoop loc none init condition post body) := by
  refine of_word (starts_word (by simp)) ?_
  intro ending token tokens after fuel isWord spell sees enough
  rcases spell.cons with ⟨opening, rest, rfl, isOpening, -, spell⟩
  rcases spell.append with ⟨_, initSpell, spell⟩
  rcases spell.append with ⟨_, conditionSpell, spell⟩
  rcases spell.cons with ⟨semicolon, _, rfl, isSemicolon, -, spell⟩
  rcases spell.append with ⟨_, postSpell, spell⟩
  rcases spell.cons with ⟨closing, _, rfl, isClosing, -, bodySpell⟩
  simp only [List.length_append, List.length_cons] at enough
  rw [parseWith]
  refine Parser.current_bind (by simp [isWord]) ?_
  simp only [isWord]
  refine Parser.skip_bind (by simp [isWord]) ?_
  refine (Parser.expectMark_reads isOpening).bind ?_
  intro _ _
  refine (isInit.parse_reads initSpell).bind ?_
  intro initFound initSame
  refine (isCondition.parseUnless_reads (.inl rfl) isSemicolon conditionSpell).bind ?_
  intro conditionFound conditionSame
  refine (Parser.expectMark_reads isSemicolon).bind ?_
  intro _ _
  refine (isPost.parseUnless_reads (.inr rfl) isClosing postSpell).bind ?_
  intro postFound postSame
  refine (Parser.expectMark_reads isClosing).bind ?_
  intro _ _
  exact isBody.last_reads bodySpell sees (by omega) fun _ _ bodySame => by
    simp only [unplaced, initSame, conditionSame, postSame, bodySame]

theorem switch (isValue : value.SpelledAs true text) (isBody : ReadAs bodyText body) :
    ReadAs (.word .switch :: (Terminal.enclose true text ++ bodyText))
      (.switch loc none value body []) := by
  refine of_word (starts_word (by simp)) ?_
  intro ending token tokens after fuel isWord spell sees enough
  rcases spell.append with ⟨middle, valueSpell, bodySpell⟩
  rw [List.length_append] at enough
  rw [parseWith]
  refine Parser.current_bind (by simp [isWord]) ?_
  simp only [isWord]
  refine Parser.skip_bind (by simp [isWord]) ?_
  refine (isValue.parseParenthesized_reads valueSpell).bind ?_
  intro found same
  exact isBody.last_reads bodySpell sees (by omega)
    fun _ _ bodySame => by simp only [unplaced, same, bodySame]

theorem case (isValue : value.SpelledAs true text) (isBody : ReadAs bodyText body) :
    ReadAs (.word .case :: (text ++ .mark .colon :: bodyText)) (.case loc none value body) := by
  refine of_word (starts_word (by simp)) ?_
  intro ending token tokens after fuel isWord spell sees enough
  rcases spell.append with ⟨middle, valueSpell, spell⟩
  rcases spell.cons with ⟨colon, rest, rfl, isColon, -, bodySpell⟩
  simp only [List.length_append, List.length_cons] at enough
  rw [parseWith]
  refine Parser.current_bind (by simp [isWord]) ?_
  simp only [isWord]
  refine Parser.skip_bind (by simp [isWord]) ?_
  refine (isValue.parse_reads valueSpell (Expr.sees_closing isColon (by simp))).bind ?_
  intro found same
  refine (Parser.expectMark_reads isColon).bind ?_
  intro _ _
  exact isBody.last_reads bodySpell sees (by omega)
    fun _ _ bodySame => by simp only [unplaced, same, bodySame]

theorem default (isBody : ReadAs bodyText body) :
    ReadAs (.word .default :: .mark .colon :: bodyText) (.default loc none body) := by
  refine of_word (starts_word (by simp)) ?_
  intro ending token tokens after fuel isWord spell sees enough
  rcases spell.cons with ⟨colon, rest, rfl, isColon, -, bodySpell⟩
  rw [List.length_cons] at enough
  rw [parseWith]
  refine Parser.current_bind (by simp [isWord]) ?_
  simp only [isWord]
  refine Parser.skip_bind (by simp [isWord]) ?_
  refine (Parser.expectMark_reads isColon).bind ?_
  intro _ _
  exact isBody.last_reads bodySpell sees (by omega)
    fun _ _ bodySame => by simp only [unplaced, bodySame]

/-- A jump is a word with a semicolon. -/
theorem jump {word : Keyword} (isJump : word = .break ∧ stmt = .break loc none ∨
    word = .continue ∧ stmt = .continue loc none) :
    ReadAs [.word word, .mark .semicolon] stmt := by
  refine of_word (starts_word (by rcases isJump with ⟨rfl, -⟩ | ⟨rfl, -⟩ <;> simp)) ?_
  intro ending token tokens after fuel isWord spell _ _
  rcases spell.singleton with ⟨closing, rfl, isClosing, -⟩
  rw [parseWith]
  refine Parser.current_bind (by simp [isWord]) ?_
  simp only [isWord]
  rcases isJump with ⟨rfl, rfl⟩ | ⟨rfl, rfl⟩
  all_goals
    refine Parser.skip_bind (by simp [isWord]) ?_
    refine (Parser.expectMark_reads isClosing).bind ?_
    intro _ _
    exact Parser.located_reads _ fun _ => rfl

theorem null : ReadAs [.mark .semicolon] (.null loc) where
  starts := ⟨_, _, rfl, by simp, by simp, by simp, rfl, by simp⟩
  reads := by
    intro ending before after fuel spell _ enough
    rcases spell.singleton with ⟨token, rfl, isSemicolon, -⟩
    rw [List.length_singleton] at enough
    rcases Nat.exists_eq_add_of_le' (by omega : 1 ≤ fuel) with ⟨fuel, rfl⟩
    rw [parseWith]
    refine Parser.current_bind (Parser.legal_of_mark isSemicolon) ?_
    simp only [isSemicolon]
    refine Parser.skip_bind (Parser.legal_of_mark isSemicolon) ?_
    exact Parser.located_reads _ fun _ => rfl

end Stmt.ReadAs

namespace Item.ReadListAs

variable {items : List Item} {more : List Terminal}

/-- Where the items of a block start, there is no else. -/
theorem sees_follows {closing : Token} (areItems : Item.ReadListAs text items)
    (isClosing : closing.kind = .punctuator .rightBrace)
    (spell : Terminal.Spell before text (closing :: after)) (stmt : Stmt) :
    Sees ending before stmt.Follows := by
  cases text with
  | nil =>
      cases spell.nil
      exact Parser.sees_cons (by simp [isClosing]) fun _ => by simp [isClosing]
  | cons terminal text =>
      rcases areItems.starts terminal rfl with ⟨legal, notElse⟩
      exact (sees_of_spell spell legal).mono fun _ same _ => same ▸ notElse

theorem nil : Item.ReadListAs [] [] where
  starts := by simp
  reads := by
    intro ending before after closing fuel isClosing spell enough
    cases spell.nil
    rcases Nat.exists_eq_add_of_le' (by omega : 1 ≤ fuel) with ⟨fuel, rfl⟩
    rw [Item.parseList]
    refine Parser.current_bind (by simp [isClosing]) ?_
    rw [if_pos isClosing]
    exact Reads.pure rfl

theorem stmt {stmt : Stmt} (isFirst : Stmt.ReadAs text stmt)
    (areMore : Item.ReadListAs more items) :
    Item.ReadListAs (text ++ more) (.stmt stmt :: items) := by
  rcases isFirst.starts with ⟨first, rest, rfl, legal, notEnd, notClosing, notSpecifier, notElse⟩
  refine ⟨?_, ?_⟩
  · rintro _ ⟨rfl⟩
    exact ⟨legal, notElse⟩
  intro ending before after closing fuel isClosing spell enough
  rw [List.length_append] at enough
  rcases Nat.exists_eq_add_of_le' (by omega : 1 ≤ fuel) with ⟨fuel, rfl⟩
  rcases spell.append with ⟨middle, firstSpell, moreSpell⟩
  rw [Item.parseList]
  refine (Parser.current_reads_sees (sees_of_spell firstSpell legal)).bind ?_
  intro token same
  rw [if_neg (same ▸ notClosing), if_neg (same ▸ notEnd), if_neg (by simp [same, notSpecifier])]
  refine (isFirst.reads ending before middle fuel firstSpell
    (areMore.sees_follows isClosing moreSpell stmt) (by omega)).bind ?_
  intro found foundSame
  refine (areMore.reads ending middle after closing fuel isClosing moreSpell ?_).bind ?_
  · rw [List.length_cons] at enough
    omega
  intro results allSame
  exact Reads.pure (by simp only [Item.unplacedList, foundSame, allSame])

/-- What starts with specifiers is a declaration. -/
theorem of_specifiers {specifiers : Specifiers} {decls : List Decl}
    (isBasic : specifiers.base.words ≠ [])
    (reads : ∀ (ending : Except Lexer.Overrun Token) (before middle : List Token) (fuel : Nat),
      Terminal.Spell before text middle → 2 * text.length + 2 ≤ fuel →
      Sees ending before (·.isSpecifier = false) ∧
        Reads ending (Decl.parseDeclarators fuel specifiers true) before middle
          fun found => found.map Decl.unplaced = decls.map Decl.unplaced)
    (areMore : Item.ReadListAs more items) :
    Item.ReadListAs (specifiers.text ++ (text ++ more)) (decls.map .decl ++ items) where
  starts := by
    rcases Specifiers.exists_words isBasic with ⟨keyword, rest, same, isSpecifier⟩
    rw [Specifiers.text, same]
    rintro _ ⟨rfl⟩
    refine ⟨by simp, ?_⟩
    rintro ⟨rfl⟩
    cases isSpecifier
  reads := by
    intro ending before after closing fuel isClosing spell enough
    have starts : Sees ending before (·.isSpecifier = true) := Specifiers.sees_text isBasic spell
    rcases spell.append with ⟨_, wordsSpell, spell⟩
    rcases spell.append with ⟨_, textSpell, moreSpell⟩
    have positive : 1 ≤ specifiers.text.length := by
      rcases Specifiers.exists_words isBasic with ⟨keyword, rest, same, -⟩
      simp [Specifiers.text, same]
    simp only [List.length_append] at enough
    rcases Nat.exists_eq_add_of_le' (by omega : 1 ≤ fuel) with ⟨fuel, rfl⟩
    rcases reads ending _ _ fuel textSpell (by omega) with ⟨startsText, readsText⟩
    rw [Item.parseList]
    refine (Parser.current_reads_sees starts).bind ?_
    intro token isSpecifier
    rw [if_neg ?_, if_neg ?_, if_pos isSpecifier]
    · refine (Specifiers.parse_reads (by simp) isBasic wordsSpell startsText).bind ?_
      rintro _ rfl
      refine readsText.bind ?_
      intro found same
      refine (areMore.reads ending _ after closing fuel isClosing moreSpell (by omega)).bind ?_
      intro results allSame
      refine Reads.pure ?_
      rw [Item.unplacedList_append_decls, Item.unplacedList_append_decls, same, allSame]
    · intro isEnd
      rw [isEnd] at isSpecifier
      cases isSpecifier
    · intro isBrace
      rw [isBrace] at isSpecifier
      cases isSpecifier

theorem decls {specifiers : Specifiers} {decls : List Decl} {texts : List (List Terminal)}
    (nonempty : decls ≠ []) (areDecls : List.Forall₂ (Decl.SpelledAs specifiers) decls texts)
    (areMore : Item.ReadListAs more items) :
    Item.ReadListAs (specifiers.text ++ (Expr.commas texts ++ .mark .semicolon :: more))
      (decls.map .decl ++ items) := by
  have isBasic : specifiers.base.words ≠ [] := by
    cases areDecls with
    | nil => exact absurd rfl nonempty
    | cons isFirst _ => exact isFirst.words_ne_nil
  have someTexts : texts ≠ [] := by
    rintro rfl
    exact nonempty (List.forall₂_nil_right_iff.1 areDecls)
  rw [List.append_cons]
  refine of_specifiers isBasic ?_ areMore
  intro ending before middle fuel spell enough
  rw [List.length_append] at enough
  exact Decl.parseDeclarators_reads ending areDecls someTexts spell (by omega)

theorem definition {loc : Loc} {specifiers : Specifiers} {decl : FunDecl} {body : List Item}
    {bodyText : List Terminal} (isFunction : decl.SpelledAs specifiers text)
    (named : ∀ param ∈ decl.params, param.name.isEmpty = false)
    (isBody : Item.ReadListAs bodyText body) (areMore : Item.ReadListAs more items) :
    Item.ReadListAs (specifiers.text ++ (text ++ (Terminal.braces bodyText ++ more)))
      (.decl (.definition decl loc body) :: items) := by
  have isBasic : specifiers.base.words ≠ [] := isFunction.2.1 ▸ isFunction.1.words_ne_nil
  have length : (Terminal.braces bodyText).length = bodyText.length + 2 := by
    simp [Terminal.braces]
  rw [← List.append_assoc text]
  change Item.ReadListAs _ ([Decl.definition decl loc body].map .decl ++ items)
  refine of_specifiers isBasic ?_ areMore
  intro ending before middle fuel spell enough
  rw [List.length_append] at enough
  rcases Nat.exists_eq_add_of_le' (by omega : 1 ≤ fuel) with ⟨fuel, rfl⟩
  rcases spell.append with ⟨behind, headSpell, bodySpell⟩
  rcases bodySpell.cons with ⟨opening, tokens, rfl, isOpening, -, -⟩
  have ends : Sees ending (opening :: tokens) Declarator.EndsDeclarator := by
    refine Parser.sees_cons (Parser.legal_of_mark isOpening) ?_
    rw [isOpening]
    exact endsDeclarator_of_closes (by simp)
  rcases isFunction.reads ending headSpell ends with ⟨starts, reads⟩
  refine ⟨starts, ?_⟩
  rw [Decl.parseDeclarators, ← bind_assoc]
  refine reads.bind ?_
  intro declared isDeclared
  rw [isDeclared.2.1]
  simp only [FunDecl.type, Declared.opensBody, if_true]
  refine (Parser.currentIsMark_reads isOpening).bind ?_
  rintro _ rfl
  simp only [if_true]
  refine (isDeclared.requireNames_reads named).bind ?_
  intro _ _
  refine (isBody.parseBlock_reads bodySpell (by omega)).bind ?_
  rintro ⟨bodyLoc, found⟩ same
  refine Parser.located_reads _ fun loc => ?_
  simp only [List.map_cons, List.map_nil, Decl.unplaced, same]
  rw [← isFunction.2.2.1, isDeclared.unplaced_eq]

end Item.ReadListAs

/-! ### All blocks -/

theorem Item.elsesNearestList_append_decls {items : List Item} : ∀ {decls : List Decl},
    Item.ElsesNearestList (decls.map .decl ++ items) → Item.ElsesNearestList items
  | [], nearest => nearest
  | _ :: _, nearest => elsesNearestList_append_decls nearest.2

mutual

/-- A text of a statement in which every else belongs to the nearest if is read as the statement. -/
theorem Stmt.SpelledAs.readAs : ∀ {stmt : Stmt} {text : List Terminal},
    stmt.SpelledAs text → stmt.ElsesNearest → Stmt.ReadAs text stmt
  | _, _, .ret isValue, _ => .ret isValue
  | _, _, .expr isValue, _ => .expr isValue
  | _, _, .ifThen isCondition isThen, nearest => .ifThen isCondition (isThen.readAs nearest)
  | _, _, .ifElse isCondition isThen isElse, ⟨closed, thenNearest, elseNearest⟩ =>
      .ifElse closed isCondition (isThen.readAs thenNearest) (isElse.readAs elseNearest)
  | _, _, .block areItems, nearest => .block (areItems.readAs nearest)
  | _, _, .whileLoop isCondition isBody, nearest =>
      .whileLoop isCondition (isBody.readAs nearest)
  | _, _, .doWhile isBody isCondition, nearest => .doWhile (isBody.readAs nearest) isCondition
  | _, _, .forLoop isInit isCondition isPost isBody, nearest =>
      .forLoop isInit isCondition isPost (isBody.readAs nearest)
  | _, _, .switch isValue isBody, nearest => .switch isValue (isBody.readAs nearest)
  | _, _, .case isValue isBody, nearest => .case isValue (isBody.readAs nearest)
  | _, _, .default isBody, nearest => .default (isBody.readAs nearest)
  | _, _, .break _, _ => .jump (.inl ⟨rfl, rfl⟩)
  | _, _, .continue _, _ => .jump (.inr ⟨rfl, rfl⟩)
  | _, _, .null _, _ => .null

/-- A text of items in which every else belongs to the nearest if is read as the items. -/
theorem Item.SpelledAsList.readAs : ∀ {items : List Item} {text : List Terminal},
    Item.SpelledAsList items text → Item.ElsesNearestList items → Item.ReadListAs text items
  | _, _, .nil, _ => .nil
  | _, _, .stmt isFirst areMore, ⟨firstNearest, moreNearest⟩ =>
      .stmt (isFirst.readAs firstNearest) (areMore.readAs moreNearest)
  | _, _, .decls nonempty areDecls areMore, nearest =>
      .decls nonempty areDecls (areMore.readAs (Item.elsesNearestList_append_decls nearest))
  | _, _, .definition isFunction named isBody areMore, ⟨bodyNearest, moreNearest⟩ =>
      .definition isFunction named (isBody.readAs bodyNearest) (areMore.readAs moreNearest)

end

/-! ### Parsed trees -/

/-- The parser stands at no else. -/
def ParseState.AvoidsElse (state : ParseState) : Prop :=
  ∀ token, Parser.next? state.ending state.tokens = some token → token.kind ≠ .keyword .else

namespace Parser

/-- A node is numbered and built, and nothing else happens. -/
theorem located_yields {α : Type} {build : Loc → α} {state : ParseState}
    {wanted : α → ParseState → Prop} (span : Span)
    (holds : ∀ loc lastId, wanted (build loc) { state with lastId := lastId }) :
    Yields (do pure (build (← newLoc span))) state wanted :=
  holds _ _

end Parser

theorem Item.elsesNearestList_append {decls : List Decl} {items : List Item}
    (nearest : ∀ decl ∈ decls, decl.ElsesNearest) (more : Item.ElsesNearestList items) :
    Item.ElsesNearestList (decls.map .decl ++ items) := by
  induction decls with
  | nil => exact more
  | cons first rest ih =>
      rw [List.forall_mem_cons] at nearest
      exact ⟨nearest.1, ih nearest.2⟩

/-- The node of a statement without parts is numbered. -/
theorem Stmt.located_nearest {build : Loc → Stmt} {state : ParseState} (span : Span)
    (nearest : ∀ loc, (build loc).ElsesNearest) (closed : ∀ loc, ¬(build loc).EndsOpen) :
    Yields (do pure (build (← Parser.newLoc span))) state fun stmt after =>
      stmt.ElsesNearest ∧ (stmt.EndsOpen → after.AvoidsElse) :=
  Parser.located_yields span fun loc _ => ⟨nearest loc, fun opens => absurd opens (closed loc)⟩

/-- The node of a statement that ends in another one is numbered. -/
theorem Stmt.last_nearest {build : Loc → Stmt → Stmt} {fuel : Nat} {state : ParseState}
    (span : Span)
    (last : Yields (Stmt.parseWith fuel) state fun stmt after =>
      stmt.ElsesNearest ∧ (stmt.EndsOpen → after.AvoidsElse))
    (nearest : ∀ loc body, body.ElsesNearest → (build loc body).ElsesNearest)
    (opens : ∀ loc body, (build loc body).EndsOpen → body.EndsOpen) :
    Yields (do
      let body ← parseWith fuel
      pure (build (← Parser.newLoc span) body)) state fun stmt after =>
        stmt.ElsesNearest ∧ (stmt.EndsOpen → after.AvoidsElse) := by
  refine last.bind ?_
  rintro body after ⟨bodyNearest, bodyOpens⟩
  refine Parser.located_yields span fun loc lastId => ⟨nearest loc body bodyNearest, ?_⟩
  exact fun isOpen => bodyOpens (opens loc body isOpen)

mutual

theorem Decl.parseDeclarators_nearest : ∀ (fuel : Nat) (specifiers : Specifiers) (isFirst : Bool)
    (state : ParseState), Yields (Decl.parseDeclarators fuel specifiers isFirst) state
      fun decls _ => ∀ decl ∈ decls, decl.ElsesNearest
  | 0, _, _, _ => Ensures.throw trivial
  | fuel + 1, specifiers, isFirst, state => by
      rw [Decl.parseDeclarators]
      refine Ensures.bind_any fun declarator _ => ?_
      refine Ensures.bind_any fun declared after => ?_
      split
      · refine Ensures.bind_any fun opensBody after => ?_
        refine Ensures.ite (fun _ => ?_) fun _ => ?_
        · refine Ensures.bind_any fun _ after => ?_
          refine (Stmt.parseBlock_nearest fuel after).bind ?_
          rintro ⟨bodyLoc, body⟩ _ nearest
          refine Parser.located_yields _ fun _ _ => ?_
          exact List.forall_mem_singleton.2 nearest
        · refine Ensures.bind_any fun loc after => ?_
          exact Decl.parseMore_nearest fuel specifiers _ after trivial
      · refine Ensures.bind_any fun decl after => ?_
        exact Decl.parseMore_nearest fuel specifiers _ after trivial

theorem Decl.parseMore_nearest : ∀ (fuel : Nat) (specifiers : Specifiers) (decl : Decl)
    (state : ParseState), decl.ElsesNearest → Yields (Decl.parseMore fuel specifiers decl) state
      fun decls _ => ∀ decl ∈ decls, decl.ElsesNearest
  | 0, _, _, _, _ => Ensures.throw trivial
  | fuel + 1, specifiers, decl, state, nearest => by
      rw [Decl.parseMore]
      refine Ensures.bind_any fun accepted after => ?_
      refine Ensures.ite (fun _ => ?_) fun _ => ?_
      · refine (Decl.parseDeclarators_nearest fuel specifiers false after).bind ?_
        intro decls _ allNearest
        exact Ensures.pure (List.forall_mem_cons.2 ⟨nearest, allNearest⟩)
      · refine Ensures.bind_any fun _ after => ?_
        exact Ensures.pure (List.forall_mem_singleton.2 nearest)

theorem Stmt.parseBlock_nearest : ∀ (fuel : Nat) (state : ParseState),
    Yields (Stmt.parseBlock fuel) state fun result _ => Item.ElsesNearestList result.2
  | 0, _ => Ensures.throw trivial
  | fuel + 1, state => by
      rw [Stmt.parseBlock]
      refine Ensures.bind_any fun brace after => ?_
      refine (Item.parseList_nearest fuel after).bind ?_
      intro items _ nearest
      refine Ensures.bind_any fun _ after => ?_
      exact Parser.located_yields _ fun _ _ => nearest

theorem Item.parseList_nearest : ∀ (fuel : Nat) (state : ParseState),
    Yields (Item.parseList fuel) state fun items _ => Item.ElsesNearestList items
  | 0, _ => Ensures.throw trivial
  | fuel + 1, state => by
      rw [Item.parseList]
      refine Ensures.bind_any fun token after => ?_
      refine Ensures.ite (fun _ => Ensures.pure trivial) fun _ => ?_
      refine Ensures.ite (fun _ => Ensures.throw trivial) fun _ => ?_
      refine Ensures.ite (fun _ => ?_) fun _ => ?_
      · refine Ensures.bind_any fun specifiers after => ?_
        refine (Decl.parseDeclarators_nearest fuel specifiers true after).bind ?_
        intro decls after nearest
        refine (Item.parseList_nearest fuel after).bind ?_
        intro items _ moreNearest
        exact Ensures.pure (Item.elsesNearestList_append nearest moreNearest)
      · refine (Stmt.parseWith_nearest fuel after).bind ?_
        intro stmt after nearest
        refine (Item.parseList_nearest fuel after).bind ?_
        intro items _ moreNearest
        exact Ensures.pure ⟨nearest.1, moreNearest⟩

theorem Stmt.parseWith_nearest : ∀ (fuel : Nat) (state : ParseState),
    Yields (Stmt.parseWith fuel) state fun stmt after =>
      stmt.ElsesNearest ∧ (stmt.EndsOpen → after.AvoidsElse)
  | 0, _ => Ensures.throw trivial
  | fuel + 1, state => by
      rw [Stmt.parseWith]
      refine Ensures.bind_any fun token after => ?_
      split
      -- return
      · refine Ensures.bind_any fun _ after => ?_
        refine Ensures.bind_any fun value after => ?_
        refine Ensures.bind_any fun _ after => ?_
        exact Stmt.located_nearest _ (fun _ => trivial) fun _ => id
      -- if
      · refine Ensures.bind_any fun _ after => ?_
        refine Ensures.bind_any fun condition after => ?_
        refine (Stmt.parseWith_nearest fuel after).bind ?_
        rintro thenBranch after ⟨thenNearest, thenOpens⟩
        unfold Parser.currentIs
        rw [bind_assoc]
        refine (Parser.current_yields after).bind ?_
        rintro next _ ⟨rfl, isNext⟩
        rw [pure_bind]
        refine Ensures.ite (fun isElse => ?_) fun notElse => ?_
        · refine Ensures.bind_any fun _ after => ?_
          have closed : ¬thenBranch.EndsOpen :=
            fun isOpen => thenOpens isOpen next isNext (of_decide_eq_true isElse)
          exact Stmt.last_nearest _ (Stmt.parseWith_nearest fuel after)
            (fun _ _ elseNearest => ⟨closed, thenNearest, elseNearest⟩) fun _ _ => id
        · refine Parser.located_yields _ fun _ _ => ⟨thenNearest, fun _ token isToken => ?_⟩
          cases isNext.symm.trans isToken
          simpa using notElse
      -- a block
      · refine (Stmt.parseBlock_nearest fuel after).bind ?_
        rintro ⟨loc, items⟩ after nearest
        exact Ensures.pure ⟨nearest, fun isOpen => isOpen.elim⟩
      -- while
      · refine Ensures.bind_any fun _ after => ?_
        refine Ensures.bind_any fun condition after => ?_
        exact Stmt.last_nearest _ (Stmt.parseWith_nearest fuel after) (fun _ _ => id) fun _ _ => id
      -- do
      · refine Ensures.bind_any fun _ after => ?_
        refine (Stmt.parseWith_nearest fuel after).bind ?_
        rintro body after ⟨nearest, -⟩
        refine Ensures.bind_any fun _ after => ?_
        refine Ensures.bind_any fun condition after => ?_
        refine Ensures.bind_any fun _ after => ?_
        exact Stmt.located_nearest _ (fun _ => nearest) fun _ => id
      -- for
      · refine Ensures.bind_any fun _ after => ?_
        refine Ensures.bind_any fun _ after => ?_
        refine Ensures.bind_any fun init after => ?_
        refine Ensures.bind_any fun condition after => ?_
        refine Ensures.bind_any fun _ after => ?_
        refine Ensures.bind_any fun post after => ?_
        refine Ensures.bind_any fun _ after => ?_
        exact Stmt.last_nearest _ (Stmt.parseWith_nearest fuel after) (fun _ _ => id) fun _ _ => id
      -- switch
      · refine Ensures.bind_any fun _ after => ?_
        refine Ensures.bind_any fun value after => ?_
        exact Stmt.last_nearest _ (Stmt.parseWith_nearest fuel after) (fun _ _ => id) fun _ _ => id
      -- case
      · refine Ensures.bind_any fun _ after => ?_
        refine Ensures.bind_any fun value after => ?_
        refine Ensures.bind_any fun _ after => ?_
        exact Stmt.last_nearest _ (Stmt.parseWith_nearest fuel after) (fun _ _ => id) fun _ _ => id
      -- default
      · refine Ensures.bind_any fun _ after => ?_
        refine Ensures.bind_any fun _ after => ?_
        exact Stmt.last_nearest _ (Stmt.parseWith_nearest fuel after) (fun _ _ => id) fun _ _ => id
      -- break
      · refine Ensures.bind_any fun _ after => ?_
        refine Ensures.bind_any fun _ after => ?_
        exact Stmt.located_nearest _ (fun _ => trivial) fun _ => id
      -- continue
      · refine Ensures.bind_any fun _ after => ?_
        refine Ensures.bind_any fun _ after => ?_
        exact Stmt.located_nearest _ (fun _ => trivial) fun _ => id
      -- a semicolon
      · refine Ensures.bind_any fun _ after => ?_
        exact Stmt.located_nearest _ (fun _ => trivial) fun _ => id
      -- an expression
      · refine Ensures.ite (fun _ => Ensures.throw trivial) fun _ => ?_
        refine Ensures.bind_any fun value after => ?_
        refine Ensures.bind_any fun _ after => ?_
        exact Stmt.located_nearest _ (fun _ => trivial) fun _ => id

end

/-! ### All blocks -/

/-- The tokens of a block, wherever they stand, are parsed as that block, up to the numbers and
places of its nodes, if every else in it belongs to the nearest if. They are all that is consumed,
whatever is behind them. Every else in a parsed block belongs to the nearest if. -/
theorem Stmt.parseBlock_spelling (fuel : Nat) :
    (∀ {items : List Item} {text : List Terminal} {tokens rest : List Token}
      {ending : Except Lexer.Overrun Token} (lastId : Nat), Item.SpelledAsList items text →
      Item.ElsesNearestList items → tokens.map Token.terminal = Terminal.braces text →
      2 * tokens.length ≤ fuel → ∃ loc found lastId',
        (Stmt.parseBlock fuel : Parser ParseState (Loc × List Item)).run
            ⟨tokens ++ rest, ending, lastId⟩ = .ok ((loc, found), ⟨rest, ending, lastId'⟩) ∧
        Item.unplacedList found = Item.unplacedList items) ∧
    ∀ {state after : ParseState} {loc : Loc} {items : List Item},
      (Stmt.parseBlock fuel).run state = .ok ((loc, items), after) →
        Item.ElsesNearestList items := by
  refine ⟨?_, ?_⟩
  · intro items text tokens rest ending lastId spelled nearest isText enough
    have length : tokens.length = text.length + 2 := by
      rw [← List.length_map Token.terminal, isText]
      simp [Terminal.braces]
    have reads : Reads ending (Stmt.parseBlock fuel) (tokens ++ rest) rest
        fun result => Item.unplacedList result.2 = Item.unplacedList items :=
      (spelled.readAs nearest).parseBlock_reads ⟨tokens, isText, rfl⟩ (by omega)
    rcases reads.exists_run lastId with ⟨⟨loc, found⟩, lastId', runs, same⟩
    exact ⟨loc, found, lastId', runs, same⟩
  · intro state after loc items runs
    exact (Stmt.parseBlock_nearest fuel state).of_ok runs

/-- The case of `static int a = 1, *p[2] = { 0, "s", };` and of
`for (; a; a++) if (a) while (a) if (a) ; else return 'c'; else { }`. -/
theorem Stmt.parseBlock_spelling_nested :
    let loc : Loc := .nowhere
    let note : Note := .untyped loc
    let name (text : String) : Expr := .var note text
    let integer (value : Int32) : Initializer := .single loc (.constant note (.int value))
    let inner : Stmt :=
      .ifElse loc (name "a") (.null loc) (.ret loc (some (.constant note (.int 99))))
    let items : List Item := [
      .decl (.object ⟨loc, "a", .int, some .static, some (integer 1)⟩),
      .decl (.object ⟨loc, "p", .array 2 (.pointer .int), some .static,
        some (.compound loc [integer 0, .single loc (.string note "s")])⟩),
      .stmt (.forLoop loc none (.expression loc none) (some (name "a"))
        (some (.step note .after .increment (name "a")))
        (.ifElse loc (name "a") (.whileLoop loc none (name "a") inner) (.block loc [])))]
    let text : List Terminal := [
      .word .static, .word .int, .name "a", .mark .assign, .integer "1", .mark .comma,
      .mark .star, .name "p", .mark .leftBracket, .integer "2", .mark .rightBracket, .mark .assign,
      .mark .leftBrace, .integer "0", .mark .comma, ⟨.string, "s"⟩, .mark .comma, .mark .rightBrace,
      .mark .semicolon,
      .word .for, .mark .leftParen, .mark .semicolon, .name "a", .mark .semicolon, .name "a",
      .mark .increment, .mark .rightParen,
      .word .if, .mark .leftParen, .name "a", .mark .rightParen,
      .word .while, .mark .leftParen, .name "a", .mark .rightParen,
      .word .if, .mark .leftParen, .name "a", .mark .rightParen, .mark .semicolon,
      .word .else, .word .return, ⟨.character, "c"⟩, .mark .semicolon,
      .word .else, .mark .leftBrace, .mark .rightBrace]
    let token (terminal : Terminal) : Token := ⟨terminal.kind, terminal.literal, .none⟩
    let ending : Except Lexer.Overrun Token := .ok ⟨.endOfInput, [], .none⟩
    ∃ found lastId', (∃ loc, (Stmt.parseBlock 100 : Parser ParseState (Loc × List Item)).run
        ⟨(Terminal.braces text).map token ++ [], ending, 0⟩ =
          .ok ((loc, found), ⟨[], ending, lastId'⟩)) ∧
      Item.unplacedList found = Item.unplacedList items ∧ Item.ElsesNearestList found := by
  intro loc note name integer inner items text token ending
  have isFresh : note.IsFresh := rfl
  have isName : (name "a").SpelledAs true [.name "a"] := .var isFresh _
  have isString : (Expr.string note "s").SpelledAs true [⟨.string, "s"⟩] :=
    .string rfl isFresh (List.cons_ne_nil _ _) (by simp) (by decide +kernel)
  have isZero : (integer 0).SpelledAs [.integer "0"] := .single (.constant isFresh rfl)
  have isOne : (integer 1).SpelledAs [.integer "1"] := .single (.constant isFresh rfl)
  have isCharacter : (Expr.constant note (.int 99)).SpelledAs true [⟨.character, "c"⟩] :=
    .constant isFresh rfl
  have isList :
      (Initializer.compound loc [integer 0, .single loc (.string note "s")]).SpelledAs _ :=
    .compound (List.cons_ne_nil _ _) (.cons isZero (.cons (.single isString) .nil)) true
  have areDecls : List.Forall₂ (Decl.SpelledAs ⟨.int, some .static⟩)
      [.object ⟨loc, "a", .int, some .static, some (integer 1)⟩,
        .object ⟨loc, "p", .array 2 (.pointer .int), some .static,
          some (.compound loc [integer 0, .single loc (.string note "s")])⟩] _ :=
    .cons (.object ⟨trivial, rfl, rfl, _, .some isOne, rfl⟩)
      (.cons (.object ⟨⟨by decide, by decide, trivial⟩, rfl, rfl, _, .some isList, rfl⟩) .nil)
  have isInner : inner.SpelledAs _ := .ifElse isName (.null loc) (.ret (.some isCharacter))
  have isLoop : (Stmt.forLoop loc none (.expression loc none) (some (name "a"))
      (some (.step note .after .increment (name "a")))
      (.ifElse loc (name "a") (.whileLoop loc none (name "a") inner)
        (.block loc []))).SpelledAs _ :=
    .forLoop (.expression .none) (.some isName) (.some (.stepAfter isFresh .increment isName))
      (.ifElse isName (.whileLoop isName isInner) (.block .nil))
  have spelled : Item.SpelledAsList items text :=
    .decls (List.cons_ne_nil _ _) areDecls (.stmt isLoop .nil)
  have nearest : Item.ElsesNearestList items :=
    ⟨trivial, trivial, ⟨id, ⟨id, trivial, trivial⟩, trivial⟩, trivial⟩
  have isText : ((Terminal.braces text).map token).map Token.terminal = Terminal.braces text := by
    rw [List.map_map]
    exact List.map_id _
  rcases (parseBlock_spelling 100).1 0 spelled nearest isText (by decide) with
    ⟨loc, found, lastId', runs, same⟩
  exact ⟨found, lastId', ⟨loc, runs⟩, same, (parseBlock_spelling 100).2 runs⟩

end SubsetC
