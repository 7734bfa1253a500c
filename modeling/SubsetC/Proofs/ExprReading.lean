import SubsetC.Proofs.ExprSpelling

/-!
# Precedence climbing reads spelled expressions back

The main statement is `Expr.parse_terminals`: the terminals of an expression are parsed as that
expression, up to the numbers and places of its nodes, and nothing behind them is consumed.

What a text is read as is said by `Expr.ReadAs`, for each of the parsers that may stand at its
start. The parsers that go on in a loop behind what they have read, `trailing` and `continuations`,
need the statement in a form that leaves the loop open: whatever the loop makes of the expression
and the tokens behind its text, the parser makes of the text and these tokens. One lemma for each
form of expressions puts such texts together, and one puts parentheses around them.

A string literal goes on with the string literals behind it. So the token behind a text must be no
string literal, unless the text has none either (`Behind`).
-/

namespace SubsetC

namespace Expr

open SubsetC.Parser (Reads Sees sees_of_spell)

variable {ending : Except Lexer.Overrun Token}

/-! ### What ends an expression -/

/-- A kind that makes no call, subscript or step of what stands in front. -/
def EndsOperand (kind : TokenKind) : Prop :=
  kind ≠ .punctuator .leftParen ∧ kind ≠ .punctuator .leftBracket ∧ stepOp? kind = none

/-- A kind that takes over no expression in front of it of which the operators bind at least at a
level. -/
def Stops (level : Nat) (kind : TokenKind) : Prop :=
  EndsOperand kind ∧ ∀ continuation, Continuation.ofKind? kind = some continuation →
    continuation.level < level

theorem Stops.mono {low high : Nat} (le : low ≤ high) {kind : TokenKind} (stops : Stops low kind) :
    Stops high kind :=
  ⟨stops.1, fun continuation starts => Nat.lt_of_lt_of_le (stops.2 continuation starts) le⟩

/-- Behind a text, in which string literals may be allowed, a kind that fits and is not a further
string literal. -/
def Behind (strings : Bool) (fits : TokenKind → Prop) (kind : TokenKind) : Prop :=
  fits kind ∧ (strings = true → kind ≠ .string)

theorem Behind.mono {strings : Bool} {fits fits' : TokenKind → Prop}
    (weaken : ∀ kind, fits kind → fits' kind) {kind : TokenKind}
    (behind : Behind strings fits kind) : Behind strings fits' kind :=
  ⟨weaken kind behind.1, behind.2⟩

/-- The level of the rightmost operand: assignment and the conditional operator group to the right,
binary operators to the left. -/
def rightLevel (level : Nat) : Nat := if level ≤ 3 then level else level + 1

theorem le_rightLevel (level : Nat) : level ≤ rightLevel level := by
  unfold rightLevel
  split <;> omega

theorem trailing_reads_nil {tokens : List Token} {fuel : Nat} {expr : Expr}
    (sees : Sees ending tokens EndsOperand) (enough : 1 ≤ fuel) :
    Reads ending (trailing fuel expr) tokens tokens fun result => result = expr := by
  rcases Nat.exists_eq_add_of_le' enough with ⟨fuel, rfl⟩
  rw [trailing]
  refine (Parser.current_reads_sees sees).bind ?_
  intro token ends
  split
  case h_1 isOpening => exact absurd isOpening ends.2.1
  case h_2 =>
      rw [ends.2.2]
      exact Reads.pure rfl

theorem continuations_reads_nil {tokens : List Token} {fuel level : Nat} {expr : Expr}
    (sees : Sees ending tokens (Stops level)) (enough : 1 ≤ fuel) :
    Reads ending (continuations fuel level expr) tokens tokens fun result => result = expr := by
  rcases Nat.exists_eq_add_of_le' enough with ⟨fuel, rfl⟩
  rw [continuations]
  refine (Parser.current_reads_sees sees).bind ?_
  intro token stops
  split
  case h_1 => exact Reads.pure rfl
  case h_2 continuation starts =>
      rw [if_pos (stops.2 continuation starts)]
      exact Reads.pure rfl

theorem EndsOperand.of_continuation {mark : Punctuator} {continuation : Continuation}
    (starts : Continuation.ofMark? mark = some continuation) : EndsOperand (.punctuator mark) := by
  refine ⟨?_, ?_, ?_⟩
  · rintro ⟨⟩
    cases starts
  · rintro ⟨⟩
    cases starts
  · cases mark <;> first | rfl | cases starts

theorem sees_continuation {token : Token} {tokens : List Token} {mark : Punctuator}
    {continuation : Continuation} {level : Nat} {strings : Bool}
    (isMark : token.kind = .punctuator mark)
    (starts : Continuation.ofMark? mark = some continuation) (loose : continuation.level < level) :
    Sees ending (token :: tokens) (Behind strings (Stops level)) := by
  refine Parser.sees_cons (Parser.legal_of_mark isMark) ?_
  rw [isMark]
  refine ⟨⟨EndsOperand.of_continuation starts, ?_⟩, by simp⟩
  intro other otherStarts
  cases starts.symm.trans otherStarts
  exact loose

/-- What stands behind a complete expression. -/
theorem stops_closing {mark : Punctuator} {level : Nat} {strings : Bool}
    (closes : mark ∈ [.rightParen, .rightBracket, .rightBrace, .colon, .semicolon, .comma]) :
    Behind strings (Stops level) (.punctuator mark) := by
  simp only [List.mem_cons, List.not_mem_nil, or_false] at closes
  rcases closes with rfl | rfl | rfl | rfl | rfl | rfl
  all_goals exact ⟨⟨⟨nofun, nofun, rfl⟩, nofun⟩, by simp⟩

theorem sees_closing {token : Token} {tokens : List Token} {mark : Punctuator} {level : Nat}
    {strings : Bool} (isMark : token.kind = .punctuator mark)
    (closes : mark ∈ [.rightParen, .rightBracket, .rightBrace, .colon, .semicolon, .comma]) :
    Sees ending (token :: tokens) (Behind strings (Stops level)) :=
  Parser.sees_cons (Parser.legal_of_mark isMark) (isMark ▸ stops_closing closes)

/-! ### How texts start -/

/-- The kinds of tokens an expression can start with. -/
def Starts : TokenKind → Prop
  | .identifier | .integer | .floating | .character | .string | .keyword .sizeof => True
  | .punctuator mark =>
      mark = .leftParen ∨ mark = .star ∨ mark = .ampersand ∨
        (unaryOp? (.punctuator mark)).isSome ∨ (stepOp? (.punctuator mark)).isSome
  | _ => False

theorem Starts.legal {kind : TokenKind} (starts : Starts kind) : kind ≠ .illegal := by
  rintro rfl
  exact starts

theorem Starts.not_specifier {kind : TokenKind} (starts : Starts kind) :
    kind.isSpecifier = false := by
  cases kind with
  | keyword word => cases word <;> first | rfl | exact starts.elim
  | _ => rfl

theorem Starts.ne_rightParen {kind : TokenKind} (starts : Starts kind) :
    kind ≠ .punctuator .rightParen := by
  rintro rfl
  revert starts
  simp [Starts, unaryOp?, stepOp?]

/-- The kinds of literals and of names. -/
def IsAtom (kind : TokenKind) : Prop :=
  kind ∈ [.identifier, .integer, .floating, .character, .string]

theorem IsAtom.starts {kind : TokenKind} (isAtom : IsAtom kind) :
    Starts kind ∧ kind ≠ .punctuator .leftParen := by
  simp only [IsAtom, List.mem_cons, List.not_mem_nil, or_false] at isAtom
  rcases isAtom with rfl | rfl | rfl | rfl | rfl
  all_goals exact ⟨trivial, by simp⟩

/-- A text starts like an expression. -/
def StartsExpr (text : List Terminal) : Prop :=
  ∃ terminal rest, text = terminal :: rest ∧ Starts terminal.kind

/-- A text does not start with a parenthesis around a type name. -/
def NoTypeName (text : List Terminal) : Prop :=
  (∃ terminal rest, text = terminal :: rest ∧ Starts terminal.kind ∧
      terminal.kind ≠ .punctuator .leftParen) ∨
    ∃ terminal rest, text = .mark .leftParen :: terminal :: rest ∧ Starts terminal.kind

/-- A text starts like an expression that needs no operator in front. -/
def StartsPrimary (text : List Terminal) : Prop :=
  (∃ terminal rest, text = terminal :: rest ∧ IsAtom terminal.kind) ∨
    ∃ terminal rest, text = .mark .leftParen :: terminal :: rest ∧ Starts terminal.kind

theorem StartsExpr.length_pos {text : List Terminal} (starts : StartsExpr text) :
    1 ≤ text.length := by
  rcases starts with ⟨terminal, rest, rfl, -⟩
  exact Nat.succ_le_succ (Nat.zero_le _)

theorem StartsExpr.append {text : List Terminal} (starts : StartsExpr text)
    (more : List Terminal) : StartsExpr (text ++ more) := by
  rcases starts with ⟨terminal, rest, rfl, starts⟩
  exact ⟨terminal, rest ++ more, rfl, starts⟩

theorem StartsPrimary.append {text : List Terminal} (starts : StartsPrimary text)
    (more : List Terminal) : StartsPrimary (text ++ more) := by
  rcases starts with ⟨terminal, rest, rfl, starts⟩ | ⟨terminal, rest, rfl, starts⟩
  · exact .inl ⟨terminal, rest ++ more, rfl, starts⟩
  · exact .inr ⟨terminal, rest ++ more, rfl, starts⟩

theorem StartsPrimary.noTypeName {text : List Terminal} (starts : StartsPrimary text) :
    NoTypeName text := by
  rcases starts with ⟨terminal, rest, rfl, isAtom⟩ | starts
  · exact .inl ⟨terminal, rest, rfl, isAtom.starts⟩
  · exact .inr starts

theorem NoTypeName.startsExpr {text : List Terminal} (noTypeName : NoTypeName text) :
    StartsExpr text := by
  rcases noTypeName with ⟨terminal, rest, rfl, starts, -⟩ | ⟨terminal, rest, rfl, -⟩
  · exact ⟨terminal, rest, rfl, starts⟩
  · exact ⟨_, _, rfl, .inl rfl⟩

theorem opensTypeName_reads_not {text : List Terminal} {before after : List Token}
    (noTypeName : NoTypeName text) (spell : Terminal.Spell before text after) :
    Reads ending opensTypeName before before fun found => found = false := by
  unfold opensTypeName
  rcases noTypeName with ⟨terminal, rest, rfl, starts, differs⟩ | ⟨terminal, rest, rfl, starts⟩
  · refine Parser.currentIsBefore_reads_not ?_
    exact (sees_of_spell spell starts.legal).mono fun _ same => same ▸ differs
  · rcases spell.cons with ⟨opening, tokens, rfl, isOpening, -, spell⟩
    rcases spell.cons with ⟨second, tokens, rfl, isSecond, -⟩
    refine (Parser.currentIsBefore_reads isOpening (Parser.legal_of_mark isOpening)).mono ?_
    rintro _ rfl
    exact isSecond ▸ starts.not_specifier

/-- A type name in parentheses is read as the type. -/
theorem parenTypeName_reads (ending : Except Lexer.Overrun Token) {type : CType}
    {before after : List Token} (isNameable : type.IsNameable)
    (spell : Terminal.Spell before
      (.mark .leftParen :: (type.typeName ++ [Terminal.mark .rightParen])) after) :
    (Reads ending opensTypeName before before fun found => found = true) ∧
      Reads ending parenTypeName before after fun found => found = type := by
  rcases spell.cons with ⟨opening, tokens, rfl, isOpening, -, spell⟩
  rcases spell.snoc with ⟨closing, nameSpell, isClosing⟩
  constructor
  · rcases type.exists_spell isNameable with ⟨keyword, more, same, isSpecifier⟩
    rw [CType.typeName, same] at nameSpell
    rcases nameSpell.cons with ⟨token, tokens, rfl, isKeyword, -⟩
    refine (Parser.currentIsBefore_reads isOpening (Parser.legal_of_mark isOpening)).mono ?_
    rintro _ rfl
    exact isKeyword ▸ isSpecifier
  · unfold parenTypeName
    refine Parser.skip_bind (Parser.legal_of_mark isOpening) ?_
    refine (Declarator.parseTypeName_reads isNameable nameSpell ?_).bind ?_
    · exact Parser.sees_cons (Parser.legal_of_mark isClosing)
        (by simp [isClosing, Declarator.EndsName, TokenKind.isSpecifier])
    rintro _ rfl
    refine (Parser.expectMark_reads isClosing).bind ?_
    intro _ _
    exact Reads.pure rfl

/-! ### Operators in front of an operand -/

/-- What an operator in front of an operand makes of it. -/
inductive Front : Punctuator → (Note → Expr → Expr) → Prop
  | unary (op : UnaryOp) : Front op.mark (.unary · op ·)
  | step (op : StepOp) : Front op.mark (.step · .before op ·)
  | addressOf : Front .ampersand .addressOf
  | dereference : Front .star .dereference

namespace Front

variable {mark : Punctuator} {build : Note → Expr → Expr}

theorem starts (isFront : Front mark build) : Starts (.punctuator mark) := by
  cases isFront with
  | unary op => exact .inr (.inr (.inr (.inl (by rw [unaryOp?_mark]; rfl))))
  | step op => exact .inr (.inr (.inr (.inr (by rw [stepOp?_mark]; rfl))))
  | addressOf => exact .inr (.inr (.inl rfl))
  | dereference => exact .inr (.inl rfl)

theorem ne_leftParen (isFront : Front mark build) :
    TokenKind.punctuator mark ≠ .punctuator .leftParen := by
  cases isFront with
  | unary op | step op => cases op <;> exact nofun
  | addressOf | dereference => exact nofun

theorem unplaced_eq (isFront : Front mark build) {note note' : Note} {expr expr' : Expr}
    (sameNote : note'.unplaced = note.unplaced) (same : expr'.unplaced = expr.unplaced) :
    (build note' expr').unplaced = (build note expr).unplaced := by
  cases isFront <;> simp only [unplaced, sameNote, same]

end Front

/-! ### What texts are read as -/

/-- What `continuations` makes of an expression and the tokens behind a text, `parseWith` makes of
the text and these tokens. Four steps are enough for each token. -/
def Climbs (strings : Bool) (text : List Terminal) (level : Nat) (expr : Expr) : Prop :=
  ∀ (ending : Except Lexer.Overrun Token) (before middle after : List Token)
    (bound enough fuel : Nat) (wanted : Expr → Prop),
    Terminal.Spell before text middle → bound ≤ level →
    Sees ending middle (Behind strings (Stops (rightLevel level))) → 1 ≤ enough →
    (∀ result fuel, result.unplaced = expr.unplaced → enough ≤ fuel →
      Reads ending (continuations fuel bound result) middle after wanted) →
    enough + 4 * text.length ≤ fuel → Reads ending (parseWith fuel bound) before after wanted

/-- A text is read as an operand. -/
def Operates (strings : Bool) (text : List Terminal) (expr : Expr) : Prop :=
  ∀ (ending : Except Lexer.Overrun Token) (before after : List Token) (fuel : Nat),
    Terminal.Spell before text after → Sees ending after (Behind strings EndsOperand) →
    4 * text.length ≤ fuel →
    Reads ending (operand fuel) before after fun result => result.unplaced = expr.unplaced

/-- What `trailing` makes of an expression and the tokens behind a text, it makes together with
`atom` of the text and these tokens. -/
def Trails (strings : Bool) (text : List Terminal) (expr : Expr) : Prop :=
  ∀ (ending : Except Lexer.Overrun Token) (before middle after : List Token)
    (enough fuel : Nat) (wanted : Expr → Prop),
    Terminal.Spell before text middle →
    Sees ending middle (Behind strings (· ≠ .punctuator .leftParen)) →
    (∀ result fuel, result.unplaced = expr.unplaced → enough ≤ fuel →
      Reads ending (trailing fuel result) middle after wanted) →
    enough + 4 * text.length ≤ fuel + 2 →
    Reads ending (atom fuel >>= trailing fuel) before after wanted

/-- A text is read as an expression by each parser that a level allows to stand at its start. -/
structure ReadAs (strings : Bool) (text : List Terminal) (level : Nat) (expr : Expr) : Prop where
  /-- It starts like an expression. -/
  starts : StartsExpr text
  /-- Without operators in front, it starts like what needs none. -/
  startsPrimary : postfixLevel ≤ level → StartsPrimary text
  /-- Only a cast starts with a type name in parentheses, among operands. -/
  noTypeName : prefixLevel ≤ level → (level = prefixLevel → expr.isCast = false) → NoTypeName text
  /-- As an operand of a binary operator, or more. -/
  climbs : Climbs strings text level expr
  /-- As an operand with the operators in front of it. -/
  operates : prefixLevel ≤ level → Operates strings text expr
  /-- As an operand with those behind it. -/
  trails : postfixLevel ≤ level → Trails strings text expr

variable {strings : Bool}

theorem Operates.climbs {text : List Terminal} {level : Nat} {expr : Expr}
    (operates : Operates strings text expr) (starts : StartsExpr text) :
    Climbs strings text level expr := by
  intro ending before middle after bound enough fuel wanted spell _ sees _ rest atMost
  have nonempty := starts.length_pos
  rcases Nat.exists_eq_add_of_le' (by omega : 1 ≤ fuel) with ⟨fuel, rfl⟩
  rw [parseWith]
  refine (operates ending before middle fuel spell
    (sees.mono fun _ => Behind.mono fun _ stops => stops.1) (by omega)).bind ?_
  intro result same
  exact rest result fuel same (by omega)

theorem Trails.operates {text : List Terminal} {expr : Expr} (trails : Trails strings text expr)
    (starts : StartsPrimary text) : Operates strings text expr := by
  intro ending before after fuel spell sees atMost
  have nonempty := starts.noTypeName.startsExpr.length_pos
  rcases Nat.exists_eq_add_of_le' (by omega : 1 ≤ fuel) with ⟨fuel, rfl⟩
  have suffixed : Reads ending (atom fuel >>= trailing fuel) before after
      fun result => result.unplaced = expr.unplaced := by
    refine trails ending before after after 1 fuel _ spell
      (sees.mono fun _ => Behind.mono fun _ ends => ends.1) ?_ (by omega)
    intro result fuel same enough
    refine (trailing_reads_nil (sees.mono fun _ => And.left) enough).mono ?_
    rintro _ rfl
    exact same
  -- A parenthesis in front could be that of a cast, but no type name follows it.
  have closed : Reads ending opensTypeName before before fun found => found = false :=
    opensTypeName_reads_not starts.noTypeName spell
  rw [operand]
  rcases starts with ⟨terminal, rest, rfl, isAtom⟩ | ⟨terminal, rest, rfl, starts⟩
  · rcases spell.cons with ⟨token, tokens, rfl, isKind, -⟩
    simp only [IsAtom, ← isKind, List.mem_cons, List.not_mem_nil, or_false] at isAtom
    rcases isAtom with isAtom | isAtom | isAtom | isAtom | isAtom
    all_goals
      refine Parser.current_bind (by simp [isAtom]) ?_
      simp only [isAtom]
      exact suffixed
  · rcases spell.cons with ⟨token, tokens, rfl, isKind, -⟩
    refine Parser.current_bind (by simp [isKind]) ?_
    simp only [isKind]
    refine closed.bind ?_
    rintro _ rfl
    exact suffixed

namespace ReadAs

variable {text more : List Terminal} {level : Nat} {expr : Expr}

/-- For a binary operator and what is looser, climbing is all there is. -/
theorem of_climbs (starts : StartsExpr text) (loose : level < prefixLevel)
    (climbs : Climbs strings text level expr) : ReadAs strings text level expr where
  starts := starts
  startsPrimary := fun tight =>
    absurd (Nat.le_trans (by decide : prefixLevel ≤ postfixLevel) tight) (Nat.not_le.2 loose)
  noTypeName := fun tight _ => absurd tight (by omega)
  climbs := climbs
  operates := fun tight => absurd tight (by omega)
  trails := fun tight =>
    absurd (Nat.le_trans (by decide : prefixLevel ≤ postfixLevel) tight) (Nat.not_le.2 loose)

theorem of_operates (starts : StartsExpr text)
    (noTypeName : expr.isCast = false → NoTypeName text) (operates : Operates strings text expr) :
    ReadAs strings text prefixLevel expr where
  starts := starts
  startsPrimary := fun tight => absurd tight (by decide)
  noTypeName := fun _ notCast => noTypeName (notCast rfl)
  climbs := operates.climbs starts
  operates := fun _ => operates
  trails := fun tight => absurd tight (by decide)

theorem of_trails (starts : StartsPrimary text) (trails : Trails strings text expr) :
    ReadAs strings text level expr where
  starts := starts.noTypeName.startsExpr
  startsPrimary := fun _ => starts
  noTypeName := fun _ _ => starts.noTypeName
  climbs := (trails.operates starts).climbs starts.noTypeName.startsExpr
  operates := fun _ => trails.operates starts
  trails := fun _ => trails

/-- Between tokens that end it, the text is read as the expression and nothing more. -/
theorem reads_behind (readAs : ReadAs strings text level expr) {before after : List Token}
    {bound fuel : Nat} (spell : Terminal.Spell before text after) (atLeast : bound ≤ level)
    (sees : Sees ending after (Behind strings (Stops bound)))
    (enough : 1 + 4 * text.length ≤ fuel) :
    Reads ending (parseWith fuel bound) before after
      fun result => result.unplaced = expr.unplaced := by
  refine readAs.climbs ending before after after bound 1 fuel _ spell atLeast
    (sees.mono fun _ => Behind.mono fun _ stops =>
      stops.mono (Nat.le_trans atLeast (le_rightLevel level))) (by omega) ?_ enough
  intro result fuel same enough
  refine (continuations_reads_nil (sees.mono fun _ => And.left) enough).mono ?_
  rintro _ rfl
  exact same

/-- Without string literals, one may stand behind the text. -/
theorem reads (readAs : ReadAs false text level expr) {before after : List Token}
    {bound fuel : Nat} (spell : Terminal.Spell before text after) (atLeast : bound ≤ level)
    (sees : Sees ending after (Stops bound)) (enough : 1 + 4 * text.length ≤ fuel) :
    Reads ending (parseWith fuel bound) before after
      fun result => result.unplaced = expr.unplaced :=
  readAs.reads_behind spell atLeast (sees.mono fun _ stops => ⟨stops, by simp⟩) enough

/-- What `atom` reads on its own needs no operand. -/
theorem of_atom (starts : StartsPrimary text)
    (isAtom : ∀ (ending : Except Lexer.Overrun Token) (before after : List Token) (fuel : Nat),
      Terminal.Spell before text after →
      Sees ending after (Behind strings (· ≠ .punctuator .leftParen)) →
      4 * text.length ≤ fuel + 2 →
      Reads ending (atom fuel) before after fun result => result.unplaced = expr.unplaced) :
    ReadAs strings text primaryLevel expr := by
  refine of_trails starts ?_
  intro ending before middle after enough fuel wanted spell sees rest atMost
  refine (isAtom ending before middle fuel spell sees (by omega)).bind ?_
  intro result same
  have nonempty := starts.noTypeName.startsExpr.length_pos
  exact rest result fuel same (by omega)

/-- Parentheses make an expression one that needs no operand. -/
theorem parenthesized (readAs : ReadAs strings text level expr) :
    ReadAs strings (Terminal.enclose true text) primaryLevel expr := by
  refine of_atom ?_ ?_
  · rcases readAs.starts with ⟨terminal, rest, rfl, starts⟩
    exact .inr ⟨terminal, rest ++ [Terminal.mark .rightParen], rfl, starts⟩
  intro ending before after fuel spell _ atMost
  rcases spell.cons with ⟨opening, tokens, rfl, isOpening, -, spell⟩
  rcases spell.snoc with ⟨closing, textSpell, isClosing⟩
  simp only [Terminal.enclose, if_true, List.length_cons, List.length_append] at atMost
  rcases Nat.exists_eq_add_of_le' (by omega : 1 ≤ fuel) with ⟨fuel, rfl⟩
  rw [atom]
  refine Parser.current_bind (Parser.legal_of_mark isOpening) ?_
  simp only [isOpening]
  refine Parser.skip_bind (Parser.legal_of_mark isOpening) ?_
  refine (readAs.reads_behind textSpell (Nat.zero_le _) (sees_closing isClosing (by decide))
    (by omega)).bind ?_
  intro result same
  refine (Parser.expectMark_reads isClosing).bind ?_
  intro _ _
  exact Reads.pure same

/-- Parentheses where they are needed make an expression one of at least a level. -/
theorem enclosed (readAs : ReadAs strings text level expr) (bound : Nat)
    (atMost : bound ≤ primaryLevel) :
    ∃ level', bound ≤ level' ∧
      ReadAs strings (Terminal.enclose (level < bound) text) level' expr := by
  by_cases loose : level < bound
  · rw [decide_eq_true loose]
    exact ⟨primaryLevel, atMost, readAs.parenthesized⟩
  · rw [decide_eq_false loose]
    exact ⟨level, by omega, readAs⟩

/-! #### What needs no operand -/

variable {note : Note}

theorem constant (isFresh : note.IsFresh) {terminal : Terminal} {value : Const}
    (denotes : terminal.Denotes value) :
    ReadAs strings [terminal] primaryLevel (.constant note value) := by
  rcases terminal with ⟨kind, literal⟩
  have isLiteral : kind = .integer ∨ kind = .floating ∨ kind = .character := by
    cases kind <;> simp [Terminal.Denotes] at denotes ⊢
  refine of_atom (.inl ⟨_, _, rfl, ?_⟩) ?_
  · rcases isLiteral with rfl | rfl | rfl
    all_goals simp [IsAtom]
  intro ending before after fuel spell _ atMost
  rcases spell.singleton with ⟨token, rfl, isKind, isText⟩
  simp only [List.length_singleton] at atMost
  rcases Nat.exists_eq_add_of_le' (by omega : 1 ≤ fuel) with ⟨fuel, rfl⟩
  have noted : Reads ending (do pure (Expr.constant (← Parser.newNote token.span) value)) after
      after fun result => result.unplaced = (Expr.constant note value).unplaced := by
    refine (Parser.newNote_reads _).bind ?_
    rintro _ ⟨loc, rfl⟩
    exact Reads.pure (by simp only [unplaced, isFresh.unplaced_eq loc])
  rw [atom]
  rcases isLiteral with rfl | rfl | rfl
  all_goals
    refine Parser.current_bind (by simp [isKind]) ?_
    simp only [isKind, isText]
    refine Parser.skip_bind (by simp [isKind]) ?_
  · rw [show Literal.integer literal = .ok value from denotes]
    exact noted
  · rw [show Literal.floating literal = value from denotes]
    exact noted
  · rw [show Literal.character literal = value from denotes]
    exact noted

/-- A run of string literals is read up to a token of another kind. -/
theorem stringRun_reads {after : List Token} (sees : Sees ending after (· ≠ .string)) :
    ∀ (text : List Terminal) {before : List Token} {fuel : Nat} (seen : Span × Text),
      text.length < fuel → Terminal.Spell before text after →
      (∀ terminal ∈ text, terminal.kind = .string) →
      Reads ending (stringRun fuel seen) before after fun found =>
        found.2 = seen.2 ++ text.flatMap fun terminal => Text.unescape terminal.literal
  | _, _, 0, _, enough, _, _ => absurd enough (Nat.not_lt_zero _)
  | [], _, fuel + 1, seen, _, spell, _ => by
      rw [spell.nil, stringRun]
      refine (Parser.current_reads_sees sees).bind ?_
      intro token differs
      rw [if_neg differs]
      exact Reads.pure (List.append_nil _).symm
  | terminal :: text, _, fuel + 1, seen, enough, spell, areStrings => by
      rcases spell.cons with ⟨token, rest, rfl, isKind, isText, spell⟩
      have isString : token.kind = .string := isKind.trans (areStrings terminal List.mem_cons_self)
      have legal : token.kind ≠ .illegal := by simp [isString]
      rw [stringRun]
      refine Parser.current_bind legal ?_
      rw [if_pos isString]
      refine Parser.skip_bind legal ?_
      refine (stringRun_reads sees text _ (Nat.lt_of_succ_lt_succ enough) spell
        fun other mem => areStrings other (List.mem_cons_of_mem _ mem)).mono ?_
      intro found same
      rw [same, isText, List.flatMap_cons, List.append_assoc]

theorem string (isAllowed : strings = true) (isFresh : note.IsFresh) {bytes : Text}
    (nonempty : text ≠ []) (areStrings : ∀ terminal ∈ text, terminal.kind = .string)
    (denotes : text.flatMap (fun terminal => Text.unescape terminal.literal) = bytes) :
    ReadAs strings text primaryLevel (.string note bytes) := by
  rcases List.exists_cons_of_ne_nil nonempty with ⟨first, more, rfl⟩
  have isString := areStrings first List.mem_cons_self
  refine of_atom (.inl ⟨first, more, rfl, by simp [IsAtom, isString]⟩) ?_
  intro ending before after fuel spell sees atMost
  have length := spell.length_eq
  have runs := @stringRun_reads ending after (sees.mono fun _ behind => behind.2 isAllowed)
    (first :: more) before (8 * (before.length + 2))
  rcases spell.cons with ⟨token, tokens, rfl, isKind, -⟩
  rw [isString] at isKind
  have legal : token.kind ≠ .illegal := by simp [isKind]
  simp only [List.length_cons] at atMost
  rcases Nat.exists_eq_add_of_le' (by omega : 1 ≤ fuel) with ⟨fuel, rfl⟩
  rw [atom]
  refine Parser.current_bind legal ?_
  simp only [isKind]
  unfold Expr.strings
  refine Parser.current_bind legal ?_
  refine Parser.fuel_reads.bind ?_
  rintro _ rfl
  refine (runs (token.span, []) (by omega) spell areStrings).bind ?_
  intro found collected
  refine (Parser.newNote_reads _).bind ?_
  rintro _ ⟨loc, rfl⟩
  refine Reads.pure ?_
  rw [List.nil_append, denotes] at collected
  simp only [unplaced, isFresh.unplaced_eq loc, collected]

theorem var (isFresh : note.IsFresh) (name : Text) :
    ReadAs strings [.name name] primaryLevel (.var note name) := by
  refine of_atom (.inl ⟨_, _, rfl, by simp [IsAtom]⟩) ?_
  intro ending before after fuel spell sees atMost
  rcases spell.singleton with ⟨token, rfl, isName, isText⟩
  simp only [List.length_singleton] at atMost
  rcases Nat.exists_eq_add_of_le' (by omega : 1 ≤ fuel) with ⟨fuel, rfl⟩
  rw [atom]
  refine Parser.current_bind (by simp [isName]) ?_
  simp only [isName, isText]
  refine Parser.skip_bind (by simp [isName]) ?_
  refine (Parser.accept_reads_not (sees.mono fun _ => And.left)).bind ?_
  rintro _ rfl
  refine (Parser.newNote_reads _).bind ?_
  rintro _ ⟨loc, rfl⟩
  exact Reads.pure (by simp only [unplaced, isFresh.unplaced_eq loc])

/-- Each text of a list is read as an expression of another. -/
abbrev All (strings : Bool) (texts : List (List Terminal)) (exprs : List Expr) : Prop :=
  List.Forall₂ (fun text expr => ∃ level, ReadAs strings text level expr) texts exprs

/-- Texts with commas between them are read as arguments. -/
theorem arguments {texts : List (List Terminal)} {exprs : List Expr} (all : All strings texts exprs)
    (nonempty : texts ≠ []) {before after : List Token} {fuel : Nat}
    (spell : Terminal.Spell before (commas texts) after)
    (sees : Sees ending after (· = .punctuator .rightParen))
    (atMost : 4 * (commas texts).length + 2 ≤ fuel) :
    Reads ending (Expr.arguments fuel) before after
      fun results => unplacedList results = unplacedList exprs := by
  induction all generalizing before fuel with
  | nil => exact absurd rfl nonempty
  | @cons text expr texts exprs readAs all ih =>
      rcases readAs with ⟨level, readAs⟩
      rcases Nat.exists_eq_add_of_le' (by omega : 1 ≤ fuel) with ⟨fuel, rfl⟩
      rw [Expr.arguments]
      cases all with
      | nil =>
          simp only [commas] at spell atMost
          refine (readAs.reads_behind spell (Nat.zero_le _) ?_ (by omega)).bind ?_
          · exact sees.mono fun _ isClosing => isClosing ▸ stops_closing (by decide)
          intro result same
          refine (Parser.accept_reads_not (sees.mono ?_)).bind ?_
          · rintro _ rfl
            decide
          rintro _ rfl
          exact Reads.pure (by simp only [unplacedList, same])
      | cons second more =>
          rcases spell.append with ⟨behind, textSpell, spell⟩
          rcases spell.cons with ⟨comma, tokens, rfl, isComma, -, spell⟩
          simp only [commas, List.length_append, List.length_cons] at atMost
          refine (readAs.reads_behind textSpell (Nat.zero_le _) (sees_closing isComma (by decide))
            (by omega)).bind ?_
          intro result same
          refine (Parser.accept_reads isComma).bind ?_
          rintro _ rfl
          refine (ih (List.cons_ne_nil _ _) spell (by omega)).bind ?_
          intro results allSame
          exact Reads.pure (by simp only [unplacedList, same] at allSame ⊢; rw [allSame])

theorem call (isFresh : note.IsFresh) (name : Text) {texts : List (List Terminal)}
    {exprs : List Expr} (all : All strings texts exprs) :
    ReadAs strings (.name name :: .mark .leftParen :: (commas texts ++ [Terminal.mark .rightParen]))
      primaryLevel (.call note name exprs) := by
  refine of_atom (.inl ⟨_, _, rfl, by simp [IsAtom]⟩) ?_
  intro ending before after fuel spell _ atMost
  rcases spell.cons with ⟨token, tokens, rfl, isName, isText, spell⟩
  rcases spell.cons with ⟨opening, tokens, rfl, isOpening, -, spell⟩
  rcases spell.append with ⟨behind, textsSpell, spell⟩
  have atClosing : Sees ending behind (· = .punctuator .rightParen) :=
    sees_of_spell spell nofun
  rcases spell.singleton with ⟨closing, rfl, isClosing, -⟩
  simp only [List.length_cons, List.length_append, List.length_nil] at atMost
  rcases Nat.exists_eq_add_of_le' (by omega : 1 ≤ fuel) with ⟨fuel, rfl⟩
  have closed : ∀ results : List Expr, unplacedList results = unplacedList exprs →
      Reads ending (do
        let _ ← Parser.expectMark .rightParen
        pure (Expr.call (← Parser.newNote token.span) name results)) (closing :: after) after
          fun result => result.unplaced = (Expr.call note name exprs).unplaced := by
    intro results same
    refine (Parser.expectMark_reads isClosing).bind ?_
    intro _ _
    refine (Parser.newNote_reads _).bind ?_
    rintro _ ⟨loc, rfl⟩
    exact Reads.pure (by simp only [unplaced, isFresh.unplaced_eq loc, same])
  rw [atom]
  refine Parser.current_bind (by simp [isName]) ?_
  simp only [isName, isText]
  refine Parser.skip_bind (by simp [isName]) ?_
  refine (Parser.accept_reads isOpening).bind ?_
  rintro _ rfl
  rw [if_pos rfl]
  cases all with
  | nil =>
      cases textsSpell.nil
      refine (Parser.currentIsMark_reads isClosing).bind ?_
      rintro _ rfl
      exact closed [] rfl
  | @cons text expr texts exprs readAs all =>
      refine (Parser.currentIsMark_reads_not ?_).bind ?_
      · rcases readAs with ⟨level, readAs⟩
        have starts : StartsExpr (commas (text :: texts)) := by
          cases texts with
          | nil => exact readAs.starts
          | cons => exact readAs.starts.append _
        rcases starts with ⟨terminal, rest, same, starts⟩
        rw [same] at textsSpell
        refine (sees_of_spell textsSpell starts.legal).mono ?_
        rintro _ rfl
        exact starts.ne_rightParen
      rintro _ rfl
      exact (arguments (.cons readAs all) (List.cons_ne_nil _ _) textsSpell atClosing
        (by omega)).bind closed

/-! #### Operators behind an operand -/

theorem subscript (isFresh : note.IsFresh) {arrayText indexText : List Terminal}
    {arrayLevel indexLevel : Nat} {array index : Expr}
    (isArray : ReadAs strings arrayText arrayLevel array)
    (isIndex : ReadAs strings indexText indexLevel index) :
    ReadAs strings (Terminal.enclose (arrayLevel < postfixLevel) arrayText ++
      Terminal.mark .leftBracket :: (indexText ++ [Terminal.mark .rightBracket])) postfixLevel
      (.subscript note array index) := by
  rcases isArray.enclosed postfixLevel (by decide) with ⟨level, tight, isArray⟩
  refine of_trails ((isArray.startsPrimary tight).append _) ?_
  intro ending before middle after enough fuel wanted spell _ rest atMost
  rcases spell.append with ⟨behind, arraySpell, spell⟩
  rcases spell.cons with ⟨opening, tokens, rfl, isOpening, -, spell⟩
  rcases spell.snoc with ⟨closing, indexSpell, isClosing⟩
  simp only [List.length_append, List.length_cons, List.length_nil] at atMost
  refine isArray.trails tight ending before (opening :: tokens) after
    (enough + 4 * (indexText.length + 2)) fuel wanted arraySpell ?_ ?_ (by omega)
  · exact Parser.sees_cons (Parser.legal_of_mark isOpening) (by simp [isOpening, Behind])
  intro result fuel same atMost
  rcases Nat.exists_eq_add_of_le' (by omega : 1 ≤ fuel) with ⟨fuel, rfl⟩
  rw [trailing]
  refine Parser.current_bind (Parser.legal_of_mark isOpening) ?_
  simp only [isOpening]
  refine Parser.skip_bind (Parser.legal_of_mark isOpening) ?_
  refine (isIndex.reads_behind indexSpell (Nat.zero_le _) (sees_closing isClosing (by decide))
    (by omega)).bind ?_
  intro indexResult indexSame
  refine (Parser.expectMark_reads isClosing).bind ?_
  intro _ _
  refine (Parser.newNote_reads _).bind ?_
  rintro _ ⟨loc, rfl⟩
  exact rest _ fuel (by simp only [unplaced, isFresh.unplaced_eq loc, same, indexSame]) (by omega)

theorem stepAfter (isFresh : note.IsFresh) (op : StepOp)
    (isOperand : ReadAs strings text level expr) :
    ReadAs strings (Terminal.enclose (level < postfixLevel) text ++ [Terminal.mark op.mark])
      postfixLevel
      (.step note .after op expr) := by
  rcases isOperand.enclosed postfixLevel (by decide) with ⟨level, tight, isOperand⟩
  refine of_trails ((isOperand.startsPrimary tight).append _) ?_
  intro ending before middle after enough fuel wanted spell _ rest atMost
  rcases spell.snoc with ⟨token, textSpell, isMark⟩
  simp only [List.length_append, List.length_cons, List.length_nil] at atMost
  refine isOperand.trails tight ending before (token :: middle) after (enough + 4) fuel wanted
    textSpell ?_ ?_ (by omega)
  · exact Parser.sees_cons (Parser.legal_of_mark isMark)
      (by cases op <;> simp [isMark, StepOp.mark, Behind])
  intro result fuel same atMost
  rcases Nat.exists_eq_add_of_le' (by omega : 1 ≤ fuel) with ⟨fuel, rfl⟩
  rw [trailing]
  refine Parser.current_bind (Parser.legal_of_mark isMark) ?_
  rw [isMark]
  split
  case h_1 isOpening => cases op <;> cases isOpening
  case h_2 =>
      rw [stepOp?_mark]
      refine Parser.skip_bind (Parser.legal_of_mark isMark) ?_
      refine (Parser.newNote_reads _).bind ?_
      rintro _ ⟨loc, rfl⟩
      exact rest _ fuel (by simp only [unplaced, isFresh.unplaced_eq loc, same]) (by omega)

/-! #### Operators in front of an operand -/

/-- What a terminal in front of an operand makes of it. -/
theorem prefixed (build : Note → Expr → Expr) (terminal : Terminal)
    (starts : Starts terminal.kind) (notOpening : terminal.kind ≠ .punctuator .leftParen)
    (agrees : ∀ (loc : Loc) (result : Expr), result.unplaced = expr.unplaced →
      (build (.untyped loc) result).unplaced = (build note expr).unplaced)
    (dispatch : ∀ (ending : Except Lexer.Overrun Token) (token : Token) (tokens after : List Token)
      (fuel : Nat) (wanted : Expr → Prop), token.kind = terminal.kind →
      Terminal.Spell tokens text after →
      Reads ending (do
        let inner ← operand fuel
        pure (build (← Parser.newNote token.span) inner)) tokens after wanted →
      Reads ending (operand (fuel + 1)) (token :: tokens) after wanted)
    (isOperand : ReadAs strings text level expr) (tight : prefixLevel ≤ level) :
    ReadAs strings (terminal :: text) prefixLevel (build note expr) := by
  refine of_operates ⟨_, _, rfl, starts⟩ (fun _ => .inl ⟨_, _, rfl, starts, notOpening⟩) ?_
  intro ending before after fuel spell sees atMost
  rcases spell.cons with ⟨token, tokens, rfl, isTerminal, -, spell⟩
  simp only [List.length_cons] at atMost
  rcases Nat.exists_eq_add_of_le' (by omega : 1 ≤ fuel) with ⟨fuel, rfl⟩
  refine dispatch ending token tokens after fuel _ isTerminal spell ?_
  refine (isOperand.operates tight ending tokens after fuel spell sees (by omega)).bind ?_
  intro result same
  refine (Parser.newNote_reads _).bind ?_
  rintro _ ⟨loc, rfl⟩
  exact Reads.pure (agrees loc result same)

theorem front (isFresh : note.IsFresh) {mark : Punctuator} {build : Note → Expr → Expr}
    (isFront : Front mark build) (isOperand : ReadAs strings text level expr) :
    ReadAs strings (.mark mark :: Terminal.enclose (level < prefixLevel) text) prefixLevel
      (build note expr) := by
  rcases isOperand.enclosed prefixLevel (by decide) with ⟨level, tight, isOperand⟩
  refine prefixed build (.mark mark) isFront.starts isFront.ne_leftParen ?_ ?_ isOperand tight
  · intro loc result same
    exact isFront.unplaced_eq (isFresh.unplaced_eq loc) same
  intro ending token tokens after fuel wanted isMark _ reads
  rw [operand]
  refine Parser.current_bind (Parser.legal_of_mark isMark) ?_
  simp only [isMark]
  cases isFront with
  | unary op | step op => cases op <;> exact Parser.skip_bind (Parser.legal_of_mark isMark) reads
  | addressOf | dereference => exact Parser.skip_bind (Parser.legal_of_mark isMark) reads

theorem sizeofExpr (isFresh : note.IsFresh) (isOperand : ReadAs strings text level expr) :
    ReadAs strings (.word .sizeof :: Terminal.enclose (expr.isCast || level < prefixLevel) text)
      prefixLevel (.sizeofExpr note expr) := by
  have enclosed : ∃ level', prefixLevel ≤ level' ∧
      NoTypeName (Terminal.enclose (expr.isCast || level < prefixLevel) text) ∧
      ReadAs strings (Terminal.enclose (expr.isCast || level < prefixLevel) text) level' expr := by
    by_cases needed : expr.isCast || level < prefixLevel
    · rw [needed]
      have isEnclosed := isOperand.parenthesized
      exact ⟨primaryLevel, by decide, isEnclosed.noTypeName (by decide) nofun, isEnclosed⟩
    · rw [Bool.not_eq_true] at needed
      rw [needed]
      simp only [Bool.or_eq_false_iff, decide_eq_false_iff_not, Nat.not_lt] at needed
      exact ⟨level, needed.2, isOperand.noTypeName needed.2 fun _ => needed.1, isOperand⟩
  rcases enclosed with ⟨level, tight, noTypeName, isOperand⟩
  refine prefixed .sizeofExpr (.word .sizeof) trivial nofun ?_ ?_ isOperand tight
  · intro loc result same
    simp only [unplaced, isFresh.unplaced_eq loc, same]
  intro ending token tokens after fuel wanted isWord spell reads
  rw [operand]
  refine Parser.current_bind (by simp [isWord]) ?_
  simp only [isWord]
  refine Parser.skip_bind (by simp [isWord]) ?_
  refine (opensTypeName_reads_not noTypeName spell).bind ?_
  rintro _ rfl
  exact reads

theorem sizeofType (isFresh : note.IsFresh) {type : CType} (isNameable : type.IsNameable) :
    ReadAs strings
      (.word .sizeof :: .mark .leftParen :: (type.typeName ++ [Terminal.mark .rightParen]))
      prefixLevel (.sizeofType note type) := by
  refine of_operates ⟨_, _, rfl, trivial⟩ (fun _ => .inl ⟨_, _, rfl, trivial, nofun⟩) ?_
  intro ending before after fuel spell _ atMost
  rcases spell.cons with ⟨token, tokens, rfl, isWord, -, spell⟩
  simp only [List.length_cons] at atMost
  rcases Nat.exists_eq_add_of_le' (by omega : 1 ≤ fuel) with ⟨fuel, rfl⟩
  rcases parenTypeName_reads ending isNameable spell with ⟨opens, reads⟩
  rw [operand]
  refine Parser.current_bind (by simp [isWord]) ?_
  simp only [isWord]
  refine Parser.skip_bind (by simp [isWord]) ?_
  refine opens.bind ?_
  rintro _ rfl
  refine reads.bind ?_
  rintro _ rfl
  refine (Parser.newNote_reads _).bind ?_
  rintro _ ⟨loc, rfl⟩
  exact Reads.pure (by simp only [unplaced, isFresh.unplaced_eq loc])

theorem cast (isFresh : note.IsFresh) {target : CType} (isNameable : target.IsNameable)
    (isOperand : ReadAs strings text level expr) :
    ReadAs strings (.mark .leftParen :: (target.typeName ++ .mark .rightParen ::
      Terminal.enclose (level < prefixLevel) text)) prefixLevel (.cast note target expr false) := by
  rcases isOperand.enclosed prefixLevel (by decide) with ⟨level, tight, isOperand⟩
  refine of_operates ⟨_, _, rfl, .inl rfl⟩ (fun notCast => by simp [isCast] at notCast) ?_
  intro ending before after fuel spell sees atMost
  -- The type name with its parentheses is read as one piece.
  have regrouped : ∀ text : List Terminal,
      Terminal.mark .leftParen :: (target.typeName ++ .mark .rightParen :: text) =
        (Terminal.mark .leftParen :: (target.typeName ++ [Terminal.mark .rightParen])) ++ text := by
      simp
  rw [regrouped] at spell atMost
  rcases spell.append with ⟨behind, typeSpell, textSpell⟩
  simp only [List.length_append, List.length_cons] at atMost
  rcases Nat.exists_eq_add_of_le' (by omega : 1 ≤ fuel) with ⟨fuel, rfl⟩
  rcases parenTypeName_reads ending isNameable typeSpell with ⟨opens, reads⟩
  rcases typeSpell.cons with ⟨token, tokens, rfl, isOpening, -⟩
  rw [operand]
  refine Parser.current_bind (Parser.legal_of_mark isOpening) ?_
  simp only [isOpening]
  refine opens.bind ?_
  rintro _ rfl
  refine reads.bind ?_
  rintro _ rfl
  refine (isOperand.operates tight ending behind after fuel textSpell sees (by omega)).bind ?_
  intro result same
  refine (Parser.newNote_reads _).bind ?_
  rintro _ ⟨loc, rfl⟩
  exact Reads.pure (by simp only [unplaced, isFresh.unplaced_eq loc, same])

/-! #### Operators between operands -/

/-- An operator between operands, and what is read behind it. The tokens behind the text must not go
on with its last operand, which is parsed at the right level of the operator. -/
theorem continued {mark : Punctuator} (continuation : Continuation) {left : Expr}
    (starts : Continuation.ofMark? mark = some continuation)
    (loose : continuation.level < prefixLevel) (isLeft : ReadAs strings text level left)
    (atLeast : continuation.level ≤ level) (leftGroups : continuation.level < rightLevel level)
    (right : ∀ (ending : Except Lexer.Overrun Token) (token : Token)
      (tokens middle after : List Token) (bound fuel : Nat) (result : Expr)
      (wanted : Expr → Prop), token.kind = .punctuator mark → Terminal.Spell tokens more middle →
      Sees ending middle (Behind strings (Stops (rightLevel continuation.level))) →
      result.unplaced = left.unplaced → ¬continuation.level < bound →
      1 + 4 * more.length ≤ fuel →
      (∀ result, result.unplaced = expr.unplaced →
        Reads ending (continuations fuel bound result) middle after wanted) →
      Reads ending (continuations (fuel + 1) bound result) (token :: tokens) after wanted) :
    ReadAs strings (text ++ .mark mark :: more) continuation.level expr := by
  refine of_climbs (isLeft.starts.append _) loose ?_
  intro ending before middle after bound enough fuel wanted spell atMost sees positive rest bounded
  rcases spell.append with ⟨behind, textSpell, spell⟩
  rcases spell.cons with ⟨token, tokens, rfl, isMark, -, spell⟩
  simp only [List.length_append, List.length_cons] at bounded
  refine isLeft.climbs ending before (token :: tokens) after bound (enough + 4 * (1 + more.length))
    fuel wanted textSpell (Nat.le_trans atMost atLeast)
    (sees_continuation isMark starts leftGroups) (by omega) ?_ (by omega)
  intro result fuel same bounded
  rcases Nat.exists_eq_add_of_le' (by omega : 1 ≤ fuel) with ⟨fuel, rfl⟩
  exact right ending token tokens middle after bound fuel result wanted isMark spell sees
    same (Nat.not_lt.2 atMost) (by omega) fun result same => rest result fuel same (by omega)

theorem binary (isFresh : note.IsFresh) (op : BinaryOp) {left right : Expr}
    {leftText rightText : List Terminal} {leftLevel rightLevel : Nat}
    (isLeft : ReadAs strings leftText leftLevel left)
    (isRight : ReadAs strings rightText rightLevel right) :
    ReadAs strings (Terminal.enclose (leftLevel < op.level) leftText ++
      .mark op.mark :: Terminal.enclose (rightLevel < op.level + 1) rightText) op.level
      (.binary note op left right) := by
  have starts := Continuation.ofMark?_binary op
  have bounds : 5 ≤ op.level ∧ op.level ≤ 50 := by
    rcases op with op | op | op <;> cases op <;> decide
  rcases isLeft.enclosed op.level (Nat.le_trans bounds.2 (by decide))
    with ⟨leftLevel, leftLoose, isLeft⟩
  rcases isRight.enclosed (op.level + 1) (Nat.le_trans (Nat.succ_le_succ bounds.2) (by decide))
    with ⟨rightLevel, rightLoose, isRight⟩
  have groupsLeft : ∀ level, op.level ≤ level → op.level < Expr.rightLevel level := by
    intro level le
    unfold Expr.rightLevel
    split <;> omega
  refine continued (.binary op) starts (Nat.lt_of_le_of_lt bounds.2 (by decide)) isLeft leftLoose
    (groupsLeft _ leftLoose) ?_
  intro ending token tokens middle after bound fuel result wanted isMark spell sees same
    notLoose bounded rest
  rw [continuations]
  refine Parser.current_bind (Parser.legal_of_mark isMark) ?_
  simp only [isMark, Continuation.ofKind?, starts]
  rw [if_neg notLoose]
  refine Parser.skip_bind (Parser.legal_of_mark isMark) ?_
  -- The right operand is parsed one level up and leaves operators of this level to the loop.
  have right : Expr.rightLevel (Continuation.binary op).level = op.level + 1 :=
    if_neg (by change ¬op.level ≤ 3; omega)
  rw [right] at sees
  refine (isRight.reads_behind spell rightLoose sees bounded).bind ?_
  intro rightResult rightSame
  refine (Parser.newNote_reads _).bind ?_
  rintro _ ⟨loc, rfl⟩
  exact rest _ (by simp only [unplaced, isFresh.unplaced_eq loc, same, rightSame])

theorem assign (isFresh : note.IsFresh) (op : AssignOp) {left right : Expr}
    {leftText rightText : List Terminal} {leftLevel rightLevel : Nat}
    (isLeft : ReadAs strings leftText leftLevel left)
    (isRight : ReadAs strings rightText rightLevel right) :
    ReadAs strings (Terminal.enclose (leftLevel < 2) leftText ++
      .mark op.mark :: Terminal.enclose (rightLevel < 1) rightText) 1
      (.assign note op left right none) := by
  have starts := Continuation.ofMark?_assign op
  rcases isLeft.enclosed 2 (by decide) with ⟨leftLevel, leftLoose, isLeft⟩
  rcases isRight.enclosed 1 (by decide) with ⟨rightLevel, rightLoose, isRight⟩
  refine continued (.assign op) starts (by decide : 1 < prefixLevel) isLeft (Nat.le_of_lt leftLoose)
    (Nat.lt_of_lt_of_le leftLoose (le_rightLevel _)) ?_
  intro ending token tokens middle after bound fuel result wanted isMark spell sees same
    notLoose bounded rest
  rw [continuations]
  refine Parser.current_bind (Parser.legal_of_mark isMark) ?_
  simp only [isMark, Continuation.ofKind?, starts]
  rw [if_neg notLoose]
  refine Parser.skip_bind (Parser.legal_of_mark isMark) ?_
  refine (isRight.reads_behind spell rightLoose sees bounded).bind ?_
  intro rightResult rightSame
  refine (Parser.newNote_reads _).bind ?_
  rintro _ ⟨loc, rfl⟩
  exact rest _ (by simp only [unplaced, isFresh.unplaced_eq loc, same, rightSame])

theorem conditional (isFresh : note.IsFresh) {condition thenBranch elseBranch : Expr}
    {conditionText thenText elseText : List Terminal} {conditionLevel thenLevel elseLevel : Nat}
    (isCondition : ReadAs strings conditionText conditionLevel condition)
    (isThen : ReadAs strings thenText thenLevel thenBranch)
    (isElse : ReadAs strings elseText elseLevel elseBranch) :
    ReadAs strings (Terminal.enclose (conditionLevel < 4) conditionText ++
      .mark .question :: (thenText ++
        .mark .colon :: Terminal.enclose (elseLevel < 3) elseText)) 3
      (.conditional note condition thenBranch elseBranch) := by
  rcases isCondition.enclosed 4 (by decide) with ⟨conditionLevel, conditionLoose, isCondition⟩
  rcases isElse.enclosed 3 (by decide) with ⟨elseLevel, elseLoose, isElse⟩
  refine continued .conditional rfl (by decide) isCondition
    (Nat.le_of_lt conditionLoose) (Nat.lt_of_lt_of_le conditionLoose (le_rightLevel _)) ?_
  intro ending token tokens middle after bound fuel result wanted isMark spell sees same
    notLoose bounded rest
  rcases spell.append with ⟨behind, thenSpell, spell⟩
  rcases spell.cons with ⟨colon, more, rfl, isColon, -, elseSpell⟩
  simp only [List.length_append, List.length_cons] at bounded
  rw [continuations]
  refine Parser.current_bind (Parser.legal_of_mark isMark) ?_
  simp only [isMark, Continuation.ofKind?, Continuation.ofMark?]
  rw [if_neg notLoose]
  refine Parser.skip_bind (Parser.legal_of_mark isMark) ?_
  refine (isThen.reads_behind thenSpell (Nat.zero_le _) (sees_closing isColon (by decide))
    (by omega)).bind ?_
  intro thenResult thenSame
  refine (Parser.expectMark_reads isColon).bind ?_
  intro _ _
  refine (isElse.reads_behind elseSpell elseLoose sees (by omega)).bind ?_
  intro elseResult elseSame
  refine (Parser.newNote_reads _).bind ?_
  rintro _ ⟨loc, rfl⟩
  exact rest _ (by simp only [unplaced, isFresh.unplaced_eq loc, same, thenSame, elseSame])

end ReadAs

/-! ### All expressions -/

mutual

/-- A text of an expression is read as the expression. -/
theorem SpelledAs.readAs {strings : Bool} : ∀ {expr : Expr} {text : List Terminal},
    expr.SpelledAs strings text → ReadAs strings text expr.level expr
  | _, _, .constant isFresh denotes => .constant isFresh denotes
  | _, _, .string isAllowed isFresh nonempty areStrings denotes =>
      .string isAllowed isFresh nonempty areStrings denotes
  | _, _, .var isFresh name => .var isFresh name
  | _, _, .call isFresh name areArguments => .call isFresh name areArguments.readAs
  | _, _, .subscript isFresh isArray isIndex => .subscript isFresh isArray.readAs isIndex.readAs
  | _, _, .stepAfter isFresh op isOperand => .stepAfter isFresh op isOperand.readAs
  | _, _, .stepBefore isFresh op isOperand => .front isFresh (.step op) isOperand.readAs
  | _, _, .unary isFresh op isOperand => .front isFresh (.unary op) isOperand.readAs
  | _, _, .addressOf isFresh isOperand => .front isFresh .addressOf isOperand.readAs
  | _, _, .dereference isFresh isOperand => .front isFresh .dereference isOperand.readAs
  | _, _, .cast isFresh isNameable isOperand => .cast isFresh isNameable isOperand.readAs
  | _, _, .sizeofType isFresh isNameable => .sizeofType isFresh isNameable
  | _, _, .sizeofExpr isFresh isOperand => .sizeofExpr isFresh isOperand.readAs
  | _, _, .binary isFresh op isLeft isRight => .binary isFresh op isLeft.readAs isRight.readAs
  | _, _, .conditional isFresh isCondition isThen isElse =>
      .conditional isFresh isCondition.readAs isThen.readAs isElse.readAs
  | _, _, .assign isFresh op isLeft isRight => .assign isFresh op isLeft.readAs isRight.readAs

/-- Texts of the expressions of a list are read as the expressions. -/
theorem SpelledAsList.readAs {strings : Bool} :
    ∀ {exprs : List Expr} {texts : List (List Terminal)},
      SpelledAsList strings exprs texts → ReadAs.All strings texts exprs
  | _, _, .nil => .nil
  | _, _, .cons isFirst areMore => .cons ⟨_, isFirst.readAs⟩ areMore.readAs

end

/-- The terminals of an expression are read as the expression. -/
theorem readAs (expr : Expr) (isSpellable : expr.IsSpellable) :
    ReadAs false expr.terminals expr.level expr :=
  (spelledAs_terminals expr isSpellable).readAs

/-- A kind that makes a larger expression of no expression in front of it. -/
def EndsExpr (kind : TokenKind) : Prop :=
  EndsOperand kind ∧ Continuation.ofKind? kind = none

/-- The terminals of an expression, wherever they stand, are parsed as that expression, up to the
numbers and places of its nodes. They are all that is consumed, if the token behind them, or the end
of the input, makes no larger expression of them. -/
theorem parse_terminals {expr : Expr} (isSpellable : expr.IsSpellable) {tokens rest : List Token}
    {ending : Except Lexer.Overrun Token} (lastId : Nat)
    (spelled : tokens.map Token.terminal = expr.terminals)
    (ends : Sees ending rest EndsExpr) :
    ∃ result lastId', (parse : Parser ParseState Expr).run ⟨tokens ++ rest, ending, lastId⟩ =
        .ok (result, ⟨rest, ending, lastId'⟩) ∧
      result.unplaced = expr.unplaced := by
  have spell : Terminal.Spell (tokens ++ rest) expr.terminals rest := ⟨tokens, spelled, rfl⟩
  have stops : Sees ending rest (Stops 0) := by
    refine ends.mono ?_
    rintro kind ⟨endsOperand, isNone⟩
    refine ⟨endsOperand, ?_⟩
    intro continuation starts
    rw [isNone] at starts
    cases starts
  have reads : Reads ending parse (tokens ++ rest) rest
      fun result => result.unplaced = expr.unplaced := by
    unfold parse
    refine Parser.fuel_reads.bind ?_
    rintro _ rfl
    have length := spell.length_eq
    exact (readAs expr isSpellable).reads spell (Nat.zero_le _) stops (by omega)
  exact reads.exists_run lastId

/-- The case of `a = b ? (long)x - (y - 1) : f(sizeof(int (*)[3]), i++)`. -/
theorem parse_terminals_mixed :
    let note : Note := .untyped ⟨0, .none⟩
    let name (text : String) : Expr := .var note text
    let expr : Expr :=
      .assign note .plain (name "a") (.conditional note (name "b")
        (.binary note (.arith .sub) (.cast note .long (name "x") false)
          (.binary note (.arith .sub) (name "y") (.constant note (.int 1))))
        (.call note "f" [.sizeofType note (.pointer (.array 3 .int)),
          .step note .after .increment (name "i")])) none
    let token (terminal : Terminal) : Token := ⟨terminal.kind, terminal.literal, .none⟩
    let ending : Except Lexer.Overrun Token := .ok ⟨.endOfInput, [], .none⟩
    ∃ result lastId', (parse : Parser ParseState Expr).run
          ⟨expr.terminals.map token, ending, 0⟩ = .ok (result, ⟨[], ending, lastId'⟩) ∧
      result.unplaced = expr.unplaced := by
  intro note name expr token ending
  rw [← List.append_nil (expr.terminals.map token)]
  have one : (0 : Int32) ≤ 1 := by decide
  refine parse_terminals ?_ 0 ?_ ?_
  · exact ⟨rfl, rfl, rfl, rfl, rfl, ⟨rfl, ⟨rfl, rfl, trivial, rfl⟩, rfl, rfl, rfl, one⟩,
      rfl, ⟨rfl, by decide, by decide, trivial⟩, ⟨rfl, rfl⟩, trivial⟩
  · rw [List.map_map]
    exact List.map_id _
  · exact ⟨_, rfl, nofun, ⟨nofun, nofun, rfl⟩, rfl⟩

/-- Right operands of the same level are parenthesized, left ones are not, and the other way round
for assignment and the conditional operator. -/
example :
    let note : Note := .untyped ⟨0, .none⟩
    let name (text : String) : Expr := .var note text
    let minus (left right : Expr) : Expr := .binary note (.arith .sub) left right
    let choose (first second third : Expr) : Expr := .conditional note first second third
    (choose (choose (name "a") (name "b") (name "c")) (name "d")
        (choose (name "e") (minus (minus (name "f") (name "g")) (name "h"))
          (minus (name "i") (minus (name "j") (name "k"))))).terminals.flatMap Terminal.literal =
      "(a?b:c)?d:e?f-g-h:i-(j-k)" := by
  decide

end Expr

end SubsetC
