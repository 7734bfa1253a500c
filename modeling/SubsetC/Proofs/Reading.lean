import SubsetC.Ast.Literal
import SubsetC.Proofs.Naming
import SubsetC.Proofs.Outcome
import SubsetC.Proofs.TokenLists

/-!
# Reading printed text back

What it takes to say that a parser inverts a printer. Printed text is a list of terminals, which are
tokens without their places. `Terminal.Spell` says that a list of tokens starts with such a text, and
`Parser.Reads` that a parser succeeds and consumes exactly the tokens between two points. As with
`Ensures`, a rule for sequencing and rules for the primitives reduce such a statement to facts about
the tokens. The numerals of `Const.text` are read back at the end.
-/

namespace SubsetC

/-! ### Terminals -/

/-- A token without its place. -/
structure Terminal where
  kind : TokenKind
  /-- The token's text. -/
  literal : Text
  deriving DecidableEq, Repr

/-- The token without its place. -/
def Token.terminal (token : Token) : Terminal := ⟨token.kind, token.literal⟩

namespace Terminal

/-- An operator or delimiter. -/
abbrev mark (mark : Punctuator) : Terminal := ⟨.punctuator mark, mark.text⟩

/-- A reserved word. -/
abbrev word (word : Keyword) : Terminal := ⟨.keyword word, word.text⟩

abbrev name (name : Text) : Terminal := ⟨.identifier, name⟩

abbrev integer (literal : Text) : Terminal := ⟨.integer, literal⟩

/-- A text, in parentheses if they are needed. -/
def enclose (needed : Bool) (text : List Terminal) : List Terminal :=
  if needed then mark .leftParen :: (text ++ [mark .rightParen]) else text

/-- The tokens up to a point are those of a text, wherever they stand. -/
def Spell (before : List Token) (text : List Terminal) (after : List Token) : Prop :=
  ∃ tokens, tokens.map Token.terminal = text ∧ before = tokens ++ after

namespace Spell

variable {before after : List Token} {text more : List Terminal} {terminal : Terminal}

theorem nil (spell : Spell before [] after) : before = after := by
  rcases spell with ⟨tokens, same, rfl⟩
  simp [List.map_eq_nil_iff.1 same]

theorem cons (spell : Spell before (terminal :: text) after) :
    ∃ token rest, before = token :: rest ∧ token.kind = terminal.kind ∧
      token.literal = terminal.literal ∧ Spell rest text after := by
  rcases spell with ⟨tokens, same, rfl⟩
  rcases List.map_eq_cons_iff.1 same with ⟨token, rest, rfl, rfl, restSame⟩
  exact ⟨token, rest ++ after, rfl, rfl, rfl, rest, restSame, rfl⟩

theorem append (spell : Spell before (text ++ more) after) :
    ∃ middle, Spell before text middle ∧ Spell middle more after := by
  rcases spell with ⟨tokens, same, rfl⟩
  rcases List.map_eq_append_iff.1 same with ⟨first, second, rfl, rfl, rfl⟩
  exact ⟨second ++ after, ⟨first, rfl, by simp⟩, second, rfl, rfl⟩

theorem singleton (spell : Spell before [terminal] after) :
    ∃ token, before = token :: after ∧ token.kind = terminal.kind ∧
      token.literal = terminal.literal := by
  rcases spell.cons with ⟨token, rest, rfl, isKind, isText, restSpell⟩
  cases restSpell.nil
  exact ⟨token, rfl, isKind, isText⟩

/-- A text is in front of the token that closes it. -/
theorem snoc (spell : Spell before (text ++ [terminal]) after) :
    ∃ token, Spell before text (token :: after) ∧ token.kind = terminal.kind := by
  rcases spell.append with ⟨middle, textSpell, lastSpell⟩
  rcases lastSpell.singleton with ⟨token, rfl, isKind, -⟩
  exact ⟨token, textSpell, isKind⟩

theorem length_eq (spell : Spell before text after) :
    before.length = text.length + after.length := by
  rcases spell with ⟨tokens, rfl, rfl⟩
  simp

end Spell

end Terminal

/-! ### Parsers that consume exactly a text -/

namespace Parser

variable {ending : Except Lexer.Overrun Token}

/-- The token at which a parser stands: the first one left, or the end of the input. -/
def next? (ending : Except Lexer.Overrun Token) : List Token → Option Token
  | token :: _ => some token
  | [] => ending.toOption

/-- A parser stands at a token that the lexer accepts, of a kind as described. -/
def Sees (ending : Except Lexer.Overrun Token) (tokens : List Token) (fits : TokenKind → Prop) :
    Prop :=
  ∃ token, next? ending tokens = some token ∧ token.kind ≠ .illegal ∧ fits token.kind

theorem Sees.mono {tokens : List Token} {fits fits' : TokenKind → Prop}
    (sees : Sees ending tokens fits) (weaken : ∀ kind, fits kind → fits' kind) :
    Sees ending tokens fits' := by
  rcases sees with ⟨token, isNext, legal, holds⟩
  exact ⟨token, isNext, legal, weaken _ holds⟩

theorem sees_cons {token : Token} {tokens : List Token} {fits : TokenKind → Prop}
    (legal : token.kind ≠ .illegal) (holds : fits token.kind) :
    Sees ending (token :: tokens) fits :=
  ⟨token, rfl, legal, holds⟩

/-- At the start of a text a parser sees the first terminal. -/
theorem sees_of_spell {before after : List Token} {terminal : Terminal} {text : List Terminal}
    (spell : Terminal.Spell before (terminal :: text) after) (legal : terminal.kind ≠ .illegal) :
    Sees ending before (· = terminal.kind) := by
  rcases spell.cons with ⟨token, rest, rfl, same, -⟩
  exact sees_cons (same ▸ legal) same

/-- A parser succeeds, with a result as wanted, and consumes the tokens between two points. -/
def Reads {α : Type} (ending : Except Lexer.Overrun Token) (parser : Parser ParseState α)
    (before after : List Token) (wanted : α → Prop) : Prop :=
  ∀ lastId, Ensures parser ⟨before, ending, lastId⟩ (fun _ => False) fun result state =>
    state.tokens = after ∧ state.ending = ending ∧ wanted result

section Rules

variable {α β : Type} {parser : Parser ParseState α} {next : α → Parser ParseState β}
  {before middle after : List Token}
  {between wanted : α → Prop} {final : β → Prop}

theorem Reads.exists_run (reads : Reads ending parser before after wanted) (lastId : Nat) :
    ∃ result lastId', parser.run ⟨before, ending, lastId⟩ =
      .ok (result, ⟨after, ending, lastId'⟩) ∧ wanted result := by
  rcases (reads lastId).exists_ok with ⟨result, ⟨_, _, lastId'⟩, runs, rfl, rfl, holds⟩
  exact ⟨result, lastId', runs, holds⟩

theorem Reads.mono {wanted' : α → Prop} (reads : Reads ending parser before after wanted)
    (weaken : ∀ result, wanted result → wanted' result) :
    Reads ending parser before after wanted' :=
  fun lastId => (reads lastId).mono fun result _ holds =>
    ⟨holds.1, holds.2.1, weaken result holds.2.2⟩

theorem Reads.pure {result : α} (holds : wanted result) :
    Reads ending (Pure.pure result : Parser ParseState α) before before wanted :=
  fun _ => Ensures.pure ⟨rfl, rfl, holds⟩

theorem Reads.bind (first : Reads ending parser before middle between)
    (rest : ∀ result, between result → Reads ending (next result) middle after final) :
    Reads ending (parser >>= next) before after final := by
  intro lastId
  refine (first lastId).bind ?_
  rintro result ⟨_, _, lastId'⟩ ⟨rfl, rfl, holds⟩
  exact rest result holds lastId'

end Rules

/-! ### Primitives -/

variable {token : Token} {tokens : List Token}

theorem newLoc_reads (span : Span) : Reads ending (newLoc span) tokens tokens fun _ => True :=
  fun _ => ⟨rfl, rfl, trivial⟩

/-- A node is numbered and built. -/
theorem located_reads {α : Type} {build : Loc → α} {wanted : α → Prop} (span : Span)
    (holds : ∀ loc, wanted (build loc)) :
    Reads ending (do pure (build (← newLoc span))) tokens tokens wanted :=
  (newLoc_reads span).bind fun loc _ => Reads.pure (holds loc)

theorem newNote_reads (span : Span) : Reads ending (newNote span) tokens tokens
    fun note => ∃ loc, note = .untyped loc :=
  fun _ => ⟨rfl, rfl, _, rfl⟩

theorem fuel_reads : Reads ending fuel tokens tokens
    fun bound => bound = 8 * (tokens.length + 2) :=
  fun _ => ⟨rfl, rfl, rfl⟩

theorem peekAt_reads {place : Nat} (isThere : tokens[place]? = some token) :
    Reads ending (TokenSource.peekAt place) tokens tokens fun found => found = token := by
  intro lastId
  unfold Ensures
  rw [Parser.run_peekAt_of_some isThere]
  exact ⟨rfl, rfl, rfl⟩

/-- Where no token is left, the end of the input is there. -/
theorem peekAt_reads_end :
    Reads (.ok token) (TokenSource.peekAt 0) [] [] fun found => found = token :=
  fun _ => ⟨rfl, rfl, rfl⟩

theorem current_reads {next : Token} (isNext : next? ending tokens = some next)
    (legal : next.kind ≠ .illegal) :
    Reads ending current tokens tokens fun token => token = next := by
  have looks : Reads ending (TokenSource.peekAt 0) tokens tokens fun token => token = next := by
    cases tokens with
    | cons first rest => exact peekAt_reads isNext
    | nil =>
        cases ending with
        | error overrun => cases isNext
        | ok token =>
            cases isNext
            exact peekAt_reads_end
  unfold current
  refine looks.bind ?_
  rintro _ rfl
  rw [if_neg legal]
  exact Reads.pure rfl

/-- If a parser can look at the current token, it stands there. -/
theorem current_yields (state : ParseState) :
    Yields current state fun token after =>
      after = state ∧ next? state.ending state.tokens = some token := by
  rcases state with ⟨_ | ⟨token, tokens⟩, ending, lastId⟩
  · cases ending with
    | error overrun => exact True.intro
    | ok token =>
        refine Ensures.bind_ok rfl ?_
        exact Ensures.ite (fun _ => Ensures.throw trivial) fun _ => Ensures.pure ⟨rfl, rfl⟩
  · refine Ensures.bind_ok rfl ?_
    exact Ensures.ite (fun _ => Ensures.throw trivial) fun _ => Ensures.pure ⟨rfl, rfl⟩

/-- The parser stands at a given token. -/
theorem current_reads_cons (legal : token.kind ≠ .illegal) :
    Reads ending current (token :: tokens) (token :: tokens) fun found => found = token :=
  current_reads rfl legal

/-- The parser stands at some token of a described kind. -/
theorem current_reads_sees {fits : TokenKind → Prop} (sees : Sees ending tokens fits) :
    Reads ending current tokens tokens fun found => fits found.kind := by
  rcases sees with ⟨next, isNext, legal, holds⟩
  refine (current_reads isNext legal).mono ?_
  rintro _ rfl
  exact holds

section Bind

variable {α : Type} {after : List Token} {final : α → Prop}

/-- What is done about the current token. -/
theorem current_bind {next : Token → Parser ParseState α} (legal : token.kind ≠ .illegal)
    (rest : Reads ending (next token) (token :: tokens) after final) :
    Reads ending (current >>= next) (token :: tokens) after final := by
  refine (current_reads_cons legal).bind ?_
  rintro _ rfl
  exact rest

theorem skip_reads (legal : token.kind ≠ .illegal) :
    Reads ending skip (token :: tokens) tokens fun _ => True :=
  current_bind legal fun _ => ⟨rfl, rfl, trivial⟩

/-- What is done behind the current token. -/
theorem skip_bind {next : Unit → Parser ParseState α} (legal : token.kind ≠ .illegal)
    (rest : Reads ending (next ()) tokens after final) :
    Reads ending (skip >>= next) (token :: tokens) after final :=
  (skip_reads legal).bind fun _ _ => rest

end Bind

theorem following_reads {second : Token} (legal : token.kind ≠ .illegal) :
    Reads ending following (token :: second :: tokens) (token :: second :: tokens)
      fun found => found = second := by
  unfold following
  exact current_bind legal (peekAt_reads rfl)

theorem currentIs_reads {kind : TokenKind} (isKind : token.kind = kind)
    (legal : token.kind ≠ .illegal) :
    Reads ending (currentIs kind) (token :: tokens) (token :: tokens)
      fun found => found = true := by
  unfold currentIs
  exact current_bind legal (Reads.pure (decide_eq_true isKind))

theorem currentIs_reads_not {kind : TokenKind} (sees : Sees ending tokens (· ≠ kind)) :
    Reads ending (currentIs kind) tokens tokens fun found => found = false := by
  unfold currentIs
  refine (current_reads_sees sees).bind ?_
  intro found differs
  exact Reads.pure (decide_eq_false differs)

/-- A test that looks ahead finds what it looks for. -/
theorem currentIsBefore_reads {kind : TokenKind} {test : TokenKind → Bool} {second : Token}
    (isKind : token.kind = kind) (legal : token.kind ≠ .illegal) :
    Reads ending (currentIsBefore kind test) (token :: second :: tokens) (token :: second :: tokens)
      fun found => found = test second.kind := by
  unfold currentIsBefore
  refine (currentIs_reads isKind legal).bind ?_
  rintro _ rfl
  refine (following_reads legal).bind ?_
  rintro _ rfl
  exact Reads.pure rfl

/-- A test that looks ahead fails where the current token is of another kind. -/
theorem currentIsBefore_reads_not {kind : TokenKind} {test : TokenKind → Bool}
    (sees : Sees ending tokens (· ≠ kind)) :
    Reads ending (currentIsBefore kind test) tokens tokens fun found => found = false := by
  unfold currentIsBefore
  refine (currentIs_reads_not sees).bind ?_
  rintro _ rfl
  exact Reads.pure rfl

theorem expect_reads {kind : TokenKind} (isKind : token.kind = kind)
    (legal : token.kind ≠ .illegal) :
    Reads ending (expect kind) (token :: tokens) tokens fun _ => True := by
  unfold expect
  refine current_bind legal ?_
  rw [if_neg (not_not_intro isKind)]
  exact skip_bind legal (Reads.pure trivial)

section Marks

variable {mark : Punctuator}

theorem legal_of_mark (isMark : token.kind = .punctuator mark) : token.kind ≠ .illegal := by
  simp [isMark]

theorem currentIsMark_reads (isMark : token.kind = .punctuator mark) :
    Reads ending (currentIsMark mark) (token :: tokens) (token :: tokens)
      fun found => found = true :=
  currentIs_reads isMark (legal_of_mark isMark)

theorem currentIsMark_reads_not (sees : Sees ending tokens (· ≠ .punctuator mark)) :
    Reads ending (currentIsMark mark) tokens tokens fun found => found = false :=
  currentIs_reads_not sees

theorem accept_reads (isMark : token.kind = .punctuator mark) :
    Reads ending (accept mark) (token :: tokens) tokens fun found => found = true := by
  unfold accept
  refine (currentIsMark_reads isMark).bind ?_
  rintro _ rfl
  exact skip_bind (legal_of_mark isMark) (Reads.pure rfl)

theorem accept_reads_not (sees : Sees ending tokens (· ≠ .punctuator mark)) :
    Reads ending (accept mark) tokens tokens fun found => found = false := by
  unfold accept
  refine (currentIsMark_reads_not sees).bind ?_
  rintro _ rfl
  exact Reads.pure rfl

theorem expectMark_reads (isMark : token.kind = .punctuator mark) :
    Reads ending (expectMark mark) (token :: tokens) tokens fun _ => True :=
  expect_reads isMark (legal_of_mark isMark)

end Marks

end Parser

/-! ### Numerals -/

theorem Text.toNat_ofNat (number : Nat) : toNat (ofNat number) = number := by
  have digits : toNat (ofNat number) = Nat.ofDigitChars 10 (Nat.toDigits 10 number) 0 := by
    rw [toNat, ofNat, List.foldl_map, Nat.ofDigitChars_eq_foldl]
    refine List.foldl_ext _ _ _ ?_
    intro value digit digitMem
    have isDigit := Nat.isDigit_of_mem_toDigits (by decide) (by decide) digitMem
    rw [(toNat_ofAscii_of_isDigit isDigit).1, Nat.mul_comm]
    rfl
  rw [digits, Nat.ofDigitChars_ten_toDigits]

theorem Lexer.isDigit_of_mem_ofNat {number : Nat} {byte : UInt8} (mem : byte ∈ Text.ofNat number) :
    isDigit byte := by
  simp only [isDigit, Bool.and_eq_true, decide_eq_true_eq, UInt8.le_iff_toNat_le]
  exact Text.isDigit_of_mem_ofNat mem

theorem Text.ofNat_ne_nil (number : Nat) : ofNat number ≠ [] := by
  simp [ofNat, Nat.toDigits_ne_nil]

namespace Literal

theorem isSuffixMark_of_isDigit {byte : UInt8} (digit : Lexer.isDigit byte) :
    isSuffixMark byte = false := by
  by_contra mark
  simp only [isSuffixMark, Lexer.isUnsignedMark, Lexer.isLongMark, Bool.not_eq_false,
    Bool.or_eq_true, decide_eq_true_eq] at mark
  rcases mark with (rfl | rfl) | (rfl | rfl) <;> exact absurd digit (by decide)

/-- The marks behind digits are split off. -/
theorem splitSuffix_append {digits suffix : Text} (areDigits : ∀ byte ∈ digits, Lexer.isDigit byte)
    (areMarks : suffix.all isSuffixMark) : splitSuffix (digits ++ suffix) = (digits, suffix) := by
  have inside : ∀ byte ∈ suffix.reverse, isSuffixMark byte := fun byte mem =>
    List.all_eq_true.1 areMarks byte (List.mem_reverse.1 mem)
  have outside : ∀ byte ∈ digits.reverse, isSuffixMark byte = false := fun byte mem =>
    isSuffixMark_of_isDigit (areDigits byte (List.mem_reverse.1 mem))
  have stops : digits.reverse.takeWhile isSuffixMark = [] ∧
      digits.reverse.dropWhile isSuffixMark = digits.reverse := by
    cases reversed : digits.reverse with
    | nil => exact ⟨rfl, rfl⟩
    | cons last front =>
        have notMark := outside last (by simp [reversed])
        simp [notMark]
  simp only [splitSuffix, List.reverse_append]
  rw [List.takeWhile_append_of_pos inside, List.dropWhile_append_of_pos inside, stops.1, stops.2]
  simp

theorem decimal?_of_digits {digits : Text} (nonempty : digits ≠ [])
    (areDigits : ∀ byte ∈ digits, Lexer.isDigit byte) :
    decimal? digits = some (Text.toNat digits) := by
  rw [decimal?, if_neg]
  simp only [Bool.or_eq_true, List.isEmpty_iff, List.any_eq_true, Bool.not_eq_true', not_or,
    not_exists, not_and, Bool.not_eq_false]
  exact ⟨nonempty, areDigits⟩

/-- The value of a literal is that of its digits, and its type follows from the marks behind. -/
theorem integer_append {digits suffix : Text} (nonempty : digits ≠ [])
    (areDigits : ∀ byte ∈ digits, Lexer.isDigit byte) (areMarks : suffix.all isSuffixMark) :
    integer (digits ++ suffix) = typed (digits ++ suffix) (suffix.any Lexer.isUnsignedMark)
      (suffix.any Lexer.isLongMark) (Text.toNat digits) := by
  simp only [integer, splitSuffix_append areDigits areMarks, decimal?_of_digits nonempty areDigits]

/-- A suffix consists of marks, and of these kinds. -/
def Marks (suffix : Text) (isUnsigned isLong : Bool) : Prop :=
  suffix.all isSuffixMark ∧ suffix.any Lexer.isUnsignedMark = isUnsigned ∧
    suffix.any Lexer.isLongMark = isLong

instance (suffix : Text) (isUnsigned isLong : Bool) : Decidable (Marks suffix isUnsigned isLong) :=
  inferInstanceAs (Decidable (_ ∧ _))

theorem integer_ofNat {suffix : Text} {isUnsigned isLong : Bool}
    (marks : Marks suffix isUnsigned isLong) (number : Nat) :
    integer (Text.ofNat number ++ suffix) =
      typed (Text.ofNat number ++ suffix) isUnsigned isLong number := by
  rcases marks with ⟨areMarks, isUnsignedMark, isLongMark⟩
  rw [integer_append (Text.ofNat_ne_nil number) (fun _ => Lexer.isDigit_of_mem_ofNat) areMarks,
    isUnsignedMark, isLongMark, Text.toNat_ofNat]

theorem integer_signed {number : Nat} {suffix : Text} {isLong : Bool}
    (marks : Marks suffix false isLong) (fits : number < 9223372036854775808) :
    integer (Text.ofNat number ++ suffix) =
      .ok (if isLong || 2147483648 ≤ number then .long (Int64.ofNat number)
        else .int (Int32.ofNat number)) := by
  have inWord : ¬UInt64.size ≤ number := by
    change ¬18446744073709551616 ≤ number
    omega
  have inLong : ¬UInt64.size / 2 ≤ number := by
    change ¬9223372036854775808 ≤ number
    omega
  rw [integer_ofNat marks, typed, if_neg inWord, if_neg (by simp), if_neg inLong]
  change (if isLong || 2147483648 ≤ number then _ else _) = _
  split <;> rfl

theorem integer_unsigned {number : Nat} {suffix : Text} {isLong : Bool}
    (marks : Marks suffix true isLong) (fits : number < 18446744073709551616) :
    integer (Text.ofNat number ++ suffix) =
      .ok (if isLong || 4294967296 ≤ number then .ulong (UInt64.ofNat number)
        else .uint (UInt32.ofNat number)) := by
  have inWord : ¬UInt64.size ≤ number := by
    change ¬18446744073709551616 ≤ number
    omega
  rw [integer_ofNat marks, typed, if_neg inWord, if_pos rfl]
  change (if isLong || 4294967296 ≤ number then _ else _) = _
  split <;> rfl

end Literal

/-- The constants that an integer literal can denote. -/
def Const.IsNumeral : Const → Prop
  | .int value => 0 ≤ value
  | .long value => 0 ≤ value
  | .uint _ | .ulong _ => True
  | .char _ | .uchar _ | .double _ => False

theorem Text.exists_ofInt {value : Int} (nonneg : 0 ≤ value) :
    ∃ number : Nat, value = number ∧ ofInt value = ofNat number := by
  rcases Int.eq_ofNat_of_zero_le nonneg with ⟨number, rfl⟩
  exact ⟨number, rfl, rfl⟩

/-- A constant is read back from its text. -/
theorem Literal.integer_text {value : Const} (isNumeral : value.IsNumeral) :
    integer value.text = .ok value := by
  cases value with
  | char | uchar | double => exact isNumeral.elim
  | int value =>
      have nonneg : 0 ≤ value.toInt := Int32.le_iff_toInt_le.1 isNumeral
      have fits := value.toInt_lt
      rcases Text.exists_ofInt nonneg with ⟨number, isNumber, isText⟩
      have back : Int32.ofNat number = value := by
        rw [← Int32.toInt_inj, isNumber]
        exact Int32.toInt_ofNat_of_lt (by omega)
      have reads := integer_signed (by decide : Marks "" false false) (by omega : number < _)
      rw [if_neg (by simp; omega), back, ← isText] at reads
      exact reads
  | long value =>
      have nonneg : 0 ≤ value.toInt := Int64.le_iff_toInt_le.1 isNumeral
      have fits := value.toInt_lt
      rcases Text.exists_ofInt nonneg with ⟨number, isNumber, isText⟩
      have back : Int64.ofNat number = value := by
        rw [← Int64.toInt_inj, isNumber]
        exact Int64.toInt_ofNat_of_lt (by omega)
      have reads := integer_signed (by decide : Marks "L" false true) (by omega : number < _)
      rw [if_pos (by simp), back, ← isText] at reads
      exact reads
  | uint value =>
      have fits : value.toNat < 4294967296 := value.toNat_lt
      have reads := integer_unsigned (by decide : Marks "U" true false)
        (by omega : value.toNat < _)
      rw [if_neg (by simp; omega), UInt32.ofNat_toNat] at reads
      exact reads
  | ulong value =>
      have reads := integer_unsigned (by decide : Marks "UL" true true) value.toNat_lt
      rw [if_pos (by simp), UInt64.ofNat_toNat] at reads
      exact reads

/-- A dimension is read back from its digits. -/
theorem Literal.integer_ofInt {value : Int} (nonneg : 0 ≤ value)
    (fits : value < 9223372036854775808) :
    ∃ constant, integer (Text.ofInt value) = .ok constant ∧ constant.toInt64.toInt = value := by
  rcases Text.exists_ofInt nonneg with ⟨number, rfl, isText⟩
  have reads := integer_signed (by decide : Marks "" false false) (by omega : number < _)
  change integer (Text.ofNat number ++ []) = _ at reads
  rw [List.append_nil, ← isText] at reads
  refine ⟨_, reads, ?_⟩
  split
  · exact Int64.toInt_ofNat_of_lt (by omega)
  · simp only [Bool.false_or, decide_eq_true_eq] at *
    change (Int32.ofNat number).toInt64.toInt = _
    rw [Int32.toInt_toInt64, Int32.toInt_ofNat_of_lt (by omega)]

end SubsetC
