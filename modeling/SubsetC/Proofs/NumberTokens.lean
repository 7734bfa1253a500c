import SubsetC.Proofs.JoinedSources

/-!
# Numbers in sources

Where the reader comes to a digit, or to a point with a digit behind it, it reads a number. The
token is an integer or a floating literal exactly if its text has that form and no letter, digit or
point goes on with it, and it is an illegal token that is not empty otherwise. The value of an
integer that is read this way is that of its digits, and its type is the smallest that its suffix
allows. So the text of a constant that an integer can denote is read back as that constant. The main
statements are `Lexer.reads_numbers` and `Lexer.reads_numerals`.
-/

namespace SubsetC

namespace Lexer

open Literal

theorem Cursor.read_eq_token {cursor : Cursor} {lead : UInt8} {rest : Text} {lexeme : Lexeme}
    (atLead : skipGap .blank cursor.rest = lead :: rest) (found : lexeme? lead rest = some lexeme) :
    read cursor = .token
      ⟨lexeme.kind, lexeme.literal, .ofWidth cursor.skip.position (lexeme.extra + 1)⟩
      (cursor.skip.advance (lexeme.extra + 1)) := by
  unfold read readToken
  rw [Cursor.rest_skip, atLead]
  simp only [found]

/-- A number is read where it starts, and the reader goes on behind it. -/
theorem read_number {cursor : Cursor} (starts : StartsNumber cursor.skip.rest) :
    ∃ token next, read cursor = .token token next ∧
      number cursor.skip.rest = (token.kind, token.literal) ∧
      cursor.skip.rest = token.literal ++ next.rest := by
  rw [Cursor.rest_skip] at starts ⊢
  rcases atLead : skipGap .blank cursor.rest with _ | ⟨lead, rest⟩
  · rw [atLead] at starts
    exact starts.elim
  · rw [atLead] at starts
    have width := Nat.sub_add_cancel (List.length_pos_iff.2 (number_ne_nil starts))
    refine ⟨_, _, Cursor.read_eq_token atLead (lexeme?_number starts), rfl, ?_⟩
    rw [Cursor.rest_advance_skip atLead, ← List.drop_succ_cons (a := lead)]
    change _ = (number (lead :: rest)).2 ++
      (lead :: rest).drop ((number (lead :: rest)).2.length - 1 + 1)
    rw [width]
    exact (List.prefix_iff_eq_append.1 (number_isPrefix starts)).symm

/-- A token is what is read of a number: an integer or a floating literal exactly if the text has
that form and ends there, and illegal otherwise. -/
structure Cursor.ReadsNumber (cursor : Cursor) (token : Token) (next : Cursor) : Prop where
  reads : read cursor = .token token next
  split : cursor.skip.rest = token.literal ++ next.rest
  nonempty : token.literal ≠ []
  integer_iff : token.kind = .integer ↔ IsInteger token.literal ∧ EndsNumber next.rest
  floating_iff : token.kind = .floating ↔ IsDecimal token.literal ∧ EndsNumber next.rest
  kind : token.kind = .integer ∨ token.kind = .floating ∨ token.kind = .illegal

/-- Where a number starts, one is read. -/
theorem Cursor.exists_readsNumber {cursor : Cursor} (starts : StartsNumber cursor.skip.rest) :
    ∃ token next, cursor.ReadsNumber token next := by
  rcases read_number starts with ⟨token, next, reads, same, split⟩
  have nonempty := number_ne_nil starts
  have kinds := number_kind starts
  rw [same] at nonempty kinds
  have accepts (kind : TokenKind) (legal : kind ≠ .illegal) :
      token.kind = kind ↔ IsNumber kind token.literal ∧ EndsNumber next.rest := by
    constructor
    · rintro rfl
      rcases (number_eq_iff starts legal).1 same with ⟨rest, split', isNumber, ends⟩
      rw [split, List.append_cancel_left_eq] at split'
      exact ⟨isNumber, split' ▸ ends⟩
    · rintro ⟨isNumber, ends⟩
      have reads := (number_eq_iff starts legal).2 ⟨_, split, isNumber, ends⟩
      rw [same] at reads
      exact congrArg Prod.fst reads
  refine ⟨token, next, reads, split, nonempty, ?_, ?_, kinds⟩
  · simpa [IsNumber] using accepts .integer nofun
  · simpa [IsNumber] using accepts .floating nofun

/-- A number with which nothing goes on is one token. -/
theorem read_number_append (position : Position) {kind : TokenKind} {literal rest : Text}
    (isNumber : IsNumber kind literal) (ends : EndsNumber rest) :
    ∃ token next, read ⟨position, literal ++ rest⟩ = .token token next ∧
      token.terminal = ⟨kind, literal⟩ ∧ next.rest = rest := by
  have stays := (IsToken.number isNumber ends).skipGap_eq
  have starts : StartsNumber (literal ++ rest) := isNumber.starts.append rest
  rw [← stays, ← Cursor.rest_skip ⟨position, literal ++ rest⟩] at starts
  rcases read_number starts with ⟨token, next, reads, same, split⟩
  rw [Cursor.rest_skip, stays] at same split
  rw [number_isNumber isNumber ends] at same
  rcases Prod.mk.inj same with ⟨rfl, rfl⟩
  exact ⟨token, next, reads, rfl, (List.append_cancel_left split).symm⟩

/-- What an integer of digits and a suffix denotes: the value of the digits in the smallest type
that the suffix allows. It denotes nothing only if there is no such type. -/
structure IntegerDenotes (literal digits suffix : Text) : Prop where
  split : literal = digits ++ suffix
  nonempty : digits ≠ []
  areDigits : AreDigits digits
  isSuffix : IsSuffix suffix
  denotes :
    let value := Text.toNat digits
    let isUnsigned := suffix.any isUnsignedMark
    if 2 ^ 64 ≤ value then integer literal = .error (.integerTooLarge literal)
    else if isUnsigned = false ∧ 2 ^ 63 ≤ value then
      integer literal = .error (.integerTooLargeForLong literal)
    else
      ∃ constant, integer literal = .ok constant ∧
        IsTyped isUnsigned (suffix.any isLongMark) value constant

theorem IsInteger.exists_denotes {literal : Text} (isInteger : IsInteger literal) :
    ∃ digits suffix, IntegerDenotes literal digits suffix := by
  rcases isInteger with ⟨nonempty, areDigits, isSuffix⟩
  exact ⟨_, _, rfl, nonempty, areDigits, isSuffix, integer_denotes nonempty areDigits isSuffix⟩

/-- Numbers in sources have exactly their grammar. -/
structure ReadsNumbers : Prop where
  /-- Where the reader comes to the start of a number, it reads one. -/
  reads : ∀ cursor : Cursor, StartsNumber cursor.skip.rest →
    ∃ token next, cursor.ReadsNumber token next
  /-- Every number with which nothing goes on is read as one token. -/
  tokens : ∀ (position : Position) (kind : TokenKind) (literal rest : Text),
    IsNumber kind literal → EndsNumber rest → ∃ token next,
      read ⟨position, literal ++ rest⟩ = .token token next ∧
        token.terminal = ⟨kind, literal⟩ ∧ next.rest = rest
  /-- Every integer of a source denotes the value of its digits. -/
  values : ∀ source : Text, ∀ token ∈ (lex source).tokens, token.kind = .integer →
    ∃ digits suffix, IntegerDenotes token.literal digits suffix

theorem reads_numbers : ReadsNumbers := by
  refine ⟨fun _ starts => Cursor.exists_readsNumber starts,
    fun position _ _ _ isNumber ends => read_number_append position isNumber ends,
    fun source token mem isInteger => ?_⟩
  have isLiteral := isLiteral_of_mem_lexFrom (.start source) token mem
  rw [isInteger] at isLiteral
  exact IsInteger.exists_denotes isLiteral

/-- A number that runs into a letter, an integer with both marks of a suffix, and its digits. -/
theorem reads_numbers_suffix :
    (∃ token next, read (.start ".5x") = .token token next ∧ token.literal ≠ []) ∧
    (∃ token next, read ⟨.start, "42uL" ++ "+1"⟩ = .token token next ∧
      token.terminal = ⟨.integer, "42uL"⟩ ∧ next.rest = "+1") ∧
    ∃ digits suffix, Text.ofString "42uL" = digits ++ suffix ∧ AreDigits digits ∧
      IsSuffix suffix := by
  have isNumber : IsNumber .integer (Text.ofString "42uL") :=
    .inl ⟨rfl, @IsInteger.intro "42" "uL" (by decide) (by decide)
      (.unsignedLong (by decide) (by decide))⟩
  have ends : EndsNumber (Text.ofString "+1") := by decide
  have tokens : (lex "42uL").tokens = [⟨.integer, "42uL", ⟨0, 4, 1, 1⟩⟩] := by decide +kernel
  refine ⟨?_, reads_numbers.tokens .start _ _ _ isNumber ends, ?_⟩
  · have starts : StartsNumber (Cursor.start ".5x").skip.rest := .inr ⟨rfl, rfl⟩
    rcases reads_numbers.reads _ starts with ⟨token, next, isRead⟩
    exact ⟨token, next, isRead.reads, isRead.nonempty⟩
  · have mem : ⟨.integer, "42uL", ⟨0, 4, 1, 1⟩⟩ ∈ (lex "42uL").tokens := by
      rw [tokens]
      exact List.mem_singleton_self _
    rcases reads_numbers.values "42uL" _ mem rfl with ⟨digits, suffix, denotes⟩
    exact ⟨digits, suffix, denotes.split, denotes.areDigits, denotes.isSuffix⟩

end Lexer

/-! ### Printed integers -/

/-- The text of a constant that integers denote is such an integer. -/
theorem Const.IsNumeral.isInteger {constant : Const} (isNumeral : constant.IsNumeral) :
    Literal.IsInteger constant.text := by
  have ofNat (number : Nat) {suffix : Text} (isSuffix : Literal.IsSuffix suffix) :
      Literal.IsInteger (Text.ofNat number ++ suffix) :=
    .intro (Text.ofNat_ne_nil number) (fun _ => Lexer.isDigit_of_mem_ofNat) isSuffix
  cases constant with
  | char | uchar | double => exact isNumeral.elim
  | int value =>
      rcases Text.exists_ofInt (Int32.le_iff_toInt_le.1 isNumeral) with ⟨number, -, isText⟩
      change Literal.IsInteger (Text.ofInt value.toInt ++ "")
      rw [isText]
      exact ofNat number .none
  | long value =>
      rcases Text.exists_ofInt (Int64.le_iff_toInt_le.1 isNumeral) with ⟨number, -, isText⟩
      change Literal.IsInteger (Text.ofInt value.toInt ++ "L")
      rw [isText]
      exact ofNat number (.long (by decide))
  | uint value => exact ofNat value.toNat (.unsigned (by decide))
  | ulong value => exact ofNat value.toNat (.unsignedLong (by decide) (by decide))

namespace Lexer

/-- The text of a constant that integers denote is read as one integer, and that denotes the
constant, with its type. -/
theorem reads_numerals {constant : Const} (isNumeral : constant.IsNumeral) :
    ∃ tokens, tokenize constant.text = .ok tokens ∧
      tokens.map Token.terminal = [⟨.integer, constant.text⟩, ⟨.endOfInput, []⟩] ∧
      Literal.integer constant.text = .ok constant := by
  have isToken : IsToken ⟨.integer, constant.text⟩ constant.text [] :=
    .number (.inl ⟨rfl, isNumeral.isInteger⟩) (by decide)
  rcases isToken.tokenize with ⟨tokens, lexes, same⟩
  exact ⟨tokens, lexes, same, Literal.integer_text isNumeral⟩

/-- The largest constants, and a small one that only its suffix makes an unsigned long. -/
theorem reads_numerals_bounds :
    let reads (constant : Const) : Prop := constant.IsNumeral ∧
      ∃ tokens, tokenize constant.text = .ok tokens ∧
        tokens.map Token.terminal = [⟨.integer, constant.text⟩, ⟨.endOfInput, []⟩] ∧
        Literal.integer constant.text = .ok constant
    reads (.int 2147483647) ∧ reads (.uint 4294967295) ∧ reads (.long 9223372036854775807) ∧
      reads (.ulong 18446744073709551615) ∧ reads (.ulong 0) := by
  have isInt : (Const.int 2147483647).IsNumeral := by simp [Const.IsNumeral]
  have isLong : (Const.long 9223372036854775807).IsNumeral := by simp [Const.IsNumeral]
  exact ⟨⟨isInt, reads_numerals isInt⟩, ⟨trivial, reads_numerals trivial⟩,
    ⟨isLong, reads_numerals isLong⟩, ⟨trivial, reads_numerals trivial⟩,
    ⟨trivial, reads_numerals trivial⟩⟩

end Lexer

end SubsetC
