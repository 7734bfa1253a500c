import SubsetC.Proofs.TokenSpans
import Mathlib.Data.List.Induction
import Mathlib.Data.List.Nodup

/-!
# Forms of tokens

`Lexer.IsToken` says which texts are legal tokens without reading them byte by byte: operators go on
as long as they can, words and numbers end where no letter or digit follows, and quoted literals end
with their quote. The lexer reads exactly these tokens (`Lexer.isToken_of_lexeme?`,
`Lexer.IsToken.lexeme?_eq`). What stands behind a token matters to it only by its first byte
(`Lexer.IsToken.congr`), and white space parts it from whatever follows.

A run of the lexer over legal tokens and the gaps in front of them is `Lexer.Scans`.
-/

namespace SubsetC

/-- The kind of a word: a keyword, or else an identifier. -/
def TokenKind.ofWord (word : Text) : TokenKind :=
  match Keyword.ofText? word with
  | some reserved => .keyword reserved
  | none => .identifier

/-- The text that a token takes in its source. -/
def Token.textIn (source : Text) (token : Token) : Text :=
  source.extract token.span.start.toNat token.span.stop.toNat

namespace Lexer

/-- The token without its width. -/
def Lexeme.terminal (lexeme : Lexeme) : Terminal := ⟨lexeme.kind, lexeme.literal⟩

/-- A legal token, its text, and the text behind it, with which it does not go on. A slash must not
start a comment. -/
inductive IsToken : Terminal → Text → Text → Prop where
  | mark {mark : Punctuator} {behind : Text}
      (longest : ∀ other : Punctuator,
        other.text <+: mark.text ++ behind → other.text <+: mark.text)
      (noComment : mark = .slash → ∀ byte ∈ behind.head?, byte ≠ slash ∧ byte ≠ star) :
      IsToken (.mark mark) mark.text behind
  | number {kind : TokenKind} {literal behind : Text} (isNumber : IsNumber kind literal)
      (ends : EndsNumber behind) : IsToken ⟨kind, literal⟩ literal behind
  | word {lead : UInt8} {rest behind : Text} (letter : isLetter lead)
      (inside : ∀ byte ∈ rest, isWord byte) (ends : ∀ byte ∈ behind.head?, isWord byte = false) :
      IsToken ⟨.ofWord (lead :: rest), lead :: rest⟩ (lead :: rest) behind
  | string {body behind : Text} (isBody : IsStringBody body) :
      IsToken ⟨.string, body⟩ (quote :: (body ++ [quote])) behind
  | character {body behind : Text} (isBody : IsCharacterBody body) :
      IsToken ⟨.character, body⟩ (apostrophe :: (body ++ [apostrophe])) behind

/-- The form of a literal of some kind. Tokens of other kinds may be any text. -/
def IsLiteral (kind : TokenKind) (literal : Text) : Prop :=
  match kind with
  | .integer => Literal.IsInteger literal
  | .floating => Literal.IsDecimal literal
  | .string => IsStringBody literal
  | .character => IsCharacterBody literal
  | _ => True

/-! ### Operators and delimiters -/

theorem mem_all (mark : Punctuator) : mark ∈ Punctuator.all := by
  cases mark <;> decide

/-- Operators and delimiters start with bytes of their own. -/
theorem mark_head (mark : Punctuator) : ∀ byte ∈ mark.text.head?, isBlank byte = false ∧
    isNumberTail byte = false ∧ byte ≠ quote ∧ byte ≠ apostrophe ∧ byte ≠ 0 := by
  cases mark <;> (rintro byte ⟨⟩; decide)

theorem isBlank_of_mem_mark {mark : Punctuator} {byte : UInt8} (mem : byte ∈ mark.text) :
    isBlank byte = false := by
  have none : mark.text.all (!isBlank ·) := by cases mark <;> rfl
  simpa using List.all_eq_true.1 none byte mem

theorem mark_slash (mark : Punctuator) (isSlash : mark.text.head? = some slash) :
    mark = .slash ∨ mark = .slashAssign := by
  revert isSlash
  cases mark <;> decide

/-- Longer operators stand in front of shorter ones in the table. -/
theorem all_descending :
    Punctuator.all.Pairwise fun first second => second.text.length ≤ first.text.length := by
  decide +kernel

theorem mark_text_injective {first second : Punctuator} (same : first.text = second.text) :
    first = second := by
  have distinct : (Punctuator.all.map Punctuator.text).Nodup := by decide +kernel
  exact List.inj_on_of_nodup_map distinct (mem_all first) (mem_all second) same

/-- The operator that is read is the longest one that the text starts with. -/
theorem leading?_eq_some_iff {text : Text} {mark : Punctuator} :
    Punctuator.leading? text = some mark ↔
      mark.text <+: text ∧
        ∀ other : Punctuator, other.text <+: text → other.text <+: mark.text := by
  have longest {mark : Punctuator} (leads : Punctuator.leading? text = some mark) :
      mark.text <+: text ∧
        ∀ other : Punctuator, other.text <+: text → other.text <+: mark.text := by
    refine ⟨prefix_of_leading? leads, fun other isPrefix => ?_⟩
    rcases List.find?_eq_some_iff_append.1 leads with ⟨-, front, back, split, fails⟩
    have descending := all_descending
    have mem := mem_all other
    rw [split, List.mem_append, List.mem_cons] at mem
    rw [split, List.pairwise_append, List.pairwise_cons] at descending
    rcases mem with inFront | rfl | inBack
    · have notPrefix := fails other inFront
      rw [List.isPrefixOf_iff_prefix.2 isPrefix] at notPrefix
      cases notPrefix
    · exact List.prefix_rfl
    · exact List.prefix_of_prefix_length_le isPrefix (prefix_of_leading? leads)
        (descending.2.1.1 other inBack)
  refine ⟨longest, fun ⟨isPrefix, isLongest⟩ => ?_⟩
  cases leads : Punctuator.leading? text with
  | none =>
      have notPrefix := List.find?_eq_none.1 leads mark (mem_all mark)
      exact absurd (List.isPrefixOf_iff_prefix.2 isPrefix) notPrefix
  | some other =>
      have back := (longest leads).2 mark isPrefix
      have forth := isLongest other (longest leads).1
      rw [mark_text_injective (forth.eq_of_length_le back.length_le)]

/-- No operator or delimiter starts with a byte that starts another token. -/
theorem leading?_eq_none {lead : UInt8}
    (other : isNumberTail lead ∨ lead = quote ∨ lead = apostrophe ∨ lead = 0) (rest : Text) :
    Punctuator.leading? (lead :: rest) = none := by
  cases leads : Punctuator.leading? (lead :: rest) with
  | none => rfl
  | some mark =>
      have isPrefix := prefix_of_leading? leads
      cases shape : mark.text with
      | nil => exact absurd shape (punctuator_ne_nil mark)
      | cons byte text =>
          rw [shape, List.cons_prefix_cons] at isPrefix
          have heads := mark_head mark lead (by rw [shape, isPrefix.1]; rfl)
          simp [heads] at other

/-- An operator without its last byte is an operator. -/
theorem exists_mark_dropLast (mark : Punctuator) (long : 2 ≤ mark.text.length) :
    ∃ shorter : Punctuator, shorter.text = mark.text.dropLast := by
  have closed : ∀ mark ∈ Punctuator.all, 2 ≤ mark.text.length →
      ∃ shorter ∈ Punctuator.all, shorter.text = mark.text.dropLast := by
    decide +kernel
  rcases closed mark (mem_all mark) long with ⟨shorter, -, same⟩
  exact ⟨shorter, same⟩

/-- An operator that can go on can go on by one byte only. -/
theorem exists_mark_append {mark other : Punctuator} {byte : UInt8} {more : Text}
    (goesOn : other.text = mark.text ++ byte :: more) :
    ∃ next : Punctuator, next.text = mark.text ++ [byte] := by
  induction more using List.reverseRecOn generalizing other with
  | nil => exact ⟨other, goesOn⟩
  | append_singleton more last ih =>
      rcases exists_mark_dropLast other (by simp [goesOn]; omega) with ⟨shorter, same⟩
      refine @ih shorter ?_
      rw [same, goesOn, ← List.cons_append, ← List.append_assoc, List.dropLast_concat]

/-! ### Where a token starts -/

theorem StartsNumber.isNumberTail {lead : UInt8} {rest : Text}
    (starts : StartsNumber (lead :: rest)) : isNumberTail lead := by
  rcases starts with digit | ⟨rfl, -⟩
  · simp [Lexer.isNumberTail, isWord, digit]
  · decide

theorem isNumberTail_of_isLetter {byte : UInt8} (letter : isLetter byte) : isNumberTail byte := by
  simp [isNumberTail, isWord, letter]

theorem ne_of_isNumberTail {byte : UInt8} (isTail : isNumberTail byte) :
    byte ≠ quote ∧ byte ≠ apostrophe ∧ byte ≠ slash ∧ byte ≠ 0 := by
  refine ⟨?_, ?_, ?_, ?_⟩ <;> (rintro rfl; exact absurd isTail (by decide))

/-- A letter is neither a digit nor a point. -/
theorem not_digit_of_isLetter {byte : UInt8} (letter : isLetter byte) :
    isDigit byte = false ∧ byte ≠ Text.ofAscii '.' := by
  constructor
  · by_contra digit
    simp only [isDigit, isLetter, Bool.not_eq_false, Bool.and_eq_true, Bool.or_eq_true,
      decide_eq_true_eq, UInt8.le_iff_toNat_le, ← UInt8.toNat_inj, bne_iff_ne] at digit letter
    change 48 ≤ byte.toNat ∧ byte.toNat ≤ 57 at digit
    change ((((((65 ≤ byte.toNat ∧ byte.toNat ≤ 90) ∨ 97 ≤ byte.toNat ∧ byte.toNat ≤ 122) ∨
      byte.toNat = 95) ∨ byte.toNat = 170) ∨ byte.toNat = 181) ∨ byte.toNat = 186) ∨
      (192 ≤ byte.toNat ∧ _) ∧ _ at letter
    omega
  · rintro rfl
    exact absurd letter (by decide)

/-- Where a number starts, it is the token. -/
theorem lexeme?_number {lead : UInt8} {rest : Text} (starts : StartsNumber (lead :: rest)) :
    lexeme? lead rest =
      some (.ofLiteral (number (lead :: rest)).1 (number (lead :: rest)).2) := by
  have isTail := starts.isNumberTail
  have other := ne_of_isNumberTail isTail
  have isNumber : (isDigit lead || (lead = Text.ofAscii '.' && rest.head?.any isDigit)) = true := by
    rw [Bool.or_eq_true, Bool.and_eq_true, decide_eq_true_eq]
    exact starts
  simp only [lexeme?, leading?_eq_none (.inl isTail), if_neg other.1, if_neg other.2.1,
    if_pos isNumber]

theorem StartsNumber.append {text : Text} (starts : StartsNumber text) (rest : Text) :
    StartsNumber (text ++ rest) := by
  match text, starts with
  | _ :: _, .inl digit => exact .inl digit
  | [_], .inr ⟨_, digit⟩ => cases digit
  | _ :: _ :: _, .inr point => exact .inr point

/-- A number starts with a digit, or with a point and a digit. -/
theorem IsNumber.starts {kind : TokenKind} {literal : Text} (isNumber : IsNumber kind literal) :
    StartsNumber literal := by
  have ofDigits {digits : Text} (nonempty : digits ≠ []) (areDigits : Literal.AreDigits digits) :
      StartsNumber digits := by
    match digits with
    | [] => exact absurd rfl nonempty
    | digit :: digits => exact .inl (areDigits digit List.mem_cons_self)
  rcases isNumber with ⟨-, nonempty, areDigits, -⟩ | ⟨-, isDecimal⟩
  · exact (ofDigits nonempty areDigits).append _
  · rcases isDecimal with @⟨whole, point, mark, areDigits, isFraction, -, hasDigits, -⟩
    rw [List.append_assoc]
    by_cases noWhole : whole = []
    · subst noWhole
      rcases isFraction with rfl | ⟨digits, rfl, areDigits⟩
      · simp at hasDigits
      · match digits with
        | [] => simp at hasDigits
        | digit :: digits => exact .inr ⟨rfl, areDigits digit List.mem_cons_self⟩
    · exact (ofDigits noWhole areDigits).append _

theorem IsNumber.legal {kind : TokenKind} {literal : Text} (isNumber : IsNumber kind literal) :
    kind ≠ .illegal := by
  rcases isNumber with ⟨rfl, -⟩ | ⟨rfl, -⟩ <;> exact nofun

/-! ### Tokens -/

namespace IsToken

variable {terminal : Terminal} {text behind : Text}

theorem legal (isToken : IsToken terminal text behind) : terminal.kind ≠ .illegal := by
  cases isToken with
  | number isNumber => exact isNumber.legal
  | word =>
      unfold TokenKind.ofWord
      split <;> exact nofun
  | mark | string | character => exact nofun

/-- Numbers and quoted literals have their forms. -/
theorem isLiteral (isToken : IsToken terminal text behind) :
    IsLiteral terminal.kind terminal.literal := by
  cases isToken with
  | mark => trivial
  | number isNumber =>
      rcases isNumber with ⟨rfl, isInteger⟩ | ⟨rfl, isDecimal⟩
      · exact isInteger
      · exact isDecimal
  | word =>
      unfold TokenKind.ofWord
      split <;> trivial
  | string isBody => exact isBody
  | character isBody => exact isBody

/-- A token starts with some byte, and no gap starts there. -/
theorem exists_cons (isToken : IsToken terminal text behind) : ∃ lead rest, text = lead :: rest ∧
    lead ≠ 0 ∧ isBlank lead = false ∧
      ¬(lead = slash ∧ ((rest ++ behind).head? = some slash ∨
        (rest ++ behind).head? = some star)) := by
  have ofTail {lead : UInt8} (isTail : isNumberTail lead) : lead ≠ 0 ∧ isBlank lead = false ∧
      lead ≠ slash := by
    have other := ne_of_isNumberTail isTail
    refine ⟨other.2.2.2, ?_, other.2.2.1⟩
    by_contra blank
    rw [isNumberTail_of_isBlank (by simpa using blank)] at isTail
    cases isTail
  cases isToken with
  | @mark mark _ _ noComment =>
      cases shape : mark.text with
      | nil => exact absurd shape (punctuator_ne_nil mark)
      | cons lead rest =>
          have heads := mark_head mark lead (by rw [shape]; rfl)
          refine ⟨lead, rest, rfl, heads.2.2.2.2, heads.1, ?_⟩
          rintro ⟨rfl, opens⟩
          rcases mark_slash mark (by rw [shape]; rfl) with rfl | rfl
          · cases shape
            have closed := noComment rfl
            rcases opens with isSlash | isStar
            · exact (closed _ isSlash).1 rfl
            · exact (closed _ isStar).2 rfl
          · cases shape
            exact absurd opens (by simp; decide)
  | number isNumber =>
      match text, isNumber.starts with
      | lead :: rest, starts =>
          have other := ofTail starts.isNumberTail
          exact ⟨lead, rest, rfl, other.1, other.2.1, fun opens => other.2.2 opens.1⟩
  | @word lead rest _ letter =>
      have other := ofTail (isNumberTail_of_isLetter letter)
      exact ⟨lead, rest, rfl, other.1, other.2.1, fun opens => other.2.2 opens.1⟩
  | string => exact ⟨_, _, rfl, by decide, by decide, fun opens => absurd opens.1 (by decide)⟩
  | character => exact ⟨_, _, rfl, by decide, by decide, fun opens => absurd opens.1 (by decide)⟩

/-- Where a token starts, nothing is skipped. -/
theorem skipGap_eq (isToken : IsToken terminal text behind) :
    skipGap .blank (text ++ behind) = text ++ behind := by
  rcases isToken.exists_cons with ⟨lead, rest, rfl, -, notBlank, noComment⟩
  exact skipGap_cons_self notBlank noComment

/-- A token is read where it stands. -/
theorem lexeme?_eq {lead : UInt8} {rest : Text} (isToken : IsToken terminal (lead :: rest) behind) :
    lexeme? lead (rest ++ behind) = some ⟨terminal.kind, terminal.literal, rest.length⟩ := by
  generalize shape : lead :: rest = text at isToken
  cases isToken with
  | @mark mark _ longest =>
      have leads := leading?_eq_some_iff.2 ⟨List.prefix_append mark.text behind, longest⟩
      rw [← shape, List.cons_append] at leads
      simp only [lexeme?, leads, Lexeme.ofLiteral, ← shape, List.length_cons,
        Nat.add_sub_cancel]
  | number isNumber ends =>
      subst shape
      have reads := number_isNumber isNumber ends
      rw [List.cons_append] at reads
      have starts : StartsNumber (lead :: (rest ++ behind)) := isNumber.starts.append behind
      have found := lexeme?_number starts
      rw [reads] at found
      exact found
  | @word lead rest _ letter inside ends =>
      cases shape
      have isTail := isNumberTail_of_isLetter letter
      have other := ne_of_isNumberTail isTail
      have noNumber : (isDigit lead ||
          (lead = Text.ofAscii '.' && (rest ++ behind).head?.any isDigit)) = false := by
        simp [not_digit_of_isLetter letter]
      have isWord : ∀ byte ∈ lead :: rest, isWord byte :=
        List.forall_mem_cons.2 ⟨by simp [Lexer.isWord, letter], inside⟩
      have reads := takeWhile_append_of_head isWord ends
      rw [List.cons_append] at reads
      simp only [lexeme?, leading?_eq_none (.inl isTail), if_neg other.1,
        if_neg other.2.1, noNumber, Bool.false_eq_true, if_false, letter, if_true, reads]
      rfl
  | @string body _ isBody =>
      cases shape
      have reads := stringBody_closed_iff.2 ⟨isBody, behind, rfl⟩
      rw [List.append_assoc, List.singleton_append]
      simp only [lexeme?, leading?_eq_none (.inr (.inl rfl)), if_true, reads,
        List.length_append, List.length_singleton]
  | @character body _ isBody =>
      cases shape
      have reads := characterBody_closed_iff.2 ⟨isBody, behind, rfl⟩
      rw [List.append_assoc, List.singleton_append]
      simp only [lexeme?, leading?_eq_none (.inr (.inr (.inl rfl))),
        if_neg (show apostrophe ≠ quote by decide), if_true, reads.1, Bool.true_and, reads.2,
        List.length_append, List.length_singleton]

/-- What is behind a token matters to it by its first byte only, and white space never does. -/
theorem congr {other : Text} (isToken : IsToken terminal text behind)
    (apart : ∀ byte ∈ other.head?, isBlank byte ∨ byte ∈ behind.head?) :
    IsToken terminal text other := by
  cases isToken with
  | @mark mark _ longest noComment =>
      refine .mark (fun next isPrefix => ?_) fun isSlash byte isHead => ?_
      · rcases List.prefix_or_prefix_of_prefix isPrefix (List.prefix_append mark.text other) with
          inside | ⟨more, goesOn⟩
        · exact inside
        · rcases more with _ | ⟨byte, more⟩
          · rw [← goesOn, List.append_nil]
          -- An operator that goes on into `other` has a neighbour that goes on by one byte only.
          rcases exists_mark_append goesOn.symm with ⟨neighbour, same⟩
          rw [← goesOn, List.prefix_append_right_inj] at isPrefix
          have isHead : byte ∈ other.head? := by
            rcases isPrefix with ⟨rest, rfl⟩
            rfl
          rcases apart byte isHead with blank | goesOnBefore
          · have isPart : byte ∈ neighbour.text := by simp [same]
            have notBlank := isBlank_of_mem_mark isPart
            rw [notBlank] at blank
            cases blank
          · rcases List.head?_eq_some_iff.1 goesOnBefore with ⟨rest, rfl⟩
            have tooLong := longest neighbour (by rw [same]; exact ⟨rest, by simp⟩)
            have shorter := tooLong.length_le
            rw [same, List.length_append, List.length_singleton] at shorter
            omega
      · rcases apart byte isHead with blank | isHeadBefore
        · constructor <;> (rintro rfl; exact absurd blank (by decide))
        · exact noComment isSlash byte isHeadBefore
  | number isNumber ends =>
      refine .number isNumber fun byte isHead => ?_
      exact (apart byte isHead).elim isNumberTail_of_isBlank (ends byte)
  | word letter inside ends =>
      refine .word letter inside fun byte isHead => ?_
      rcases apart byte isHead with blank | isHeadBefore
      · exact (Bool.or_eq_false_iff.1 (isNumberTail_of_isBlank blank)).1
      · exact ends byte isHeadBefore
  | string isBody => exact .string isBody
  | character isBody => exact .character isBody

/-- White space behind what is behind a token leaves the token as it is, whatever follows. -/
theorem append {stop : UInt8} (blank : isBlank stop) (isToken : IsToken terminal text behind)
    (more : Text) : IsToken terminal text (behind ++ stop :: more) := by
  refine isToken.congr ?_
  cases behind with
  | nil => simp [blank]
  | cons => simp

end IsToken

/-- From a letter on, a word is all that words may hold. -/
theorem exists_isToken_word {lead : UInt8} (letter : isLetter lead) (rest : Text) :
    let word := (lead :: rest).takeWhile isWord
    ∃ behind, lead :: rest = word ++ behind ∧ IsToken ⟨.ofWord word, word⟩ word behind := by
  intro word
  have isWordLead : isWord lead := by simp [isWord, letter]
  have same : word = lead :: rest.takeWhile isWord := by simp [word, isWordLead]
  rw [same]
  refine ⟨rest.dropWhile isWord, ?_, .word letter ?_ ?_⟩
  · rw [List.cons_append, List.takeWhile_append_dropWhile]
  · exact fun byte mem => List.all_eq_true.1 List.all_takeWhile byte mem
  · intro byte isHead
    have stops := List.head?_dropWhile_not isWord rest
    rw [Option.mem_def.1 isHead] at stops
    simpa using stops

/-- What is read where no gap starts is a token with its text, unless it is illegal. -/
theorem isToken_of_lexeme? {lead : UInt8} {rest : Text} {lexeme : Lexeme}
    (stays : skipGap .blank (lead :: rest) = lead :: rest)
    (found : lexeme? lead rest = some lexeme) (legal : lexeme.kind ≠ .illegal) :
    ∃ text behind, lead :: rest = text ++ behind ∧ text.length = lexeme.extra + 1 ∧
      IsToken lexeme.terminal text behind := by
  have ofText {literal : Text} (isPrefix : literal <+: lead :: rest) (nonempty : literal ≠ []) :
      ∃ behind, lead :: rest = literal ++ behind ∧ literal.length = literal.length - 1 + 1 := by
    rcases isPrefix with ⟨behind, split⟩
    exact ⟨behind, split.symm, (Nat.sub_add_cancel (List.length_pos_iff.2 nonempty)).symm⟩
  simp only [lexeme?] at found
  split at found
  case h_1 mark leads =>
    cases found
    rcases leading?_eq_some_iff.1 leads with ⟨isPrefix, longest⟩
    rcases ofText isPrefix (punctuator_ne_nil mark) with ⟨behind, split, width⟩
    refine ⟨mark.text, behind, split, width, .mark (split ▸ longest) ?_⟩
    -- A slash in front of a slash or a star would start a gap.
    rintro rfl byte isHead
    have noComment := (starts_of_skipGap_eq_self stays).2
    cases split
    constructor
    · rintro rfl
      exact noComment ⟨rfl, .inl isHead⟩
    · rintro rfl
      exact noComment ⟨rfl, .inr isHead⟩
  case h_2 =>
    split at found
    · rename_i isQuote
      split at found
      · rename_i body closed
        cases found
        rcases stringBody_closed_iff.1 closed with ⟨isBody, behind, rfl⟩
        exact ⟨quote :: (body ++ [quote]), behind, by simp [isQuote], by simp, .string isBody⟩
      · cases found
        exact absurd rfl legal
      · cases found
    split at found
    · rename_i isApostrophe
      split at found
      · rename_i closes
        rw [Bool.and_eq_true] at closes
        cases found
        rcases characterBody_closed_iff.1 ⟨Prod.ext rfl closes.1, closes.2⟩ with
          ⟨isBody, behind, split⟩
        refine ⟨apostrophe :: ((characterBody rest).1 ++ [apostrophe]), behind, ?_, by simp,
          .character isBody⟩
        simp [isApostrophe, ← split]
      · cases found
        exact absurd rfl legal
    split at found
    · rename_i isNumber
      cases found
      rw [Bool.or_eq_true, Bool.and_eq_true, decide_eq_true_eq] at isNumber
      have starts : StartsNumber (lead :: rest) := isNumber
      rcases (number_eq_iff starts legal).1 rfl with ⟨behind, split, isNumber, ends⟩
      rcases ofText ⟨behind, split.symm⟩ (number_ne_nil starts) with ⟨-, -, width⟩
      exact ⟨_, behind, split, width, .number isNumber ends⟩
    split at found
    · rename_i letter
      cases found
      rcases exists_isToken_word letter rest with ⟨behind, split, isToken⟩
      rcases ofText ⟨behind, split.symm⟩ (by simp [isWord, letter]) with ⟨-, -, width⟩
      exact ⟨_, behind, split, width, isToken⟩
    · cases found
      exact absurd rfl legal

/-- The source is overrun by a string literal that ends with the source, in a lone backslash. -/
theorem lexeme?_eq_none_iff {lead : UInt8} {rest : Text} : lexeme? lead rest = none ↔
    ∃ body, IsStringBody body ∧ lead :: rest = quote :: (body ++ [backslash]) := by
  constructor
  · intro overruns
    simp only [lexeme?] at overruns
    split at overruns
    · cases overruns
    split at overruns
    · rename_i isQuote
      split at overruns
      · cases overruns
      · cases overruns
      · rename_i inner overrun
        rcases stringBody_overrun_iff.1 (congrArg Prod.snd overrun) with ⟨body, isBody, rfl⟩
        exact ⟨body, isBody, by rw [isQuote]⟩
    · split at overruns
      · split at overruns <;> cases overruns
      · split at overruns
        · cases overruns
        · split at overruns <;> cases overruns
  · rintro ⟨body, isBody, split⟩
    cases split
    have overruns : (stringBody (body ++ [backslash])).2 = .overrun :=
      stringBody_overrun_iff.2 ⟨body, isBody, rfl⟩
    simp only [lexeme?, leading?_eq_none (.inr (.inl rfl)), if_true]
    split
    · rename_i closed
      rw [closed] at overruns
      cases overruns
    · rename_i broken
      rw [broken] at overruns
      cases overruns
    · rfl

/-! ### Tokens of a source -/

/-- What holds of each token that is read holds of all tokens, if what it relies on at the place of
the reader is kept up by reading on. -/
theorem forall_mem_lexFrom (Holds : Cursor → Prop) {P : Token → Prop}
    (step : ∀ {cursor next token}, Holds cursor → read cursor = .token token next →
      P token ∧ Holds next)
    (cursor : Cursor) (holds : Holds cursor) : ∀ token ∈ (lexFrom cursor).tokens, P token := by
  fun_induction lexFrom cursor with
  | case1 cursor token next reads shorter lexed ih =>
      rcases step holds reads with ⟨first, holdsNext⟩
      exact List.forall_mem_cons.2 ⟨first, ih holdsNext⟩
  | case2 | case3 => exact List.forall_mem_nil _

/-- A legal token that is read stands behind a gap and in front of what is left. -/
theorem isToken_of_read {cursor next : Cursor} {token : Token}
    (reads : read cursor = .token token next) (legal : token.kind ≠ .illegal) :
    ∃ gap text, IsGap False gap ∧ cursor.rest = gap ++ (text ++ next.rest) ∧
      cursor.skip.rest = text ++ next.rest ∧
      token.span = .ofWidth cursor.skip.position text.length ∧
      IsToken token.terminal text next.rest := by
  rcases Cursor.exists_of_read_token reads with ⟨lead, rest, lexeme, atLead, found, rfl, rfl⟩
  have stays := skipGap_skipGap .blank cursor.rest
  rw [atLead] at stays
  rcases isToken_of_lexeme? stays found legal with ⟨text, behind, split, width, isToken⟩
  have left : (cursor.skip.advance (lexeme.extra + 1)).rest = behind := by
    change cursor.skip.rest.drop _ = behind
    rw [Cursor.rest_skip, atLead, split, ← width, List.drop_left]
  have notNull : lead ≠ 0 := by
    rcases isToken.exists_cons with ⟨_, _, rfl, notNull, -⟩
    cases split
    exact notNull
  rcases exists_gap_of_skipGap atLead notNull with ⟨gap, isGap, behindGap⟩
  rw [left]
  exact ⟨gap, text, isGap, by rw [behindGap, split], by rw [Cursor.rest_skip, atLead, split],
    by rw [width], isToken⟩

/-- The literals of all tokens have their forms. -/
theorem isLiteral_of_mem_lexFrom (cursor : Cursor) :
    ∀ token ∈ (lexFrom cursor).tokens, IsLiteral token.kind token.literal := by
  refine forall_mem_lexFrom (fun _ => True) ?_ cursor trivial
  intro cursor next token _ reads
  refine ⟨?_, trivial⟩
  by_cases illegal : token.kind = .illegal
  · rw [illegal]
    trivial
  · rcases isToken_of_read reads illegal with ⟨gap, text, -, -, -, -, isToken⟩
    exact isToken.isLiteral

/-- A legal token that is read in a source is a token with the text that it takes. -/
theorem Cursor.In.isToken_of_read {source : Text} {cursor next : Cursor} {token : Token}
    (isIn : cursor.In source) (reads : read cursor = .token token next)
    (legal : token.kind ≠ .illegal) :
    ∃ gap, IsGap False gap ∧ cursor.rest = gap ++ (token.textIn source ++ next.rest) ∧
      IsToken token.terminal (token.textIn source) next.rest := by
  rcases Lexer.isToken_of_read reads legal with ⟨gap, text, isGap, behindGap, split, span, isToken⟩
  have takes := isIn.skip.1.extract_advance text.length
  rw [split, List.take_left] at takes
  have same : token.textIn source = text := by
    rw [Token.textIn, span]
    exact takes
  rw [same]
  exact ⟨gap, isGap, behindGap, isToken⟩

/-- The legal tokens of a source are tokens with the text that they take. -/
theorem isToken_of_mem_lex {source : Text} : ∀ token ∈ (lex source).tokens,
    token.kind ≠ .illegal → ∃ behind, IsToken token.terminal (token.textIn source) behind := by
  refine forall_mem_lexFrom (·.In source) ?_ (.start source) (Cursor.start_in source)
  intro cursor next token isIn reads
  refine ⟨fun legal => ?_, (isIn.read_token reads).1⟩
  rcases isIn.isToken_of_read reads legal with ⟨gap, -, -, isToken⟩
  exact ⟨next.rest, isToken⟩

/-- The end of a source has no literal. -/
theorem terminal_of_lexFrom_ending {ending : Token} (cursor : Cursor)
    (lexes : (lexFrom cursor).ending = .ok ending) : ending.terminal = ⟨.endOfInput, []⟩ := by
  fun_induction lexFrom cursor with
  | case1 cursor token next reads shorter lexed ih => exact ih lexes
  | case2 cursor token next reads =>
      cases lexes
      rw [(Cursor.rest_of_read_endOfInput reads).2]
      rfl
  | case3 => cases lexes

/-- A source starts with some legal tokens, each behind a gap, and goes on with some text. -/
inductive Scans : Text → List Terminal → Text → Prop where
  | start {left : Text} : Scans left [] left
  | token {gap text behind left : Text} {terminal : Terminal} {terminals : List Terminal}
      (isGap : IsGap False gap) (isToken : IsToken terminal text behind)
      (scans : Scans behind terminals left) :
      Scans (gap ++ (text ++ behind)) (terminal :: terminals) left

end Lexer

end SubsetC
