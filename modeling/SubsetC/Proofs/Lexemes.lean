import SubsetC.Proofs.NumberForms
import SubsetC.Proofs.QuotedForms

/-!
# Texts of tokens

How much of the source a token takes, and what its literal has to do with that text: it is the text
itself, or what stands between the quotes, or the code point of a byte that starts no token. The
main statement is `Lexer.fits_of_lexeme?`.
-/

namespace SubsetC

namespace Lexer

/-- The literal of a token of a kind that takes a text of the source. A byte that is no token is
shown as the code point of that number. -/
def literalOf : TokenKind → Text → Text
  | .character, text | .string, text => text.tail.dropLast
  | .illegal, [byte] => String.utf8EncodeChar (Char.ofUInt8 byte)
  | _, text => text

/-- A token stands at the start of a text and has the literal of its part of it. -/
structure Lexeme.Fits (lexeme : Lexeme) (text : Text) : Prop where
  /-- The text is long enough. -/
  length : lexeme.extra < text.length
  /-- The literal is that of the part. -/
  literal : lexeme.literal = literalOf lexeme.kind (text.take (lexeme.extra + 1))
  /-- The end of the source takes no text. -/
  kind : lexeme.kind ≠ .endOfInput

theorem utf8EncodeChar_ofUInt8 {byte : UInt8} (isAscii : byte < 128) :
    String.utf8EncodeChar (Char.ofUInt8 byte) = [byte] := by
  have small : (Char.ofUInt8 byte).val.toNat ≤ 127 :=
    Nat.lt_succ_iff.1 (UInt8.lt_iff_toNat_lt.1 isAscii)
  unfold String.utf8EncodeChar
  simp only [if_pos small]
  congr 1
  change UInt8.ofNat byte.toNat = byte
  simp

/-- The literal is all of the text, unless there are quotes around it or a byte is no token. -/
theorem literalOf_eq_self {kind : TokenKind} {text : Text}
    (unquoted : kind ≠ .character ∧ kind ≠ .string)
    (isAscii : kind = .illegal → ∀ byte ∈ text.head?, byte < 128) :
    literalOf kind text = text := by
  unfold literalOf
  split
  · exact absurd rfl unquoted.1
  · exact absurd rfl unquoted.2
  · exact utf8EncodeChar_ofUInt8 (isAscii rfl _ rfl)
  · rfl

/-- A token whose literal is text at the start. -/
theorem Lexeme.Fits.ofLiteral {kind : TokenKind} {lead : UInt8} {rest literal : Text}
    (isPrefix : literal <+: lead :: rest) (nonempty : literal ≠ [])
    (unquoted : kind ≠ .character ∧ kind ≠ .string ∧ kind ≠ .endOfInput)
    (isAscii : kind = .illegal → lead < 128) :
    (Lexeme.ofLiteral kind literal).Fits (lead :: rest) := by
  have positive : literal.length - 1 + 1 = literal.length :=
    Nat.sub_add_cancel (List.length_pos_iff.2 nonempty)
  have whole : (lead :: rest).take (literal.length - 1 + 1) = literal := by
    rw [positive]
    exact (List.prefix_iff_eq_take.1 isPrefix).symm
  refine ⟨?_, ?_, unquoted.2.2⟩
  · have := isPrefix.length_le
    change literal.length - 1 < _
    omega
  · change literal = literalOf kind ((lead :: rest).take (literal.length - 1 + 1))
    rw [whole]
    refine (literalOf_eq_self ⟨unquoted.1, unquoted.2.1⟩ ?_).symm
    intro illegal byte isHead
    rcases List.head?_eq_some_iff.1 isHead with ⟨more, rfl⟩
    cases (List.cons_prefix_cons.1 isPrefix).1
    exact isAscii illegal

/-- A token in quotes. -/
theorem Lexeme.Fits.quoted {kind : TokenKind} {opening closing : UInt8} {body more rest : Text}
    (quoted : kind = .character ∨ kind = .string) (split : body ++ closing :: more = rest) :
    Lexeme.Fits ⟨kind, body, body.length + 1⟩ (opening :: rest) := by
  subst split
  refine ⟨by simp, ?_, by rcases quoted with rfl | rfl <;> simp⟩
  have whole : (opening :: (body ++ closing :: more)).take (body.length + 1 + 1) =
      opening :: (body ++ [closing]) := by
    simp [List.take_append]
  have inside : (opening :: (body ++ [closing])).tail.dropLast = body := by simp
  rcases quoted with rfl | rfl
  all_goals
    change body = List.dropLast (List.tail _)
    rw [whole, inside]

/-! ### Parts of tokens -/

theorem prefix_of_leading? {text : Text} {mark : Punctuator}
    (leads : Punctuator.leading? text = some mark) : mark.text <+: text :=
  List.isPrefixOf_iff_prefix.1 (by simpa using List.find?_some leads)

theorem punctuator_ne_nil (mark : Punctuator) : mark.text ≠ [] := by
  cases mark <;> decide

/-! ### Tokens -/

/-- A token stands where it is read. -/
theorem fits_of_lexeme? {lead : UInt8} {rest : Text} {lexeme : Lexeme}
    (found : lexeme? lead rest = some lexeme) : lexeme.Fits (lead :: rest) := by
  simp only [lexeme?] at found
  split at found
  case h_1 mark leads =>
    cases found
    exact .ofLiteral (prefix_of_leading? leads) (punctuator_ne_nil mark)
      ⟨nofun, nofun, nofun⟩ nofun
  case h_2 =>
    split at found
    · rename_i isQuote
      split at found
      · rename_i body closed
        rcases stringBody_closed_iff.1 closed with ⟨-, behind, rfl⟩
        cases found
        exact .quoted (.inr rfl) rfl
      · rename_i body broken
        have isPrefix := @stringBody_isPrefix rest (by simp [broken])
        rw [broken] at isPrefix
        cases found
        refine .ofLiteral ?_ (List.cons_ne_nil _ _) ⟨nofun, nofun, nofun⟩ ?_
        · exact List.cons_prefix_cons.2 ⟨rfl, isPrefix⟩
        · intro _
          rw [isQuote]
          decide
      · cases found
    · split at found
      · rename_i isQuote
        have bodyPrefix := characterBody_isPrefix rest
        have split := List.prefix_iff_eq_append.1 bodyPrefix
        split at found
        · rename_i closes
          rw [Bool.and_eq_true] at closes
          rcases List.head?_eq_some_iff.1 (of_decide_eq_true closes.2) with ⟨more, rest_eq⟩
          cases found
          rw [rest_eq] at split
          exact .quoted (.inl rfl) split
        · cases found
          refine .ofLiteral ?_ (List.cons_ne_nil _ _) ⟨nofun, nofun, nofun⟩ ?_
          · exact List.cons_prefix_cons.2 ⟨rfl, bodyPrefix⟩
          · intro _
            rw [isQuote]
            decide
      · split at found
        · rename_i starts
          cases found
          rw [Bool.or_eq_true, Bool.and_eq_true, decide_eq_true_eq] at starts
          have starts : StartsNumber (lead :: rest) := starts
          refine .ofLiteral (number_isPrefix starts) (number_ne_nil starts) ?_ ?_
          · rcases number_kind starts with kind | kind | kind <;> simp [kind]
          · intro _
            rcases starts with digit | ⟨rfl, -⟩
            · simp only [isDigit, Bool.and_eq_true, decide_eq_true_eq] at digit
              exact UInt8.lt_of_le_of_lt digit.2 (by decide)
            · decide
        · split at found
          · rename_i letter
            cases found
            refine .ofLiteral (List.takeWhile_prefix _) ?_ ?_ ?_
            · simp [isWord, letter]
            · split <;> simp
            · split <;> simp
          · cases found
            exact ⟨by simp, rfl, by simp⟩

/-! ### White space -/

theorem isBlank_cases {byte : UInt8} (blank : isBlank byte) :
    byte = 32 ∨ byte = 9 ∨ byte = 10 ∨ byte = 11 ∨ byte = 12 ∨ byte = 13 := by
  simp only [isBlank, Bool.or_eq_true, Bool.and_eq_true, decide_eq_true_eq, UInt8.le_iff_toNat_le,
    ← UInt8.toNat_inj] at blank ⊢
  change byte.toNat = 32 ∨ 9 ≤ byte.toNat ∧ byte.toNat ≤ 13 at blank
  change byte.toNat = 32 ∨ byte.toNat = 9 ∨ byte.toNat = 10 ∨ byte.toNat = 11 ∨
    byte.toNat = 12 ∨ byte.toNat = 13
  omega

/-- White space is in no word and in no number. -/
theorem isNumberTail_of_isBlank {byte : UInt8} (blank : isBlank byte) :
    isNumberTail byte = false := by
  rcases isBlank_cases blank with rfl | rfl | rfl | rfl | rfl | rfl <;> decide

end Lexer

end SubsetC
