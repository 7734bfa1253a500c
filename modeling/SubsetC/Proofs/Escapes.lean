import SubsetC.Proofs.JoinedSources
import SubsetC.Proofs.LiteralForms

/-!
# Escapes in literals

Only some bytes may stand behind a backslash in a character literal. In a string literal any byte
may, and a backslash in front of a byte that needs none is dropped when the string is decoded. The
main statement is `Lexer.lex_escapes`.
-/

namespace SubsetC

namespace Text

/-- The bytes behind those backslashes in the body of a literal that start an escape. -/
def escapes : Text → Text
  | [] => []
  | [_] => []
  | byte :: next :: rest =>
    if byte = ofAscii '\\' then
      next :: escapes rest
    else
      escapes (next :: rest)

theorem unescape_plain {byte : UInt8} (notBackslash : byte ≠ Lexer.backslash) (rest : Text) :
    unescape (byte :: rest) = byte :: unescape rest := by
  cases rest with
  | nil => rfl
  | cons => rw [unescape, if_neg notBackslash]

theorem unescape_escape (escaped : UInt8) (rest : Text) :
    unescape (Lexer.backslash :: escaped :: rest) = escapedByte escaped :: unescape rest := by
  rw [unescape, if_pos rfl]

/-- A byte that may not be escaped in a character literal stands for itself. -/
theorem escapedByte_eq_self {byte : UInt8} (unsupported : isEscapable byte = false) :
    escapedByte byte = byte := by
  simp only [isEscapable, decide_eq_false_iff_not, List.mem_cons, not_or] at unsupported
  unfold escapedByte
  split <;> simp_all

end Text

namespace Lexer

open Text

theorem IsCharacterBody.isEscapable {body : Text} (isBody : IsCharacterBody body) :
    ∀ byte ∈ escapes body, isEscapable byte := by
  cases isBody with
  | plain => exact List.forall_mem_nil _
  | escape escapable =>
      rw [escapes, if_pos rfl]
      exact List.forall_mem_singleton.2 escapable

/-- Bodies of strings are decoded one by one. -/
theorem IsStringBody.unescape_append {body : Text} (isBody : IsStringBody body) (rest : Text) :
    unescape (body ++ rest) = unescape body ++ unescape rest := by
  induction isBody with
  | nil => rfl
  | plain _ notBackslash _ _ _ ih =>
      rw [List.cons_append, unescape_plain notBackslash, unescape_plain notBackslash, ih,
        List.cons_append]
  | escape _ ih =>
      rw [List.cons_append, List.cons_append, unescape_escape, unescape_escape, ih,
        List.cons_append]

/-- A backslash in front of a byte that may not be escaped in a character literal is dropped. -/
theorem IsStringBody.unescape_unsupported {front : Text} (isBody : IsStringBody front)
    {byte : UInt8} (unsupported : isEscapable byte = false) (back : Text) :
    unescape (front ++ backslash :: byte :: back) = unescape (front ++ byte :: back) := by
  have notBackslash : byte ≠ backslash := by
    rintro rfl
    exact absurd unsupported (by decide)
  rw [isBody.unescape_append, isBody.unescape_append, unescape_escape,
    unescape_plain notBackslash, escapedByte_eq_self unsupported]

/-- In a character literal, only bytes that may be escaped stand behind a backslash, so all escapes
of a source are supported exactly if those in its string literals are. The lexer does not see to
that: a body with escapes of any byte in quotes is one string literal. An escape that is not
supported loses its backslash when the literal is decoded. -/
theorem lex_escapes (source : Text) :
    ((∀ token ∈ (lex source).tokens, token.kind = .character ∨ token.kind = .string →
        ∀ byte ∈ escapes token.literal, isEscapable byte) ↔
      ∀ token ∈ (lex source).tokens, token.kind = .string →
        ∀ byte ∈ escapes token.literal, isEscapable byte) ∧
    (∀ body : Text, source = quote :: (body ++ [quote]) → IsStringBody body →
      ∃ tokens, tokenize source = .ok tokens ∧
        tokens.map Token.terminal = [⟨.string, body⟩, ⟨.endOfInput, []⟩]) ∧
    ∀ token ∈ (lex source).tokens, token.kind = .string → IsStringBody token.literal ∧
      ∀ (front : Text) (byte : UInt8) (back : Text), IsStringBody front →
        isEscapable byte = false → token.literal = front ++ backslash :: byte :: back →
          unescape token.literal = unescape (front ++ byte :: back) := by
  refine ⟨⟨fun supported token mem isString => supported token mem (.inr isString), ?_⟩, ?_, ?_⟩
  · intro strings token mem isQuoted
    rcases isQuoted with isCharacter | isString
    · have isLiteral := isLiteral_of_mem_lexFrom (.start source) token mem
      rw [isCharacter] at isLiteral
      exact isLiteral.isEscapable
    · exact strings token mem isString
  · rintro body rfl isBody
    exact (IsToken.string isBody).tokenize
  · intro token mem isString
    have isLiteral := isLiteral_of_mem_lexFrom (.start source) token mem
    rw [isString] at isLiteral
    refine ⟨isLiteral, fun front byte back isFront unsupported split => ?_⟩
    rw [split]
    exact isFront.unescape_unsupported unsupported back

/-- A string may escape a letter that no character literal may escape, and it is decoded to that
letter. -/
theorem lex_escapes_unsupported :
    (∃ tokens, tokenize "\"\\q\"" = .ok tokens ∧
      tokens.map Token.terminal = [⟨.string, "\\q"⟩, ⟨.endOfInput, []⟩]) ∧
    (¬∀ token ∈ (lex "\"\\q\"").tokens, token.kind = .character ∨ token.kind = .string →
      ∀ byte ∈ escapes token.literal, isEscapable byte) ∧
    unescape "\\q" = unescape "q" := by
  have isBody : IsStringBody (Text.ofString "\\q") := .escape .nil
  have unsupported : isEscapable (Text.ofAscii 'q') = false := by decide
  have tokens : (lex "\"\\q\"").tokens = [⟨.string, "\\q", ⟨0, 4, 1, 1⟩⟩] := by decide +kernel
  have mem : ⟨.string, "\\q", ⟨0, 4, 1, 1⟩⟩ ∈ (lex "\"\\q\"").tokens := by
    rw [tokens]
    exact List.mem_singleton_self _
  refine ⟨(lex_escapes _).2.1 _ rfl isBody, ?_, ?_⟩
  · rw [(lex_escapes _).1]
    intro supported
    have escapable := supported _ mem rfl (Text.ofAscii 'q') List.mem_cons_self
    rw [unsupported] at escapable
    cases escapable
  · exact ((lex_escapes _).2.2 _ mem rfl).2 [] _ [] .nil unsupported rfl

end Lexer

end SubsetC
