import SubsetC.Proofs.TokenForms

/-!
# Forms of literals

What the lexer takes for a character literal denotes one byte, and what it takes for a floating
literal is a decimal numeral. So whoever reads such literals needs no case for other texts. The main
statement is `Lexer.hasForm_of_mem_lexFrom`.
-/

namespace SubsetC

namespace Lexer

open Literal

/-- The body of a character literal denotes one byte. -/
theorem IsCharacterBody.unescape {body : Text} (isBody : IsCharacterBody body) :
    ∃ byte, Text.unescape body = [byte] := by
  cases isBody with
  | plain => exact ⟨_, rfl⟩
  | escape => exact ⟨_, by rw [Text.unescape, if_pos rfl, Text.unescape]⟩

/-- The literal of a token, if it is a character or a floating literal. -/
def HasForm (kind : TokenKind) (literal : Text) : Prop :=
  match kind with
  | .character => ∃ byte, Text.unescape literal = [byte]
  | .floating => IsDecimal literal
  | _ => True

theorem hasForm_of_mem_lexFrom (cursor : Cursor) :
    ∀ token ∈ (lexFrom cursor).tokens, HasForm token.kind token.literal := by
  intro token mem
  have isLiteral := isLiteral_of_mem_lexFrom cursor token mem
  revert isLiteral
  generalize token.kind = kind
  intro isLiteral
  cases kind with
  | floating => exact isLiteral
  | character => exact isLiteral.unescape
  | _ => trivial

end Lexer

end SubsetC
