import SubsetC.Proofs.ByteImage
import SubsetC.Proofs.Escapes

/-!
# Strings in dumps

A dump shows a string with escapes, each byte by a code of its own (`Text.IsCode`). No code starts
another one, so a dump tells strings apart, with or without a null byte behind them. In quotes it is
a string literal, which denotes the bytes again if every byte stands for itself or has an escape in
C. The main statement is `Text.escape_faithful`.
-/

namespace SubsetC

namespace Text

open Lexer (backslash newline IsStringBody)

/-! ### Hexadecimal digits -/

theorem length_hex (width number : Nat) : (hex width number).length = width := by
  induction width generalizing number with
  | zero => rfl
  | succ width ih => rw [hex, List.length_append, ih, List.length_singleton]

theorem hexDigit_injective : ∀ left < 16, ∀ right < 16, hexDigit left = hexDigit right →
    left = right := by
  decide

/-- As many digits as a number needs determine it. -/
theorem hex_injective {width left right : Nat} (isLeft : left < 16 ^ width)
    (isRight : right < 16 ^ width) (same : hex width left = hex width right) : left = right := by
  induction width generalizing left right with
  | zero => omega
  | succ width ih =>
      rw [Nat.pow_succ] at isLeft isRight
      rw [hex, hex] at same
      rcases List.append_inj' same rfl with ⟨front, last⟩
      have high : left / 16 = right / 16 := ih (by omega) (by omega) front
      have low : left % 16 = right % 16 :=
        hexDigit_injective _ (Nat.mod_lt _ (by omega)) _ (Nat.mod_lt _ (by omega))
          (List.singleton_inj.1 last)
      omega

/-- A hexadecimal digit needs no escape. -/
theorem hexDigit_plain : ∀ digit < 16, hexDigit digit ≠ Lexer.quote ∧ hexDigit digit ≠ backslash ∧
    hexDigit digit ≠ newline ∧ hexDigit digit ≠ 0 := by
  decide

/-! ### Codes of bytes -/

/-- A byte that stands for itself in a string literal, or that a dump shows by an escape of C. -/
def IsReadable (byte : UInt8) : Prop :=
  0x20 ≤ byte ∧ byte ≤ 0x7e ∨ byte = newline ∨ byte = ofAscii '\t' ∨ byte = 0

instance (byte : UInt8) : Decidable (IsReadable byte) :=
  inferInstanceAs (Decidable (_ ∨ _))

/-- What a dump shows for a byte: the byte, an escape of C that denotes it, or its number. -/
inductive IsCode (byte : UInt8) : Text → Prop where
  | plain (readable : IsReadable byte) (notQuote : byte ≠ Lexer.quote)
      (notBackslash : byte ≠ backslash) (notNewline : byte ≠ newline) (notNull : byte ≠ 0) :
      IsCode byte [byte]
  | escape (mark : UInt8) (readable : IsReadable byte) (denotes : escapedByte mark = byte)
      (noNumber : mark ≠ ofAscii 'x') : IsCode byte [backslash, mark]
  | number (unreadable : ¬IsReadable byte) :
      IsCode byte (backslash :: ofAscii 'x' :: hex 2 byte.toNat)

theorem isCode_escapeByte (byte : UInt8) : IsCode byte (escapeByte byte) := by
  unfold escapeByte
  split_ifs with isMark isNewline isTab isNull isPrintable
  · rcases isMark with rfl | rfl
    · exact .escape _ (by decide) rfl (by decide)
    · exact .escape _ (by decide) rfl (by decide)
  · subst isNewline
    exact .escape (ofAscii 'n') (by decide) rfl (by decide)
  · subst isTab
    exact .escape (ofAscii 't') (by decide) rfl (by decide)
  · subst isNull
    exact .escape (ofAscii '0') (by decide) rfl (by decide)
  · rw [not_or] at isMark
    refine .plain (.inl ⟨isPrintable.1, ?_⟩) isMark.1 isMark.2 isNewline isNull
    have below := UInt8.lt_iff_toNat_lt.1 isPrintable.2
    exact UInt8.le_iff_toNat_le.2 (Nat.le_of_lt_succ below)
  · refine .number ?_
    rintro (printable | same | same | same)
    · refine isPrintable ⟨printable.1, ?_⟩
      exact UInt8.lt_iff_toNat_lt.2 (Nat.lt_succ_of_le (UInt8.le_iff_toNat_le.1 printable.2))
    · exact isNewline same
    · exact isTab same
    · exact isNull same

namespace IsCode

variable {byte other : UInt8} {code code' : Text}

/-- No code starts another one. -/
theorem unique (isCode : IsCode byte code) (isOther : IsCode other code') {rest rest' : Text}
    (same : code ++ rest = code' ++ rest') : byte = other ∧ rest = rest' := by
  cases isCode with
  | plain _ _ notBackslash =>
      cases isOther with
      | plain => exact List.cons.inj same
      | escape | number => exact absurd (List.cons.inj same).1 notBackslash
  | escape _ _ denotes noNumber =>
      cases isOther with
      | plain _ _ notBackslash => exact absurd (List.cons.inj same).1.symm notBackslash
      | escape _ _ denotes' =>
          rcases List.cons.inj (List.cons.inj same).2 with ⟨rfl, sameRest⟩
          exact ⟨denotes.symm.trans denotes', sameRest⟩
      | number => exact absurd (List.cons.inj (List.cons.inj same).2).1 noNumber
  | number =>
      cases isOther with
      | plain _ _ notBackslash => exact absurd (List.cons.inj same).1.symm notBackslash
      | escape _ _ _ noNumber => exact absurd (List.cons.inj (List.cons.inj same).2).1.symm noNumber
      | number =>
          have digits := (List.cons.inj (List.cons.inj same).2).2
          rcases List.append_inj digits (by rw [length_hex, length_hex]) with ⟨number, sameRest⟩
          exact ⟨UInt8.toNat_inj.1 (hex_injective byte.toNat_lt other.toNat_lt number), sameRest⟩

/-- In front of the body of a string literal, a code is part of the body. -/
theorem isStringBody (isCode : IsCode byte code) {rest : Text} (isBody : IsStringBody rest) :
    IsStringBody (code ++ rest) := by
  cases isCode with
  | plain _ notQuote notBackslash notNewline notNull =>
      exact .plain notQuote notBackslash notNewline notNull isBody
  | escape => exact .escape isBody
  | number =>
      have digit (number : Nat) {rest : Text} (isBody : IsStringBody rest) :
          IsStringBody (hexDigit (number % 16) :: rest) := by
        rcases hexDigit_plain (number % 16) (Nat.mod_lt _ (by omega)) with
          ⟨notQuote, notBackslash, notNewline, notNull⟩
        exact .plain notQuote notBackslash notNewline notNull isBody
      exact .escape (digit (byte.toNat / 16) (digit byte.toNat isBody))

/-- A code is decoded to its byte if the byte is readable, and to what stands behind the backslash
otherwise. -/
theorem unescape (isCode : IsCode byte code) (rest : Text) :
    Text.unescape (code ++ rest) = if IsReadable byte then byte :: Text.unescape rest
      else ofAscii 'x' :: Text.unescape (hex 2 byte.toNat ++ rest) := by
  cases isCode with
  | plain readable _ notBackslash =>
      rw [if_pos readable]
      exact unescape_plain notBackslash rest
  | escape _ readable denotes =>
      rw [if_pos readable, ← denotes]
      exact unescape_escape _ rest
  | number unreadable =>
      rw [if_neg unreadable]
      exact unescape_escape _ _

end IsCode

/-! ### Strings -/

theorem escape_cons_ne_nil (byte : UInt8) (bytes : Text) : escape (byte :: bytes) ≠ [] := by
  intro isNil
  have isCode := isCode_escapeByte byte
  rw [escape, List.flatMap_cons] at isNil
  rw [(List.append_eq_nil_iff.1 isNil).1] at isCode
  cases isCode

theorem escape_injective : Function.Injective escape := by
  intro left
  induction left with
  | nil =>
      intro right same
      cases right with
      | nil => rfl
      | cons byte right => exact absurd same.symm (escape_cons_ne_nil byte right)
  | cons byte left ih =>
      intro right same
      cases right with
      | nil => exact absurd same (escape_cons_ne_nil byte left)
      | cons other right =>
          rcases (isCode_escapeByte byte).unique (isCode_escapeByte other) same with ⟨rfl, rest⟩
          rw [ih rest]

theorem isStringBody_escape (bytes : Text) : IsStringBody (escape bytes) := by
  induction bytes with
  | nil => exact .nil
  | cons byte bytes ih => exact (isCode_escapeByte byte).isStringBody ih

/-- Exactly the strings of readable bytes are read back. -/
theorem unescape_escape_eq_iff (bytes : Text) :
    unescape (escape bytes) = bytes ↔ ∀ byte ∈ bytes, IsReadable byte := by
  induction bytes with
  | nil => exact iff_of_true rfl (List.forall_mem_nil _)
  | cons byte bytes ih =>
      rw [List.forall_mem_cons, ← ih]
      change unescape (escapeByte byte ++ escape bytes) = _ ↔ _
      rw [(isCode_escapeByte byte).unescape]
      split
      · rename_i readable
        simp [readable]
      · rename_i unreadable
        refine iff_of_false (fun same => ?_) fun holds => unreadable holds.1
        -- The code of the byte is decoded to a text that starts with a readable byte.
        rw [← (List.cons.inj same).1] at unreadable
        exact unreadable (by decide)

end Text

/-- A string is shown as the bytes that it stands for, in quotes. -/
theorem StaticItem.text_string (bytes : Text) (terminated : Bool) :
    ∃ shown, (StaticItem.string bytes terminated).bytes? = some shown ∧
      (StaticItem.string bytes terminated).text =
        Lexer.quote :: (Text.escape shown ++ [Lexer.quote]) := by
  cases terminated with
  | false =>
      refine ⟨bytes, congrArg some (List.append_nil bytes), ?_⟩
      change Lexer.quote :: (Text.escape bytes ++ []) ++ [Lexer.quote] = _
      rw [List.append_nil, List.cons_append]
  | true =>
      refine ⟨bytes ++ [0], rfl, ?_⟩
      rw [Text.escape, List.flatMap_append]
      rfl

namespace Text

open Lexer (tokenize IsToken)

/-- Dumps show different strings differently, and different string items exactly if these stand for
different bytes. What is shown of a string is the body of one string literal, and it is decoded to
the string exactly if all its bytes are readable. -/
theorem escape_faithful :
    Function.Injective escape ∧
    (∀ (left right : Text) (terminated terminated' : Bool),
      (StaticItem.string left terminated).text = (StaticItem.string right terminated').text ↔
        (StaticItem.string left terminated).bytes? =
          (StaticItem.string right terminated').bytes?) ∧
    ∀ bytes : Text,
      (∃ tokens, tokenize (Lexer.quote :: (escape bytes ++ [Lexer.quote])) = .ok tokens ∧
        tokens.map Token.terminal = [⟨.string, escape bytes⟩, ⟨.endOfInput, []⟩]) ∧
      (unescape (escape bytes) = bytes ↔ ∀ byte ∈ bytes, IsReadable byte) := by
  refine ⟨escape_injective, fun left right terminated terminated' => ?_, fun bytes => ⟨?_, ?_⟩⟩
  · rcases StaticItem.text_string left terminated with ⟨shown, isShown, isText⟩
    rcases StaticItem.text_string right terminated' with ⟨shown', isShown', isText'⟩
    rw [isText, isText', isShown, isShown', List.cons_inj_right, List.append_cancel_right_eq,
      Option.some_inj, escape_injective.eq_iff]
  · exact (IsToken.string (isStringBody_escape bytes)).tokenize
  · exact unescape_escape_eq_iff bytes

/-- A null byte in front of digits, quotes and backslashes are read back; a byte beyond ASCII is
shown by its number, which is no escape of a literal. -/
theorem escape_faithful_null_digit :
    (escape [0, 0x31, 0x22, 0x5c] = "\\01\\\"\\\\" ∧
      unescape (escape [0, 0x31, 0x22, 0x5c]) = [0, 0x31, 0x22, 0x5c]) ∧
    escape [0xff] = "\\xff" ∧ unescape (escape [0xff]) ≠ [0xff] := by
  have areReadable : ∀ byte ∈ ([0, 0x31, 0x22, 0x5c] : Text), IsReadable byte := by decide +kernel
  have unreadable : ¬∀ byte ∈ ([0xff] : Text), IsReadable byte := by decide +kernel
  refine ⟨⟨by decide +kernel, (escape_faithful.2.2 _).2.2 areReadable⟩, by decide +kernel, ?_⟩
  rw [Ne, (escape_faithful.2.2 _).2]
  exact unreadable

end Text

end SubsetC
