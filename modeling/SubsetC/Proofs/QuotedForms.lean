import SubsetC.Proofs.Gaps
import SubsetC.Text.Escape

/-!
# Forms of quoted literals

The body of a string literal holds no newline, null byte, quote or backslash, unless a backslash
stands in front of it, and any byte may stand behind a backslash. The body of a character literal is
a single byte, or a backslash and one of a few bytes. The lexer accepts exactly these bodies, and it
runs beyond the end of a source exactly if a string literal ends there in a lone backslash.
-/

namespace SubsetC

namespace Lexer

/-- The byte around a string literal. -/
abbrev quote : UInt8 := Text.ofAscii '"'

/-- The byte around a character literal. -/
abbrev apostrophe : UInt8 := Text.ofAscii '\''

/-- The byte that starts an escape. -/
abbrev backslash : UInt8 := Text.ofAscii '\\'

/-- The body of a string literal: plain bytes, and pairs of a backslash and any byte. -/
inductive IsStringBody : Text → Prop where
  | nil : IsStringBody []
  | plain {byte : UInt8} {body : Text} (notQuote : byte ≠ quote) (notBackslash : byte ≠ backslash)
      (notNewline : byte ≠ newline) (notNull : byte ≠ 0) (rest : IsStringBody body) :
      IsStringBody (byte :: body)
  | escape {escaped : UInt8} {body : Text} (rest : IsStringBody body) :
      IsStringBody (backslash :: escaped :: body)

/-- The body of a character literal: a plain byte, or a backslash and a byte that may be escaped. -/
inductive IsCharacterBody : Text → Prop where
  | plain {byte : UInt8} (notApostrophe : byte ≠ apostrophe) (notBackslash : byte ≠ backslash)
      (notNewline : byte ≠ newline) (notNull : byte ≠ 0) : IsCharacterBody [byte]
  | escape {escaped : UInt8} (escapable : Text.isEscapable escaped) :
      IsCharacterBody [backslash, escaped]

/-! ### String literals -/

theorem stringBody_plain {byte : UInt8} (notQuote : byte ≠ quote) (notBackslash : byte ≠ backslash)
    (notNewline : byte ≠ newline) (notNull : byte ≠ 0) (rest : Text) :
    stringBody (byte :: rest) = (byte :: (stringBody rest).1, (stringBody rest).2) := by
  rw [stringBody.eq_def]
  simp only [if_neg notQuote, if_neg (not_or.2 ⟨notNull, notNewline⟩), if_neg notBackslash]

theorem stringBody_escape (escaped : UInt8) (rest : Text) :
    stringBody (backslash :: escaped :: rest) =
      (backslash :: escaped :: (stringBody rest).1, (stringBody rest).2) := by
  rw [stringBody.eq_def]
  rfl

/-- A body that a text goes on with is read in front of how the text ends. -/
theorem IsStringBody.stringBody_append {body : Text} (isBody : IsStringBody body) (rest : Text) :
    stringBody (body ++ rest) = (body ++ (stringBody rest).1, (stringBody rest).2) := by
  induction isBody with
  | nil => rfl
  | plain notQuote notBackslash notNewline notNull _ ih =>
      rw [List.cons_append, stringBody_plain notQuote notBackslash notNewline notNull, ih]
      rfl
  | escape _ ih =>
      rw [List.cons_append, List.cons_append, stringBody_escape, ih]
      rfl

/-- What is read of a string literal is a body, but for the backslash that it overruns its source
with. Where it ends, there is a quote, something that breaks it off, or nothing. -/
theorem stringBody_forms (text : Text) : ∃ body rest, IsStringBody body ∧ text = body ++ rest ∧
    match (stringBody text).2 with
    | .closed => (stringBody text).1 = body ∧ rest.head? = some quote
    | .broken => (stringBody text).1 = body ∧ ∀ byte ∈ rest.head?, byte = newline ∨ byte = 0
    | .overrun => rest = [backslash] := by
  fun_induction stringBody text with
  | case1 => exact ⟨[], [], .nil, rfl, rfl, by simp⟩
  | case2 rest => exact ⟨[], _, .nil, rfl, rfl, rfl⟩
  | case3 byte rest notQuote breaks =>
      exact ⟨[], _, .nil, rfl, rfl, by simpa [or_comm] using breaks⟩
  | case4 => exact ⟨[], _, .nil, rfl, rfl⟩
  | case5 escaped rest inner ending same _ _ ih =>
      rcases ih with ⟨body, more, isBody, rfl, ends⟩
      rw [same] at ends
      refine ⟨_, more, .escape isBody, rfl, ?_⟩
      cases ending <;> simp_all
  | case6 byte rest notQuote notBreak notEscape inner ending same ih =>
      rcases ih with ⟨body, more, isBody, rfl, ends⟩
      rw [same] at ends
      rw [not_or] at notBreak
      refine ⟨_, more, .plain notQuote notEscape notBreak.2 notBreak.1 isBody, rfl, ?_⟩
      cases ending <;> simp_all

/-- A string literal is accepted if a body with a quote behind it is read. -/
theorem stringBody_closed_iff {text body : Text} : stringBody text = (body, .closed) ↔
    IsStringBody body ∧ ∃ behind, text = body ++ quote :: behind := by
  constructor
  · intro reads
    rcases stringBody_forms text with ⟨front, rest, isBody, split, ends⟩
    rw [reads] at ends
    rcases ends with ⟨rfl, isQuote⟩
    rcases List.head?_eq_some_iff.1 isQuote with ⟨behind, rfl⟩
    exact ⟨isBody, behind, split⟩
  · rintro ⟨isBody, behind, rfl⟩
    rw [isBody.stringBody_append, stringBody.eq_def (quote :: behind)]
    simp only [if_true, List.append_nil]

/-- What is read of a string literal stands in front, unless it overruns its source. -/
theorem stringBody_isPrefix {text : Text} (inside : (stringBody text).2 ≠ .overrun) :
    (stringBody text).1 <+: text := by
  rcases stringBody_forms text with ⟨body, rest, -, split, ends⟩
  cases ending : (stringBody text).2 with
  | closed | broken =>
      rw [ending] at ends
      exact ⟨rest, by rw [ends.1, ← split]⟩
  | overrun => exact absurd ending inside

/-- A string literal overruns its source if the source ends in it with a lone backslash. -/
theorem stringBody_overrun_iff {text : Text} : (stringBody text).2 = .overrun ↔
    ∃ body, IsStringBody body ∧ text = body ++ [backslash] := by
  constructor
  · intro overruns
    rcases stringBody_forms text with ⟨body, rest, isBody, split, ends⟩
    rw [overruns] at ends
    exact ⟨body, isBody, by rw [split, ends]⟩
  · rintro ⟨body, isBody, rfl⟩
    rw [isBody.stringBody_append]
    rfl

/-! ### Character literals -/

theorem characterBody_isPrefix (text : Text) : (characterBody text).1 <+: text := by
  unfold characterBody
  split
  · exact List.nil_prefix
  · split
    · exact List.nil_prefix
    · split
      · split
        · split
          · exact ⟨_, rfl⟩
          · exact ⟨_, rfl⟩
        · exact List.prefix_rfl
      · exact ⟨_, rfl⟩

/-- A character literal is accepted if a body with an apostrophe behind it is read. -/
theorem characterBody_closed_iff {text body : Text} :
    (characterBody text = (body, true) ∧ startsWith apostrophe (text.drop body.length)) ↔
      IsCharacterBody body ∧ ∃ behind, text = body ++ apostrophe :: behind := by
  constructor
  · rintro ⟨reads, closes⟩
    rcases List.head?_eq_some_iff.1 (of_decide_eq_true closes) with ⟨behind, rest⟩
    have bodyPrefix := characterBody_isPrefix text
    rw [reads] at bodyPrefix
    refine ⟨?_, behind, by rw [← rest, List.prefix_iff_eq_append.1 bodyPrefix]⟩
    revert reads
    unfold characterBody
    split
    · exact nofun
    · split
      · exact nofun
      · rename_i byte _ notBreak
        rw [not_or, not_or] at notBreak
        split
        · rename_i isBackslash
          split
          · split
            · rename_i escapable
              rintro ⟨⟩
              rw [isBackslash]
              exact .escape escapable
            · exact nofun
          · exact nofun
        · rename_i notBackslash
          rintro ⟨⟩
          exact .plain notBreak.1 notBackslash notBreak.2.1 notBreak.2.2
  · rintro ⟨isBody, behind, rfl⟩
    refine ⟨?_, by simp [startsWith]⟩
    cases isBody with
    | plain notApostrophe notBackslash notNewline notNull =>
        rw [List.singleton_append, characterBody]
        simp only [if_neg (not_or.2 ⟨notApostrophe, not_or.2 ⟨notNewline, notNull⟩⟩),
          if_neg notBackslash]
    | escape escapable =>
        rw [List.cons_append, List.singleton_append, characterBody]
        simp only [if_true, if_pos escapable]
        rfl

end Lexer

end SubsetC
