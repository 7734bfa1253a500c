import SubsetC.Token.Lexer
import Mathlib.Data.List.Infix

/-!
# Gaps between tokens

What stands between two tokens is white space and comments. A comment that ends with its line holds
no newline, and one in stars holds no star before a slash; neither holds a null byte. The last
comment of a gap may lack its end, if the source or a null byte cuts it off.

`Lexer.skipGap_blank` says that the lexer skips such a gap, and `IsGap.skipGap_append` that it skips
all of a gap whose comments have their ends, whatever stands behind it.
-/

namespace SubsetC

namespace Lexer

/-- The byte that ends a line. -/
abbrev newline : UInt8 := Text.ofAscii '\n'

/-- The byte that starts a comment. -/
abbrev slash : UInt8 := Text.ofAscii '/'

/-- The byte next to the slash at both ends of a comment. -/
abbrev star : UInt8 := Text.ofAscii '*'

/-! ### Comments -/

/-- The inside of a comment that ends with its line. -/
def IsLineBody (body : Text) : Prop := newline ∉ body ∧ 0 ∉ body

/-- The inside of a comment that ends with a star and a slash. -/
def IsBlockBody (body : Text) : Prop := ¬[star, slash] <:+: body ∧ 0 ∉ body

/-- Whether a text in front of this one is cut off: at the end of the source or at a null byte. -/
def CutsOff (rest : Text) : Prop := ∀ byte ∈ rest.head?, byte = 0

/-- White space and comments. The last comment may lack its end where it is cut off. -/
inductive IsGap (cut : Prop) : Text → Prop
  | nil : IsGap cut []
  | blank {byte : UInt8} {rest : Text} : isBlank byte → IsGap cut rest → IsGap cut (byte :: rest)
  | line {body rest : Text} : IsLineBody body → IsGap cut rest →
      IsGap cut (slash :: slash :: (body ++ newline :: rest))
  | block {body rest : Text} : IsBlockBody body → IsGap cut rest →
      IsGap cut (slash :: star :: (body ++ star :: slash :: rest))
  | openLine {body : Text} : cut → IsLineBody body → IsGap cut (slash :: slash :: body)
  | openBlock {body : Text} : cut → IsBlockBody body → IsGap cut (slash :: star :: body)

/-- The last comment may lack its end in more cases. -/
theorem IsGap.mono {cut cut' : Prop} {gap : Text} (isGap : IsGap cut gap) (weaken : cut → cut') :
    IsGap cut' gap := by
  induction isGap with
  | nil => exact .nil
  | blank isBlank _ ih => exact ih.blank isBlank
  | line isBody _ ih => exact ih.line isBody
  | block isBody _ ih => exact ih.block isBody
  | openLine isCut isBody => exact .openLine (weaken isCut) isBody
  | openBlock isCut isBody => exact .openBlock (weaken isCut) isBody

theorem isLineBody_nil : IsLineBody [] := by simp [IsLineBody]

theorem isBlockBody_nil : IsBlockBody [] := by simp [IsBlockBody]

theorem IsLineBody.cons {byte : UInt8} {body : Text} (isBody : IsLineBody body)
    (notNewline : byte ≠ newline) (notNull : byte ≠ 0) : IsLineBody (byte :: body) := by
  simp only [IsLineBody, List.mem_cons, not_or]
  exact ⟨⟨notNewline.symm, isBody.1⟩, notNull.symm, isBody.2⟩

theorem IsBlockBody.cons {byte : UInt8} {body : Text} (isBody : IsBlockBody body)
    (noEnd : ¬(byte = star ∧ body.head? = some slash)) (notNull : byte ≠ 0) :
    IsBlockBody (byte :: body) := by
  refine ⟨?_, by simpa using ⟨notNull.symm, isBody.2⟩⟩
  rw [List.infix_cons_iff]
  rintro (isPrefix | isInfix)
  · rcases isPrefix with ⟨rest, same⟩
    cases same
    exact noEnd ⟨rfl, rfl⟩
  · exact isBody.1 isInfix

/-! ### Skipping a gap -/

theorem skipGap_blank_cons (byte : UInt8) (rest : Text) :
    skipGap .blank (byte :: rest) =
      if isBlank byte then skipGap .blank rest
      else if byte = slash && startsWith slash rest then skipGap .line rest
      else if byte = slash && startsWith star rest then skipGap .opening rest
      else byte :: rest := rfl

theorem skipGap_line_cons (byte : UInt8) (rest : Text) :
    skipGap .line (byte :: rest) =
      if byte = newline then skipGap .blank rest
      else if byte = 0 then byte :: rest
      else skipGap .line rest := rfl

theorem skipGap_opening_cons (byte : UInt8) (rest : Text) :
    skipGap .opening (byte :: rest) = skipGap .block rest := rfl

theorem skipGap_block_cons (byte : UInt8) (rest : Text) :
    skipGap .block (byte :: rest) =
      if byte = 0 then byte :: rest
      else if byte = star && startsWith slash rest then skipGap .closing rest
      else skipGap .block rest := rfl

theorem skipGap_closing_cons (byte : UInt8) (rest : Text) :
    skipGap .closing (byte :: rest) = skipGap .blank rest := rfl

theorem skipGap_cons_blank {byte : UInt8} (blank : isBlank byte) (text : Text) :
    skipGap .blank (byte :: text) = skipGap .blank text := by
  simp [skipGap_blank_cons, blank]

theorem skipGap_slash_slash (text : Text) :
    skipGap .blank (slash :: slash :: text) = skipGap .line text := by
  simp [skipGap_blank_cons, skipGap_line_cons, startsWith, show isBlank slash = false by decide,
    show slash ≠ newline by decide, show slash ≠ 0 by decide]

theorem skipGap_slash_star (text : Text) :
    skipGap .blank (slash :: star :: text) = skipGap .block text := by
  simp [skipGap_blank_cons, skipGap_opening_cons, startsWith,
    show isBlank slash = false by decide, show star ≠ slash by decide]

/-- Where no gap starts, nothing is skipped. -/
theorem skipGap_cons_self {byte : UInt8} {text : Text} (notBlank : isBlank byte = false)
    (noComment : ¬(byte = slash ∧ (text.head? = some slash ∨ text.head? = some star))) :
    skipGap .blank (byte :: text) = byte :: text := by
  rw [not_and, not_or] at noComment
  simp only [skipGap_blank_cons, startsWith, notBlank, Bool.and_eq_true, decide_eq_true_eq]
  rw [if_neg (by simp), if_neg (fun opens => (noComment opens.1).1 opens.2),
    if_neg (fun opens => (noComment opens.1).2 opens.2)]

theorem skipGap_line_append {body : Text} (isBody : IsLineBody body) (rest : Text) :
    skipGap .line (body ++ newline :: rest) = skipGap .blank rest := by
  induction body with
  | nil => simp [skipGap_line_cons]
  | cons byte body ih =>
      rcases isBody with ⟨noNewline, noNull⟩
      rw [List.mem_cons, not_or] at noNewline noNull
      rw [List.cons_append, skipGap_line_cons, if_neg (Ne.symm noNewline.1),
        if_neg (Ne.symm noNull.1)]
      exact ih ⟨noNewline.2, noNull.2⟩

/-- Inside a comment in stars, all is skipped that does not end it. -/
theorem skipGap_block_append {body : Text} (isBody : IsBlockBody body) {rest : Text}
    (noSlash : rest.head? ≠ some slash) :
    skipGap .block (body ++ rest) = skipGap .block rest := by
  induction body with
  | nil => rfl
  | cons byte body ih =>
      rcases isBody with ⟨noEnd, noNull⟩
      rw [List.infix_cons_iff, not_or] at noEnd
      rw [List.mem_cons, not_or] at noNull
      have goesOn : ¬(byte = star ∧ (body ++ rest).head? = some slash) := by
        rintro ⟨rfl, isSlash⟩
        cases body with
        | nil => exact noSlash isSlash
        | cons next body =>
            cases isSlash
            exact noEnd.1 ⟨body, rfl⟩
      rw [List.cons_append, skipGap_block_cons, if_neg (Ne.symm noNull.1),
        if_neg (by simpa [startsWith] using goesOn)]
      exact ih ⟨noEnd.2, noNull.2⟩

theorem skipGap_star_slash (text : Text) :
    skipGap .block (star :: slash :: text) = skipGap .blank text := by
  simp [skipGap_block_cons, skipGap_closing_cons, startsWith, show star ≠ 0 by decide]

/-- A gap whose comments have their ends is skipped, whatever stands behind it. -/
theorem IsGap.skipGap_append {gap : Text} (isGap : IsGap False gap) (rest : Text) :
    skipGap .blank (gap ++ rest) = skipGap .blank rest := by
  induction isGap with
  | nil => rfl
  | blank isBlank _ ih => rw [List.cons_append, skipGap_cons_blank isBlank, ih]
  | line isBody _ ih =>
      simp only [List.cons_append, List.append_assoc]
      rw [skipGap_slash_slash, skipGap_line_append isBody, ih]
  | block isBody _ ih =>
      simp only [List.cons_append, List.append_assoc]
      rw [skipGap_slash_star, skipGap_block_append isBody (by simp; decide), skipGap_star_slash, ih]
  | openLine cut | openBlock cut => exact cut.elim

/-- Inside a comment that ends with its line. -/
theorem skipGap_line (text : Text) :
    ∃ body rest, text = body ++ rest ∧ IsLineBody body ∧
      (CutsOff rest ∧ skipGap .line text = rest ∨
        ∃ more, rest = newline :: more ∧ skipGap .line text = skipGap .blank more) := by
  induction text with
  | nil => exact ⟨[], [], rfl, isLineBody_nil, .inl ⟨by simp [CutsOff], rfl⟩⟩
  | cons byte text ih =>
      by_cases isNewline : byte = newline
      · exact ⟨[], byte :: text, rfl, isLineBody_nil,
          .inr ⟨text, by rw [isNewline], by simp [skipGap_line_cons, isNewline]⟩⟩
      by_cases isNull : byte = 0
      · have stops : skipGap .line (byte :: text) = byte :: text := by
          rw [skipGap_line_cons, if_neg isNewline, if_pos isNull]
        exact ⟨[], byte :: text, rfl, isLineBody_nil, .inl ⟨by simp [CutsOff, isNull], stops⟩⟩
      rcases ih with ⟨body, rest, rfl, isBody, ends⟩
      refine ⟨byte :: body, rest, rfl, isBody.cons isNewline isNull, ?_⟩
      simpa [skipGap_line_cons, isNewline, isNull] using ends

/-- Inside a comment that ends with a star and a slash. -/
theorem skipGap_block (text : Text) :
    ∃ body rest, text = body ++ rest ∧ IsBlockBody body ∧
      (CutsOff rest ∧ skipGap .block text = rest ∨
        ∃ more, rest = star :: slash :: more ∧ skipGap .block text = skipGap .blank more) := by
  induction text with
  | nil => exact ⟨[], [], rfl, isBlockBody_nil, .inl ⟨by simp [CutsOff], rfl⟩⟩
  | cons byte text ih =>
      by_cases isNull : byte = 0
      · exact ⟨[], byte :: text, rfl, isBlockBody_nil,
          .inl ⟨by simp [CutsOff, isNull], by simp [skipGap_block_cons, isNull]⟩⟩
      by_cases isEnd : byte = star ∧ text.head? = some slash
      · rcases isEnd with ⟨isStar, isSlash⟩
        rcases List.head?_eq_some_iff.1 isSlash with ⟨more, rfl⟩
        refine ⟨[], byte :: slash :: more, rfl, isBlockBody_nil, .inr ⟨more, by rw [isStar], ?_⟩⟩
        simp [skipGap_block_cons, skipGap_closing_cons, isStar, startsWith,
          show star ≠ 0 by decide]
      have goesOn : skipGap .block (byte :: text) = skipGap .block text := by
        simp [skipGap_block_cons, isNull, startsWith, isEnd]
      rcases ih with ⟨body, rest, rfl, isBody, ends⟩
      have noEnd : ¬(byte = star ∧ body.head? = some slash) := by
        rintro ⟨isStar, isSlash⟩
        rcases List.head?_eq_some_iff.1 isSlash with ⟨more, rfl⟩
        exact isEnd ⟨isStar, rfl⟩
      exact ⟨byte :: body, rest, rfl, isBody.cons noEnd isNull, goesOn ▸ ends⟩

/-- The lexer skips a gap. -/
theorem skipGap_blank (text : Text) :
    ∃ gap, text = gap ++ skipGap .blank text ∧ IsGap (CutsOff (skipGap .blank text)) gap := by
  induction length : text.length using Nat.strong_induction_on generalizing text with
  | _ _ ih =>
    subst length
    cases text with
    | nil => exact ⟨[], rfl, .nil⟩
    | cons byte text =>
        by_cases isBlank : isBlank byte
        · rcases ih text.length (by simp) text rfl with ⟨gap, same, isGap⟩
          rw [skipGap_cons_blank isBlank]
          exact ⟨byte :: gap, by rw [List.cons_append, ← same], isGap.blank isBlank⟩
        by_cases opens : byte = slash ∧ (text.head? = some slash ∨ text.head? = some star)
        · rcases opens with ⟨rfl, isSlash | isStar⟩
          · rcases List.head?_eq_some_iff.1 isSlash with ⟨text, rfl⟩
            rw [skipGap_slash_slash]
            rcases skipGap_line text with
              ⟨body, rest, rfl, isBody, ⟨cutsOff, ends⟩ | ⟨more, rfl, ends⟩⟩
            · rw [ends]
              exact ⟨slash :: slash :: body, rfl, .openLine cutsOff isBody⟩
            · rcases ih more.length (by simp; omega) more rfl with ⟨gap, same, isGap⟩
              rw [ends]
              exact ⟨_, by simp [← same], .line isBody isGap⟩
          · rcases List.head?_eq_some_iff.1 isStar with ⟨text, rfl⟩
            rw [skipGap_slash_star]
            rcases skipGap_block text with
              ⟨body, rest, rfl, isBody, ⟨cutsOff, ends⟩ | ⟨more, rfl, ends⟩⟩
            · rw [ends]
              exact ⟨slash :: star :: body, rfl, .openBlock cutsOff isBody⟩
            · rcases ih more.length (by simp; omega) more rfl with ⟨gap, same, isGap⟩
              rw [ends]
              exact ⟨_, by simp [← same], .block isBody isGap⟩
        · rw [skipGap_cons_self (by simpa using isBlank) opens]
          exact ⟨[], rfl, .nil⟩

/-- Where skipping stops, no gap starts. -/
theorem skipGap_skipGap (gap : Gap) (text : Text) :
    skipGap .blank (skipGap gap text) = skipGap gap text := by
  fun_induction skipGap gap text with
  | case1 gap => cases gap <;> rfl
  | case5 byte rest notBlank noLine noBlock =>
      rw [skipGap_blank_cons, if_neg notBlank, if_neg noLine, if_neg noBlock]
  | case7 rest => rfl
  | case10 rest => rfl
  | _ => assumption

theorem length_skipGap_le (gap : Gap) (text : Text) :
    (skipGap gap text).length ≤ text.length := by
  fun_induction skipGap gap text with
  | case1 | case5 | case7 | case10 => exact Nat.le_refl _
  | _ => exact Nat.le_succ_of_le ‹_›

/-- Where nothing is skipped, no gap starts. -/
theorem starts_of_skipGap_eq_self {byte : UInt8} {text : Text}
    (stays : skipGap .blank (byte :: text) = byte :: text) : isBlank byte = false ∧
      ¬(byte = slash ∧ (text.head? = some slash ∨ text.head? = some star)) := by
  have shrinks (gap : Gap) (other : Text) (same : skipGap gap other = byte :: text)
      (shorter : other.length ≤ text.length) : False := by
    have := length_skipGap_le gap other
    rw [same, List.length_cons] at this
    omega
  constructor
  · by_contra blank
    rw [skipGap_cons_blank (by simpa using blank)] at stays
    exact shrinks _ _ stays (Nat.le_refl _)
  · rintro ⟨rfl, isSlash | isStar⟩
    · rcases List.head?_eq_some_iff.1 isSlash with ⟨rest, rfl⟩
      rw [skipGap_slash_slash] at stays
      exact shrinks _ _ stays (by simp)
    · rcases List.head?_eq_some_iff.1 isStar with ⟨rest, rfl⟩
      rw [skipGap_slash_star] at stays
      exact shrinks _ _ stays (by simp)

/-- In front of a byte that is not null, all comments of a gap have their ends. -/
theorem exists_gap_of_skipGap {text rest : Text} {lead : UInt8}
    (stops : skipGap .blank text = lead :: rest) (notNull : lead ≠ 0) :
    ∃ gap, IsGap False gap ∧ text = gap ++ lead :: rest := by
  rcases skipGap_blank text with ⟨gap, split, isGap⟩
  rw [stops] at split isGap
  exact ⟨gap, isGap.mono fun cutsOff => notNull (cutsOff lead rfl), split⟩

/-! ### The last gap of a source -/

/-- A gap whose last comment has no end. -/
def LeavesCommentOpen (gap : Text) : Prop :=
  ∃ closed body, IsGap False closed ∧ IsBlockBody body ∧ gap = closed ++ slash :: star :: body

/-- A newline ends every gap, unless a comment in stars lacks its end. -/
theorem IsGap.skipGap_append_newline {gap : Text} (isGap : IsGap True gap)
    (closes : ¬LeavesCommentOpen gap) (rest : Text) :
    skipGap .blank (gap ++ newline :: rest) = skipGap .blank rest := by
  induction isGap with
  | nil => rfl
  | @blank byte inner blank _ ih =>
      rw [List.cons_append, skipGap_cons_blank blank]
      refine ih fun ⟨closed, body, isClosed, isBody, same⟩ => closes ?_
      exact ⟨byte :: closed, body, isClosed.blank blank, isBody, by rw [same, List.cons_append]⟩
  | @line inside inner isInside _ ih =>
      simp only [List.cons_append, List.append_assoc]
      rw [skipGap_slash_slash, skipGap_line_append isInside]
      refine ih fun ⟨closed, body, isClosed, isBody, same⟩ => closes ?_
      exact ⟨_, body, .line isInside isClosed, isBody, by simp [same]⟩
  | @block inside inner isInside _ ih =>
      simp only [List.cons_append, List.append_assoc]
      rw [skipGap_slash_star, skipGap_block_append isInside (by simp; decide), skipGap_star_slash]
      refine ih fun ⟨closed, body, isClosed, isBody, same⟩ => closes ?_
      exact ⟨_, body, .block isInside isClosed, isBody, by simp [same]⟩
  | openLine _ isBody =>
      rw [List.cons_append, List.cons_append, skipGap_slash_slash, skipGap_line_append isBody]
  | openBlock _ isBody => exact absurd ⟨[], _, .nil, isBody, rfl⟩ closes

/-- A newline does not end a comment in stars. -/
theorem LeavesCommentOpen.skipGap_append_newline {gap : Text} (opens : LeavesCommentOpen gap)
    (rest : Text) : skipGap .blank (gap ++ newline :: rest) = skipGap .block rest := by
  rcases opens with ⟨closed, body, isClosed, isBody, rfl⟩
  rw [List.append_assoc, isClosed.skipGap_append, List.cons_append, List.cons_append,
    skipGap_slash_star, skipGap_block_append isBody (by simp; decide)]
  rfl

end Lexer

end SubsetC
