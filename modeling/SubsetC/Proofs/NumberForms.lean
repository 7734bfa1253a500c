import SubsetC.Proofs.Arithmetic
import SubsetC.Proofs.Reading
import Mathlib.Data.List.Infix

/-!
# Forms of numbers

An integer is a run of digits with a suffix, which may be empty, and a decimal numeral has a point
or an exponent instead of the suffix. Where a number starts, the lexer takes for an integer or a
floating literal exactly a text of that form with which no letter, digit or point goes on, and
everything else for an illegal token (`Lexer.number_eq_iff`). An integer that the lexer accepts is
split again into digits and marks when its value is read, from its other end; its value is that of
the digits, in the smallest type that the marks allow (`Literal.integer_denotes`).
-/

namespace SubsetC

/-! ### Forms -/

namespace Literal

/-- Digits, none or more. -/
def AreDigits (text : Text) : Prop := ∀ byte ∈ text, Lexer.isDigit byte

instance (text : Text) : Decidable (AreDigits text) :=
  List.decidableBAll _ text

/-- The suffix of an integer: at most one mark of each sort, in any order. -/
inductive IsSuffix : Text → Prop where
  | none : IsSuffix []
  | unsigned {mark : UInt8} : Lexer.isUnsignedMark mark → IsSuffix [mark]
  | long {mark : UInt8} : Lexer.isLongMark mark → IsSuffix [mark]
  | unsignedLong {first second : UInt8} : Lexer.isUnsignedMark first → Lexer.isLongMark second →
      IsSuffix [first, second]
  | longUnsigned {first second : UInt8} : Lexer.isLongMark first → Lexer.isUnsignedMark second →
      IsSuffix [first, second]

/-- An integer: one digit or more, and a suffix. -/
inductive IsInteger : Text → Prop where
  | intro {digits suffix : Text} (nonempty : digits ≠ []) (areDigits : AreDigits digits)
      (isSuffix : IsSuffix suffix) : IsInteger (digits ++ suffix)

/-- A point with the digits behind it. -/
def IsFraction (text : Text) : Prop :=
  text = [] ∨ ∃ digits, text = Text.ofAscii '.' :: digits ∧ AreDigits digits

/-- The mark of an exponent with a sign, which may be left out, and digits. -/
def IsExponent (text : Text) : Prop :=
  text = [] ∨ ∃ mark sign digits, text = mark :: sign ++ digits ∧ isExponentMark mark ∧
    (sign = [] ∨ sign = [Text.ofAscii '+'] ∨ sign = [Text.ofAscii '-']) ∧
      digits ≠ [] ∧ AreDigits digits

/-- A decimal numeral that is not an integer: digits around a point, on one side of it at least, or
digits alone, with an exponent behind, which may be left out if there is a point. -/
inductive IsDecimal : Text → Prop where
  | intro {whole fraction exponent : Text} (areDigits : AreDigits whole)
      (isFraction : IsFraction fraction) (isExponent : IsExponent exponent)
      (hasDigits : whole ≠ [] ∨ 2 ≤ fraction.length)
      (notInteger : fraction ≠ [] ∨ exponent ≠ []) : IsDecimal (whole ++ fraction ++ exponent)

end Literal

namespace Lexer

open Literal

/-- A text with which no number in front of it goes on: it does not start with a letter, a digit or
a point. -/
def EndsNumber (rest : Text) : Prop := ∀ byte ∈ rest.head?, isNumberTail byte = false

instance (rest : Text) : Decidable (EndsNumber rest) :=
  decidable_of_iff (rest.head?.all (!isNumberTail ·)) (by cases rest <;> simp [EndsNumber])

/-- A text that starts with a digit, or with a point and a digit. -/
def StartsNumber : Text → Prop
  | [] => False
  | lead :: rest => isDigit lead ∨ lead = Text.ofAscii '.' ∧ rest.head?.any isDigit

/-! ### Bytes in and behind numbers -/

/-- A byte behind a number is none that could be part of it. -/
theorem not_part_of_not_tail {byte : UInt8} (notTail : isNumberTail byte = false) :
    isDigit byte = false ∧ byte ≠ Text.ofAscii '.' ∧ isExponentMark byte = false ∧
      isUnsignedMark byte = false ∧ isLongMark byte = false := by
  have isTail : isDigit byte ∨ byte = Text.ofAscii '.' ∨ isExponentMark byte ∨
      isUnsignedMark byte ∨ isLongMark byte → isNumberTail byte := by
    simp only [isExponentMark, isUnsignedMark, isLongMark, Bool.or_eq_true, decide_eq_true_eq]
    rintro (digit | rfl | (rfl | rfl) | (rfl | rfl) | rfl | rfl)
    case inl => simp [isNumberTail, isWord, digit]
    all_goals decide
  rw [notTail] at isTail
  simpa using isTail

theorem isExponentMark_iff {byte : UInt8} :
    isExponentMark byte ↔ byte = Text.ofAscii 'e' ∨ byte = Text.ofAscii 'E' := by
  simp [isExponentMark]

theorem not_digit_of_isExponentMark {byte : UInt8} (mark : isExponentMark byte) :
    isDigit byte = false ∧ byte ≠ Text.ofAscii '.' := by
  rcases isExponentMark_iff.1 mark with rfl | rfl <;> decide

/-- A mark of a suffix is neither a digit nor a point, and marks no exponent. -/
theorem not_part_of_isSuffixMark {byte : UInt8} (mark : isSuffixMark byte) :
    isDigit byte = false ∧ byte ≠ Text.ofAscii '.' ∧ isExponentMark byte = false := by
  simp only [isSuffixMark, isUnsignedMark, isLongMark, Bool.or_eq_true, decide_eq_true_eq] at mark
  rcases mark with (rfl | rfl) | (rfl | rfl) <;> decide

/-- A digit is neither a point nor a sign. -/
theorem not_sign_of_isDigit {byte : UInt8} (digit : isDigit byte) :
    byte ≠ Text.ofAscii '.' ∧ byte ≠ Text.ofAscii '+' ∧ byte ≠ Text.ofAscii '-' := by
  refine ⟨?_, ?_, ?_⟩ <;> (rintro rfl; exact absurd digit (by decide))

/-- A run of bytes of a class ends where the next byte is not in the class. -/
theorem takeWhile_append_of_head {p : UInt8 → Bool} {front rest : Text}
    (inside : ∀ byte ∈ front, p byte) (boundary : ∀ byte ∈ rest.head?, p byte = false) :
    (front ++ rest).takeWhile p = front := by
  rw [List.takeWhile_append_of_pos inside]
  cases rest with
  | nil => simp
  | cons byte rest => simp [boundary byte rfl]

/-! ### The parts that are read -/

theorem prefix_append_of_drop {front back text : Text} (isFront : front <+: text)
    (isBack : back <+: text.drop front.length) : front ++ back <+: text := by
  rcases isFront with ⟨rest, rfl⟩
  rw [List.drop_left] at isBack
  exact List.prefix_append_right_inj front |>.2 isBack

theorem fraction_isPrefix (text : Text) : fraction text <+: text := by
  unfold fraction
  split
  · split
    · exact List.cons_prefix_cons.2 ⟨rfl, List.takeWhile_prefix _⟩
    · exact List.nil_prefix
  · exact List.nil_prefix

theorem sign_isPrefix (text : Text) : sign text <+: text := by
  unfold sign
  split
  · split
    · exact List.cons_prefix_cons.2 ⟨rfl, List.nil_prefix⟩
    · exact List.nil_prefix
  · exact List.nil_prefix

theorem exponent_isPrefix (text : Text) : (exponent text).1 <+: text := by
  unfold exponent
  split
  · split
    · exact List.cons_prefix_cons.2
        ⟨rfl, prefix_append_of_drop (sign_isPrefix _) (List.takeWhile_prefix _)⟩
    · exact List.nil_prefix
  · exact List.nil_prefix

theorem integerSuffix_isPrefix (text : Text) : integerSuffix text <+: text := by
  unfold integerSuffix
  split
  · split
    · exact ⟨_, rfl⟩
    · split
      · exact ⟨_, rfl⟩
      · exact List.nil_prefix
  · split
    · exact List.prefix_rfl
    · exact List.nil_prefix
  · exact List.prefix_rfl

/-- Only integers have a suffix. -/
theorem suffix_isPrefix (isFloating : Bool) (text : Text) :
    (if isFloating then [] else integerSuffix text) <+: text := by
  split
  · exact List.nil_prefix
  · exact integerSuffix_isPrefix text

theorem areDigits_takeWhile (text : Text) : AreDigits (text.takeWhile isDigit) :=
  fun _ mem => List.all_eq_true.1 List.all_takeWhile _ mem

theorem isFraction_fraction (text : Text) : IsFraction (fraction text) := by
  unfold fraction
  split
  · split
    · rename_i isPoint
      exact .inr ⟨_, by rw [isPoint], areDigits_takeWhile _⟩
    · exact .inl rfl
  · exact .inl rfl

theorem sign_cases (text : Text) :
    sign text = [] ∨ sign text = [Text.ofAscii '+'] ∨ sign text = [Text.ofAscii '-'] := by
  unfold sign
  split
  · split
    · rename_i isSign
      rcases isSign with rfl | rfl
      · exact .inr (.inl rfl)
      · exact .inr (.inr rfl)
    · exact .inl rfl
  · exact .inl rfl

/-- An exponent that is well formed has digits. -/
theorem isExponent_exponent {text : Text} (wellFormed : (exponent text).2 = true) :
    IsExponent (exponent text).1 := by
  unfold exponent at *
  split
  · split
    · rename_i byte rest isMark
      dsimp only at wellFormed
      rw [if_pos isMark] at wellFormed
      exact .inr ⟨byte, sign rest, _, rfl, by simpa [isExponentMark] using isMark,
        sign_cases rest, by simpa using wellFormed, areDigits_takeWhile _⟩
    · exact .inl rfl
  · exact .inl rfl

theorem isSuffix_integerSuffix (text : Text) : IsSuffix (integerSuffix text) := by
  have single {first : UInt8} (mark : (isUnsignedMark first || isLongMark first) = true) :
      IsSuffix [first] := by
    rcases Bool.or_eq_true_iff.1 mark with unsigned | long
    · exact .unsigned unsigned
    · exact .long long
  unfold integerSuffix
  split
  · split
    · rename_i both
      rw [Bool.or_eq_true, Bool.and_eq_true, Bool.and_eq_true] at both
      rcases both with ⟨unsigned, long⟩ | ⟨long, unsigned⟩
      · exact .unsignedLong unsigned long
      · exact .longUnsigned long unsigned
    · split
      · rename_i mark
        exact single mark
      · exact .none
  · split
    · rename_i mark
      exact single mark
    · exact .none
  · exact .none

/-! ### Reading parts back -/

theorem fraction_eq_nil {text : Text} (noPoint : ∀ byte ∈ text.head?, byte ≠ Text.ofAscii '.') :
    fraction text = [] := by
  cases text with
  | nil => rfl
  | cons byte rest => simp [fraction, noPoint byte rfl]

theorem exponent_eq_nil {text : Text} (noMark : ∀ byte ∈ text.head?, isExponentMark byte = false) :
    exponent text = ([], true) := by
  cases text with
  | nil => rfl
  | cons byte rest =>
      have other : ¬(byte = Text.ofAscii 'e' ∨ byte = Text.ofAscii 'E') := by
        rw [← isExponentMark_iff, noMark byte rfl]
        exact Bool.false_ne_true
      simp only [exponent, if_neg other]

theorem fraction_append_of_head {text rest : Text} (isFraction : IsFraction text)
    (noPoint : text = [] → ∀ byte ∈ rest.head?, byte ≠ Text.ofAscii '.')
    (noDigit : ∀ byte ∈ rest.head?, isDigit byte = false) : fraction (text ++ rest) = text := by
  rcases isFraction with rfl | ⟨digits, rfl, areDigits⟩
  · exact fraction_eq_nil (noPoint rfl)
  · simp [fraction, takeWhile_append_of_head areDigits noDigit]

theorem sign_append_digits {sign digits rest : Text}
    (isSign : sign = [] ∨ sign = [Text.ofAscii '+'] ∨ sign = [Text.ofAscii '-'])
    (nonempty : digits ≠ []) (areDigits : AreDigits digits) :
    Lexer.sign (sign ++ (digits ++ rest)) = sign := by
  rcases isSign with rfl | rfl | rfl
  · cases digits with
    | nil => exact absurd rfl nonempty
    | cons digit digits =>
        have noSign := not_sign_of_isDigit (areDigits digit List.mem_cons_self)
        simp [Lexer.sign, noSign.2]
  · rfl
  · rfl

theorem exponent_append_of_head {text rest : Text} (isExponent : IsExponent text)
    (ends : EndsNumber rest) : exponent (text ++ rest) = (text, true) := by
  have outside := fun byte mem => not_part_of_not_tail (ends byte mem)
  rcases isExponent with rfl | ⟨mark, sign, digits, rfl, isMark, isSign, nonempty, areDigits⟩
  · exact exponent_eq_nil fun byte mem => (outside byte mem).2.2.1
  · have reads := takeWhile_append_of_head areDigits fun byte mem => (outside byte mem).1
    simp only [List.cons_append, List.append_assoc, exponent, if_pos (isExponentMark_iff.1 isMark),
      sign_append_digits isSign nonempty areDigits, List.drop_left, reads]
    simp [nonempty]

theorem integerSuffix_append_of_head {suffix rest : Text} (isSuffix : IsSuffix suffix)
    (ends : EndsNumber rest) : integerSuffix (suffix ++ rest) = suffix := by
  have outside := fun byte mem => (not_part_of_not_tail (ends byte mem)).2.2.2
  cases isSuffix with
  | none =>
      match rest with
      | [] => rfl
      | [first] => simp [integerSuffix, outside first rfl]
      | first :: second :: rest => simp [integerSuffix, outside first rfl]
  | unsigned mark | long mark =>
      match rest with
      | [] => simp [integerSuffix, mark]
      | first :: rest => simp [integerSuffix, outside first rfl, mark]
  | unsignedLong first second | longUnsigned first second => simp [integerSuffix, first, second]

theorem tail_eq_nil {rest : Text} (ends : EndsNumber rest) : rest.takeWhile isNumberTail = [] := by
  simpa using takeWhile_append_of_head (List.forall_mem_nil _) ends

/-! ### Numbers -/

/-- A number that is well formed is an integer or a decimal numeral, and what follows it and the
letters, digits and points behind it cannot follow a number. -/
theorem number_forms {text : Text} (starts : StartsNumber text) :
    ∃ literal tail rest : Text, ∃ isFloating wellFormed : Bool,
      text = literal ++ tail ++ rest ∧ EndsNumber rest ∧ literal ≠ [] ∧
      (wellFormed → if isFloating then IsDecimal literal else IsInteger literal) ∧
      number text = if wellFormed && tail.isEmpty then
        (if isFloating then .floating else .integer, literal) else (.illegal, literal ++ tail) := by
  -- What a number starts with makes sure of a digit, before the point or behind it.
  have hasDigits : text.takeWhile isDigit ≠ [] ∨
      text.takeWhile isDigit = [] ∧ 2 ≤ (fraction text).length := by
    match text, starts with
    | lead :: rest, .inl digit => exact .inl (by simp [digit])
    | lead :: next :: rest, .inr ⟨isPoint, digit⟩ =>
        have digit : isDigit next := digit
        subst isPoint
        exact .inr ⟨rfl, by simp [fraction, digit]⟩
  have wholeSplit := List.prefix_iff_eq_append.1 (List.takeWhile_prefix isDigit (l := text))
  unfold number
  extract_lets whole afterWhole point afterPoint
  have pointSplit : point ++ afterPoint = afterWhole :=
    List.prefix_iff_eq_append.1 (fraction_isPrefix _)
  have markSplit := List.prefix_iff_eq_append.1 (exponent_isPrefix afterPoint)
  have wellFormedExponent := @isExponent_exponent afterPoint
  -- The exponent is a pair, so it is opened before the parts behind it are named.
  generalize exponent afterPoint = both at markSplit wellFormedExponent ⊢
  rcases both with ⟨mark, wellFormed⟩
  dsimp -zeta only at markSplit wellFormedExponent ⊢
  extract_lets afterMark isFloating suffix afterSuffix tail literal
  have suffixSplit : suffix ++ afterSuffix = afterMark :=
    List.prefix_iff_eq_append.1 (suffix_isPrefix isFloating afterMark)
  have hasDigits : whole ≠ [] ∨ 2 ≤ point.length := by
    refine hasDigits.imp_right ?_
    rintro ⟨noWhole, long⟩
    have same : afterWhole = text := by
      simp only [afterWhole, whole, noWhole, List.length_nil, List.drop_zero]
    rwa [← same] at long
  refine ⟨literal, tail, afterSuffix.dropWhile isNumberTail, isFloating, wellFormed, ?_, ?_, ?_, ?_,
    rfl⟩
  case refine_1 =>
    have tailSplit : tail ++ afterSuffix.dropWhile isNumberTail = afterSuffix :=
      List.takeWhile_append_dropWhile
    calc text = whole ++ (point ++ (mark ++ (suffix ++ (tail ++ _)))) := by
          rw [tailSplit, suffixSplit, markSplit, pointSplit, wholeSplit]
      _ = _ := by simp only [literal, List.append_assoc]
  case refine_2 =>
    intro byte isHead
    have stops := List.head?_dropWhile_not isNumberTail afterSuffix
    rw [Option.mem_def.1 isHead] at stops
    simpa using stops
  case refine_3 =>
    intro isNil
    simp only [literal, List.append_eq_nil_iff] at isNil
    simp [isNil] at hasDigits
  case refine_4 =>
    intro isWellFormed
    split
    · rename_i floating
      have noSuffix : literal = whole ++ point ++ mark := by
        simp only [literal, suffix, if_pos floating, List.append_nil]
      rw [noSuffix]
      refine .intro (areDigits_takeWhile _) (isFraction_fraction _)
        (wellFormedExponent isWellFormed) hasDigits ?_
      simpa [isFloating] using floating
    · rename_i notFloating
      have noParts : point = [] ∧ mark = [] := by simpa [isFloating] using notFloating
      have onlySuffix : literal = whole ++ integerSuffix afterMark := by
        simp only [literal, suffix, noParts, List.append_nil]
        rw [if_neg notFloating]
      rw [onlySuffix]
      refine .intro ?_ (areDigits_takeWhile _) (isSuffix_integerSuffix _)
      simpa [noParts] using hasDigits

theorem number_ne_nil {text : Text} (starts : StartsNumber text) : (number text).2 ≠ [] := by
  rcases number_forms starts with
    ⟨literal, tail, rest, isFloating, wellFormed, -, -, nonempty, -, same⟩
  rw [same]
  split
  · exact nonempty
  · simp [nonempty]

theorem number_isPrefix {text : Text} (starts : StartsNumber text) : (number text).2 <+: text := by
  rcases number_forms starts with
    ⟨literal, tail, rest, isFloating, wellFormed, split, -, -, -, same⟩
  rw [same]
  split
  · exact ⟨tail ++ rest, by rw [split, List.append_assoc]⟩
  · exact ⟨rest, split.symm⟩

theorem number_kind {text : Text} (starts : StartsNumber text) : (number text).1 = .integer ∨
    (number text).1 = .floating ∨ (number text).1 = .illegal := by
  rcases number_forms starts with
    ⟨literal, tail, rest, isFloating, wellFormed, -, -, -, -, same⟩
  rw [same]
  split
  · cases isFloating
    · exact .inl rfl
    · exact .inr (.inl rfl)
  · exact .inr (.inr rfl)

/-- The first byte of a suffix with a text behind it that ends numbers. -/
theorem head_suffix_append {suffix rest : Text} (isSuffix : IsSuffix suffix)
    (ends : EndsNumber rest) {byte : UInt8} (isHead : byte ∈ (suffix ++ rest).head?) :
    isDigit byte = false ∧ byte ≠ Text.ofAscii '.' ∧ isExponentMark byte = false := by
  have ofMark {mark : UInt8} (isMark : isUnsignedMark mark ∨ isLongMark mark)
      (isHead : byte ∈ some mark) :
      isDigit byte = false ∧ byte ≠ Text.ofAscii '.' ∧ isExponentMark byte = false := by
    cases isHead
    exact not_part_of_isSuffixMark (Bool.or_eq_true_iff.2 isMark)
  cases isSuffix with
  | none =>
      have outside := not_part_of_not_tail (ends byte isHead)
      exact ⟨outside.1, outside.2.1, outside.2.2.1⟩
  | unsigned mark | unsignedLong mark _ => exact ofMark (.inl mark) isHead
  | long mark | longUnsigned mark _ => exact ofMark (.inr mark) isHead

/-- An integer is read back in front of every text that ends numbers. -/
theorem number_integer {literal rest : Text} (isInteger : IsInteger literal)
    (ends : EndsNumber rest) : number (literal ++ rest) = (.integer, literal) := by
  rcases isInteger with @⟨digits, suffix, nonempty, areDigits, isSuffix⟩
  have outside : ∀ byte ∈ (suffix ++ rest).head?, isDigit byte = false ∧
      byte ≠ Text.ofAscii '.' ∧ isExponentMark byte = false :=
    fun _ => head_suffix_append isSuffix ends
  have whole := takeWhile_append_of_head areDigits fun byte mem => (outside byte mem).1
  have noPoint := fraction_eq_nil fun byte mem => (outside byte mem).2.1
  have noMark := exponent_eq_nil fun byte mem => (outside byte mem).2.2
  rw [List.append_assoc]
  simp only [number, whole, List.drop_left, noPoint, List.length_nil, List.drop_zero, noMark,
    List.isEmpty_nil, Bool.not_true, Bool.or_self, Bool.false_eq_true, if_false,
    integerSuffix_append_of_head isSuffix ends, tail_eq_nil ends, Bool.and_self, if_true,
    List.append_nil]

/-- The first byte of an exponent with a text behind it that ends numbers. -/
theorem head_exponent_append {exponent rest : Text} (isExponent : IsExponent exponent)
    (ends : EndsNumber rest) {byte : UInt8} (isHead : byte ∈ (exponent ++ rest).head?) :
    isDigit byte = false ∧ byte ≠ Text.ofAscii '.' := by
  rcases isExponent with rfl | ⟨mark, sign, digits, rfl, isMark, -, -, -⟩
  · have outside := not_part_of_not_tail (ends byte isHead)
    exact ⟨outside.1, outside.2.1⟩
  · cases isHead
    exact not_digit_of_isExponentMark isMark

/-- A decimal numeral is read back in front of every text that ends numbers. -/
theorem number_decimal {literal rest : Text} (isDecimal : IsDecimal literal)
    (ends : EndsNumber rest) : number (literal ++ rest) = (.floating, literal) := by
  rcases isDecimal with
    @⟨whole, point, mark, areDigits, isFraction, isExponent, hasDigits, notInteger⟩
  have outside : ∀ byte ∈ (mark ++ rest).head?, isDigit byte = false ∧ byte ≠ Text.ofAscii '.' :=
    fun _ => head_exponent_append isExponent ends
  have noDigit : ∀ byte ∈ (point ++ (mark ++ rest)).head?, isDigit byte = false := by
    rcases isFraction with rfl | ⟨digits, rfl, -⟩
    · exact fun byte mem => (outside byte mem).1
    · rintro byte ⟨⟩
      decide
  have wholeRead := takeWhile_append_of_head areDigits noDigit
  have pointRead := fraction_append_of_head isFraction (fun _ byte mem => (outside byte mem).2)
    fun byte mem => (outside byte mem).1
  have isFloating : (!point.isEmpty || !mark.isEmpty) = true := by simpa using notInteger
  simp only [List.append_assoc]
  simp only [number, wholeRead, List.drop_left, pointRead, exponent_append_of_head isExponent ends,
    isFloating, if_true, List.length_nil, List.drop_zero, tail_eq_nil ends, List.isEmpty_nil,
    Bool.and_self, List.append_nil, List.append_assoc]

/-- The forms of the numbers that the lexer accepts. -/
def IsNumber (kind : TokenKind) (literal : Text) : Prop :=
  kind = .integer ∧ IsInteger literal ∨ kind = .floating ∧ IsDecimal literal

theorem number_isNumber {kind : TokenKind} {literal rest : Text} (isNumber : IsNumber kind literal)
    (ends : EndsNumber rest) : number (literal ++ rest) = (kind, literal) := by
  rcases isNumber with ⟨rfl, isInteger⟩ | ⟨rfl, isDecimal⟩
  · exact number_integer isInteger ends
  · exact number_decimal isDecimal ends

/-- Where a number starts, what is accepted is a number with which nothing goes on. -/
theorem number_eq_iff {text literal : Text} {kind : TokenKind} (starts : StartsNumber text)
    (legal : kind ≠ .illegal) : number text = (kind, literal) ↔
      ∃ rest, text = literal ++ rest ∧ IsNumber kind literal ∧ EndsNumber rest := by
  constructor
  · intro reads
    rcases number_forms starts with
      ⟨front, tail, rest, isFloating, wellFormed, split, ends, -, form, same⟩
    rw [reads] at same
    split at same
    · rename_i accepted
      rw [Bool.and_eq_true, List.isEmpty_iff] at accepted
      rcases accepted with ⟨accepted, rfl⟩
      cases same
      refine ⟨rest, by rw [split, List.append_nil], ?_, ends⟩
      have form := form accepted
      cases isFloating with
      | true => exact .inr ⟨rfl, form⟩
      | false => exact .inl ⟨rfl, form⟩
    · cases same
      exact absurd rfl legal
  · rintro ⟨rest, rfl, isNumber, ends⟩
    exact number_isNumber isNumber ends

end Lexer

/-! ### Values of integers -/

/-- The natural numbers among the values of a type. -/
theorem IntType.holds_natCast_iff (kind : IntType) (value : Nat) : kind.Holds value ↔
    value < if kind.isSigned then kind.modulus / 2 else kind.modulus := by
  rw [holds_iff]
  split <;> omega

namespace Literal

/-- The types that the marks of an integer allow, the smallest first. -/
def kinds (isUnsigned isLong : Bool) : List IntType :=
  match isUnsigned, isLong with
  | false, false => [.int, .long]
  | true, false => [.uint, .ulong]
  | false, true => [.long]
  | true, true => [.ulong]

/-- The smallest of some types that have a value. -/
structure IsSmallest (kinds : List IntType) (value : Int) (kind : IntType) : Prop where
  mem : kind ∈ kinds
  holds : kind.Holds value
  least : ∀ other ∈ kinds, other.Holds value → kind.size ≤ other.size

/-- A constant with a value, of the smallest type that the marks allow. -/
def IsTyped (isUnsigned isLong : Bool) (value : Nat) (constant : Const) : Prop :=
  constant.number? = some (value : Int) ∧
    ∃ kind, constant.type = .integer kind ∧ IsSmallest (kinds isUnsigned isLong) value kind

section

variable {first second : IntType} {value : Int}

theorem isSmallest_only (holds : first.Holds value) : IsSmallest [first] value first :=
  ⟨List.mem_singleton_self _, holds, by simp⟩

theorem isSmallest_first (holds : first.Holds value) (smaller : first.size ≤ second.size) :
    IsSmallest [first, second] value first :=
  ⟨List.mem_cons_self, holds, by simp [smaller]⟩

theorem isSmallest_second (tooLarge : ¬first.Holds value) (holds : second.Holds value) :
    IsSmallest [first, second] value second :=
  ⟨by simp, holds, by simp [tooLarge]⟩

end

/-- A value in range gets the smallest type that has it. -/
theorem typed_of_fits (literal : Text) {isUnsigned isLong : Bool} {value : Nat}
    (fits : value < 2 ^ 64) (signed : isUnsigned = false → value < 2 ^ 63) :
    ∃ constant, typed literal isUnsigned isLong value = .ok constant ∧
      IsTyped isUnsigned isLong value constant := by
  have inWord : ¬UInt64.size ≤ value := Nat.not_le.2 fits
  have asUlong : IntType.ulong.Holds value := (IntType.holds_natCast_iff _ _).2 fits
  have ulongNumber : (Const.ulong (.ofNat value)).number? = some (value : Int) :=
    congrArg (some ∘ Nat.cast) (UInt64.toNat_ofNat_of_lt fits)
  have inLong (same : isUnsigned = false) : ¬UInt64.size / 2 ≤ value := Nat.not_le.2 (signed same)
  have asLong (same : isUnsigned = false) : IntType.long.Holds value :=
    (IntType.holds_natCast_iff _ _).2 (signed same)
  have longNumber (same : isUnsigned = false) :
      (Const.long (.ofNat value)).number? = some (value : Int) :=
    congrArg some (Int64.toInt_ofNat_of_lt (signed same))
  rw [typed, if_neg inWord]
  cases isUnsigned with
  | true =>
      rw [if_pos rfl]
      cases isLong with
      | true => exact ⟨_, rfl, ulongNumber, .ulong, rfl, isSmallest_only asUlong⟩
      | false =>
          by_cases wide : UInt32.size ≤ value
          · refine ⟨_, if_pos (decide_eq_true wide), ulongNumber, .ulong, rfl, ?_⟩
            refine isSmallest_second (fun holds => ?_) asUlong
            exact Nat.not_lt.2 wide ((IntType.holds_natCast_iff _ _).1 holds)
          · have small : value < 2 ^ 32 := Nat.not_le.1 wide
            refine ⟨_, if_neg (by rwa [Bool.false_or, decide_eq_true_eq]), ?_, .uint, rfl, ?_⟩
            · exact congrArg (some ∘ Nat.cast) (UInt32.toNat_ofNat_of_lt small)
            · exact isSmallest_first ((IntType.holds_natCast_iff _ _).2 small) (by decide)
  | false =>
      rw [if_neg Bool.false_ne_true, if_neg (inLong rfl)]
      cases isLong with
      | true => exact ⟨_, rfl, longNumber rfl, .long, rfl, isSmallest_only (asLong rfl)⟩
      | false =>
          by_cases wide : UInt32.size / 2 ≤ value
          · refine ⟨_, if_pos (decide_eq_true wide), longNumber rfl, .long, rfl, ?_⟩
            refine isSmallest_second (fun holds => ?_) (asLong rfl)
            exact Nat.not_lt.2 wide ((IntType.holds_natCast_iff _ _).1 holds)
          · have small : value < 2 ^ 31 := Nat.not_le.1 wide
            refine ⟨_, if_neg (by rwa [Bool.false_or, decide_eq_true_eq]), ?_, .int, rfl, ?_⟩
            · exact congrArg some (Int32.toInt_ofNat_of_lt small)
            · exact isSmallest_first ((IntType.holds_natCast_iff _ _).2 small) (by decide)

/-- The suffix of an integer consists of marks. -/
theorem IsSuffix.all {suffix : Text} (isSuffix : IsSuffix suffix) : suffix.all isSuffixMark := by
  cases isSuffix <;> simp_all [isSuffixMark]

/-- What an integer denotes: the value of its digits, in the smallest type that its suffix allows.
It denotes nothing if there is no such type. -/
theorem integer_denotes {digits suffix : Text} (nonempty : digits ≠ [])
    (areDigits : AreDigits digits) (isSuffix : IsSuffix suffix) :
    let value := Text.toNat digits
    let isUnsigned := suffix.any Lexer.isUnsignedMark
    if 2 ^ 64 ≤ value then
      integer (digits ++ suffix) = .error (.integerTooLarge (digits ++ suffix))
    else if isUnsigned = false ∧ 2 ^ 63 ≤ value then
      integer (digits ++ suffix) = .error (.integerTooLargeForLong (digits ++ suffix))
    else
      ∃ constant, integer (digits ++ suffix) = .ok constant ∧
        IsTyped isUnsigned (suffix.any Lexer.isLongMark) value constant := by
  intro value isUnsigned
  rw [integer_append nonempty areDigits isSuffix.all]
  split
  · rename_i large
    exact if_pos large
  · rename_i inWord
    split
    · rename_i large
      have inWord : ¬UInt64.size ≤ value := inWord
      change typed _ isUnsigned _ value = _
      rw [typed, if_neg inWord, large.1, if_neg Bool.false_ne_true]
      exact if_pos large.2
    · rename_i inLong
      exact typed_of_fits _ (Nat.not_le.1 inWord)
        fun signed => Nat.not_le.1 fun large => inLong ⟨signed, large⟩

end Literal

end SubsetC
