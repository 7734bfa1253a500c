import SubsetC.Proofs.Naming
import Mathlib.Data.List.Basic

/-!
# Texts that show where they end

Dumps put the texts of values one behind the other, inside brackets and with commas in between, and
rely on every text to show where it ends. `Text.Reads` says so of one value: no other value of its
class has a text that starts alike, if nothing but a comma or a closing bracket may stand behind
both. Words without such marks read back, texts in brackets do, and lists do if their members do.
-/

namespace SubsetC

namespace Text

/-! ### Marks -/

/-- The bytes that may stand behind the text of a value. -/
def closers : List UInt8 := [',', ')', ']', '}'].map ofAscii

/-- The text has none of the bytes that may stand behind it. -/
def IsOpen (text : Text) : Prop := ∀ byte ∈ text, byte ∉ closers

/-- The text may stand behind the text of a value. -/
def Ends (rest : Text) : Prop := ∀ byte ∈ rest.head?, byte ∈ closers

theorem ends_nil : Ends [] := by simp [Ends]

theorem ends_cons {byte : UInt8} (isCloser : byte ∈ closers) (rest : Text) :
    Ends (byte :: rest) := by
  simpa [Ends] using isCloser

/-- A closing bracket or comma with more behind it. -/
theorem ends_append {front : Text} (closes : ∃ byte ∈ closers, front.head? = some byte)
    (rest : Text) : Ends (front ++ rest) := by
  rcases closes with ⟨byte, isCloser, isFirst⟩
  simpa [Ends, isFirst] using isCloser

/-- A mark behind two texts without it. -/
theorem append_cons_inj_of_notMem {mark : UInt8} {left right rest otherRest : Text}
    (leftFree : mark ∉ left) (rightFree : mark ∉ right)
    (same : left ++ mark :: rest = right ++ mark :: otherRest) :
    left = right ∧ rest = otherRest := by
  have parts := append_inj_of_boundary (· = mark) (fun byte mem => ?_)
    (fun byte mem => ?_) (by simp) (by simp) same
  · simpa using parts
  · rintro rfl
    exact leftFree mem
  · rintro rfl
    exact rightFree mem

/-- No text of the list starts another one. -/
def PrefixFree (openings : List Text) : Prop :=
  ∀ opening ∈ openings, ∀ other ∈ openings, opening <+: other → opening = other

instance (openings : List Text) : Decidable (PrefixFree openings) :=
  inferInstanceAs (Decidable (∀ opening ∈ openings, ∀ other ∈ openings, _))

theorem PrefixFree.append_inj {openings : List Text} (prefixFree : PrefixFree openings)
    {left right rest otherRest : Text} (isLeft : left ∈ openings) (isRight : right ∈ openings)
    (same : left ++ rest = right ++ otherRest) : left = right ∧ rest = otherRest := by
  have equal : left = right := by
    rcases List.append_eq_append_iff.1 same with ⟨more, longer, _⟩ | ⟨more, longer, _⟩
    · exact prefixFree left isLeft right isRight ⟨more, longer.symm⟩
    · exact (prefixFree right isRight left isLeft ⟨more, longer.symm⟩).symm
  subst equal
  exact ⟨rfl, List.append_cancel_left same⟩

/-! ### Words -/

/-- The brackets that may stand around what belongs to a word. -/
def brackets : List (UInt8 × UInt8) := [(ofAscii '(', ofAscii ')'), (ofAscii '[', ofAscii ']')]

/-- The byte ends a word, since it may stand behind a value or opens a bracket. -/
def EndsWord (byte : UInt8) : Prop := byte ∈ closers ∨ byte ∈ brackets.map Prod.fst

instance (byte : UInt8) : Decidable (EndsWord byte) := inferInstanceAs (Decidable (_ ∨ _))

/-- The text has none of the bytes that end a word. -/
def IsWord (text : Text) : Prop := ∀ byte ∈ text, ¬EndsWord byte

instance (text : Text) : Decidable text.IsWord := List.decidableBAll _ text

theorem IsWord.isOpen {text : Text} (isWord : text.IsWord) : text.IsOpen :=
  fun byte mem isCloser => isWord byte mem (.inl isCloser)

theorem endsWord_iff {byte : UInt8} : EndsWord byte ↔ byte = ofAscii ',' ∨ byte = ofAscii ')' ∨
    byte = ofAscii ']' ∨ byte = ofAscii '\x7d' ∨ byte = ofAscii '(' ∨ byte = ofAscii '[' := by
  simp [EndsWord, closers, brackets, or_assoc]

/-! ### Integers -/

theorem mem_ofInt {number : Int} {byte : UInt8} (mem : byte ∈ ofInt number) :
    byte = ofAscii '-' ∨ 48 ≤ byte.toNat ∧ byte.toNat ≤ 57 := by
  cases number with
  | ofNat number => exact .inr (isDigit_of_mem_ofNat mem)
  | negSucc number => exact (List.mem_cons.1 mem).imp_right isDigit_of_mem_ofNat

theorem isWord_ofInt (number : Int) : IsWord (ofInt number) := by
  intro byte mem ends
  rcases mem_ofInt mem with rfl | isDigit
  · revert ends
    decide
  · rcases endsWord_iff.1 ends with rfl | rfl | rfl | rfl | rfl | rfl <;> revert isDigit <;> decide

theorem minus_notMem_ofNat (number : Nat) : ofAscii '-' ∉ ofNat number := by
  intro mem
  have isDigit := isDigit_of_mem_ofNat mem
  revert isDigit
  decide

theorem ofInt_injective : Function.Injective ofInt := by
  intro left right same
  cases left with
  | ofNat left =>
      cases right with
      | ofNat right => rw [ofNat_injective same]
      | negSucc right =>
          have isMinus : ofAscii '-' ∈ ofNat left := by
            rw [show ofNat left = ofAscii '-' :: ofNat (right + 1) from same]
            simp
          exact absurd isMinus (minus_notMem_ofNat left)
  | negSucc left =>
      cases right with
      | ofNat right =>
          have isMinus : ofAscii '-' ∈ ofNat right := by
            rw [← show ofAscii '-' :: ofNat (left + 1) = ofNat right from same]
            simp
          exact absurd isMinus (minus_notMem_ofNat right)
      | negSucc right =>
          have numbers := ofNat_injective (List.cons.inj same).2
          rw [Nat.succ.inj numbers]

/-! ### Values -/

section

variable {Value : Type} {write : Value → Text} {among : Value → Prop} {value other : Value}

/-- No other value of a class has a text that starts like the text of the value. -/
def Reads (write : Value → Text) (among : Value → Prop) (value : Value) : Prop :=
  ∀ other, among other → ∀ rest otherRest, Ends rest → Ends otherRest →
    write value ++ rest = write other ++ otherRest → value = other ∧ rest = otherRest

theorem Reads.eq (reads : Reads write among value) (isAmong : among other)
    (same : write value = write other) : value = other :=
  (reads other isAmong [] [] ends_nil ends_nil (by simpa using same)).1

theorem Reads.mono {within : Value → Prop} (reads : Reads write among value)
    (smaller : ∀ other, within other → among other) : Reads write within value :=
  fun other isWithin => reads other (smaller other isWithin)

/-- Texts without marks, if they differ for different values. -/
theorem reads_of_isOpen (isOpen : IsOpen (write value))
    (areOpen : ∀ other, among other → IsOpen (write other))
    (injective : ∀ other, among other → write value = write other → value = other) :
    Reads write among value := by
  intro other isAmong rest otherRest ends otherEnds same
  have parts := append_inj_of_boundary (· ∈ closers) isOpen (areOpen other isAmong) ends otherEnds
    same
  exact ⟨injective other isAmong parts.1, parts.2⟩

theorem reads_ofInt (number : Int) : Reads ofInt (fun _ => True) number :=
  reads_of_isOpen (isWord_ofInt number).isOpen (fun other _ => (isWord_ofInt other).isOpen)
    fun _ _ same => ofInt_injective same

/-! ### Words with brackets -/

/-- A word, or one with something in brackets behind it. -/
inductive IsBracketed : Text → Prop where
  | word {text : Text} (isWord : IsWord text) : IsBracketed text
  | inside {front body : Text} {pair : UInt8 × UInt8} (isWord : IsWord front)
      (isPair : pair ∈ brackets) (notClosed : pair.2 ∉ body) :
      IsBracketed (front ++ pair.1 :: (body ++ [pair.2]))

theorem pair_eq {pair : UInt8 × UInt8} (isPair : pair ∈ brackets) :
    pair = (ofAscii '(', ofAscii ')') ∨ pair = (ofAscii '[', ofAscii ']') := by
  simpa [brackets] using isPair

theorem pair_eq_of_fst_eq {pair other : UInt8 × UInt8} (isPair : pair ∈ brackets)
    (isOther : other ∈ brackets) (same : pair.1 = other.1) : pair = other := by
  rcases pair_eq isPair with rfl | rfl
  · rcases pair_eq isOther with rfl | rfl
    · rfl
    · exact absurd same (by decide)
  · rcases pair_eq isOther with rfl | rfl
    · exact absurd same (by decide)
    · rfl

theorem endsWord_of_ends {rest : Text} (ends : Ends rest) : ∀ byte ∈ rest.head?, EndsWord byte :=
  fun byte isFirst => .inl (ends byte isFirst)

theorem endsWord_of_isPair {pair : UInt8 × UInt8} (isPair : pair ∈ brackets) (rest : Text) :
    ∀ byte ∈ (pair.1 :: rest).head?, EndsWord byte := by
  rintro _ ⟨⟩
  exact .inr (List.mem_map_of_mem isPair)

/-- A bracket does not stand behind a value. -/
theorem not_ends_of_isPair {pair : UInt8 × UInt8} (isPair : pair ∈ brackets) (rest : Text) :
    ¬Ends (pair.1 :: rest) := by
  intro ends
  rcases pair_eq isPair with rfl | rfl <;> exact absurd (ends _ rfl) (by decide)

theorem reads_of_isBracketed {text : Text} (isBracketed : IsBracketed text) :
    Reads id IsBracketed text := by
  intro other isOther rest otherRest ends otherEnds same
  simp only [id] at same
  cases isBracketed with
  | word isWord =>
      cases isOther with
      | word isWord' =>
          exact append_inj_of_boundary EndsWord isWord isWord' (endsWord_of_ends ends)
            (endsWord_of_ends otherEnds) same
      | inside isWord' isPair' notClosed' =>
          simp only [List.append_assoc, List.cons_append] at same
          have parts := append_inj_of_boundary EndsWord isWord isWord' (endsWord_of_ends ends)
            (endsWord_of_isPair isPair' _) same
          rw [parts.2] at ends
          exact absurd ends (not_ends_of_isPair isPair' _)
  | inside isWord isPair notClosed =>
      simp only [List.append_assoc, List.cons_append, List.nil_append] at same
      cases isOther with
      | word isWord' =>
          have parts := append_inj_of_boundary EndsWord isWord isWord'
            (endsWord_of_isPair isPair _) (endsWord_of_ends otherEnds) same
          rw [← parts.2] at otherEnds
          exact absurd otherEnds (not_ends_of_isPair isPair _)
      | inside isWord' isPair' notClosed' =>
          simp only [List.append_assoc, List.cons_append, List.nil_append] at same
          have parts := append_inj_of_boundary EndsWord isWord isWord'
            (endsWord_of_isPair isPair _) (endsWord_of_isPair isPair' _) same
          rcases List.cons.inj parts.2 with ⟨opening, bodies⟩
          obtain rfl := pair_eq_of_fst_eq isPair isPair' opening
          have inner := append_cons_inj_of_notMem notClosed notClosed' bodies
          exact ⟨by rw [parts.1, inner.1], inner.2⟩

/-! ### Lists of values -/

theorem commas_cons (text : Text) (texts : List Text) :
    commas (text :: texts) = text ++ texts.flatMap (ofString ", " ++ ·) := by
  induction texts generalizing text with
  | nil => simp [commas, join, List.intercalate]
  | cons next texts ih =>
      have step : commas (text :: next :: texts) =
          text ++ ofString ", " ++ commas (next :: texts) := by
        simp [commas, join, List.intercalate]
      rw [step, ih]
      simp

theorem mem_commas {texts : List Text} {byte : UInt8} (mem : byte ∈ commas texts) :
    byte ∈ ofString ", " ∨ ∃ text ∈ texts, byte ∈ text := by
  cases texts with
  | nil => cases mem
  | cons text texts =>
      simp only [commas_cons, List.mem_append, List.mem_flatMap] at mem
      rcases mem with mem | ⟨text', mem', comma | mem⟩
      · exact .inr ⟨text, by simp, mem⟩
      · exact .inl comma
      · exact .inr ⟨text', by simp [mem'], mem⟩

theorem ends_separated {closing : UInt8} (isCloser : closing ∈ closers) (texts : List Text)
    (rest : Text) : Ends (texts.flatMap (ofString ", " ++ ·) ++ closing :: rest) := by
  cases texts with
  | nil => exact ends_cons isCloser rest
  | cons text texts => exact ends_cons (by decide) _

/-- The members behind the first one. -/
theorem separated_inj {closing : UInt8} (isCloser : closing ∈ closers)
    (notComma : closing ≠ ofAscii ',') {values others : List Value}
    (reads : ∀ value ∈ values, Reads write among value) (areAmong : ∀ other ∈ others, among other)
    {rest otherRest : Text}
    (same : (values.map write).flatMap (ofString ", " ++ ·) ++ closing :: rest =
      (others.map write).flatMap (ofString ", " ++ ·) ++ closing :: otherRest) :
    values = others ∧ rest = otherRest := by
  induction values generalizing others with
  | nil =>
      cases others with
      | nil => simpa using same
      | cons other others => exact absurd (List.cons.inj same).1 notComma
  | cons value values ih =>
      cases others with
      | nil => exact absurd (List.cons.inj same).1.symm notComma
      | cons other others =>
          simp only [List.map_cons, List.flatMap_cons, List.append_assoc] at same
          have parts := reads value (by simp) other (areAmong other (by simp)) _ _
            (ends_separated isCloser _ _) (ends_separated isCloser _ _)
            (List.append_cancel_left same)
          have others := ih (fun value mem => reads value (by simp [mem]))
            (fun other mem => areAmong other (by simp [mem])) parts.2
          exact ⟨by rw [parts.1, others.1], others.2⟩

/-- A list up to its closing bracket, which no member may be taken for. -/
theorem commas_inj {closing : UInt8} (isCloser : closing ∈ closers)
    (notComma : closing ≠ ofAscii ',') {values others : List Value}
    (starts : ∀ value, among value → ∃ byte text, write value = byte :: text ∧ byte ≠ closing)
    (areAmong : ∀ value ∈ values, among value) (othersAmong : ∀ other ∈ others, among other)
    (reads : ∀ value ∈ values, Reads write among value) {rest otherRest : Text}
    (same : commas (values.map write) ++ closing :: rest =
      commas (others.map write) ++ closing :: otherRest) :
    values = others ∧ rest = otherRest := by
  have notClosing : ∀ value, among value → ∀ more later : Text,
      write value ++ more ≠ closing :: later := by
    intro value isAmong more later equal
    rcases starts value isAmong with ⟨byte, text, written, differs⟩
    rw [written] at equal
    exact differs (List.cons.inj equal).1
  cases values with
  | nil =>
      cases others with
      | nil => simpa using same
      | cons other others =>
          simp only [List.map_cons, commas_cons, List.append_assoc] at same
          exact absurd same.symm (notClosing other (othersAmong other (by simp)) _ _)
  | cons value values =>
      cases others with
      | nil =>
          simp only [List.map_cons, commas_cons, List.append_assoc] at same
          exact absurd same (notClosing value (areAmong value (by simp)) _ _)
      | cons other others =>
          simp only [List.map_cons, commas_cons, List.append_assoc] at same
          have parts := reads value (by simp) other (othersAmong other (by simp)) _ _
            (ends_separated isCloser _ _) (ends_separated isCloser _ _) same
          have others := separated_inj isCloser notComma
            (fun value mem => reads value (by simp [mem]))
            (fun other mem => othersAmong other (by simp [mem])) parts.2
          exact ⟨by rw [parts.1, others.1], others.2⟩

end

end Text

end SubsetC
