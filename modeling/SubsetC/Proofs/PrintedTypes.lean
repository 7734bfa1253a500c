import SubsetC.CType
import SubsetC.Proofs.UniqueReading

/-!
# Texts of types

The text of a type determines the type. The texts of different constructors start differently, and
none of these openings starts another one; the texts of the parts show where they end, also in the
list of the parameters of a function, whose own texts hold commas and brackets. The main statement
is `CType.text_eq_iff_equal`.
-/

namespace SubsetC

open Text (PrefixFree Reads closers)

namespace CType

/-! ### Openings -/

/-- What the text of a type starts with. -/
def opening : CType → Text
  | .void => "Void"
  | .integer kind => kind.text
  | .double => "Double"
  | .pointer _ => "Pointer("
  | .array _ _ => "Array("
  | .function _ _ => "FunType(params=["

/-- The type with nothing in its parts. -/
def blank : CType → CType
  | .pointer _ => .pointer .void
  | .array _ _ => .array 0 .void
  | .function _ _ => .function [] .void
  | type => type

def blanks : List CType :=
  [.void, .char, .schar, .uchar, .int, .uint, .long, .ulong, .double, .pointer .void,
    .array 0 .void, .function [] .void]

theorem blank_mem_blanks (type : CType) : type.blank ∈ blanks := by
  cases type with
  | integer kind => cases kind <;> decide
  | void | double | pointer | array | function => simp [blanks, blank]

theorem opening_blank (type : CType) : type.blank.opening = type.opening := by
  cases type <;> rfl

theorem prefixFree_openings : PrefixFree (blanks.map opening) := by decide

theorem opening_injOn_blanks : ∀ left ∈ blanks, ∀ right ∈ blanks,
    left.opening = right.opening → left = right := by
  decide

theorem exists_text_eq (type : CType) : ∃ body, type.text = type.opening ++ body := by
  cases type with
  | void | integer | double => exact ⟨[], by simp [text, opening]⟩
  | pointer | array | function =>
      simp only [text, opening, List.append_assoc]
      exact ⟨_, rfl⟩

/-- Texts that start alike are those of types that differ in their parts only. -/
theorem blank_eq_of_append {left right : CType} {rest otherRest : Text}
    (same : left.text ++ rest = right.text ++ otherRest) : left.blank = right.blank := by
  have opens : ∀ type : CType, type.opening ∈ blanks.map opening := fun type =>
    List.mem_map.2 ⟨type.blank, type.blank_mem_blanks, type.opening_blank⟩
  rcases left.exists_text_eq with ⟨body, leftText⟩
  rcases right.exists_text_eq with ⟨otherBody, rightText⟩
  rw [leftText, rightText, List.append_assoc, List.append_assoc] at same
  apply opening_injOn_blanks _ left.blank_mem_blanks _ right.blank_mem_blanks
  simp only [opening_blank]
  exact (prefixFree_openings.append_inj (opens left) (opens right) same).1

/-! ### Parts -/

theorem texts_eq_map (types : List CType) : texts types = types.map text := by
  induction types with
  | nil => rfl
  | cons type types ih => simp [texts, ih]

/-- No text of a type is taken for the bracket behind the parameters. -/
theorem text_starts (type : CType) :
    ∃ byte bytes, type.text = byte :: bytes ∧ byte ≠ Text.ofAscii ']' := by
  rcases type.exists_text_eq with ⟨body, written⟩
  have starts : ∃ byte bytes, type.opening = byte :: bytes ∧ byte ≠ Text.ofAscii ']' := by
    cases type with
    | integer kind => cases kind <;> exact ⟨_, _, rfl, by decide⟩
    | void | double | pointer | array | function => exact ⟨_, _, rfl, by decide⟩
  rcases starts with ⟨byte, bytes, opens, differs⟩
  exact ⟨byte, bytes ++ body, by simp [written, opens], differs⟩

mutual

/-- The text of a type shows where it ends, and which type it is. -/
theorem reads_text : (type : CType) → Reads text (fun _ => True) type
  | .void => by
      intro other _ rest otherRest _ _ same
      have blanks := blank_eq_of_append same
      cases other with
      | void => exact ⟨rfl, List.append_cancel_left same⟩
      | double | integer | pointer | array | function => cases blanks
  | .double => by
      intro other _ rest otherRest _ _ same
      have blanks := blank_eq_of_append same
      cases other with
      | double => exact ⟨rfl, List.append_cancel_left same⟩
      | void | integer | pointer | array | function => cases blanks
  | .integer kind => by
      intro other _ rest otherRest _ _ same
      have blanks := blank_eq_of_append same
      cases other with
      | integer other =>
          cases blanks
          exact ⟨rfl, List.append_cancel_left same⟩
      | void | double | pointer | array | function => cases blanks
  | .pointer element => by
      intro other _ rest otherRest _ _ same
      have blanks := blank_eq_of_append same
      cases other with
      | pointer other =>
          simp only [text, List.append_assoc] at same
          have parts := reads_text element other trivial _ _ (Text.ends_append (by decide) _)
            (Text.ends_append (by decide) _) (List.append_cancel_left same)
          exact ⟨by rw [parts.1], List.append_cancel_left parts.2⟩
      | void | double | integer | array | function => cases blanks
  | .array size element => by
      intro other _ rest otherRest _ _ same
      have blanks := blank_eq_of_append same
      cases other with
      | array otherSize other =>
          simp only [text, List.append_assoc] at same
          have sizes := Text.reads_ofInt size otherSize trivial _ _
            (Text.ends_append (by decide) _) (Text.ends_append (by decide) _)
            (List.append_cancel_left same)
          have parts := reads_text element other trivial _ _ (Text.ends_append (by decide) _)
            (Text.ends_append (by decide) _) (List.append_cancel_left sizes.2)
          exact ⟨by rw [sizes.1, parts.1], List.append_cancel_left parts.2⟩
      | void | double | integer | pointer | function => cases blanks
  | .function parameters result => by
      intro other _ rest otherRest _ _ same
      have blanks := blank_eq_of_append same
      cases other with
      | function others other =>
          simp only [text, texts_eq_map, List.append_assoc] at same
          -- No parameter starts with the bracket behind the list, so the lists end at the same
          -- place.
          have lists := Text.commas_inj (by decide) (by decide)
            (fun type _ => type.text_starts) (fun _ _ => trivial) (fun _ _ => trivial)
            (reads_text_of_mem parameters) (List.append_cancel_left same)
          have parts := reads_text result other trivial _ _ (Text.ends_append (by decide) _)
            (Text.ends_append (by decide) _) (List.append_cancel_left lists.2)
          exact ⟨by rw [lists.1, parts.1], List.append_cancel_left parts.2⟩
      | void | double | integer | pointer | array => cases blanks

theorem reads_text_of_mem : (types : List CType) →
    ∀ type ∈ types, Reads text (fun _ => True) type
  | [], _, mem => by cases mem
  | first :: types, type, mem => by
      rcases List.mem_cons.1 mem with same | mem
      · rw [same]
        exact reads_text first
      · exact reads_text_of_mem types type mem

end

/-- The text of a type determines the type. Two types have the same text exactly if they are equal,
and they are equal exactly if they are built alike, so that equality is an equivalence. -/
theorem text_eq_iff_equal :
    (∀ left right : CType, left.text = right.text ↔ left.equal right = true) ∧
      (∀ left right : CType, left.equal right = true ↔ left = right) ∧
      Equivalence fun left right : CType => left.equal right = true := by
  refine ⟨?_, equal_iff, ?_, ?_, ?_⟩
  · intro left right
    rw [equal_iff]
    constructor
    · intro same
      exact left.reads_text.eq trivial same
    · intro same
      rw [same]
  · intro type
    exact (equal_iff type type).2 rfl
  · intro left right same
    exact (equal_iff right left).2 ((equal_iff left right).1 same).symm
  · intro first second third same others
    exact (equal_iff first third).2
      (((equal_iff first second).1 same).trans ((equal_iff second third).1 others))

end CType

end SubsetC
