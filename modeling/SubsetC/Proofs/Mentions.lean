import Mathlib.Data.List.Basic
import SubsetC.Frame

/-!
# What functions mention

A function mentions its parameters and the objects that its instructions read and write. Mentions
have places: those of the parameters come first, then those of one instruction after the other, and in
an instruction what it reads comes before what it writes. The names of a function without repetitions
are in the order of their first mentions (`Function.mentionsBefore_names`).
-/

namespace SubsetC

/-! ### Places of mentions -/

/-- The operand of an instruction at a place is the object of a name, or a part of it. Places are
counted from what is read to what is written. -/
def Instruction.MentionsAt (name : Text) (place : Nat) : Instruction → Prop
  | .ret value => place = 0 ∧ value = .var name
  | .convert _ source target | .unary _ source target | .copy source target
  | .getAddress source target =>
      place = 0 ∧ source = .var name ∨ place = 1 ∧ target = .var name
  | .binary _ left right target =>
      place = 0 ∧ left = .var name ∨ place = 1 ∧ right = .var name ∨ place = 2 ∧ target = .var name
  | .load pointer target => place = 0 ∧ pointer = .var name ∨ place = 1 ∧ target = .var name
  | .store source pointer => place = 0 ∧ source = .var name ∨ place = 1 ∧ pointer = .var name
  | .addPointer pointer index _ target =>
      place = 0 ∧ pointer = .var name ∨ place = 1 ∧ index = .var name ∨
        place = 2 ∧ target = .var name
  | .copyToOffset source target _ => place = 0 ∧ source = .var name ∨ place = 1 ∧ target = name
  | .copyFromOffset source _ target => place = 0 ∧ source = name ∨ place = 1 ∧ target = .var name
  | .jumpIfZero condition _ | .jumpIfNotZero condition _ => place = 0 ∧ condition = .var name
  | .jump _ | .label _ => False
  | .call _ arguments target =>
      arguments[place]? = some (.var name) ∨ place = arguments.length ∧ target = .var name

/-- The instruction reads or writes the object of a name, or a part of it. -/
def Instruction.Mentions (name : Text) (instruction : Instruction) : Prop :=
  ∃ place, instruction.MentionsAt name place

namespace Function

/-- The name is a parameter of the function, or occurs in its code. -/
def Mentions (function : Function) (name : Text) : Prop :=
  name ∈ function.params ∨ ∃ instruction ∈ function.body, instruction.Mentions name

/-- The function mentions a name in a line, at a place of the line. The parameters are in line zero,
and the instructions in the lines behind it. -/
def MentionsAt (function : Function) (name : Text) : Nat → Nat → Prop
  | 0, place => function.params[place]? = some name
  | line + 1, place => ∃ instruction, function.body[line]? = some instruction ∧
      instruction.MentionsAt name place

/-- The function mentions a name before it mentions another one. -/
def MentionsBefore (function : Function) (name other : Text) : Prop :=
  ∃ line place, function.MentionsAt name line place ∧
    ∀ line' place', function.MentionsAt other line' place' →
      line < line' ∨ line = line' ∧ place < place'

end Function

/-! ### Operands -/

theorem Operand.name?_eq_some {operand : Operand} {name : Text} :
    operand.name? = some name ↔ operand = .var name := by
  cases operand <;> simp [name?]

namespace Instruction

theorem mentionsAt_iff {instruction : Instruction} {name : Text} {place : Nat} :
    instruction.MentionsAt name place ↔ instruction.operands[place]? = some (.var name) := by
  cases instruction with
  | call callee arguments target =>
      rw [MentionsAt, operands, List.getElem?_append]
      split
      · simp [Nat.ne_of_lt ‹_›]
      · have behind := Nat.le_of_not_lt ‹_›
        rw [List.getElem?_eq_none behind, List.getElem?_singleton]
        split <;> simp <;> omega
  | _ =>
      rcases place with _ | _ | _ | place
      all_goals simp [MentionsAt, operands]

theorem mem_names {instruction : Instruction} {name : Text} :
    name ∈ instruction.names ↔ instruction.Mentions name := by
  simp only [Mentions, mentionsAt_iff, ← List.mem_iff_getElem?]
  simp only [names, List.mem_filterMap, Operand.name?_eq_some, exists_eq_right]

end Instruction

theorem Function.mem_names {function : Function} {name : Text} :
    name ∈ function.names ↔ function.Mentions name := by
  simp [names, Mentions, Instruction.mem_names]

/-! ### Names without repetitions -/

namespace Frame

/-- Leaving out the names seen before and then repetitions. -/
theorem distinct_eq_eraseDups : ∀ names seen : List Text,
    distinct seen names = (names.filter fun name => !seen.contains name).eraseDups
  | [], _ => by simp [distinct]
  | name :: names, seen => by
      rw [distinct]
      by_cases isSeen : seen.contains name
      · rw [if_pos isSeen, List.filter_cons_of_neg (by simpa using isSeen)]
        exact distinct_eq_eraseDups names seen
      · rw [if_neg isSeen, List.filter_cons_of_pos (by simpa using isSeen), List.eraseDups_cons,
          distinct_eq_eraseDups names (name :: seen), List.filter_filter]
        congr 3
        funext other
        rw [List.contains_cons, Bool.not_or]

theorem distinct_nil (names : List Text) : distinct [] names = names.eraseDups := by
  have all : names.filter (fun name => !List.contains [] name) = names :=
    List.filter_eq_self.2 fun _ _ => rfl
  rw [distinct_eq_eraseDups, all]

theorem mem_distinct {names seen : List Text} {name : Text} :
    name ∈ distinct seen names ↔ name ∈ names ∧ name ∉ seen := by
  rw [distinct_eq_eraseDups]
  simp

theorem nodup_distinct : ∀ names seen : List Text, (distinct seen names).Nodup
  | [], _ => List.nodup_nil
  | name :: names, seen => by
      rw [distinct]
      split
      · exact nodup_distinct names seen
      · exact List.nodup_cons.2 ⟨by simp [mem_distinct], nodup_distinct names (name :: seen)⟩

/-- A name occurs before those behind it do. -/
theorem pairwise_distinct : ∀ names seen : List Text,
    (distinct seen names).Pairwise fun first second => names.idxOf first < names.idxOf second
  | [], _ => .nil
  | name :: names, seen => by
      have behind {seen : List Text} (isSeen : name ∈ seen) :
          (distinct seen names).Pairwise fun first second =>
            (name :: names).idxOf first < (name :: names).idxOf second := by
        have differ {other : Text} (mem : other ∈ distinct seen names) : name ≠ other :=
          fun same => (mem_distinct.1 mem).2 (same ▸ isSeen)
        refine (pairwise_distinct names seen).imp_of_mem fun isFirst isSecond before => ?_
        rw [List.idxOf_cons_ne _ (differ isFirst), List.idxOf_cons_ne _ (differ isSecond)]
        exact Nat.succ_lt_succ before
      rw [distinct]
      split
      · rename_i isSeen
        exact behind (List.contains_iff_mem.1 isSeen)
      · refine List.pairwise_cons.2 ⟨fun second mem => ?_, behind List.mem_cons_self⟩
        have differ : name ≠ second :=
          fun same => (mem_distinct.1 mem).2 (same ▸ List.mem_cons_self)
        rw [List.idxOf_cons_self, List.idxOf_cons_ne _ differ]
        exact Nat.succ_pos _

end Frame

/-! ### First mentions -/

section

variable {name other : Text}

/-- What comes first in two lists comes first in the first of them, if it is there. -/
theorem List.idxOf_lt_of_append {front back : List Text} (isFront : name ∈ front)
    (before : (front ++ back).idxOf name < (front ++ back).idxOf other) :
    front.idxOf name < front.idxOf other := by
  rw [List.idxOf_append_of_mem isFront] at before
  by_cases isFront' : other ∈ front
  · rwa [List.idxOf_append_of_mem isFront'] at before
  · rw [List.idxOf_of_notMem isFront']
    exact List.idxOf_lt_length_of_mem isFront

/-- What comes first in two lists, and not in the first of them, comes first in the second. -/
theorem List.idxOf_lt_of_append' {front back : List Text} (notFront : name ∉ front)
    (before : (front ++ back).idxOf name < (front ++ back).idxOf other) :
    other ∉ front ∧ back.idxOf name < back.idxOf other := by
  rw [List.idxOf_append_of_notMem notFront] at before
  by_cases isFront : other ∈ front
  · rw [List.idxOf_append_of_mem isFront] at before
    have := List.idxOf_lt_length_of_mem isFront
    omega
  · rw [List.idxOf_append_of_notMem isFront] at before
    exact ⟨isFront, by omega⟩

/-- Among operands, a name that comes first has the first place. -/
theorem Operand.exists_place : ∀ {operands : List Operand},
    (operands.filterMap Operand.name?).idxOf name < (operands.filterMap Operand.name?).idxOf other →
      ∃ place : Nat, operands[place]? = some (Operand.var name) ∧
        ∀ place' : Nat, operands[place']? = some (Operand.var other) → place < place'
  | [], before => absurd before (Nat.lt_irrefl _)
  | operand :: operands, before => by
      have later (first : operand ≠ .var other)
          (before : (operands.filterMap Operand.name?).idxOf name <
            (operands.filterMap Operand.name?).idxOf other) :
          ∃ place : Nat, (operand :: operands)[place]? = some (Operand.var name) ∧
            ∀ place' : Nat, (operand :: operands)[place']? = some (Operand.var other) →
              place < place' := by
        rcases exists_place before with ⟨place, found, before⟩
        refine ⟨place + 1, found, fun place' found' => ?_⟩
        cases place' with
        | zero => exact absurd (Option.some.inj found') first
        | succ place' => exact Nat.succ_lt_succ (before place' found')
      cases isName : operand.name? with
      | none =>
          rw [List.filterMap_cons_none isName] at before
          exact later (fun same => by rw [same] at isName; cases isName) before
      | some own =>
          rw [List.filterMap_cons_some isName] at before
          obtain rfl := name?_eq_some.1 isName
          have notOther : own ≠ other := by
            rintro rfl
            rw [List.idxOf_cons_self] at before
            exact absurd before (Nat.not_lt_zero _)
          by_cases isFirst : own = name
          · subst isFirst
            refine ⟨0, rfl, fun place' found' => Nat.pos_of_ne_zero ?_⟩
            rintro rfl
            cases found'
            exact notOther rfl
          · rw [List.idxOf_cons_ne _ isFirst, List.idxOf_cons_ne _ notOther] at before
            exact later (fun same => notOther (Operand.var.inj same)) (Nat.lt_of_succ_lt_succ before)

/-- In code, a name that comes first is mentioned first, in an earlier line or at an earlier place. -/
theorem Instruction.exists_line : ∀ {body : List Instruction},
    (body.flatMap names).idxOf name < (body.flatMap names).idxOf other →
      ∃ line place : Nat, (∃ instruction : Instruction, body[line]? = some instruction ∧
          instruction.MentionsAt name place) ∧
        ∀ line' place' : Nat, (∃ instruction : Instruction, body[line']? = some instruction ∧
          instruction.MentionsAt other place') → line < line' ∨ line = line' ∧ place < place'
  | [], before => absurd before (Nat.lt_irrefl _)
  | instruction :: body, before => by
      rw [List.flatMap_cons] at before
      by_cases isHere : name ∈ instruction.names
      · rcases Operand.exists_place (List.idxOf_lt_of_append isHere before) with
          ⟨place, found, before⟩
        refine ⟨0, place, ⟨instruction, rfl, mentionsAt_iff.2 found⟩, ?_⟩
        rintro (_ | line') place' ⟨instruction', isLine, mentions⟩
        · cases isLine
          exact .inr ⟨rfl, before place' (mentionsAt_iff.1 mentions)⟩
        · exact .inl (Nat.succ_pos line')
      · rcases List.idxOf_lt_of_append' isHere before with ⟨notHere, before⟩
        rcases exists_line before with ⟨line, place, mentions, before⟩
        refine ⟨line + 1, place, mentions, ?_⟩
        rintro (_ | line') place' ⟨instruction', isLine, mentions'⟩
        · cases isLine
          exact absurd (mem_names.2 ⟨place', mentions'⟩) notHere
        · have := before line' place' ⟨instruction', isLine, mentions'⟩
          omega

end

namespace Function

/-- A name that comes first among the names of a function is mentioned first. -/
theorem mentionsBefore_of_idxOf_lt {function : Function} {name other : Text}
    (before : function.names.idxOf name < function.names.idxOf other) :
    function.MentionsBefore name other := by
  rw [names] at before
  by_cases isParam : name ∈ function.params
  · have before := List.idxOf_lt_of_append isParam before
    refine ⟨0, function.params.idxOf name, List.getElem?_idxOf isParam, ?_⟩
    rintro (_ | line') place' mentions
    · have mem : other ∈ function.params := List.mem_of_getElem? mentions
      have early : other ∈ function.params.take (place' + 1) :=
        List.mem_of_getElem? ((List.getElem?_take_of_lt (Nat.lt_succ_self place')).trans mentions)
      have := (List.mem_take_iff_idxOf_lt mem).1 early
      exact .inr ⟨rfl, by omega⟩
    · exact .inl (Nat.succ_pos line')
  · rcases List.idxOf_lt_of_append' isParam before with ⟨notParam, before⟩
    rcases Instruction.exists_line before with ⟨line, place, mentions, before⟩
    refine ⟨line + 1, place, mentions, ?_⟩
    rintro (_ | line') place' mentions'
    · exact absurd (List.mem_of_getElem? mentions') notParam
    · have := before line' place' mentions'
      omega

/-- Without repetitions, the names of a function stand in the order of their first mentions. -/
theorem mentionsBefore_names (function : Function) :
    function.names.eraseDups.Pairwise function.MentionsBefore := by
  rw [← Frame.distinct_nil]
  exact (Frame.pairwise_distinct function.names []).imp mentionsBefore_of_idxOf_lt

end Function

end SubsetC
