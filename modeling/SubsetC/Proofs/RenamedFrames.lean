import SubsetC.Assembly
import SubsetC.Proofs.RenamedCode

/-!
# Renamed code and its frames

A frame has a slot for each name, in order of first mention. Names that stay different when they
change are mentioned first in the same places, so the slots lie where they lay. The main statement is
`LinearProgram.assemble_mirrored`.
-/

namespace SubsetC

/-! ### Frames with changed names -/

section

variable (change : Text → Text)

def Slot.rename (slot : Slot) : Slot := { slot with name := change slot.name }

/-- The frame with the names of its slots changed. -/
def Frame.rename (frame : Frame) : Frame :=
  { frame with slots := frame.slots.map (Slot.rename change) }

/-- The item with the names in it changed. -/
def AssemblyItem.rename : AssemblyItem → AssemblyItem
  | .function item => .function ⟨item.function.rename change, item.frame.rename change⟩
  | .object item => .object (item.rename change)
  | .constant item => .constant (item.rename change)

/-- The assembled compilation unit with its names changed. -/
def Assembly.rename (assembly : Assembly) : Assembly := assembly.map (AssemblyItem.rename change)

end

/-! ### Results with changed names -/

/-- A computation with changed names does what another one does, or fails alike. -/
def Failure.Mirrors {α β : Type} (result : Except Failure α) (renamed : Except Failure β)
    (adapt : α → β) : Prop :=
  match result with
  | .ok made => renamed = .ok (adapt made)
  | .error failure => ∃ other, renamed = .error other ∧ other.Resembles failure

namespace Failure.Mirrors

variable {α β γ δ : Type} {result : Except Failure α} {renamed : Except Failure β} {adapt : α → β}

theorem pure {made : α} {other : β} (same : other = adapt made) :
    Mirrors (Pure.pure made) (Pure.pure other) adapt :=
  congrArg Except.ok same

theorem same (result : Except Failure α) : Mirrors result result id := by
  cases result with
  | ok made => exact rfl
  | error failure => exact ⟨failure, rfl, .refl failure⟩

theorem bind {next : α → Except Failure γ} {renamedNext : β → Except Failure δ} {finish : γ → δ}
    (first : Mirrors result renamed adapt)
    (rest : ∀ made, Mirrors (next made) (renamedNext (adapt made)) finish) :
    Mirrors (result >>= next) (renamed >>= renamedNext) finish := by
  cases result with
  | ok made =>
      have renames : renamed = .ok (adapt made) := first
      rw [renames]
      exact rest made
  | error failure =>
      rcases first with ⟨other, fails, alike⟩
      rw [fails]
      exact ⟨other, rfl, alike⟩

/-- What mirrors a computation does so as a step of a pass. -/
theorem lift {names : NameChange} (mirrors : Mirrors result renamed adapt) :
    Pass.Mirrored names (liftM result : Pass α) (liftM renamed) adapt := by
  intro context _
  cases result with
  | ok made =>
      have renames : renamed = .ok (adapt made) := mirrors
      rw [renames]
      exact ⟨Nat.le_refl _, fun _ => rfl⟩
  | error failure =>
      rcases mirrors with ⟨other, fails, alike⟩
      rw [fails]
      exact fun _ => ⟨other, rfl, alike⟩

end Failure.Mirrors

open Failure (Mirrors)

/-! ### Names of functions -/

variable {change : Text → Text}

theorem Instruction.names_rename (instruction : Instruction) :
    (instruction.rename change).names = instruction.names.map change := by
  have operands : (instruction.rename change).operands =
      instruction.operands.map (Operand.rename change) := by
    cases instruction <;> simp [rename, Instruction.operands, Operand.rename]
  have name (operand : Operand) : (operand.rename change).name? = operand.name?.map change := by
    cases operand <;> rfl
  rw [names, names, operands, List.filterMap_map, List.map_filterMap]
  exact congrArg (List.filterMap · _) (funext name)

theorem Function.names_rename (function : Function) :
    (function.rename change).names = function.names.map change := by
  simp only [names, rename, Code.rename, List.flatMap_map, List.map_append, List.map_flatMap,
    Instruction.names_rename]

/-! ### Frames -/

namespace Frame

variable (injective : Function.Injective change)

include injective

theorem distinct_map : ∀ names seen : List Text,
    distinct (seen.map change) (names.map change) = (distinct seen names).map change
  | [], _ => rfl
  | name :: names, seen => by
      have isSeen : (seen.map change).contains (change name) = seen.contains name := by
        simp [injective.eq_iff]
      have rest := distinct_map names (name :: seen)
      rw [List.map_cons, distinct, distinct, isSeen, distinct_map names seen]
      split
      · rfl
      · rw [List.map_cons, ← rest, List.map_cons]

omit injective in
theorem addSymbol_mirrored (frame : Frame) (symbol : Symbol) :
    Mirrors (frame.addSymbol symbol) ((frame.rename change).addSymbol (symbol.rename change))
      (Frame.rename change) := by
  rcases symbol with ⟨name, type, _ | _ | _ | _⟩
  case automatic =>
    exact (Mirrors.same _).bind fun _ => .pure (by simp [rename, Slot.rename, Symbol.rename])
  all_goals exact .pure rfl

theorem addNames_mirrored (table : SymbolTable) : ∀ (names : List Text) (frame : Frame),
    Mirrors (addNames table frame names)
      (addNames (table.rename change) (frame.rename change) (names.map change))
      (Frame.rename change)
  | [], _ => .pure rfl
  | name :: names, frame => by
      rw [List.map_cons, addNames, addNames, SymbolTable.find?_rename injective]
      cases table.find? name with
      | none => exact ⟨.internal (.noSymbol (change name)), rfl, rfl, rfl, rfl⟩
      | some symbol =>
          exact (addSymbol_mirrored frame symbol).bind fun frame =>
            addNames_mirrored table names frame

end Frame

variable (injective : Function.Injective change)

include injective

theorem Function.frame_mirrored (table : SymbolTable) (function : Function) :
    Mirrors (function.frame table) ((function.rename change).frame (table.rename change))
      (Frame.rename change) := by
  have places := Frame.addNames_mirrored injective table (Frame.distinct [] function.names) ⟨[], 0⟩
  rw [← Frame.distinct_map injective, ← Function.names_rename] at places
  exact places.bind fun frame => (Mirrors.same _).bind fun _ => .pure rfl

/-- The frames of code with other names are those of the code with the other names. -/
theorem LinearProgram.assemble_mirrored (table : SymbolTable) : ∀ program : LinearProgram,
    Mirrors (program.assemble table) ((program.rename change).assemble (table.rename change))
      (Assembly.rename change)
  | [] => .pure rfl
  | item :: items => by
      have first : Mirrors (item.assemble table)
          ((item.rename change).assemble (table.rename change)) (AssemblyItem.rename change) := by
        cases item with
        | function item =>
            exact (Function.frame_mirrored injective table item).bind fun _ => .pure rfl
        | object | constant => exact .pure rfl
      have rest : Mirrors (items.mapM (TopLevel.assemble table))
          ((LinearProgram.rename change items).mapM (TopLevel.assemble (table.rename change)))
          (Assembly.rename change) := assemble_mirrored table items
      rw [rename, List.map_cons, assemble, assemble, List.mapM_cons, List.mapM_cons]
      exact first.bind fun _ => rest.bind fun _ => .pure rfl

end SubsetC
