import SubsetC.Failure
import SubsetC.Symbol
import SubsetC.TopLevel

/-!
# Stack frames

The frame of a function has a slot for each of its automatic objects and temporaries: first the
parameters, then what its code mentions, in order of first mention. Slots lie below the base of
the frame, so their offsets are negative.
-/

namespace SubsetC

/-- The home of an object in a frame. -/
structure Slot where
  name : Text
  /-- The place relative to the base of the frame. -/
  offset : Size
  /-- The number of bytes. -/
  size : Size
  deriving DecidableEq, Repr

/-- The memory of a call of a function. -/
structure Frame where
  /-- The slots from the base down. -/
  slots : List Slot
  /-- The number of bytes, a multiple of the alignment of frames. -/
  size : Size
  deriving DecidableEq, Repr

/-- The line that shows a slot. -/
def Slot.line (slot : Slot) : Text :=
  "    " ++ slot.name ++ ": " ++ Text.ofInt slot.offset ++ "(" ++ Text.ofInt slot.size ++ ")\n"

namespace Frame

def frameAlignment : Size := 16

def find? (frame : Frame) (name : Text) : Option Slot :=
  frame.slots.find? fun slot => slot.name = name

/-- The least aligned size that is not below a size. -/
def align (size alignment : Size) : Except Failure Size :=
  match Size.alignUp? size alignment with
  | some aligned => pure aligned
  | none => throw (.fault .alignment)

/-- The slots and the size of a frame under construction, with a slot for a symbol that is an
automatic object. Other symbols live outside the frame. -/
def addSymbol (frame : Frame) (symbol : Symbol) : Except Failure Frame :=
  match symbol.storage with
  | .automatic => do
    let size ← align (Size.add frame.size symbol.type.size) symbol.type.alignment
    pure ⟨frame.slots ++ [⟨symbol.name, Size.sub 0 size, symbol.type.size⟩], size⟩
  | _ => pure frame

/-- The frame under construction with slots for names, none of which has been seen before. -/
def addNames (table : SymbolTable) (frame : Frame) : List Text → Except Failure Frame
  | [] => pure frame
  | name :: names =>
    match table.find? name with
    | none => throw (.internal (.noSymbol name))
    | some symbol => do
      let frame ← frame.addSymbol symbol
      addNames table frame names

/-- The names without repetitions, in order of their first occurrence, leaving out those seen
before. -/
def distinct (seen : List Text) : List Text → List Text
  | [] => []
  | name :: names =>
    if seen.contains name then distinct seen names else name :: distinct (name :: seen) names

/-- The frame with its size rounded up. -/
def close (frame : Frame) : Except Failure Frame := do
  pure { frame with size := ← align frame.size frameAlignment }

/-- The text of the frame of a function with a name. -/
def text (name : Text) (frame : Frame) : Text :=
  "frame " ++ name ++ " size=" ++ Text.ofInt frame.size ++ "\n" ++
    frame.slots.flatMap Slot.line

end Frame

/-- The names a function mentions: its parameters and then those in its code. -/
def Function.names (function : Function) : List Text :=
  function.params ++ function.body.flatMap Instruction.names

def Function.frame (table : SymbolTable) (function : Function) : Except Failure Frame := do
  let frame ← Frame.addNames table ⟨[], 0⟩ (Frame.distinct [] function.names)
  frame.close

end SubsetC
