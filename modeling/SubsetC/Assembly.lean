import SubsetC.Frame

/-!
# Assembly

The assembled form of a compilation unit keeps the code of its functions and adds their frames.
-/

namespace SubsetC

structure FramedFunction where
  function : Function
  frame : Frame
  deriving DecidableEq, Repr

/-- What stands at the top level of an assembled compilation unit. -/
inductive AssemblyItem where
  | function (function : FramedFunction)
  | object (object : StaticObject)
  | constant (constant : StaticConstant)
  deriving DecidableEq, Repr

/-- An assembled compilation unit. -/
abbrev Assembly := List AssemblyItem

/-- An instruction on a line of its own, with all fields by name. -/
def Instruction.debugLine (instruction : Instruction) : Text :=
  "    " ++ instruction.debugText ++ "\n"

/-- The text of a function's code with all fields by name. -/
def Function.assemblyText (function : Function) : Text :=
  globalMark function.isGlobal ++ "function " ++ function.name ++ "\n" ++
    function.body.flatMap Instruction.debugLine

/-- An item of an initializer on a line of its own. -/
def StaticItem.line (item : StaticItem) : Text := "    " ++ item.text ++ "\n"

/-- The text of a static object with its items line by line. -/
def StaticObject.assemblyText (object : StaticObject) : Text :=
  globalMark object.isGlobal ++ "[" ++ Text.ofInt object.alignment ++ "] static " ++ object.name ++
    " =\n" ++ object.items.flatMap StaticItem.line

/-- The text of a read-only constant with its item on a line of its own. -/
def StaticConstant.assemblyText (constant : StaticConstant) : Text :=
  "[" ++ Text.ofInt constant.alignment ++ "] constant " ++ constant.name ++ " =\n" ++
    constant.item.line

namespace AssemblyItem

def text : AssemblyItem → Text
  | .function item => item.function.assemblyText
  | .object item => item.assemblyText
  | .constant item => item.assemblyText

def function? : AssemblyItem → Option FramedFunction
  | .function item => some item
  | _ => none

end AssemblyItem

/-- The assembled form of an item, given the symbols. -/
def TopLevel.assemble (table : SymbolTable) : TopLevel → Except Failure AssemblyItem
  | .function item => do pure (.function ⟨item, ← item.frame table⟩)
  | .object item => pure (.object item)
  | .constant item => pure (.constant item)

/-- The assembled form of a lowered compilation unit, given the symbols. -/
def LinearProgram.assemble (table : SymbolTable) (program : LinearProgram) :
    Except Failure Assembly :=
  program.mapM (TopLevel.assemble table)

namespace Assembly

def functions (assembly : Assembly) : List FramedFunction :=
  assembly.filterMap AssemblyItem.function?

/-- The text, with an empty line between items. -/
def text (assembly : Assembly) : Text :=
  Text.join "\n" (assembly.map AssemblyItem.text)

/-- The texts of the frames, in order. -/
def frameTexts (assembly : Assembly) : List Text :=
  assembly.functions.map fun item => item.frame.text item.function.name

end Assembly

end SubsetC
