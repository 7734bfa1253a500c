import SubsetC.Instruction
import SubsetC.StaticItem

/-!
# Lowered compilation units

A lowered compilation unit is a list of functions, static objects and read-only constants.
-/

namespace SubsetC

structure Function where
  name : Text
  /-- Whether other compilation units see the function. -/
  isGlobal : Bool
  /-- The internal names of the parameters. -/
  params : List Text
  body : Code
  deriving DecidableEq, Repr

/-- An object that lives as long as the program. -/
structure StaticObject where
  /-- The internal name. -/
  name : Text
  /-- Whether other compilation units see the object. -/
  isGlobal : Bool
  alignment : Size
  type : CType
  /-- What it holds at first. -/
  items : List StaticItem
  deriving DecidableEq, Repr

structure StaticConstant where
  /-- The internal name. -/
  name : Text
  alignment : Size
  type : CType
  item : StaticItem
  deriving DecidableEq, Repr

/-- What stands at the top level of a lowered compilation unit. -/
inductive TopLevel where
  | function (function : Function)
  | object (object : StaticObject)
  | constant (constant : StaticConstant)
  deriving DecidableEq, Repr

/-- A lowered compilation unit. -/
abbrev LinearProgram := List TopLevel

/-- The mark of what other compilation units see. -/
def globalMark (isGlobal : Bool) : Text := if isGlobal then "global " else ""

/-- A line of a function's code; labels are not indented. -/
def Instruction.line : Instruction → Text
  | .label name => name ++ ":\n"
  | instruction => "    " ++ instruction.text ++ "\n"

def Function.text (function : Function) : Text :=
  globalMark function.isGlobal ++ "function " ++ function.name ++ "(" ++
    Text.commas function.params ++ ") \x7b\n" ++ function.body.flatMap Instruction.line ++ "\x7d\n"

def StaticObject.text (object : StaticObject) : Text :=
  globalMark object.isGlobal ++ "static " ++ object.name ++ ": " ++ object.type.text ++
    " align " ++ Text.ofInt object.alignment ++ " = \x7b" ++
    Text.commas (object.items.map StaticItem.text) ++ "\x7d\n"

def StaticConstant.text (constant : StaticConstant) : Text :=
  "static constant " ++ constant.name ++ ": " ++ constant.type.text ++ " align " ++
    Text.ofInt constant.alignment ++ " = " ++ constant.item.text ++ "\n"

namespace TopLevel

def text : TopLevel → Text
  | .function item => item.text
  | .object item => item.text
  | .constant item => item.text

def name : TopLevel → Text
  | .function item => item.name
  | .object item => item.name
  | .constant item => item.name

def function? : TopLevel → Option Function
  | .function item => some item
  | _ => none

end TopLevel

namespace LinearProgram

def functions (program : LinearProgram) : List Function := program.filterMap TopLevel.function?

/-- The text, with an empty line between items. -/
def text (program : LinearProgram) : Text :=
  Text.join "\n" (program.map TopLevel.text)

/-- Whether every instruction has a text. -/
def hasText (program : LinearProgram) : Bool :=
  program.functions.all fun function => function.body.all Instruction.hasText

end LinearProgram

end SubsetC
