import SubsetC.Text

/-!
# Operators

The operators that source expressions and instructions share, and their C spelling.
-/

namespace SubsetC

/-- The arithmetic, bitwise and shift operators. -/
inductive ArithOp where
  | add
  | sub
  | mul
  | div
  | rem
  | bitAnd
  | bitOr
  | bitXor
  | shiftLeft
  | shiftRight
  deriving DecidableEq, Repr

namespace ArithOp

def text : ArithOp → Text
  | .add => "+"
  | .sub => "-"
  | .mul => "*"
  | .div => "/"
  | .rem => "%"
  | .bitAnd => "&"
  | .bitOr => "|"
  | .bitXor => "^"
  | .shiftLeft => "<<"
  | .shiftRight => ">>"

def isShift : ArithOp → Bool
  | .shiftLeft | .shiftRight => true
  | _ => false

/-- Whether the operator takes integers only: remainder and the bitwise operators. -/
def isIntegral : ArithOp → Bool
  | .rem | .bitAnd | .bitOr | .bitXor => true
  | _ => false

end ArithOp

inductive CompareOp where
  | less
  | lessEqual
  | greater
  | greaterEqual
  | equal
  | notEqual
  deriving DecidableEq, Repr

namespace CompareOp

def text : CompareOp → Text
  | .less => "<"
  | .lessEqual => "<="
  | .greater => ">"
  | .greaterEqual => ">="
  | .equal => "=="
  | .notEqual => "!="

/-- Whether the operator only tells equal from different. -/
def isEquality : CompareOp → Bool
  | .equal | .notEqual => true
  | _ => false

end CompareOp

/-- The operators that evaluate their right operand only if needed. -/
inductive LogicOp where
  | and
  | or
  deriving DecidableEq, Repr

def LogicOp.text : LogicOp → Text
  | .and => "&&"
  | .or => "||"

inductive BinaryOp where
  | arith (op : ArithOp)
  | compare (op : CompareOp)
  | logic (op : LogicOp)
  deriving DecidableEq, Repr

def BinaryOp.text : BinaryOp → Text
  | .arith op => op.text
  | .compare op => op.text
  | .logic op => op.text

inductive UnaryOp where
  | negate
  | not
  | complement
  | plus
  deriving DecidableEq, Repr

def UnaryOp.text : UnaryOp → Text
  | .negate => "-"
  | .not => "!"
  | .complement => "~"
  | .plus => "+"

/-- The assignment operators: plain, or with an operation. -/
inductive AssignOp where
  | plain
  | compound (op : ArithOp)
  deriving DecidableEq, Repr

def AssignOp.text : AssignOp → Text
  | .plain => "="
  | .compound op => op.text ++ "="

/-- Stepping by one, up or down. -/
inductive StepOp where
  | increment
  | decrement
  deriving DecidableEq, Repr

def StepOp.text : StepOp → Text
  | .increment => "++"
  | .decrement => "--"

/-- Whether a step yields the value after it (`++x`) or before it (`x++`). -/
inductive StepForm where
  | before
  | after
  deriving DecidableEq, Repr

end SubsetC
