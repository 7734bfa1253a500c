import SubsetC.Span

/-!
# Diagnostics

A diagnostic has a kind, a code that tells some causes apart, a span and a message.
-/

namespace SubsetC

/-- What stage of the compiler complains, or that the compiler itself is at fault. -/
inductive DiagnosticKind where
  | parse
  | name
  | type
  | controlFlow
  | internal
  /-- A kind beyond the named ones. -/
  | unnamed
  deriving DecidableEq, Repr

namespace DiagnosticKind

/-- The named kinds in the order of their numbers. -/
def all : List DiagnosticKind := [.parse, .name, .type, .controlFlow, .internal]

/-- The kind with a number; numbers start at zero. -/
def ofNumber? : Int → Option DiagnosticKind
  | .ofNat number => some (all.getD number .unnamed)
  | .negSucc _ => none

def text : DiagnosticKind → Text
  | .parse => "parse error"
  | .name => "name error"
  | .type => "type error"
  | .controlFlow => "control flow error"
  | .internal => "internal error"
  | .unnamed => "?"

end DiagnosticKind

/-- The cause of a name or control flow diagnostic, as far as tools tell it apart. -/
inductive DiagnosticCode where
  | none
  | undeclared
  | redeclared
  | linkageConflict
  | caseOutsideSwitch
  | duplicateCase
  | breakOutsideLoop
  | continueOutsideLoop
  /-- A code beyond the named ones. -/
  | unnamed
  deriving DecidableEq, Repr

namespace DiagnosticCode

/-- The named codes in the order of their numbers. -/
def all : List DiagnosticCode :=
  [.none, .undeclared, .redeclared, .linkageConflict, .caseOutsideSwitch, .duplicateCase,
    .breakOutsideLoop, .continueOutsideLoop]

/-- The code with a number; numbers start at zero. -/
def ofNumber? : Int → Option DiagnosticCode
  | .ofNat number => some (all.getD number .unnamed)
  | .negSucc _ => Option.none

def text : DiagnosticCode → Text
  | .none => ""
  | .undeclared => "undeclared"
  | .redeclared => "redeclared"
  | .linkageConflict => "linkage_conflict"
  | .caseOutsideSwitch => "case_outside_switch"
  | .duplicateCase => "duplicate_case"
  | .breakOutsideLoop => "break_outside_loop"
  | .continueOutsideLoop => "continue_outside_loop"
  | .unnamed => "?"

end DiagnosticCode

/-- A message to the user about a place in the source. -/
structure Diagnostic where
  kind : DiagnosticKind
  /-- The cause, as far as tools tell it apart. -/
  code : DiagnosticCode
  /-- The place the complaint is about. -/
  span : Span
  message : Text
  deriving DecidableEq, Repr

/-- The line that shows a diagnostic. -/
def Diagnostic.text (diagnostic : Diagnostic) : Text :=
  diagnostic.span.text ++ ": " ++ diagnostic.kind.text ++ ": " ++ diagnostic.message

end SubsetC
