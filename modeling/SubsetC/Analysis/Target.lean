import SubsetC.Pass
import SubsetC.Analysis.Fold

/-!
# Jump targets

Labelling gives every loop and switch a fresh label, binds each break and continue to the label of
the statement it leaves or continues, and collects the cases of each switch in source order.
-/

namespace SubsetC

/-- Where jumps go at a place in a function. -/
structure Targets where
  /-- The innermost loop or switch. -/
  breakLabel : Option Text
  /-- The innermost loop. -/
  continueLabel : Option Text
  switchLabel : Option Text
  deriving DecidableEq, Repr

namespace Targets

/-- Outside loops and switches. -/
def none : Targets := ⟨.none, .none, .none⟩

/-- Inside a loop with a label. -/
def inLoop (targets : Targets) (label : Text) : Targets :=
  { targets with breakLabel := some label, continueLabel := some label }

/-- Inside a switch with a label. -/
def inSwitch (targets : Targets) (label : Text) : Targets :=
  { targets with breakLabel := some label, switchLabel := some label }

/-- The label of the given number of cases of a switch. -/
def caseLabel (switchLabel : Text) (number : Nat) : Text :=
  "case_" ++ switchLabel ++ "_" ++ Text.ofNat number

/-- The label of the default case of a switch. -/
def defaultLabel (switchLabel : Text) : Text :=
  "default_" ++ switchLabel

end Targets

/-- A new case of the innermost switch, given the cases before it. -/
def SwitchCase.ofValue (targets : Targets) (loc : Loc) (value : Expr) (cases : List SwitchCase) :
    Pass SwitchCase :=
  match targets.switchLabel with
  | none => Pass.flowError loc.span .caseOutsideSwitch
  | some switchLabel =>
    match value.fold? with
    | none => Pass.flowError value.span .caseNotConstant
    | some constant =>
      pure ⟨some constant, Targets.caseLabel switchLabel cases.length, value.span⟩

/-- The default case of the innermost switch, given the cases before it. -/
def SwitchCase.ofDefault (targets : Targets) (loc : Loc) (cases : List SwitchCase) :
    Pass SwitchCase :=
  match targets.switchLabel with
  | none => Pass.flowError loc.span .defaultOutsideSwitch
  | some switchLabel =>
    if cases.any SwitchCase.isDefault then Pass.flowError loc.span .multipleDefaults
    else pure ⟨none, Targets.defaultLabel switchLabel, loc.span⟩

mutual

/-- The statement with labels, and the cases of the innermost switch after it, given those before
it. -/
def Stmt.label (targets : Targets) (cases : List SwitchCase) :
    Stmt → Pass (Stmt × List SwitchCase)
  | .ifThen loc condition thenBranch => do
    let (thenBranch, cases) ← thenBranch.label targets cases
    pure (.ifThen loc condition thenBranch, cases)
  | .ifElse loc condition thenBranch elseBranch => do
    let (thenBranch, cases) ← thenBranch.label targets cases
    let (elseBranch, cases) ← elseBranch.label targets cases
    pure (.ifElse loc condition thenBranch elseBranch, cases)
  | .block loc items => do
    let (items, cases) ← Item.labelList targets cases items
    pure (.block loc items, cases)
  | .whileLoop loc _ condition body => do
    let label ← Pass.newLabel "loop"
    let (body, cases) ← body.label (targets.inLoop label) cases
    pure (.whileLoop loc (some label) condition body, cases)
  | .doWhile loc _ body condition => do
    let label ← Pass.newLabel "loop"
    let (body, cases) ← body.label (targets.inLoop label) cases
    pure (.doWhile loc (some label) body condition, cases)
  | .forLoop loc _ init condition post body => do
    let label ← Pass.newLabel "loop"
    let (body, cases) ← body.label (targets.inLoop label) cases
    pure (.forLoop loc (some label) init condition post body, cases)
  | .switch loc _ value body _ => do
    let label ← Pass.newLabel "loop"
    let (body, own) ← body.label (targets.inSwitch label) []
    pure (.switch loc (some label) value body own, cases)
  | .case loc _ value body => do
    let case ← SwitchCase.ofValue targets loc value cases
    let (body, cases) ← body.label targets (cases ++ [case])
    pure (.case loc (some case.label) value body, cases)
  | .default loc _ body => do
    let case ← SwitchCase.ofDefault targets loc cases
    let (body, cases) ← body.label targets (cases ++ [case])
    pure (.default loc (some case.label) body, cases)
  | .break loc _ =>
    match targets.breakLabel with
    | some label => pure (.break loc (some label), cases)
    | none => Pass.flowError loc.span .breakOutsideLoop
  | .continue loc _ =>
    match targets.continueLabel with
    | some label => pure (.continue loc (some label), cases)
    | none => Pass.flowError loc.span .continueOutsideLoop
  | .ret loc value => pure (.ret loc value, cases)
  | .expr loc value => pure (.expr loc value, cases)
  | .null loc => pure (.null loc, cases)

/-- The declaration with labels in the body of a function definition, which no jump leaves. -/
def Decl.label : Decl → Pass Decl
  | .object decl => pure (.object decl)
  | .function decl => pure (.function decl)
  | .definition decl bodyLoc body => do
    let (body, _) ← Item.labelList .none [] body
    pure (.definition decl bodyLoc body)

/-- The items of a block with labels, and the cases of the innermost switch after them. -/
def Item.labelList (targets : Targets) (cases : List SwitchCase) :
    List Item → Pass (List Item × List SwitchCase)
  | [] => pure ([], cases)
  | .stmt stmt :: items => do
    let (stmt, cases) ← stmt.label targets cases
    let (items, cases) ← Item.labelList targets cases items
    pure (.stmt stmt :: items, cases)
  | .decl decl :: items => do
    let decl ← decl.label
    let (items, cases) ← Item.labelList targets cases items
    pure (.decl decl :: items, cases)

end

/-- The compilation unit with labels. -/
def Program.label (program : Program) : Pass Program := program.mapM Decl.label

end SubsetC
