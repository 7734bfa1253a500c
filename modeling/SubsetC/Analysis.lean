import SubsetC.Analysis.Scope
import SubsetC.Analysis.Statement
import SubsetC.Analysis.Target

/-!
# Analysis

Analysis decides whether a parsed compilation unit has a meaning, and makes that meaning explicit
in the tree: names are resolved, jumps are bound to their targets, and then types are checked.
-/

namespace SubsetC

/-- The analysed compilation unit. Afterwards every object has a unique internal name with a
symbol, and every expression has a type. -/
def Program.analyze (program : Program) : Pass Program := do
  let program ← program.resolve
  let program ← program.label
  program.check

end SubsetC
