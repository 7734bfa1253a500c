import SubsetC.Symbol

/-!
# Compilation unit context

What all passes over one compilation unit share: the counter of tree nodes, the counter behind
fresh names, and the symbol table.
-/

namespace SubsetC

/-- The state shared by the passes over one compilation unit. -/
structure Context where
  /-- The number of the newest tree node; numbers start at one. -/
  lastId : Nat
  /-- The number the next fresh name takes. -/
  nextName : Nat
  /-- The symbols known so far. -/
  symbols : SymbolTable
  deriving DecidableEq, Repr

namespace Context

/-- The context before parsing. -/
def empty : Context := ⟨0, 0, .empty⟩

/-- The number for a new tree node. -/
def newId (context : Context) : Nat × Context :=
  (context.lastId + 1, { context with lastId := context.lastId + 1 })

/-- A base followed by a dot and a fresh number, such as `x.3`. -/
def uniqueName (context : Context) (base : Text) : Text × Context :=
  (base ++ "." ++ Text.ofNat context.nextName, { context with nextName := context.nextName + 1 })

/-- A stem and a number, such as `loop_4`. -/
def labelText (stem : Text) (number : Nat) : Text :=
  stem ++ "_" ++ Text.ofNat number

def newLabel (context : Context) (stem : Text) : Text × Context :=
  (labelText stem context.nextName, { context with nextName := context.nextName + 1 })

/-- Labels for several stems that share one fresh number. -/
def newLabels (context : Context) (stems : List Text) : List Text × Context :=
  (stems.map (labelText · context.nextName), { context with nextName := context.nextName + 1 })

end Context

end SubsetC
