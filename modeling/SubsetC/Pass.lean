import SubsetC.Failure
import SubsetC.Context
import SubsetC.Ast

/-!
# Passes

A pass over a compilation unit works on the shared context and may fail. Failing discards the
context, since nothing goes on after a failure.
-/

namespace SubsetC

/-- A step of a pass over a compilation unit. -/
abbrev Pass := StateT Context (Except Failure)

namespace Pass

/-- Fails with a name error at a place. -/
def nameError {α : Type} (span : Span) (error : NameError) : Pass α :=
  throw (.user span (.name error))

/-- Fails with a type error at a place. -/
def typeError {α : Type} (span : Span) (error : TypeError) : Pass α :=
  throw (.user span (.type error))

/-- Fails with a control flow error at a place. -/
def flowError {α : Type} (span : Span) (error : FlowError) : Pass α :=
  throw (.user span (.flow error))

/-- A new node at a place. -/
def newLoc (span : Span) : Pass Loc := do
  pure ⟨← modifyGet Context.newId, span⟩

/-- A fresh name made from a base. -/
def uniqueName (base : Text) : Pass Text :=
  modifyGet fun context => context.uniqueName base

/-- A fresh label made from a stem. -/
def newLabel (stem : Text) : Pass Text :=
  modifyGet fun context => context.newLabel stem

/-- Two fresh labels that share their number. -/
def newLabelPair (first second : Text) : Pass (Text × Text) :=
  modifyGet fun context =>
    ((Context.labelText first context.nextName, Context.labelText second context.nextName),
      { context with nextName := context.nextName + 1 })

def findSymbol? (name : Text) : Pass (Option Symbol) := do
  pure ((← get).symbols.find? name)

/-- Enters or replaces a symbol. -/
def setSymbol (name : Text) (type : CType) (storage : Storage) : Pass Unit :=
  modify fun context => { context with symbols := context.symbols.set name type storage }

/-- A new read-only string with a null byte at its end, by its name. -/
def newString (bytes : Text) : Pass Text := do
  let name ← uniqueName "string"
  setSymbol name (.array (bytes.length + 1) .char) (.constant (.string bytes true))
  pure name

/-- The results of an action done a number of times. -/
def times {α : Type} (action : Pass α) : Nat → Pass (List α)
  | 0 => pure []
  | count + 1 => do
    let result ← action
    pure (result :: (← times action count))

end Pass

end SubsetC
