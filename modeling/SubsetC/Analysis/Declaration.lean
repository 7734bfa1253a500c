import SubsetC.Analysis.Initialization

/-!
# Declarations

Checking a declaration enters its symbol. Several declarations of one name with linkage are merged
into one symbol: their types agree, the first one fixes the linkage, and at most one of them is a
definition.
-/

namespace SubsetC

/-- Checks that objects of a type can exist, with the error for void. -/
def CType.checkObject (span : Span) (ifVoid : TypeError) (type : CType) : Pass Unit :=
  if type.isVoid then Pass.typeError span ifVoid else type.checkElements span

/-! ### Functions -/

/-- The type of a parameter that is declared with a type: an array becomes a pointer. -/
def CType.adjusted : CType → CType
  | .array _ element => .pointer element
  | type => type

/-- The parameter with its adjusted type. -/
def Param.check (param : Param) : Pass Param := do
  param.type.checkObject param.span (.voidParameter param.name)
  pure { param with type := param.type.adjusted }

/-- The parameters with their adjusted types. -/
def Param.checkList : List Param → Pass (List Param)
  | [] => pure []
  | param :: params => do
    let param ← param.check
    pure (param :: (← checkList params))

/-- Enters the parameters of a function. -/
def Param.declareList : List Param → Pass Unit
  | [] => pure ()
  | param :: params => do
    Pass.setSymbol param.name param.type .automatic
    declareList params

namespace FunDecl

/-- The storage of a function after one more declaration, which may be a definition. -/
def mergeStorage (decl : FunDecl) (isDefinition : Bool) : Pass Storage := do
  let span := decl.loc.span
  match ← Pass.findSymbol? decl.name with
  | none => pure (.function isDefinition (decl.storageClass != some .static))
  | some ⟨_, type, .function defined isGlobal⟩ =>
    if type ≠ decl.type then Pass.typeError span (.conflictingTypes decl.name)
    else if defined && isDefinition then Pass.typeError span (.functionRedefinition decl.name)
    else if isGlobal && decl.storageClass = some .static then
      Pass.nameError span (.staticAfterNonStatic decl.name)
    else pure (.function (defined || isDefinition) isGlobal)
  | some _ => Pass.typeError span (.conflictingTypes decl.name)

def check (decl : FunDecl) (isDefinition : Bool) : Pass FunDecl := do
  decl.result.checkElements decl.loc.span
  let decl := { decl with params := ← Param.checkList decl.params }
  let storage ← decl.mergeStorage isDefinition
  Pass.setSymbol decl.name decl.type storage
  pure decl

end FunDecl

/-! ### Objects -/

/-- How an object starts out that is declared twice at file scope, if both declarations can stand
together. An initializer wins over none, and a definition over a declaration. -/
def InitialValue.merge? : InitialValue → InitialValue → Option InitialValue
  | .initial _, .initial _ => none
  | .initial items, _ => some (.initial items)
  | _, .initial items => some (.initial items)
  | .tentative, _ => some .tentative
  | .absent, next => some next

namespace VarDecl

/-- The declaration with its initializer computed, and how the object starts out. -/
def initialValue (decl : VarDecl) (ifMissing : InitialValue) : Pass (VarDecl × InitialValue) :=
  match decl.init with
  | none => pure (decl, ifMissing)
  | some init => do
    let (init, items) ← init.checkStatic decl.type []
    pure ({ decl with init := some init }, .initial items)

/-- The storage of a file-scope object after one more declaration. -/
def mergeStorage (decl : VarDecl) (next : InitialValue) : Pass Storage := do
  let span := decl.loc.span
  let isGlobal := decl.storageClass != some .static
  match ← Pass.findSymbol? decl.name with
  | none => pure (.static next isGlobal)
  | some ⟨_, type, .static previous wasGlobal⟩ =>
    if type ≠ decl.type then Pass.typeError span (.conflictingTypes decl.name)
    else if decl.storageClass ≠ some .external ∧ wasGlobal ≠ isGlobal then
      Pass.nameError span (.conflictingLinkage decl.name)
    else
      match previous.merge? next with
      | none => Pass.typeError span (.redefinition decl.name)
      | some init => pure (.static init wasGlobal)
  | some _ => Pass.typeError span (.differentKind decl.name)

def checkFile (decl : VarDecl) : Pass VarDecl := do
  decl.type.checkObject decl.loc.span (.voidVariable decl.name)
  let ifMissing := if decl.storageClass = some .external then .absent else .tentative
  let (decl, next) ← decl.initialValue ifMissing
  let storage ← decl.mergeStorage next
  Pass.setSymbol decl.name decl.type storage
  pure decl

/-- Declares a block-scope object with linkage, which keeps the symbol it has. -/
def checkExternal (decl : VarDecl) : Pass Unit := do
  let span := decl.loc.span
  if decl.init.isSome then Pass.typeError span (.localExternInitializer decl.name)
  match ← Pass.findSymbol? decl.name with
  | none => Pass.setSymbol decl.name decl.type (.static .absent true)
  | some ⟨_, type, .static _ _⟩ =>
    if type ≠ decl.type then Pass.typeError span (.conflictingTypes decl.name)
    else pure ()
  | some _ => Pass.typeError span (.differentKind decl.name)

/-- Declares a block-scope object. An automatic object is known in its own initializer. -/
def checkLocal (decl : VarDecl) : Pass VarDecl := do
  decl.type.checkObject decl.loc.span (.voidVariable decl.name)
  match decl.storageClass with
  | some .external => do
    decl.checkExternal
    pure decl
  | some .static => do
    let zeros := StaticItem.appendZero [] decl.type.size
    let (decl, init) ← decl.initialValue (.initial zeros)
    Pass.setSymbol decl.name decl.type (.static init false)
    pure decl
  | none => do
    Pass.setSymbol decl.name decl.type .automatic
    match decl.init with
    | none => pure decl
    | some init => pure { decl with init := some (← init.checkAutomatic decl.type) }

/-- Declares the objects of a for statement, which have no storage class. -/
def checkForList : List VarDecl → Pass (List VarDecl)
  | [] => pure []
  | decl :: decls => do
    if decl.storageClass.isSome then Pass.typeError decl.loc.span .storageInForInit
    let decl ← decl.checkLocal
    pure (decl :: (← checkForList decls))

end VarDecl

/-- A declaration in a block. Functions are not defined there, nor can they be static. -/
def Decl.checkLocal : Decl → Pass Decl
  | .object decl => do pure (.object (← decl.checkLocal))
  | .function decl =>
    if decl.storageClass = some .static then
      Pass.typeError decl.loc.span (.staticBlockFunction decl.name)
    else do pure (.function (← decl.check false))
  | .definition decl _ _ => Pass.typeError decl.loc.span (.nestedDefinition decl.name)

end SubsetC
