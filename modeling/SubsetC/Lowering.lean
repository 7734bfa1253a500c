import SubsetC.Lowering.Stmt
import SubsetC.TopLevel

/-!
# Lowering

An analysed compilation unit is lowered to the functions it defines, in source order, followed by
its static objects and then its read-only constants, each in the order of the symbol table.
-/

namespace SubsetC

/-- Whether the symbol of a function says that other compilation units see it. -/
def Pass.functionIsGlobal (name : Text) : Pass Bool := do
  match ← Pass.findSymbol? name with
  | none => throw (.missing (.symbol name))
  | some ⟨_, _, .function _ isGlobal⟩ => pure isGlobal
  | some _ => throw (.internal (.notFunction name))

/-- The code for falling off the end of a function with a result type: it returns zero. -/
def CType.lowerEnd (result : CType) : Pass Code :=
  if result.isVoid then pure [.ret .absent]
  else
    match Const.zero? result with
    | some zero => pure [.ret (.constant zero)]
    | none => throw (.missing (.constant result))

/-- The function that a definition is lowered to. -/
def FunDecl.lower (decl : FunDecl) (body : List Item) : Pass Function := do
  let isGlobal ← Pass.functionIsGlobal decl.name
  let bodyCode ← Item.lowerList body
  let endCode ← decl.result.lowerEnd
  pure ⟨decl.name, isGlobal, decl.params.map Param.name, bodyCode ++ endCode⟩

namespace Symbol

/-- The static object of a symbol, if this compilation unit defines it. A definition without an
initializer starts out as zero. -/
def staticObject? (symbol : Symbol) : Option StaticObject :=
  let object (items : List StaticItem) (isGlobal : Bool) : StaticObject :=
    ⟨symbol.name, isGlobal, symbol.type.alignment, symbol.type, items⟩
  match symbol.storage with
  | .static (.initial items) isGlobal => some (object items isGlobal)
  | .static .tentative isGlobal =>
    some (object (StaticItem.appendZero [] symbol.type.size) isGlobal)
  | _ => none

/-- The read-only constant of a symbol, if it is one. -/
def staticConstant? (symbol : Symbol) : Option StaticConstant :=
  match symbol.storage with
  | .constant item => some ⟨symbol.name, symbol.type.alignment, symbol.type, item⟩
  | _ => none

end Symbol

namespace Program

/-- The functions that the definitions of a compilation unit are lowered to. -/
def lowerFunctions : Program → Pass (List Function)
  | [] => pure []
  | .definition decl _ body :: decls => do
    let function ← decl.lower body
    pure (function :: (← lowerFunctions decls))
  | _ :: decls => lowerFunctions decls

/-- The lowered compilation unit. -/
def lower (program : Program) : Pass LinearProgram := do
  let functions ← lowerFunctions program
  let symbols := (← get).symbols.symbols
  pure (functions.map .function ++ (symbols.filterMap Symbol.staticObject?).map .object ++
    (symbols.filterMap Symbol.staticConstant?).map .constant)

end Program

end SubsetC
