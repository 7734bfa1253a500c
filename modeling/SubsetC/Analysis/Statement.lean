import SubsetC.Analysis.Declaration

/-!
# Types of statements

Checking a statement checks the expressions and declarations in it. The values of a switch's cases
are converted to the promoted type of its controlling value, and must then differ.
-/

namespace SubsetC

/-- The cases with their values converted to a type, given the values met before. -/
def SwitchCase.checkList (type : CType) (seen : List Int64) :
    List SwitchCase → Pass (List SwitchCase)
  | [] => pure []
  | case :: cases =>
    match case.value with
    | none => do pure (case :: (← checkList type seen cases))
    | some value =>
      if !value.type.isInteger then Pass.typeError case.span .caseNotInteger
      else
        match value.convert? type with
        | none => throw (.missing (.constant type))
        | some value =>
          if seen.contains value.toInt64 then Pass.flowError case.span (.duplicateCase value)
          else do
            let cases ← checkList type (value.toInt64 :: seen) cases
            pure ({ case with value := some value } :: cases)

/-- The controlling value of a switch, promoted. -/
def Expr.checkSwitch (expr : Expr) : Pass Expr := do
  let value ← expr.checkValue
  if value.type.isInteger then value.convertTo value.type.promote
  else Pass.typeError value.span (.switchNotInteger value.type)

/-- What a function with a result type returns at a place. -/
def Expr.checkReturn (result : CType) (span : Span) : Option Expr → Pass (Option Expr)
  | none =>
    if result.isVoid then pure none else Pass.typeError span .missingReturnValue
  | some expr =>
    if result.isVoid then Pass.typeError span .unexpectedReturnValue
    else do
      let value ← expr.checkValue
      pure (some (← value.assignTo result))

/-- The first clause of a for statement. -/
def ForInit.check : ForInit → Pass ForInit
  | .declarations loc decls => do pure (.declarations loc (← VarDecl.checkForList decls))
  | .expression loc value => do pure (.expression loc (← Expr.checkOption Expr.checkValue value))

mutual

/-- The typed statement, in a function with a result type. -/
def Stmt.check (result : CType) : Stmt → Pass Stmt
  | .ret loc value => do pure (.ret loc (← Expr.checkReturn result loc.span value))
  | .expr loc value => do pure (.expr loc (← value.checkValue))
  | .ifThen loc condition thenBranch => do
    let condition ← condition.checkConditionValue
    let thenBranch ← thenBranch.check result
    pure (.ifThen loc condition thenBranch)
  | .ifElse loc condition thenBranch elseBranch => do
    let condition ← condition.checkConditionValue
    let thenBranch ← thenBranch.check result
    let elseBranch ← elseBranch.check result
    pure (.ifElse loc condition thenBranch elseBranch)
  | .block loc items => do pure (.block loc (← Item.checkList result items))
  | .whileLoop loc label condition body => do
    let condition ← condition.checkConditionValue
    let body ← body.check result
    pure (.whileLoop loc label condition body)
  | .doWhile loc label body condition => do
    let body ← body.check result
    let condition ← condition.checkConditionValue
    pure (.doWhile loc label body condition)
  | .forLoop loc label init condition post body => do
    let init ← init.check
    let condition ← Expr.checkOption Expr.checkConditionValue condition
    let post ← Expr.checkOption Expr.checkValue post
    let body ← body.check result
    pure (.forLoop loc label init condition post body)
  | .switch loc label value body cases => do
    let value ← value.checkSwitch
    let cases ← SwitchCase.checkList value.type [] cases
    let body ← body.check result
    pure (.switch loc label value body cases)
  | .case loc label value body => do
    let value ← value.checkValue
    let body ← body.check result
    pure (.case loc label value body)
  | .default loc label body => do pure (.default loc label (← body.check result))
  | .break loc label => pure (.break loc label)
  | .continue loc label => pure (.continue loc label)
  | .null loc => pure (.null loc)

/-- The typed items of a block, in a function with a result type. -/
def Item.checkList (result : CType) : List Item → Pass (List Item)
  | [] => pure []
  | .stmt stmt :: items => do
    let stmt ← stmt.check result
    pure (.stmt stmt :: (← Item.checkList result items))
  | .decl decl :: items => do
    let decl ← decl.checkLocal
    pure (.decl decl :: (← Item.checkList result items))

end

/-- A declaration at file scope. -/
def Decl.checkFile : Decl → Pass Decl
  | .object decl => do pure (.object (← decl.checkFile))
  | .function decl => do pure (.function (← decl.check false))
  | .definition decl bodyLoc body => do
    let decl ← decl.check true
    Param.declareList decl.params
    pure (.definition decl bodyLoc (← Item.checkList decl.result body))

/-- The typed declarations of a file, in order. -/
def Program.check : Program → Pass Program
  | [] => pure []
  | decl :: decls => do
    let decl ← decl.checkFile
    pure (decl :: (← check decls))

end SubsetC
