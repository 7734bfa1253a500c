import SubsetC.Lowering.Expr

/-!
# Code of statements

The code of a loop or switch has labels made from the label of the statement, so that a jump needs
to know nothing but the label of the statement it leaves or continues. An automatic array is
initialized piece by piece at rising offsets.
-/

namespace SubsetC

/-! ### Initializers -/

/-- The number that a sequence of bytes denotes, the least significant byte first. -/
def Text.littleEndian : Text → Nat
  | [] => 0
  | byte :: bytes => byte.toNat + 256 * littleEndian bytes

/-- The widest of the words of eight, four and one bytes that a number of bytes has room for. -/
def wordSize (count : Nat) : Nat :=
  if 8 ≤ count then 8 else if 4 ≤ count then 4 else 1

/-- The constant of a word in memory. -/
def Const.ofWord (bytes : Text) : Const :=
  if bytes.length = 8 then .long (Int64.ofNat bytes.littleEndian)
  else if bytes.length = 4 then .int (Int32.ofNat bytes.littleEndian)
  else .char (Int8.ofNat bytes.littleEndian)

/-- Writes bytes to an object from an offset on, in words as wide as possible. -/
def writeBytes (name : Text) (offset : Size) (bytes : Text) : Code :=
  if bytes = [] then []
  else
    let width := wordSize bytes.length
    .copyToOffset (.constant (.ofWord (bytes.take width))) name offset ::
      writeBytes name (Size.add offset width) (bytes.drop width)
termination_by bytes.length
decreasing_by
  have : 0 < bytes.length := List.length_pos_iff.2 ‹_›
  simp only [List.length_drop]
  unfold wordSize
  split <;> (try split) <;> omega

/-- The greatest size of a buffer, as addresses have forty-eight bits. -/
def allocationLimit : Size := 281474976710656

/-- Writes a string to an object from an offset on, filled up with zeros to a size. -/
def writeString (name : Text) (offset size : Size) (bytes : Text) : Pass Code :=
  if size < 0 ∨ allocationLimit < size then throw (.fault .allocation)
  else
    pure (writeBytes name offset
      ((bytes ++ List.replicate (size.toNat - bytes.length) 0).take size.toNat))

namespace Initializer

mutual

/-- Initializes a part of an object that has a type and starts at an offset. -/
def lowerAt (name : Text) (type : CType) (offset : Size) : Initializer → Pass Code
  | .single _ value =>
    match type, value with
    | .array _ _, .string _ bytes => writeString name offset type.size bytes
    | _, _ => do
      let (code, operand) ← value.lowerValue
      pure (code ++ [.copyToOffset operand name offset])
  | .compound _ items => lowerElements name (type.element?.getD .void) offset items

/-- Initializes elements of an array one after the other. -/
def lowerElements (name : Text) (element : CType) (offset : Size) :
    List Initializer → Pass Code
  | [] => pure []
  | item :: items => do
    let code ← item.lowerAt name element offset
    pure (code ++ (← lowerElements name element (Size.add offset element.size) items))

end

end Initializer

/-- Initializes an automatic object. Other objects start out initialized. -/
def VarDecl.lower (decl : VarDecl) : Pass Code :=
  match decl.storageClass, decl.init with
  | none, some init =>
    match decl.type, init with
    | .array _ _, _ => init.lowerAt decl.name decl.type 0
    | _, .single _ value => do
      let (code, operand) ← value.lowerValue
      pure (code ++ [.copy operand (.var decl.name)])
    | _, _ => init.lowerAt decl.name decl.type 0
  | _, _ => pure []

/-- Initializes automatic objects one after the other. -/
def VarDecl.lowerList : List VarDecl → Pass Code
  | [] => pure []
  | decl :: decls => do
    let code ← decl.lower
    pure (code ++ (← lowerList decls))

/-! ### Statements -/

namespace Targets

/-- The label at the end of a loop or switch. -/
def breakLabelOf (label : Option Text) : Text := "break_" ++ label.getD []

/-- The label where the next round of a loop starts. -/
def continueLabelOf (label : Option Text) : Text := "continue_" ++ label.getD []

/-- The label at the start of a loop. -/
def startLabelOf (label : Option Text) : Text := "start_" ++ label.getD []

end Targets

/-- The code of the first clause of a for statement. -/
def ForInit.lower : ForInit → Pass Code
  | .declarations _ decls => VarDecl.lowerList decls
  | .expression _ value => Expr.lowerEffectOption value

/-- Leaves for a label if a condition is given and fails. -/
def Expr.lowerTest (target : Text) : Option Expr → Pass Code
  | none => pure []
  | some condition => do
    let (code, value) ← condition.lowerValue
    pure (code ++ [.jumpIfZero value target])

/-- Compares a value of a type with those of the cases, in order. -/
def SwitchCase.lowerList (value : Operand) (type : CType) : List SwitchCase → Pass Code
  | [] => pure []
  | case :: cases =>
    match case.value with
    | none => lowerList value type cases
    | some constant => do
      let same ← Pass.newTemporary .int
      let constant ← constant.convert type
      let code : Code := [.binary (.compare .equal) value (.constant constant) same,
        .jumpIfNotZero same case.label]
      pure (code ++ (← lowerList value type cases))

/-- Where a switch goes if no value is equal: to its last default, or else to a given label. -/
def SwitchCase.fallback (otherwise : Text) (cases : List SwitchCase) : Text :=
  cases.foldl (fun label case => if case.isDefault then case.label else label) otherwise

mutual

/-- The code of a statement. -/
def Stmt.lower : Stmt → Pass Code
  | .ret _ none => pure [.ret .absent]
  | .ret _ (some value) => do
    let (code, operand) ← value.lowerValue
    pure (code ++ [.ret operand])
  | .expr _ value => value.lowerEffect
  | .ifThen _ condition thenBranch => do
    let (_, finish) ← Pass.newLabelPair "if_else" "if_end"
    let (conditionCode, value) ← condition.lowerValue
    let thenCode ← thenBranch.lower
    pure (conditionCode ++ [.jumpIfZero value finish] ++ thenCode ++ [.label finish])
  | .ifElse _ condition thenBranch elseBranch => do
    let (otherwise, finish) ← Pass.newLabelPair "if_else" "if_end"
    let (conditionCode, value) ← condition.lowerValue
    let thenCode ← thenBranch.lower
    let elseCode ← elseBranch.lower
    pure (conditionCode ++ [.jumpIfZero value otherwise] ++ thenCode ++
      [.jump finish, .label otherwise] ++ elseCode ++ [.label finish])
  | .block _ items => Item.lowerList items
  | .whileLoop _ label condition body => do
    let (conditionCode, value) ← condition.lowerValue
    let bodyCode ← body.lower
    pure ([.label (Targets.continueLabelOf label)] ++ conditionCode ++
      [.jumpIfZero value (Targets.breakLabelOf label)] ++ bodyCode ++
      [.jump (Targets.continueLabelOf label), .label (Targets.breakLabelOf label)])
  | .doWhile _ label body condition => do
    let bodyCode ← body.lower
    let (conditionCode, value) ← condition.lowerValue
    pure ([.label (Targets.startLabelOf label)] ++ bodyCode ++
      [.label (Targets.continueLabelOf label)] ++ conditionCode ++
      [.jumpIfNotZero value (Targets.startLabelOf label), .label (Targets.breakLabelOf label)])
  | .forLoop _ label init condition post body => do
    let initCode ← init.lower
    let testCode ← Expr.lowerTest (Targets.breakLabelOf label) condition
    let bodyCode ← body.lower
    let postCode ← Expr.lowerEffectOption post
    pure (initCode ++ [.label (Targets.startLabelOf label)] ++ testCode ++ bodyCode ++
      [.label (Targets.continueLabelOf label)] ++ postCode ++
      [.jump (Targets.startLabelOf label), .label (Targets.breakLabelOf label)])
  | .switch _ label value body cases => do
    let (valueCode, operand) ← value.lowerValue
    let casesCode ← SwitchCase.lowerList operand value.type cases
    let bodyCode ← body.lower
    pure (valueCode ++ casesCode ++
      [.jump (SwitchCase.fallback (Targets.breakLabelOf label) cases)] ++ bodyCode ++
      [.label (Targets.breakLabelOf label)])
  | .case _ label _ body | .default _ label body => do
    let bodyCode ← body.lower
    pure ([.label (label.getD [])] ++ bodyCode)
  | .break _ label => pure [.jump (Targets.breakLabelOf label)]
  | .continue _ label => pure [.jump (Targets.continueLabelOf label)]
  | .null _ => pure []

/-- The code of the items of a block. Functions declared there have none. -/
def Item.lowerList : List Item → Pass Code
  | [] => pure []
  | .stmt stmt :: items => do
    let code ← stmt.lower
    pure (code ++ (← Item.lowerList items))
  | .decl (.object decl) :: items => do
    let code ← decl.lower
    pure (code ++ (← Item.lowerList items))
  | .decl _ :: items => Item.lowerList items

end

end SubsetC
