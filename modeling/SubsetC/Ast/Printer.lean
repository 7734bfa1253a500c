import SubsetC.Ast
import SubsetC.Text.Escape

/-!
# Printing syntax trees

A tree is shown with one line to a node, the children below their parent and connected to it by
lines. Numbered nodes show their number, and typed expressions their type.
-/

namespace SubsetC

/-- A tree of labels. -/
inductive Outline where
  | node (label : Text) (children : List Outline)

namespace Outline

/-- A label without children. -/
def leaf (label : Text) : Outline := .node label []

/-- The lines of a child: the first one is joined to the parent, the others are indented. -/
def attach (edge margin : Text) : List Text → List Text
  | [] => []
  | first :: rest => (edge ++ first) :: rest.map (margin ++ ·)

mutual

def lines : Outline → List Text
  | .node label children => label :: childLines children

def childLines : List Outline → List Text
  | [] => []
  | [last] => attach "╰── " "    " last.lines
  | child :: rest => attach "├── " "│   " child.lines ++ childLines rest

end

def text (outline : Outline) : Text :=
  outline.lines.flatMap fun line => line ++ "\n"

/-- A label with the number of its node in front. -/
def numbered (loc : Loc) (label : Text) : Text :=
  "<" ++ Text.ofNat loc.id ++ "> " ++ label

/-- A label and a name in brackets. -/
def named (label name : Text) : Text :=
  label ++ " [" ++ name ++ "]"

/-- A label and, if there is one, a name in brackets. -/
def labelled (label : Text) (name : Option Text) : Text :=
  match name with
  | some name => named label name
  | none => label

end Outline

open Outline

/-- A type under a heading. -/
def CType.outline (type : CType) : Outline := .node "Type" [leaf type.text]

/-- The storage class of a declaration, if it has one. -/
def StorageClass.outlines : Option StorageClass → List Outline
  | some .static => [leaf "Static"]
  | some .external => [leaf "Extern"]
  | none => []

namespace Expr

/-- A label with the number of the expression in front and, once it is known, its type behind. -/
def annotated (note : Note) (label : Text) : Text :=
  numbered note.loc label ++
    match note.type with
    | some type => " : " ++ type.text
    | none => []

def stepHeading : StepForm → Text
  | .before => "Prefix"
  | .after => "Postfix"

mutual

def outline : Expr → Outline
  | .constant note value =>
    leaf (numbered note.loc (named ("Constant " ++ value.type.text) value.literal))
  | .string note bytes =>
    leaf (annotated note (named "String" ("\"" ++ Text.escape bytes ++ "\"")))
  | .var note name => leaf (annotated note (named "Var" name))
  | .unary note op operand => .node (annotated note (named "Unary" op.text)) [operand.outline]
  | .binary note op left right =>
    .node (annotated note (named "Binary" op.text)) [left.outline, right.outline]
  | .assign note op left right _ =>
    .node (annotated note (named "Assign" op.text)) [left.outline, right.outline]
  | .conditional note condition thenBranch elseBranch =>
    .node (annotated note (named "Conditional" "?"))
      [condition.outline, thenBranch.outline, elseBranch.outline]
  | .call note name arguments =>
    .node (annotated note (named "FunctionCall" name)) (outlines arguments)
  | .cast note target operand isImplicit =>
    let heading : Text := if isImplicit then "ImplicitCast" else "Cast"
    .node (annotated note (named heading target.text)) [operand.outline]
  | .addressOf note operand => .node (annotated note "AddressOf") [operand.outline]
  | .dereference note operand => .node (annotated note "Dereference") [operand.outline]
  | .subscript note array index =>
    .node (annotated note "Subscript") [array.outline, index.outline]
  | .step note form op operand =>
    .node (annotated note (named (stepHeading form) op.text)) [operand.outline]
  | .sizeofExpr note operand => .node (annotated note "SizeOfExpr") [operand.outline]
  | .sizeofType note operand => .node (annotated note "SizeOfType") [operand.outline]
  | .decay note operand => .node (annotated note "Decay") [operand.outline]

def outlines : List Expr → List Outline
  | [] => []
  | expr :: exprs => expr.outline :: outlines exprs

end

def outlineUnder (heading : Text) : Option Expr → List Outline
  | some expr => [.node heading [expr.outline]]
  | none => []

end Expr

namespace Initializer

mutual

def outline : Initializer → Outline
  | .single _ value => value.outline
  | .compound loc items => .node (numbered loc "Compound") (outlines items)

def outlines : List Initializer → List Outline
  | [] => []
  | item :: items => item.outline :: outlines items

end

end Initializer

def VarDecl.outline (decl : VarDecl) : Outline :=
  let init := match decl.init with
    | some init => [.node "Initializer" [init.outline]]
    | none => []
  .node (numbered decl.loc "VarDeclaration")
    (leaf (named "Name" decl.name) :: decl.type.outline ::
      (StorageClass.outlines decl.storageClass ++ init))

def Param.outline (param : Param) : Outline :=
  .node (named "Param" param.name) [param.type.outline]

/-- The outline of a function with what stands below its declaration. -/
def FunDecl.outline (decl : FunDecl) (body : List Outline) : Outline :=
  let params := if decl.params.isEmpty then []
    else [.node "Parameters" (decl.params.map Param.outline)]
  .node (numbered decl.loc (named "Function" decl.name))
    (StorageClass.outlines decl.storageClass ++
      (.node "Returns" [leaf decl.result.text] :: params) ++ body)

/-- The outline of the first clause of a for statement. -/
def ForInit.outlines : ForInit → List Outline
  | .declarations _ decls => [.node "Init" (decls.map VarDecl.outline)]
  | .expression _ value => Expr.outlineUnder "Init" value

mutual

def Stmt.outline : Stmt → Outline
  | .ret loc value =>
    .node (numbered loc "Return") (match value with
      | some value => [value.outline]
      | none => [])
  | .expr _ value => value.outline
  | .ifThen loc condition thenBranch =>
    .node (numbered loc "If")
      [.node "Condition" [condition.outline], .node "Then" [thenBranch.outline]]
  | .ifElse loc condition thenBranch elseBranch =>
    .node (numbered loc "If")
      [.node "Condition" [condition.outline], .node "Then" [thenBranch.outline],
        .node "Else" [elseBranch.outline]]
  | .block loc items => .node (numbered loc "Block") (itemOutlines items)
  | .whileLoop loc label condition body =>
    .node (numbered loc (labelled "While" label))
      [.node "Condition" [condition.outline], .node "Body" [body.outline]]
  | .doWhile loc label body condition =>
    .node (numbered loc (labelled "DoWhile" label))
      [.node "Body" [body.outline], .node "Condition" [condition.outline]]
  | .forLoop loc label init condition post body =>
    .node (numbered loc (labelled "For" label))
      (init.outlines ++ Expr.outlineUnder "Condition" condition ++ Expr.outlineUnder "Post" post ++
        [.node "Body" [body.outline]])
  | .switch loc label value body _ =>
    .node (numbered loc (labelled "Switch" label))
      [.node "Expression" [value.outline], .node "Body" [body.outline]]
  | .case loc label value body =>
    .node (numbered loc (labelled "Case" label)) [.node "Value" [value.outline], body.outline]
  | .default loc label body => .node (numbered loc (labelled "Default" label)) [body.outline]
  | .break loc label => leaf (numbered loc (labelled "Break" label))
  | .continue loc label => leaf (numbered loc (labelled "Continue" label))
  | .null loc => leaf (numbered loc "Empty")

def Decl.outline : Decl → Outline
  | .object decl => decl.outline
  | .function decl => decl.outline []
  | .definition decl _ body => decl.outline [.node "Body" (itemOutlines body)]

/-- The outlines of the items of a block. -/
def itemOutlines : List Item → List Outline
  | [] => []
  | .stmt stmt :: items => stmt.outline :: itemOutlines items
  | .decl decl :: items => decl.outline :: itemOutlines items

end

/-- The dump of a compilation unit. -/
def Program.text (program : Program) : Text :=
  (Outline.node "Program" (program.map Decl.outline)).text

end SubsetC
