import SubsetC.Analysis.Target
import SubsetC.Lowering.Stmt
import Mathlib.Data.List.Forall2

/-!
# Jumps bound to their targets

What labelling leaves behind: every loop and switch has a label, each break and continue has the
label of the statement it leaves or continues, and the list of a switch's cases names the cases of
its body in order, each with its label. How the value in the list relates to the value in the tree
is a parameter, since checking changes both.
-/

namespace SubsetC

/-- A case in the tree. -/
structure CaseNode where
  /-- The value, which the default has not. -/
  value : Option Expr
  label : Text

mutual

/-- The cases of the switch around a statement that stand in the statement, in order. -/
def Stmt.caseNodes : Stmt → List CaseNode
  | .ifThen _ _ body | .whileLoop _ _ _ body | .doWhile _ _ body _
  | .forLoop _ _ _ _ _ body => body.caseNodes
  | .ifElse _ _ thenBranch elseBranch => thenBranch.caseNodes ++ elseBranch.caseNodes
  | .block _ items => Item.caseNodesList items
  | .case _ label value body => ⟨some value, label.getD []⟩ :: body.caseNodes
  | .default _ label body => ⟨none, label.getD []⟩ :: body.caseNodes
  | .switch _ _ _ _ _ | .ret _ _ | .expr _ _ | .break _ _ | .continue _ _ | .null _ => []

/-- The cases of the switch around a block that stand among its items, in order. -/
def Item.caseNodesList : List Item → List CaseNode
  | [] => []
  | .stmt stmt :: items => stmt.caseNodes ++ Item.caseNodesList items
  | .decl _ :: items => Item.caseNodesList items

end

mutual

/-- The labels that the code of a statement has for its loops, switches and cases. -/
def Stmt.labels : Stmt → List Text
  | .ifThen _ _ body => body.labels
  | .ifElse _ _ thenBranch elseBranch => thenBranch.labels ++ elseBranch.labels
  | .block _ items => Item.labelsList items
  | .whileLoop _ label _ body =>
      [Targets.continueLabelOf label, Targets.breakLabelOf label] ++ body.labels
  | .doWhile _ label body _ | .forLoop _ label _ _ _ body =>
      [Targets.startLabelOf label, Targets.continueLabelOf label, Targets.breakLabelOf label] ++
        body.labels
  | .switch _ label _ body _ => [Targets.breakLabelOf label] ++ body.labels
  | .case _ label _ body | .default _ label body => [label.getD []] ++ body.labels
  | .ret _ _ | .expr _ _ | .break _ _ | .continue _ _ | .null _ => []

/-- The labels that the code of a block has for the loops, switches and cases of its items. -/
def Item.labelsList : List Item → List Text
  | [] => []
  | .stmt stmt :: items => stmt.labels ++ Item.labelsList items
  | .decl _ :: items => Item.labelsList items

end

section

variable (describes : CType → SwitchCase → CaseNode → Prop)

mutual

/-- The labels of the statement are bound at a place with the given targets. -/
def Stmt.Bound (targets : Targets) : Stmt → Prop
  | .ifThen _ _ body => body.Bound targets
  | .ifElse _ _ thenBranch elseBranch => thenBranch.Bound targets ∧ elseBranch.Bound targets
  | .block _ items => Item.BoundList targets items
  | .whileLoop _ label _ body | .doWhile _ label body _ | .forLoop _ label _ _ _ body =>
      ∃ own, label = some own ∧ body.Bound (targets.inLoop own)
  | .switch _ label value body cases =>
      ∃ own, label = some own ∧ body.Bound (targets.inSwitch own) ∧
        List.Forall₂ (describes value.type) cases body.caseNodes ∧
        (cases.filter SwitchCase.isDefault).length ≤ 1
  | .case _ _ _ body | .default _ _ body => body.Bound targets
  | .break _ label => label = targets.breakLabel ∧ label.isSome
  | .continue _ label => label = targets.continueLabel ∧ label.isSome
  | .ret _ _ | .expr _ _ | .null _ => True

def Item.BoundList (targets : Targets) : List Item → Prop
  | [] => True
  | .stmt stmt :: items => stmt.Bound targets ∧ Item.BoundList targets items
  | .decl _ :: items => Item.BoundList targets items

end

/-- The labels in the body of a function are bound, from which no jump leaves. -/
def Decl.Bound : Decl → Prop
  | .definition _ _ body => Item.BoundList describes .none body
  | .object _ | .function _ => True

/-- The labels in the functions of a compilation unit are bound. -/
def Program.Bound (program : Program) : Prop := ∀ decl ∈ program, decl.Bound describes

end

/-- The labels that the code of a function has for the loops, switches and cases of its body. -/
def Decl.labels : Decl → List Text
  | .definition _ _ body => Item.labelsList body
  | .object _ | .function _ => []

/-- The labels for the loops, switches and cases of a compilation unit. -/
def Program.labels (program : Program) : List Text := program.flatMap Decl.labels

theorem Program.labels_cons (decl : Decl) (decls : Program) :
    Program.labels (decl :: decls) = decl.labels ++ decls.labels := rfl

mutual

/-- The cases of the switch around a statement have labels in its code. -/
theorem Stmt.label_mem_labels {node : CaseNode} : ∀ stmt : Stmt, node ∈ stmt.caseNodes →
    node.label ∈ stmt.labels
  | .ifThen _ _ body, mem => Stmt.label_mem_labels body mem
  | .whileLoop _ _ _ body, mem | .doWhile _ _ body _, mem | .forLoop _ _ _ _ _ body, mem =>
      List.mem_append_right _ (Stmt.label_mem_labels body mem)
  | .ifElse _ _ thenBranch elseBranch, mem => by
      rcases List.mem_append.1 mem with mem | mem
      · exact List.mem_append_left _ (Stmt.label_mem_labels thenBranch mem)
      · exact List.mem_append_right _ (Stmt.label_mem_labels elseBranch mem)
  | .block _ items, mem => Item.label_mem_labelsList items mem
  | .case _ _ _ body, mem | .default _ _ body, mem => by
      rcases List.mem_cons.1 mem with rfl | mem
      · exact List.mem_cons_self
      · exact List.mem_cons_of_mem _ (Stmt.label_mem_labels body mem)
  | .switch _ _ _ _ _, mem | .ret _ _, mem | .expr _ _, mem | .break _ _, mem
  | .continue _ _, mem | .null _, mem => nomatch mem

theorem Item.label_mem_labelsList {node : CaseNode} : ∀ items : List Item,
    node ∈ Item.caseNodesList items → node.label ∈ Item.labelsList items
  | [], mem => nomatch mem
  | .stmt stmt :: items, mem => by
      rcases List.mem_append.1 mem with mem | mem
      · exact List.mem_append_left _ (Stmt.label_mem_labels stmt mem)
      · exact List.mem_append_right _ (Item.label_mem_labelsList items mem)
  | .decl _ :: items, mem => Item.label_mem_labelsList items mem

end

end SubsetC
