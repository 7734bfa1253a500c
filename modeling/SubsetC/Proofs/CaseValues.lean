import SubsetC.Proofs.Binding
import SubsetC.Proofs.TreeSemantics

/-!
# Values of cases

The execution of a switch looks for the case among the items of its block. Structured statements
have cases in front only, so that it finds the first case of the block, in order, that has the
value, and goes on at the item in front of which the case stands.
-/

namespace SubsetC

/-- A case in the list of a switch stands for a case in its body: it has the label, and the value in
the list is the value in the tree, converted to the type of the controlling value. -/
def SwitchCase.Denotes (type : CType) (case : SwitchCase) (node : CaseNode) : Prop :=
  case.label = node.label ∧
    match node.value, case.value with
    | none, none => True
    | some value, some constant => value.isPure → ∀ kind, type = .integer kind →
        ∃ number, (∀ gaps store, value.eval? gaps store = some number) ∧
          constant.number? = some (kind.wrap number)
    | _, _ => False

namespace CaseNode

/-- Whether the case has a value, at the type of the controlling value. -/
def hasValue (gaps : Gaps) (store : Store) (kind : IntType) (number : Int) (node : CaseNode) :
    Bool :=
  match node.value with
  | some value => (value.eval? gaps store).map kind.wrap == some number
  | none => false

def isDefault (node : CaseNode) : Bool := node.value.isNone

def IsPure (node : CaseNode) : Prop := ∀ value ∈ node.value, value.isPure

end CaseNode

/-! ### Cases of structured statements -/

mutual

theorem Stmt.caseNodes_eq_nil : ∀ stmt : Stmt, stmt.isStructured false → stmt.caseNodes = []
  | .ifThen _ _ body, structured | .whileLoop _ _ _ body, structured
  | .doWhile _ _ body _, structured | .forLoop _ _ _ _ _ body, structured => by
      simp only [Stmt.isStructured, Bool.and_eq_true] at structured
      exact Stmt.caseNodes_eq_nil body structured.2
  | .ifElse _ _ thenBranch elseBranch, structured => by
      simp only [Stmt.isStructured, Bool.and_eq_true] at structured
      rw [Stmt.caseNodes, Stmt.caseNodes_eq_nil thenBranch structured.1.2,
        Stmt.caseNodes_eq_nil elseBranch structured.2, List.append_nil]
  | .block _ items, structured => Item.caseNodesList_eq_nil items structured
  | .case _ _ _ _, structured | .default _ _ _, structured => by
      simp [Stmt.isStructured] at structured
  | .switch _ _ _ _ _, _ | .ret _ _, _ | .expr _ _, _ | .break _ _, _ | .continue _ _, _
  | .null _, _ => rfl

theorem Item.caseNodesList_eq_nil : ∀ items : List Item, Item.areStructured false items →
    Item.caseNodesList items = []
  | [], _ => rfl
  | .stmt stmt :: items, structured => by
      simp only [Item.areStructured, Bool.and_eq_true] at structured
      rw [Item.caseNodesList, Stmt.caseNodes_eq_nil stmt structured.1,
        Item.caseNodesList_eq_nil items structured.2, List.append_nil]
  | .decl (.object _) :: items, structured => by
      simp only [Item.areStructured, Bool.and_eq_true] at structured
      exact Item.caseNodesList_eq_nil items structured.2
  | .decl (.function _) :: items, structured => Item.caseNodesList_eq_nil items structured
  | .decl (.definition _ _ _) :: _, structured => by cases structured

end

namespace Stmt

variable {gaps : Gaps} {store : Store} {kind : IntType} {number : Int}

/-- Whether cases stand directly before the statement. -/
def isCase : Stmt → Bool
  | .case _ _ _ _ | .default _ _ _ => true
  | _ => false

/-- Only statements behind cases have cases in a structured block. -/
theorem caseNodes_of_isCase {stmt : Stmt} {isItem : Bool} (structured : stmt.isStructured isItem)
    (noCase : stmt.isCase = false) : stmt.caseNodes = [] := by
  cases stmt with
  | case _ _ _ _ | default _ _ _ => cases noCase
  | _ =>
      simp only [isStructured] at structured
      exact caseNodes_eq_nil _ (by simp only [isStructured, structured])

theorem hasCase_eq : ∀ stmt : Stmt, stmt.isStructured true →
    stmt.hasCase gaps store kind number =
      stmt.caseNodes.any (CaseNode.hasValue gaps store kind number)
  | .case _ _ _ body, structured => by
      simp only [isStructured, Bool.and_eq_true] at structured
      rw [hasCase, caseNodes, List.any_cons, hasCase_eq body structured.2, CaseNode.hasValue]
  | .default _ _ body, structured => by
      simp only [isStructured, Bool.and_eq_true] at structured
      rw [hasCase, caseNodes, List.any_cons, hasCase_eq body structured.2, CaseNode.hasValue,
        Bool.false_or]
  | .ifThen _ _ _, structured | .ifElse _ _ _ _, structured | .block _ _, structured
  | .whileLoop _ _ _ _, structured | .doWhile _ _ _ _, structured
  | .forLoop _ _ _ _ _ _, structured | .switch _ _ _ _ _, structured | .ret _ _, structured
  | .expr _ _, structured | .break _ _, structured | .continue _ _, structured
  | .null _, structured => by rw [caseNodes_of_isCase structured rfl]; rfl

theorem hasDefault_eq : ∀ stmt : Stmt, stmt.isStructured true →
    stmt.hasDefault = stmt.caseNodes.any CaseNode.isDefault
  | .case _ _ _ body, structured => by
      simp only [isStructured, Bool.and_eq_true] at structured
      rw [hasDefault, caseNodes, List.any_cons, hasDefault_eq body structured.2]
      rfl
  | .default _ _ body, structured => rfl
  | .ifThen _ _ _, structured | .ifElse _ _ _ _, structured | .block _ _, structured
  | .whileLoop _ _ _ _, structured | .doWhile _ _ _ _, structured
  | .forLoop _ _ _ _ _ _, structured | .switch _ _ _ _ _, structured | .ret _ _, structured
  | .expr _ _, structured | .break _ _, structured | .continue _ _, structured
  | .null _, structured => by rw [caseNodes_of_isCase structured rfl]; rfl

theorem isPure_of_mem_caseNodes : ∀ stmt : Stmt, stmt.isStructured true →
    ∀ node ∈ stmt.caseNodes, node.IsPure
  | .case _ _ value body, structured => by
      simp only [isStructured, Bool.and_eq_true] at structured
      rw [caseNodes, List.forall_mem_cons]
      refine ⟨?_, isPure_of_mem_caseNodes body structured.2⟩
      rintro _ ⟨⟩
      exact structured.1.2
  | .default _ _ body, structured => by
      simp only [isStructured, Bool.and_eq_true] at structured
      rw [caseNodes, List.forall_mem_cons]
      exact ⟨nofun, isPure_of_mem_caseNodes body structured.2⟩
  | .ifThen _ _ _, structured | .ifElse _ _ _ _, structured | .block _ _, structured
  | .whileLoop _ _ _ _, structured | .doWhile _ _ _ _, structured
  | .forLoop _ _ _ _ _ _, structured | .switch _ _ _ _ _, structured | .ret _ _, structured
  | .expr _ _, structured | .break _ _, structured | .continue _ _, structured
  | .null _, structured => by
      rw [caseNodes_of_isCase structured rfl]
      exact nofun

end Stmt

theorem Item.isStructured_of_mem : ∀ {items : List Item} {isItem : Bool},
    Item.areStructured isItem items → ∀ stmt, .stmt stmt ∈ items → stmt.isStructured isItem
  | .stmt head :: items, isItem, structured, other, mem => by
      simp only [Item.areStructured, Bool.and_eq_true] at structured
      rcases List.mem_cons.1 mem with ⟨⟨⟩⟩ | mem
      · exact structured.1
      · exact Item.isStructured_of_mem structured.2 other mem
  | .decl (.object _) :: items, isItem, structured, other, mem => by
      simp only [Item.areStructured, Bool.and_eq_true] at structured
      rcases List.mem_cons.1 mem with ⟨⟨⟩⟩ | mem
      exact Item.isStructured_of_mem structured.2 other mem
  | .decl (.function _) :: items, isItem, structured, other, mem => by
      rcases List.mem_cons.1 mem with ⟨⟨⟩⟩ | mem
      have rest : Item.areStructured isItem items := structured
      exact Item.isStructured_of_mem rest other mem
  | .decl (.definition _ _ _) :: items, isItem, structured, other, mem => by cases structured

theorem Item.exists_of_mem_caseNodesList {node : CaseNode} : ∀ {items : List Item},
    node ∈ Item.caseNodesList items → ∃ stmt, .stmt stmt ∈ items ∧ node ∈ stmt.caseNodes
  | .stmt head :: items, mem => by
      rcases List.mem_append.1 mem with mem | mem
      · exact ⟨head, by simp, mem⟩
      · rcases Item.exists_of_mem_caseNodesList mem with ⟨other, isItem, mem⟩
        exact ⟨other, by simp [isItem], mem⟩
  | .decl _ :: items, mem => by
      have mem : node ∈ Item.caseNodesList items := mem
      rcases Item.exists_of_mem_caseNodesList mem with ⟨other, isItem, mem⟩
      exact ⟨other, by simp [isItem], mem⟩

/-- A block that is entered at the first statement that has a case of some kind. -/
theorem Item.enterList_eq (gaps : Gaps) (rounds : Nat) (store : Store) {select : Stmt → Bool}
    {wanted : CaseNode → Bool} :
    ∀ items : List Item, (∀ stmt, .stmt stmt ∈ items → select stmt = stmt.caseNodes.any wanted) →
    match (Item.caseNodesList items).find? wanted with
    | none => Item.enterList gaps rounds store select items = none
    | some node => ∃ stmt later, .stmt stmt :: later <:+ items ∧ node ∈ stmt.caseNodes ∧
        Item.enterList gaps rounds store select items =
          some (Item.execList gaps rounds store (.stmt stmt :: later))
  | [], _ => rfl
  | .decl _ :: items, same => by
      have rest := Item.enterList_eq gaps rounds store items
        fun stmt mem => same stmt (List.mem_cons_of_mem _ mem)
      rw [Item.caseNodesList, Item.enterList]
      split at rest
      · simpa only using rest
      · rcases rest with ⟨stmt, later, suffix, mem, enters⟩
        exact ⟨stmt, later, suffix.trans (List.suffix_cons _ _), mem, enters⟩
  | .stmt head :: items, same => by
      have rest := Item.enterList_eq gaps rounds store items
        fun stmt mem => same stmt (List.mem_cons_of_mem _ mem)
      rw [Item.caseNodesList, Item.enterList, List.find?_append, same head (List.mem_cons_self ..)]
      cases found : head.caseNodes.find? wanted with
      | some node =>
          have mem := List.mem_of_find?_eq_some found
          have selected : head.caseNodes.any wanted := 
            List.any_eq_true.2 ⟨node, mem, List.find?_some found⟩
          exact ⟨head, items, List.suffix_refl _, mem, if_pos selected⟩
      | none =>
          have notSelected : ¬head.caseNodes.any wanted := by
            simpa using found
          rw [Option.none_or, if_neg notSelected]
          split at rest
          · exact rest
          · rcases rest with ⟨stmt, later, suffix, mem, enters⟩
            exact ⟨stmt, later, suffix.trans (List.suffix_cons _ _), mem, enters⟩

end SubsetC
