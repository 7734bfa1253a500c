import SubsetC.Proofs.Acceptance
import SubsetC.Proofs.BoundLabels
import SubsetC.Proofs.CaseValues
import SubsetC.Proofs.FoldedValues

/-!
# Labels of checked trees

Checking changes no label, so that jumps stay bound to their targets. It converts the values in the
list of a switch, while the values in its body get typed; since these still fold to the same
constants, the list keeps describing the body.
-/

namespace SubsetC

/-! ### Cases -/

/-- A checked case has the label it had, and its value folds to what it folded to before. -/
inductive CaseNode.Keeps : CaseNode → CaseNode → Prop where
  | value {value value' : Expr} {label : Text}
      (folds : ∀ constant, value.fold? = some constant → value'.fold? = some constant) :
      Keeps ⟨some value, label⟩ ⟨some value', label⟩
  | default {label : Text} : Keeps ⟨none, label⟩ ⟨none, label⟩

namespace SwitchCase

/-- A checked case in the list of a switch stands for a case in the tree: it has the label, and its
value is what the value in the tree folds to, converted to a type. -/
inductive Converts (type : CType) : SwitchCase → CaseNode → Prop where
  | value {value : Expr} {folded constant : Const} {label : Text} {span : Span}
      (folds : value.fold? = some folded) (converts : folded.convert? type = some constant) :
      Converts type ⟨some constant, label, span⟩ ⟨some value, label⟩
  | default {label : Text} {span : Span} : Converts type ⟨none, label, span⟩ ⟨none, label⟩

theorem Converts.keep {type : CType} {case : SwitchCase} {node node' : CaseNode}
    (converts : case.Converts type node) (keeps : node.Keeps node') : case.Converts type node' := by
  cases converts with
  | value folds converts =>
      cases keeps with
      | value folds' => exact .value (folds' _ folds) converts
  | default =>
      cases keeps with
      | default => exact .default

theorem Converts.keepList {type : CType} {cases : List SwitchCase} {nodes nodes' : List CaseNode}
    (converts : List.Forall₂ (Converts type) cases nodes)
    (keeps : List.Forall₂ CaseNode.Keeps nodes nodes') :
    List.Forall₂ (Converts type) cases nodes' := by
  induction converts generalizing nodes' with
  | nil =>
      cases keeps
      exact .nil
  | cons first _ rest =>
      cases keeps with
      | cons keepsFirst keepsRest => exact .cons (first.keep keepsFirst) (rest keepsRest)

/-- The checked list describes the cases that the list describes. -/
theorem checkList_converts {type : CType} {context : Context} :
    ∀ (cases : List SwitchCase) (seen : List Int64),
      Yields (checkList type seen cases) context fun cases' _ =>
        (∀ nodes, List.Forall₂ Folds cases nodes → List.Forall₂ (Converts type) cases' nodes) ∧
          cases'.map isDefault = cases.map isDefault
  | [], seen => by
      rw [checkList]
      refine Ensures.pure ⟨?_, rfl⟩
      intro nodes folds
      cases folds
      exact .nil
  | ⟨none, label, span⟩ :: cases, seen => by
      rw [checkList]
      refine (checkList_converts cases seen).bind ?_
      rintro cases' after ⟨converts, defaults⟩
      refine Ensures.pure ⟨?_, by simp [defaults]⟩
      intro nodes folds
      cases folds with
      | cons first rest =>
          cases first with
          | default => exact .cons .default (converts _ rest)
  | ⟨some value, label, span⟩ :: cases, seen => by
      rw [checkList]
      refine Ensures.ite (fun _ => Ensures.throw trivial) fun _ => ?_
      split
      · exact Ensures.throw trivial
      · rename_i constant converted
        refine Ensures.ite (fun _ => Ensures.throw trivial) fun _ => ?_
        refine (checkList_converts cases _).bind ?_
        rintro cases' after ⟨converts, defaults⟩
        refine Ensures.pure ⟨?_, by simp [defaults, isDefault]⟩
        intro nodes folds
        cases folds with
        | cons first rest =>
            cases first with
            | value folds => exact .cons (.value folds converted) (converts _ rest)

end SwitchCase

/-! ### Statements -/

/-- A checked statement has the labels of the statement, and its jumps are bound as before. -/
structure Stmt.KeepsLabels (stmt checked : Stmt) : Prop where
  labels : checked.labels = stmt.labels
  /-- The cases of the switch around are the same. -/
  caseNodes : List.Forall₂ CaseNode.Keeps stmt.caseNodes checked.caseNodes
  /-- Jumps stay bound. -/
  bound : ∀ targets, stmt.Bound (fun _ => SwitchCase.Folds) targets →
    checked.Bound SwitchCase.Converts targets

/-- The checked items of a block have the labels of the items, and their jumps are bound as
before. -/
structure Item.KeepLabelsList (items checked : List Item) : Prop where
  labels : Item.labelsList checked = Item.labelsList items
  /-- The cases of the switch around are the same. -/
  caseNodes : List.Forall₂ CaseNode.Keeps (Item.caseNodesList items) (Item.caseNodesList checked)
  /-- Jumps stay bound. -/
  bound : ∀ targets, Item.BoundList (fun _ => SwitchCase.Folds) targets items →
    Item.BoundList SwitchCase.Converts targets checked

theorem Expr.checkValue_keepsFold {expr : Expr} (isSource : expr.IsSource) {context : Context} :
    Yields expr.checkValue context fun expr' _ =>
      ∀ constant, expr.fold? = some constant → expr'.fold? = some constant := by
  cases folds : expr.fold? with
  | none => exact Ensures.of_forall fun _ _ => nofun
  | some value =>
      refine (value_foldsTo (check_foldsTo expr isSource folds)).mono ?_
      rintro expr' after folds' _ ⟨⟩
      exact folds'.folds

section

variable {result : CType}

mutual

/-- Checking keeps the labels of a statement. -/
theorem Stmt.check_keepsLabels : ∀ (stmt : Stmt) {context : Context}, stmt.IsSource →
    Yields (stmt.check result) context fun stmt' _ => stmt.KeepsLabels stmt'
  | .ret _ _, context, _ | .expr _ _, context, _ => by
      rw [Stmt.check]
      exact Ensures.bind_any fun _ _ => Ensures.pure ⟨rfl, .nil, fun _ => id⟩
  | .ifThen loc condition body, context, isSource => by
      rw [Stmt.check]
      refine Ensures.bind_any fun condition' between => ?_
      refine (Stmt.check_keepsLabels body isSource.2).bind ?_
      rintro body' after keeps
      exact Ensures.pure ⟨keeps.labels, keeps.caseNodes, keeps.bound⟩
  | .ifElse loc condition thenBranch elseBranch, context, isSource => by
      rw [Stmt.check]
      refine Ensures.bind_any fun condition' first => ?_
      refine (Stmt.check_keepsLabels thenBranch isSource.2.1).bind ?_
      rintro thenBranch' second thenKeeps
      refine (Stmt.check_keepsLabels elseBranch isSource.2.2).bind ?_
      rintro elseBranch' after elseKeeps
      refine Ensures.pure ⟨?_, List.rel_append thenKeeps.caseNodes elseKeeps.caseNodes, ?_⟩
      · simp only [Stmt.labels, thenKeeps.labels, elseKeeps.labels]
      · exact fun targets bound =>
          ⟨thenKeeps.bound targets bound.1, elseKeeps.bound targets bound.2⟩
  | .block loc items, context, isSource => by
      rw [Stmt.check]
      refine (Item.checkList_keepsLabels items isSource).bind ?_
      rintro items' after keeps
      exact Ensures.pure ⟨keeps.labels, keeps.caseNodes, keeps.bound⟩
  | .whileLoop loc label condition body, context, isSource => by
      rw [Stmt.check]
      refine Ensures.bind_any fun condition' between => ?_
      refine (Stmt.check_keepsLabels body isSource.2).bind ?_
      rintro body' after keeps
      refine Ensures.pure ⟨by simp only [Stmt.labels, keeps.labels], keeps.caseNodes, ?_⟩
      rintro targets ⟨own, isOwn, bound⟩
      exact ⟨own, isOwn, keeps.bound _ bound⟩
  | .doWhile loc label body condition, context, isSource => by
      rw [Stmt.check]
      refine (Stmt.check_keepsLabels body isSource.2).bind ?_
      rintro body' between keeps
      refine Ensures.bind_any fun condition' after => ?_
      refine Ensures.pure ⟨by simp only [Stmt.labels, keeps.labels], keeps.caseNodes, ?_⟩
      rintro targets ⟨own, isOwn, bound⟩
      exact ⟨own, isOwn, keeps.bound _ bound⟩
  | .forLoop loc label init condition post body, context, isSource => by
      rw [Stmt.check]
      refine Ensures.bind_any fun init' first => Ensures.bind_any fun condition' second =>
        Ensures.bind_any fun post' third => ?_
      refine (Stmt.check_keepsLabels body isSource.2.2.2).bind ?_
      rintro body' after keeps
      refine Ensures.pure ⟨by simp only [Stmt.labels, keeps.labels], keeps.caseNodes, ?_⟩
      rintro targets ⟨own, isOwn, bound⟩
      exact ⟨own, isOwn, keeps.bound _ bound⟩
  | .switch loc label value body cases, context, isSource => by
      rw [Stmt.check]
      refine Ensures.bind_any fun value' first => ?_
      refine (SwitchCase.checkList_converts cases []).bind ?_
      rintro cases' second ⟨converts, defaults⟩
      refine (Stmt.check_keepsLabels body isSource.2).bind ?_
      rintro body' after keeps
      refine Ensures.pure ⟨by simp only [Stmt.labels, keeps.labels], .nil, ?_⟩
      rintro targets ⟨own, isOwn, bound, folds, single⟩
      refine ⟨own, isOwn, keeps.bound _ bound,
        SwitchCase.Converts.keepList (converts _ folds) keeps.caseNodes, ?_⟩
      rw [← List.countP_eq_length_filter] at single ⊢
      have sameCount := congrArg (List.countP id) defaults
      rw [List.countP_map, List.countP_map] at sameCount
      exact sameCount.trans_le single
  | .case loc label value body, context, isSource => by
      rw [Stmt.check]
      refine (Expr.checkValue_keepsFold isSource.1).bind ?_
      rintro value' between folds
      refine (Stmt.check_keepsLabels body isSource.2).bind ?_
      rintro body' after keeps
      exact Ensures.pure ⟨by simp only [Stmt.labels, keeps.labels],
        .cons (.value folds) keeps.caseNodes, keeps.bound⟩
  | .default loc label body, context, isSource => by
      rw [Stmt.check]
      refine (Stmt.check_keepsLabels body isSource).bind ?_
      rintro body' after keeps
      exact Ensures.pure ⟨by simp only [Stmt.labels, keeps.labels],
        .cons .default keeps.caseNodes, keeps.bound⟩
  | .break _ _, context, _ | .continue _ _, context, _ | .null _, context, _ => by
      rw [Stmt.check]
      exact Ensures.pure ⟨rfl, .nil, fun _ => id⟩

theorem Item.checkList_keepsLabels : ∀ (items : List Item) {context : Context},
    Item.IsSourceList items →
    Yields (Item.checkList result items) context fun items' _ => Item.KeepLabelsList items items'
  | [], context, _ => by
      rw [Item.checkList]
      exact Ensures.pure ⟨rfl, .nil, fun _ => id⟩
  | .stmt stmt :: items, context, isSource => by
      rw [Item.checkList]
      refine (Stmt.check_keepsLabels stmt isSource.1).bind ?_
      rintro stmt' between keeps
      refine (Item.checkList_keepsLabels items isSource.2).bind ?_
      rintro items' after keepsRest
      refine Ensures.pure ⟨?_, List.rel_append keeps.caseNodes keepsRest.caseNodes, ?_⟩
      · simp only [Item.labelsList, keeps.labels, keepsRest.labels]
      · exact fun targets bound => ⟨keeps.bound targets bound.1, keepsRest.bound targets bound.2⟩
  | .decl (.object _) :: items, context, isSource => by
      rw [Item.checkList]
      refine Ensures.bind_any fun decl' between => ?_
      refine (Item.checkList_keepsLabels items isSource.2).bind ?_
      rintro items' after keeps
      exact Ensures.pure ⟨keeps.labels, keeps.caseNodes, keeps.bound⟩
  | .decl (.function _) :: items, context, isSource => by
      rw [Item.checkList]
      refine Ensures.bind_any fun decl' between => ?_
      refine (Item.checkList_keepsLabels items isSource.2).bind ?_
      rintro items' after keeps
      exact Ensures.pure ⟨keeps.labels, keeps.caseNodes, keeps.bound⟩
  | .decl (.definition _ _ _) :: _, context, _ => by
      rw [Item.checkList]
      exact Ensures.bind (Ensures.typeError fun _ _ => trivial) fun _ _ impossible => impossible

end

end

theorem Decl.checkFile_keepsLabels (decl : Decl) {context : Context} (isSource : decl.IsSource)
    (bound : decl.Bound fun _ => SwitchCase.Folds) :
    Yields decl.checkFile context fun decl' _ =>
      decl'.labels = decl.labels ∧ decl'.Bound SwitchCase.Converts := by
  cases decl with
  | object decl => exact Ensures.bind_any fun _ _ => Ensures.pure ⟨rfl, trivial⟩
  | function decl => exact Ensures.bind_any fun _ _ => Ensures.pure ⟨rfl, trivial⟩
  | definition decl bodyLoc body =>
      refine Ensures.bind_any fun decl' _ => Ensures.bind_any fun _ _ => ?_
      refine (Item.checkList_keepsLabels body isSource.2.2).bind ?_
      rintro body' after keeps
      exact Ensures.pure ⟨keeps.labels, keeps.bound _ bound⟩

theorem Program.check_keepsLabels : ∀ (program : Program) {context : Context}, program.IsSource →
    program.Bound (fun _ => SwitchCase.Folds) →
    Yields program.check context fun program' _ =>
      program'.labels = program.labels ∧ program'.Bound SwitchCase.Converts
  | [], context, _, _ => Ensures.pure ⟨rfl, nofun⟩
  | decl :: decls, context, isSource, bound => by
      rcases List.forall_mem_cons.1 isSource with ⟨declSource, declsSource⟩
      rcases List.forall_mem_cons.1 bound with ⟨declBound, declsBound⟩
      rw [check]
      refine (Decl.checkFile_keepsLabels decl declSource.1 declBound).bind ?_
      rintro decl' between ⟨labels, declBound'⟩
      refine (check_keepsLabels decls declsSource declsBound).bind ?_
      rintro decls' after ⟨restLabels, declsBound'⟩
      refine Ensures.pure ⟨?_, List.forall_mem_cons.2 ⟨declBound', declsBound'⟩⟩
      rw [labels_cons, labels_cons, labels, restLabels]

/-! ### Values of the cases -/

/-- The value of the case, if it has one, is explicit. -/
def CaseNode.Explicit (table : SymbolTable) (node : CaseNode) : Prop :=
  ∀ value ∈ node.value, value.Explicit table

theorem SwitchCase.Converts.denotes {table : SymbolTable} {type : CType} {case : SwitchCase}
    {node : CaseNode} (explicit : node.Explicit table) (converts : case.Converts type node) :
    case.Denotes type node := by
  cases converts with
  | default => exact ⟨rfl, trivial⟩
  | value folds converts =>
      rename_i value folded constant label span
      refine ⟨rfl, ?_⟩
      rintro isPure kind rfl
      have explicit := explicit value rfl
      rcases Expr.exists_kind value explicit isPure with ⟨own, sameType⟩
      rcases Expr.isConstantly_of_fold? value explicit isPure sameType folds with
        ⟨number, denotes, evaluates⟩
      exact ⟨number, evaluates, Const.number?_convert? denotes.isNumber converts⟩

section

variable {table : SymbolTable} {result : CType}

mutual

theorem Stmt.caseNodes_explicit : ∀ stmt : Stmt, stmt.Explicit table result →
    ∀ node ∈ stmt.caseNodes, node.Explicit table
  | .ifThen _ _ body, explicit | .whileLoop _ _ _ body, explicit
  | .doWhile _ _ body _, explicit => Stmt.caseNodes_explicit body explicit.2
  | .forLoop _ _ _ _ _ body, explicit => Stmt.caseNodes_explicit body explicit.2.2.2
  | .ifElse _ _ thenBranch elseBranch, explicit =>
      List.forall_mem_append.2 ⟨Stmt.caseNodes_explicit thenBranch explicit.2.1,
        Stmt.caseNodes_explicit elseBranch explicit.2.2⟩
  | .block _ items, explicit => Item.caseNodesList_explicit items explicit
  | .case _ _ value body, explicit =>
      List.forall_mem_cons.2 ⟨by rintro _ ⟨⟩; exact explicit.1.1,
        Stmt.caseNodes_explicit body explicit.2⟩
  | .default _ _ body, explicit =>
      List.forall_mem_cons.2 ⟨nofun, Stmt.caseNodes_explicit body explicit⟩
  | .switch _ _ _ _ _, _ | .ret _ _, _ | .expr _ _, _ | .break _ _, _ | .continue _ _, _
  | .null _, _ => nofun

theorem Item.caseNodesList_explicit : ∀ items : List Item, Item.ExplicitList table result items →
    ∀ node ∈ Item.caseNodesList items, node.Explicit table
  | [], _ => nofun
  | .stmt stmt :: items, explicit =>
      List.forall_mem_append.2 ⟨Stmt.caseNodes_explicit stmt explicit.1,
        Item.caseNodesList_explicit items explicit.2⟩
  | .decl (.object _) :: items, explicit | .decl (.function _) :: items, explicit =>
      Item.caseNodesList_explicit items explicit.2
  | .decl (.definition _ _ _) :: _, explicit => explicit.elim

end

mutual

/-- In an explicit tree the values in the list of a switch are the values of its cases. -/
theorem Stmt.Bound.denotes : ∀ (stmt : Stmt) {targets : Targets}, stmt.Explicit table result →
    stmt.Bound SwitchCase.Converts targets → stmt.Bound SwitchCase.Denotes targets
  | .ifThen _ _ body, _, explicit, bound => Stmt.Bound.denotes body explicit.2 bound
  | .ifElse _ _ thenBranch elseBranch, _, explicit, bound =>
      ⟨Stmt.Bound.denotes thenBranch explicit.2.1 bound.1,
        Stmt.Bound.denotes elseBranch explicit.2.2 bound.2⟩
  | .block _ items, _, explicit, bound => Item.BoundList.denotes items explicit bound
  | .whileLoop _ _ _ body, _, explicit, ⟨own, isOwn, bound⟩
  | .doWhile _ _ body _, _, explicit, ⟨own, isOwn, bound⟩ =>
      ⟨own, isOwn, Stmt.Bound.denotes body explicit.2 bound⟩
  | .forLoop _ _ _ _ _ body, _, explicit, ⟨own, isOwn, bound⟩ =>
      ⟨own, isOwn, Stmt.Bound.denotes body explicit.2.2.2 bound⟩
  | .switch _ _ value body cases, _, explicit, ⟨own, isOwn, bound, converts, single⟩ => by
      have bodyExplicit := explicit.2.2.2.2
      refine ⟨own, isOwn, Stmt.Bound.denotes body bodyExplicit bound, ?_, single⟩
      have nodes := Stmt.caseNodes_explicit body bodyExplicit
      refine List.forall₂_iff_get.2 ⟨converts.length_eq, ?_⟩
      intro index isCase isNode
      exact SwitchCase.Converts.denotes (nodes _ (List.get_mem _ _)) (converts.get isCase isNode)
  | .case _ _ _ body, _, explicit, bound => Stmt.Bound.denotes body explicit.2 bound
  | .default _ _ body, _, explicit, bound => Stmt.Bound.denotes body explicit bound
  | .break _ _, _, _, bound | .continue _ _, _, _, bound => bound
  | .ret _ _, _, _, _ | .expr _ _, _, _, _ | .null _, _, _, _ => trivial

theorem Item.BoundList.denotes : ∀ (items : List Item) {targets : Targets},
    Item.ExplicitList table result items → Item.BoundList SwitchCase.Converts targets items →
    Item.BoundList SwitchCase.Denotes targets items
  | [], _, _, _ => trivial
  | .stmt stmt :: items, _, explicit, bound =>
      ⟨Stmt.Bound.denotes stmt explicit.1 bound.1, Item.BoundList.denotes items explicit.2 bound.2⟩
  | .decl (.object _) :: items, _, explicit, bound
  | .decl (.function _) :: items, _, explicit, bound => Item.BoundList.denotes items explicit.2 bound
  | .decl (.definition _ _ _) :: _, _, explicit, _ => explicit.elim

end

end

/-! ### Compilation units -/

theorem Program.Bound.denotes {table : SymbolTable} {program : Program}
    (explicit : program.Explicit table) (bound : program.Bound SwitchCase.Converts) :
    program.Bound SwitchCase.Denotes := by
  intro decl mem
  have declExplicit := explicit decl mem
  have declBound := bound decl mem
  cases decl with
  | object decl => trivial
  | function decl => trivial
  | definition decl bodyLoc body => exact Item.BoundList.denotes body declExplicit.2.2 declBound

/-- What the analysis of a source leaves to lowering. -/
structure Program.Analysed (program : Program) (context : Context) : Prop where
  /-- Names are plain or drawn, and symbols are functions or have a size. -/
  valid : context.Valid
  /-- Types and conversions are written out. -/
  explicit : program.Explicit context.symbols
  /-- Jumps are bound to their targets. -/
  bound : program.Bound SwitchCase.Denotes
  /-- The labels of loops, switches and cases are different and drawn before. -/
  marked : ∃ low, Text.Marked low context.nextName program.labels

/-- Analysis binds jumps to targets, and its labels are drawn on the way. -/
theorem Program.analyze_binds {program : Program} {context : Context}
    (isSource : program.IsSource) (fresh : context.symbols = .empty) :
    Yields program.analyze context fun program' after => program'.Bound SwitchCase.Converts ∧
      ∃ low, Text.Marked low after.nextName program'.labels := by
  have binds : Yields (program.resolve >>= label) context fun labelled between =>
      labelled.Bound (fun _ => SwitchCase.Folds) ∧
        ∃ low, Text.Marked low between.nextName labelled.labels := by
    refine Ensures.bind_any fun resolved first => (label_binds resolved).mono ?_
    rintro labelled between ⟨bound, marked⟩
    exact ⟨bound, _, marked⟩
  rw [analyze_eq]
  refine (((prepare_ensures isSource fresh).allow fun _ _ => trivial).and binds).bind ?_
  rintro labelled between ⟨prepared, bound, low, marked⟩
  refine ((prepared.check_ensures.allow fun _ _ => trivial).and
    (check_keepsLabels labelled prepared.isSource bound)).mono ?_
  rintro program' after ⟨⟨⟨le, _⟩, _⟩, sameLabels, bound'⟩
  refine ⟨bound', low, ?_⟩
  rw [sameLabels, ← List.append_nil labelled.labels]
  exact marked.append (.nil le)

/-- Analysis of a tree of a source, from a state without symbols. -/
theorem Program.analyze_yields {program : Program} {context : Context}
    (isSource : program.IsSource) (fresh : context.symbols = .empty) :
    Yields program.analyze context Program.Analysed := by
  refine (((analyze_ensures isSource fresh).allow fun _ _ => trivial).and
    (analyze_binds isSource fresh)).mono ?_
  rintro program' after ⟨⟨valid, explicit, _⟩, bound, marked⟩
  exact ⟨valid, explicit, bound.denotes explicit, marked⟩

end SubsetC
