import SubsetC.Proofs.Binding
import SubsetC.Proofs.LabelNames
import SubsetC.Proofs.Outcome

/-!
# Labels of labelled trees

Labelling binds every jump to its target, and the labels it leaves in a tree are all different. The
cases of a switch are collected across the statements inside, so a statement has labels of two
sorts: those drawn for its own loops and switches, and those of cases, which belong to the number of
the switch around.
-/

namespace SubsetC

/-! ### Labels of one loop or switch -/

namespace Targets

theorem breakLabelOf_eq (number : Nat) :
    breakLabelOf (some (Context.labelText "loop" number)) =
      Context.labelText "break_loop" number := rfl

theorem caseLabel_eq (number index : Nat) :
    caseLabel (Context.labelText "loop" number) index =
      Context.labelText (Context.labelText "case_loop" number) index := rfl

theorem defaultLabel_eq (number : Nat) :
    defaultLabel (Context.labelText "loop" number) =
      Context.labelText "default_loop" number := rfl

end Targets

/-- A collected case stands for a case in the tree: it has the label, and the value in the tree
folds to its value. -/
inductive SwitchCase.Folds : SwitchCase → CaseNode → Prop where
  | value {value : Expr} {constant : Const} {label : Text} {span : Span}
      (folds : value.fold? = some constant) : Folds ⟨some constant, label, span⟩ ⟨some value, label⟩
  | default {label : Text} {span : Span} : Folds ⟨none, label, span⟩ ⟨none, label⟩

/-- The cases of a switch with a label have different labels, made from that label. -/
structure SwitchCase.Numbered (switch : Text) (cases : List SwitchCase) : Prop where
  nodup : (cases.map SwitchCase.label).Nodup
  /-- The default has a label of its own, and the others are counted. -/
  labels : ∀ case ∈ cases, case.isDefault ∧ case.label = Targets.defaultLabel switch ∨
    case.isDefault = false ∧ ∃ index < cases.length, case.label = Targets.caseLabel switch index

namespace SwitchCase.Numbered

variable {switch : Text} {cases : List SwitchCase}

theorem nil : Numbered switch [] := ⟨List.nodup_nil, nofun⟩

theorem caseLabel_inj {first second : Nat}
    (same : Targets.caseLabel switch first = Targets.caseLabel switch second) : first = second := by
  have same : Context.labelText ("case_" ++ switch) first =
      Context.labelText ("case_" ++ switch) second := same
  exact (Text.labelText_inj same).2

theorem defaultLabel_ne (index : Nat) :
    Targets.defaultLabel switch ≠ Targets.caseLabel switch index := by
  intro same
  have heads : some (Text.ofAscii 'd') = some (Text.ofAscii 'c') := congrArg List.head? same
  exact absurd heads (by decide)

/-- One more case, with a label that is not there yet. -/
theorem snoc {case : SwitchCase} (numbered : Numbered switch cases)
    (fresh : ∀ other ∈ cases, other.label ≠ case.label)
    (own : case.isDefault ∧ case.label = Targets.defaultLabel switch ∨
      case.isDefault = false ∧ case.label = Targets.caseLabel switch cases.length) :
    Numbered switch (cases ++ [case]) := by
  refine ⟨?_, ?_⟩
  · rw [List.map_append, List.nodup_append]
    refine ⟨numbered.nodup, by simp, ?_⟩
    rintro label isOld _ isNew rfl
    rcases List.mem_map.1 isOld with ⟨other, mem, sameLabel⟩
    obtain rfl : label = case.label := by simpa using isNew
    exact fresh other mem sameLabel
  · intro other mem
    rw [List.length_append, List.length_singleton]
    rcases List.mem_append.1 mem with isOld | isNew
    · refine (numbered.labels other isOld).imp_right ?_
      rintro ⟨notDefault, index, below, sameLabel⟩
      exact ⟨notDefault, index, Nat.lt_succ_of_lt below, sameLabel⟩
    · obtain rfl := List.mem_singleton.1 isNew
      refine own.imp_right ?_
      rintro ⟨notDefault, sameLabel⟩
      exact ⟨notDefault, cases.length, Nat.lt_succ_self _, sameLabel⟩

theorem value (numbered : Numbered switch cases) (constant : Const) (span : Span) :
    Numbered switch (cases ++ [⟨some constant, Targets.caseLabel switch cases.length, span⟩]) := by
  refine numbered.snoc ?_ (.inr ⟨rfl, rfl⟩)
  intro other mem same
  rcases numbered.labels other mem with ⟨_, sameLabel⟩ | ⟨_, index, below, sameLabel⟩
  · exact defaultLabel_ne cases.length (sameLabel.symm.trans same)
  · have := caseLabel_inj (sameLabel.symm.trans same)
    omega

theorem default (numbered : Numbered switch cases) (single : cases.any isDefault = false)
    (span : Span) : Numbered switch (cases ++ [⟨none, Targets.defaultLabel switch, span⟩]) := by
  refine numbered.snoc ?_ (.inl ⟨rfl, rfl⟩)
  intro other mem same
  have notDefault := List.any_eq_false.1 single other mem
  rcases numbered.labels other mem with ⟨isDefault, _⟩ | ⟨_, index, _, sameLabel⟩
  · exact notDefault isDefault
  · exact defaultLabel_ne index (same.symm.trans sameLabel)

/-- Since all defaults have the same label, there is at most one. -/
theorem length_default_le (numbered : Numbered switch cases) :
    (cases.filter isDefault).length ≤ 1 := by
  have same : ∀ label ∈ (cases.filter isDefault).map SwitchCase.label,
      label = Targets.defaultLabel switch := by
    intro label mem
    rcases List.mem_map.1 mem with ⟨case, caseMem, rfl⟩
    rcases List.mem_filter.1 caseMem with ⟨isCase, isDefault⟩
    rcases numbered.labels case isCase with ⟨_, sameLabel⟩ | ⟨notDefault, _⟩
    · exact sameLabel
    · simp [isDefault] at notDefault
  have isSublist : (cases.filter isDefault).Sublist cases := List.filter_sublist
  have nodup := numbered.nodup.sublist (isSublist.map SwitchCase.label)
  rw [List.eq_replicate_of_mem same, List.nodup_replicate, List.length_map] at nodup
  exact nodup

/-- The labels of the cases of a switch belong to its number, as does the label at its end. -/
theorem marked {number : Nat} (numbered : Numbered (Context.labelText "loop" number) cases) :
    Text.Marked number (number + 1)
      (Targets.breakLabelOf (some (Context.labelText "loop" number)) ::
        cases.map SwitchCase.label) := by
  have isBreak : Text.IsStem "break_loop" := Text.isStem_of_getLast? rfl (by decide)
  have isCase : Text.IsStem "case_loop" := Text.isStem_of_getLast? rfl (by decide)
  have isDefault : Text.IsStem "default_loop" := Text.isStem_of_getLast? rfl (by decide)
  refine ⟨Nat.le_succ _, List.nodup_cons.2 ⟨?_, numbered.nodup⟩, ?_⟩
  · intro mem
    rcases List.mem_map.1 mem with ⟨case, caseMem, same⟩
    rw [Targets.breakLabelOf_eq] at same
    rcases numbered.labels case caseMem with ⟨_, sameLabel⟩ | ⟨_, index, _, sameLabel⟩
    · rw [sameLabel, Targets.defaultLabel_eq] at same
      exact absurd (Text.labelText_inj same).1 (by decide)
    · rw [sameLabel, Targets.caseLabel_eq] at same
      exact isBreak _ _ (Text.labelText_inj same).1.symm
  · intro label mem
    refine ⟨number, Nat.le_refl _, Nat.lt_succ_self _, ?_⟩
    rcases List.mem_cons.1 mem with rfl | mem
    · exact .plain isBreak
    · rcases List.mem_map.1 mem with ⟨case, caseMem, rfl⟩
      rcases numbered.labels case caseMem with ⟨_, sameLabel⟩ | ⟨_, index, _, sameLabel⟩
      · rw [sameLabel]
        exact .plain isDefault
      · rw [sameLabel]
        exact .case isCase index

end SwitchCase.Numbered

/-! ### Cases collected on the way -/

/-- Labelling has passed a part of a tree with the given labels and cases. To the cases of the
switch around it has added those of the part, and all other labels are drawn on the way. -/
structure Context.Collects (targets : Targets) (cases : List SwitchCase) (labels : List Text)
    (nodes : List CaseNode) (context : Context) (collected : List SwitchCase) (after : Context) :
    Prop where
  /-- The labels are those of the new cases and those drawn. -/
  adds : ∃ own drawn, collected = cases ++ own ∧ List.Forall₂ SwitchCase.Folds own nodes ∧
    Text.Marked context.nextName after.nextName drawn ∧
    ∀ label, labels.count label = (own.map SwitchCase.label).count label + drawn.count label
  /-- The labels of the cases stay different. -/
  numbered : ∀ switch, targets.switchLabel = some switch → SwitchCase.Numbered switch cases →
    SwitchCase.Numbered switch collected
  /-- Outside switches there are no cases. -/
  outside : targets.switchLabel = none → collected = cases

namespace Context.Collects

variable {targets : Targets} {cases middle collected : List SwitchCase} {labels more : List Text}
  {nodes moreNodes : List CaseNode} {first second third : Context}

theorem nil (context : Context) : context.Collects targets cases [] [] cases context :=
  ⟨⟨[], [], by simp, .nil, .nil (Nat.le_refl _), by simp⟩, fun _ _ => id, fun _ => rfl⟩

theorem append (earlier : first.Collects targets cases labels nodes middle second)
    (later : second.Collects targets middle more moreNodes collected third) :
    first.Collects targets cases (labels ++ more) (nodes ++ moreNodes) collected third := by
  rcases earlier.adds with ⟨own, drawn, rfl, folds, marked, count⟩
  rcases later.adds with ⟨moreOwn, moreDrawn, rfl, moreFolds, moreMarked, moreCount⟩
  refine ⟨⟨own ++ moreOwn, drawn ++ moreDrawn, by simp, List.rel_append folds moreFolds,
    marked.append moreMarked, ?_⟩, ?_, ?_⟩
  · intro label
    simp only [List.count_append, List.map_append, count, moreCount]
    omega
  · exact fun switch isSwitch start =>
      later.numbered switch isSwitch (earlier.numbered switch isSwitch start)
  · exact fun noSwitch => (later.outside noSwitch).trans (earlier.outside noSwitch)

theorem grow (le : first.nextName ≤ second.nextName)
    (collects : second.Collects targets cases labels nodes collected third) :
    first.Collects targets cases labels nodes collected third := by
  have start : first.Collects targets cases [] [] cases second :=
    ⟨⟨[], [], by simp, .nil, .nil le, by simp⟩, fun _ _ => id, fun _ => rfl⟩
  exact start.append collects

/-- A loop has labels with a number that is drawn before its body is labelled. -/
theorem loop {stems : List Text} (nodup : stems.Nodup) (isStem : ∀ stem ∈ stems, stem.IsStem)
    (collects : Collects (targets.inLoop (labelText "loop" first.nextName)) cases labels nodes
      { first with nextName := first.nextName + 1 } collected second) :
    first.Collects targets cases
      ((stems.map fun stem => labelText stem first.nextName) ++ labels) nodes collected second := by
  rcases collects.adds with ⟨own, drawn, rfl, folds, marked, count⟩
  refine ⟨⟨own, _, rfl, folds, (Text.Marked.of_stems nodup isStem first.nextName).append marked,
    ?_⟩, collects.numbered, collects.outside⟩
  intro label
  simp only [List.count_append, count]
  omega

/-- A switch keeps the cases of its body to itself. -/
theorem switch (collects : Collects (targets.inSwitch (labelText "loop" first.nextName)) []
      labels nodes { first with nextName := first.nextName + 1 } collected second) :
    first.Collects targets cases
      ([Targets.breakLabelOf (some (labelText "loop" first.nextName))] ++ labels) [] cases second := by
  have numbered := collects.numbered _ rfl .nil
  rcases collects.adds with ⟨own, drawn, rfl, _, marked, count⟩
  refine ⟨⟨[], _, by simp, .nil, numbered.marked.append marked, ?_⟩, fun _ _ => id, fun _ => rfl⟩
  intro label
  simp only [List.count_append, List.count_cons, List.count_nil, List.map_nil, count]
  omega

/-- A case comes before those of the statement that it marks. -/
theorem case {case : SwitchCase} {node : CaseNode} {switch : Text} (folds : case.Folds node)
    (isSwitch : targets.switchLabel = some switch)
    (numbered : SwitchCase.Numbered switch cases → SwitchCase.Numbered switch (cases ++ [case]))
    (collects : first.Collects targets (cases ++ [case]) labels nodes collected second) :
    first.Collects targets cases ([case.label] ++ labels) (node :: nodes) collected second := by
  rcases collects.adds with ⟨own, drawn, rfl, others, marked, count⟩
  refine ⟨⟨case :: own, drawn, by simp, .cons folds others, marked, ?_⟩, ?_, ?_⟩
  · intro label
    simp only [List.count_append, List.count_cons, List.count_nil, List.map_cons, count]
    omega
  · intro other isOther start
    cases isSwitch.symm.trans isOther
    exact collects.numbered switch isSwitch (numbered start)
  · intro noSwitch
    cases isSwitch.symm.trans noSwitch

end Context.Collects

/-! ### Statements -/

namespace SwitchCase

variable {targets : Targets} {cases : List SwitchCase} {context : Context}

theorem ofValue_yields {loc : Loc} {value : Expr} :
    Yields (ofValue targets loc value cases) context fun case after => context = after ∧
      case.Folds ⟨some value, case.label⟩ ∧ ∃ switch, targets.switchLabel = some switch ∧
        (Numbered switch cases → Numbered switch (cases ++ [case])) := by
  unfold ofValue
  split
  · exact Ensures.throw trivial
  · rename_i switch isSwitch
    split
    · exact Ensures.throw trivial
    · rename_i constant folds
      exact Ensures.pure ⟨rfl, .value folds, switch, isSwitch,
        fun numbered => numbered.value constant value.span⟩

theorem ofDefault_yields {loc : Loc} :
    Yields (ofDefault targets loc cases) context fun case after => context = after ∧
      case.Folds ⟨none, case.label⟩ ∧ ∃ switch, targets.switchLabel = some switch ∧
        (Numbered switch cases → Numbered switch (cases ++ [case])) := by
  unfold ofDefault
  split
  · exact Ensures.throw trivial
  · rename_i switch isSwitch
    refine Ensures.ite (fun _ => Ensures.throw trivial) (fun single => ?_)
    exact Ensures.pure ⟨rfl, .default, switch, isSwitch,
      fun numbered => numbered.default (by simpa using single) loc.span⟩

end SwitchCase

theorem Targets.isStem_loop : ∀ stem ∈ (["start_loop", "continue_loop", "break_loop"] : List Text),
    stem.IsStem := by
  simp only [List.forall_mem_cons]
  exact ⟨Text.isStem_of_getLast? rfl (by decide), Text.isStem_of_getLast? rfl (by decide),
    Text.isStem_of_getLast? rfl (by decide), nofun⟩

mutual

/-- Labelling binds the jumps of a statement and gives it labels that are all different. -/
theorem Stmt.label_binds : ∀ (stmt : Stmt) {targets : Targets} {cases : List SwitchCase}
    {context : Context},
    Yields (stmt.label targets cases) context fun made after =>
      made.1.Bound (fun _ => SwitchCase.Folds) targets ∧
        context.Collects targets cases made.1.labels made.1.caseNodes made.2 after
  | .ifThen loc condition body, targets, cases, context => by
      rw [Stmt.label]
      refine (Stmt.label_binds body).bind ?_
      rintro ⟨body', collected⟩ after ⟨bound, collects⟩
      exact Ensures.pure ⟨bound, collects⟩
  | .ifElse loc condition thenBranch elseBranch, targets, cases, context => by
      rw [Stmt.label]
      refine (Stmt.label_binds thenBranch).bind ?_
      rintro ⟨thenBranch', middle⟩ between ⟨thenBound, thenCollects⟩
      refine (Stmt.label_binds elseBranch).bind ?_
      rintro ⟨elseBranch', collected⟩ after ⟨elseBound, elseCollects⟩
      exact Ensures.pure ⟨⟨thenBound, elseBound⟩, thenCollects.append elseCollects⟩
  | .block loc items, targets, cases, context => by
      rw [Stmt.label]
      refine (Item.labelList_binds items).bind ?_
      rintro ⟨items', collected⟩ after ⟨bound, collects⟩
      exact Ensures.pure ⟨bound, collects⟩
  | .whileLoop loc _ condition body, targets, cases, context => by
      rw [Stmt.label]
      refine Ensures.bind_ok (Pass.run_newLabel _ _) ?_
      refine (Stmt.label_binds body).bind ?_
      rintro ⟨body', collected⟩ after ⟨bound, collects⟩
      have nodup : (["continue_loop", "break_loop"] : List Text).Nodup := by decide
      exact Ensures.pure ⟨⟨_, rfl, bound⟩,
        collects.loop nodup fun stem mem => Targets.isStem_loop stem (List.mem_cons_of_mem _ mem)⟩
  | .doWhile loc _ body condition, targets, cases, context
  | .forLoop loc _ init condition post body, targets, cases, context => by
      rw [Stmt.label]
      refine Ensures.bind_ok (Pass.run_newLabel _ _) ?_
      refine (Stmt.label_binds body).bind ?_
      rintro ⟨body', collected⟩ after ⟨bound, collects⟩
      exact Ensures.pure ⟨⟨_, rfl, bound⟩, collects.loop (by decide) Targets.isStem_loop⟩
  | .switch loc _ value body _, targets, cases, context => by
      rw [Stmt.label]
      refine Ensures.bind_ok (Pass.run_newLabel _ _) ?_
      refine (Stmt.label_binds body).bind ?_
      rintro ⟨body', own⟩ after ⟨bound, collects⟩
      have numbered := collects.numbered _ rfl .nil
      rcases collects.adds with ⟨_, _, rfl, folds, _⟩
      exact Ensures.pure ⟨⟨_, rfl, bound, folds, numbered.length_default_le⟩, collects.switch⟩
  | .case loc _ value body, targets, cases, context => by
      rw [Stmt.label]
      refine SwitchCase.ofValue_yields.bind ?_
      rintro case _ ⟨rfl, folds, switch, isSwitch, numbered⟩
      refine (Stmt.label_binds body).bind ?_
      rintro ⟨body', collected⟩ after ⟨bound, collects⟩
      exact Ensures.pure ⟨bound, collects.case folds isSwitch numbered⟩
  | .default loc _ body, targets, cases, context => by
      rw [Stmt.label]
      refine SwitchCase.ofDefault_yields.bind ?_
      rintro case _ ⟨rfl, folds, switch, isSwitch, numbered⟩
      refine (Stmt.label_binds body).bind ?_
      rintro ⟨body', collected⟩ after ⟨bound, collects⟩
      exact Ensures.pure ⟨bound, collects.case folds isSwitch numbered⟩
  | .break loc _, targets, cases, context => by
      rw [Stmt.label]
      split
      · rename_i label isTarget
        exact Ensures.pure ⟨⟨isTarget.symm, rfl⟩, .nil context⟩
      · exact Ensures.throw trivial
  | .continue loc _, targets, cases, context => by
      rw [Stmt.label]
      split
      · rename_i label isTarget
        exact Ensures.pure ⟨⟨isTarget.symm, rfl⟩, .nil context⟩
      · exact Ensures.throw trivial
  | .ret _ _, targets, cases, context | .expr _ _, targets, cases, context
  | .null _, targets, cases, context => by
      rw [Stmt.label]
      exact Ensures.pure ⟨trivial, .nil context⟩

theorem Decl.label_binds : ∀ (decl : Decl) {context : Context},
    Yields decl.label context fun decl' after =>
      decl'.Bound (fun _ => SwitchCase.Folds) ∧
        Text.Marked context.nextName after.nextName decl'.labels
  | .object _, context | .function _, context => by
      rw [Decl.label]
      exact Ensures.pure ⟨trivial, .nil (Nat.le_refl _)⟩
  | .definition function bodyLoc body, context => by
      rw [Decl.label]
      refine (Item.labelList_binds body).bind ?_
      rintro ⟨body', collected⟩ after ⟨bound, collects⟩
      rcases collects.adds with ⟨own, drawn, isOwn, _, marked, count⟩
      obtain rfl : own = [] := isOwn.symm.trans (collects.outside rfl)
      exact Ensures.pure ⟨bound, marked.of_count (by simpa [Decl.labels] using count)⟩

theorem Item.labelList_binds : ∀ (items : List Item) {targets : Targets}
    {cases : List SwitchCase} {context : Context},
    Yields (Item.labelList targets cases items) context fun made after =>
      Item.BoundList (fun _ => SwitchCase.Folds) targets made.1 ∧
        context.Collects targets cases (Item.labelsList made.1) (Item.caseNodesList made.1) made.2
          after
  | [], targets, cases, context => by
      rw [Item.labelList]
      exact Ensures.pure ⟨trivial, .nil context⟩
  | .stmt stmt :: items, targets, cases, context => by
      rw [Item.labelList]
      refine (Stmt.label_binds stmt).bind ?_
      rintro ⟨stmt', middle⟩ between ⟨bound, collects⟩
      refine (Item.labelList_binds items).bind ?_
      rintro ⟨items', collected⟩ after ⟨restBound, restCollects⟩
      exact Ensures.pure ⟨⟨bound, restBound⟩, collects.append restCollects⟩
  | .decl decl :: items, targets, cases, context => by
      rw [Item.labelList]
      -- Labels of a function defined here do not count, as checking refuses it.
      refine (Decl.label_binds decl).bind ?_
      rintro decl' between ⟨_, marked⟩
      refine (Item.labelList_binds items).bind ?_
      rintro ⟨items', collected⟩ after ⟨bound, collects⟩
      exact Ensures.pure ⟨bound, collects.grow marked.le⟩

end

theorem Program.label_binds : ∀ (program : Program) {context : Context},
    Yields program.label context fun program' after =>
      program'.Bound (fun _ => SwitchCase.Folds) ∧
        Text.Marked context.nextName after.nextName program'.labels
  | [], context => Ensures.pure ⟨nofun, .nil (Nat.le_refl _)⟩
  | decl :: decls, context => by
      rw [label, List.mapM_cons]
      refine (Decl.label_binds decl).bind ?_
      rintro decl' between ⟨bound, marked⟩
      refine (label_binds decls).bind ?_
      rintro decls' after ⟨restBound, restMarked⟩
      exact Ensures.pure ⟨List.forall_mem_cons.2 ⟨bound, restBound⟩, marked.append restMarked⟩

end SubsetC
