import SubsetC.Proofs.Binding
import SubsetC.Proofs.LabelNames
import SubsetC.Proofs.Machine
import SubsetC.Proofs.Outcome

/-!
# Labels of lowered code

The code of an expression has the labels that are drawn for it, each once. The code of a statement
has in addition the labels of the loops, switches and cases of the statement. There is a statement
for each block of lowering; no block but those for `&&`, `||` and the conditional operator makes
labels by itself.
-/

namespace SubsetC

namespace Code

/-- The label that an instruction may go to. -/
def target? : Instruction → Option Text
  | .jump target | .jumpIfZero _ target | .jumpIfNotZero _ target => some target
  | _ => none

/-- The labels that instructions of the code may go to, in order. -/
def targets (code : Code) : List Text := code.filterMap target?

@[simp]
theorem targets_nil : targets [] = [] := rfl

@[simp]
theorem targets_cons (instruction : Instruction) (code : Code) :
    targets (instruction :: code) = (target? instruction).toList ++ targets code := by
  simp only [targets, List.filterMap_cons]
  cases target? instruction <;> rfl

@[simp]
theorem targets_append (first second : Code) :
    targets (first ++ second) = targets first ++ targets second :=
  List.filterMap_append

end Code

/-- A part of lowering has made code with the given labels and with labels drawn on the way. Its
jumps go to labels of the code, or to one of the given exits. -/
structure Context.Branches (exits tree : List Text) (context : Context) (code : Code)
    (after : Context) : Prop where
  /-- The labels are those of the tree and those that are drawn. -/
  labels : ∃ drawn, Text.Marked context.nextName after.nextName drawn ∧
    ∀ label, (Code.labels code).count label = tree.count label + drawn.count label
  /-- Jumps stay inside or take an exit. -/
  targets : ∀ target ∈ Code.targets code, target ∈ Code.labels code ∨ target ∈ exits

namespace Context.Branches

variable {exits inner tree others : List Text} {first second third : Context} {code more : Code}

/-- The labels of the tree are labels of the code. -/
theorem mem_labels (branches : first.Branches exits tree code second) {label : Text}
    (mem : label ∈ tree) : label ∈ Code.labels code := by
  rcases branches.labels with ⟨drawn, _, count⟩
  have positive := List.count_pos_iff.2 mem
  have same := count label
  exact List.count_pos_iff.1 (by omega)

/-- Code without labels and jumps. -/
theorem straight (le : first.nextName ≤ second.nextName) (noLabels : Code.labels code = [])
    (noTargets : Code.targets code = []) : first.Branches exits [] code second :=
  ⟨⟨[], .nil le, by simp [noLabels]⟩, by simp [noTargets]⟩

theorem nil (context : Context) : context.Branches exits [] [] context :=
  straight (Nat.le_refl _) rfl rfl

theorem append (earlier : first.Branches exits tree code second)
    (later : second.Branches exits others more third) :
    first.Branches exits (tree ++ others) (code ++ more) third := by
  rcases earlier with ⟨⟨drawn, marked, count⟩, targets⟩
  rcases later with ⟨⟨moreDrawn, moreMarked, moreCount⟩, moreTargets⟩
  refine ⟨⟨drawn ++ moreDrawn, marked.append moreMarked, ?_⟩, ?_⟩
  · intro label
    simp only [Code.labels_append, List.count_append, count, moreCount]
    omega
  · intro target mem
    simp only [Code.targets_append, Code.labels_append, List.mem_append] at mem ⊢
    rcases mem with mem | mem
    · exact (targets target mem).imp_left .inl
    · exact (moreTargets target mem).imp_left .inr

theorem grow (le : first.nextName ≤ second.nextName)
    (branches : second.Branches exits tree code third) : first.Branches exits tree code third := by
  have start : first.Branches exits [] [] second := straight le rfl rfl
  exact start.append branches

/-- Code around other code, with labels that are already there. It may have further jumps, to its
labels and to its exits, and all exits of the code inside are among these. -/
theorem mark {extra : List Text} (branches : first.Branches inner tree code second)
    (count : ∀ label, (Code.labels more).count label =
      extra.count label + (Code.labels code).count label)
    (jumps : ∀ target ∈ Code.targets more,
      target ∈ Code.targets code ∨ target ∈ Code.labels more ∨ target ∈ exits)
    (covers : ∀ exit ∈ inner, exit ∈ Code.labels more ∨ exit ∈ exits) :
    first.Branches exits (extra ++ tree) more second := by
  rcases branches with ⟨⟨drawn, marked, others⟩, targets⟩
  refine ⟨⟨drawn, marked, ?_⟩, ?_⟩
  · intro label
    simp only [count, others, List.count_append]
    omega
  · intro target mem
    rcases jumps target mem with mem | mem
    · rcases targets target mem with mem | mem
      · have positive := List.count_pos_iff.2 mem
        have same := count target
        exact .inl (List.count_pos_iff.1 (by omega))
      · exact covers target mem
    · exact mem

/-- Code around other code, with labels of one number, which is drawn first. -/
theorem draw {stems : List Text} (nodup : stems.Nodup) (isStem : ∀ stem ∈ stems, stem.IsStem)
    (branches : Branches exits tree { first with nextName := first.nextName + 1 } code second)
    (count : ∀ label, (Code.labels more).count label =
      (stems.map fun stem => labelText stem first.nextName).count label +
        (Code.labels code).count label)
    (jumps : ∀ target ∈ Code.targets more,
      target ∈ Code.targets code ∨ target ∈ Code.labels more) :
    first.Branches exits tree more second := by
  have marked := branches.mark count (fun target mem => (jumps target mem).imp_right .inl)
    (fun exit mem => .inr mem)
  rcases marked with ⟨⟨drawn, marked, others⟩, targets⟩
  refine ⟨⟨_, (Text.Marked.of_stems nodup isStem first.nextName).append marked, ?_⟩, targets⟩
  intro label
  simp only [others, List.count_append]
  omega

theorem mono (branches : first.Branches inner tree code second) (subset : inner ⊆ exits) :
    first.Branches exits tree code second :=
  ⟨branches.labels, fun target mem => (branches.targets target mem).imp_right (subset ·)⟩

/-- Instructions at the end that mark nothing and go nowhere. -/
theorem close (branches : first.Branches exits tree code second)
    (noLabels : Code.labels more = []) (noTargets : Code.targets more = []) :
    first.Branches exits tree (code ++ more) second := by
  have all := branches.append (.straight (Nat.le_refl _) noLabels noTargets)
  rwa [List.append_nil] at all

end Context.Branches

/-! ### Blocks -/

section Blocks

variable {context : Context}

theorem Pass.newTemporary_le (type : CType) :
    Yields (Pass.newTemporary type) context fun _ after => context.nextName ≤ after.nextName := by
  unfold Pass.newTemporary
  refine Ensures.bind_ok (Pass.run_uniqueName _ _) ?_
  refine Ensures.bind_ok (Pass.run_setSymbol _ _ _ _) ?_
  exact Ensures.pure (Nat.le_succ _)

/-- A block of instructions, none of them a label, that write to a new temporary. -/
theorem Pass.newTemporary_branches {α : Type} {type : CType} (code : Operand → Code)
    (value : Operand → α)
    (straight : ∀ target, Code.labels (code target) = [] ∧ Code.targets (code target) = []) :
    Yields (do
      let target ← Pass.newTemporary type
      pure (code target, value target)) context fun made after =>
        context.Branches [] [] made.1 after := by
  refine (Pass.newTemporary_le type).bind ?_
  intro target after le
  exact Ensures.pure (.straight le (straight target).1 (straight target).2)

namespace Place

theorem load_branches {type : CType} (place : Place) :
    Yields (place.load type) context fun made after => context.Branches [] [] made.1 after := by
  cases place with
  | nowhere => exact Ensures.throw trivial
  | value operand => exact Ensures.pure (.nil context)
  | behind pointer => exact Pass.newTemporary_branches _ _ fun _ => ⟨rfl, rfl⟩

theorem store_branches {source : Operand} (place : Place) :
    Yields (place.store source) context (context.Branches [] []) := by
  cases place with
  | nowhere => exact Ensures.throw trivial
  | value operand => exact Ensures.pure (.straight (Nat.le_refl _) rfl rfl)
  | behind pointer => exact Ensures.pure (.straight (Nat.le_refl _) rfl rfl)

theorem address_branches {type : CType} (place : Place) :
    Yields (place.address type) context fun made after => context.Branches [] [] made.1 after := by
  cases place with
  | nowhere => exact Ensures.throw trivial
  | value operand => exact Pass.newTemporary_branches _ _ fun _ => ⟨rfl, rfl⟩
  | behind pointer => exact Ensures.pure (.nil context)

theorem firstElement_branches {type : CType} (place : Place) :
    Yields (place.firstElement type) context fun made after =>
      context.Branches [] [] made.1 after := by
  cases place with
  | nowhere => exact Ensures.throw trivial
  | value operand | behind pointer => exact Pass.newTemporary_branches _ _ fun _ => ⟨rfl, rfl⟩

theorem loaded_branches {tree : List Text} {start : Context} {type : CType}
    {made : Code × Place} (branches : start.Branches [] tree made.1 context) :
    Yields (Place.loaded type made) context fun loaded after =>
      start.Branches [] tree loaded.1 after := by
  unfold Place.loaded
  refine (load_branches made.2).bind ?_
  rintro ⟨loadCode, operand⟩ after loads
  have all := branches.append loads
  rw [List.append_nil] at all
  exact Ensures.pure all

end Place

theorem Const.convert_yields {constant : Const} {type : CType} :
    Yields (constant.convert type) context fun _ after => context = after := by
  unfold Const.convert
  split
  · exact Ensures.pure rfl
  · exact Ensures.throw trivial

namespace Operand

variable {operand : Operand}

theorem convertObject_branches {source target : CType} :
    Yields (operand.convertObject source target) context fun made after =>
      context.Branches [] [] made.1 after := by
  unfold convertObject
  refine (Pass.newTemporary_le target).bind ?_
  intro temporary after le
  split <;> exact Ensures.pure (.straight le rfl rfl)

theorem convert_branches {source target : CType} :
    Yields (operand.convert source target) context fun made after =>
      context.Branches [] [] made.1 after := by
  unfold convert
  split
  · exact Ensures.pure (.nil context)
  · split
    · split
      · refine Const.convert_yields.bind ?_
        rintro value _ rfl
        exact Ensures.pure (.nil context)
      · split
        · refine Const.convert_yields.bind ?_
          rintro value _ rfl
          exact Ensures.pure (.nil context)
        · exact convertObject_branches
    · exact convertObject_branches

theorem addPointer_branches {type : CType} {index : Operand} :
    Yields (operand.addPointer type index) context fun made after =>
      context.Branches [] [] made.1 after :=
  Pass.newTemporary_branches _ _ fun _ => ⟨rfl, rfl⟩

theorem subPointer_branches {type : CType} {index : Operand} :
    Yields (operand.subPointer type index) context fun made after =>
      context.Branches [] [] made.1 after := by
  have negates : Yields index.negateIndex context fun made after =>
      context.Branches [] [] made.1 after := by
    unfold negateIndex
    split
    · exact Ensures.pure (.nil context)
    · exact Pass.newTemporary_branches _ _ fun _ => ⟨rfl, rfl⟩
  unfold subPointer
  refine negates.bind ?_
  rintro ⟨negateCode, index⟩ between branches
  refine addPointer_branches.bind ?_
  rintro ⟨addCode, target⟩ after more
  exact Ensures.pure (branches.append more)

theorem pointerDifference_branches {type : CType} {right : Operand} :
    Yields (operand.pointerDifference type right) context fun made after =>
      context.Branches [] [] made.1 after := by
  unfold pointerDifference
  refine (Pass.newTemporary_le _).bind ?_
  intro difference between le
  refine (Pass.newTemporary_le _).bind ?_
  intro target after more
  exact Ensures.pure (.straight (Nat.le_trans le more) rfl rfl)

theorem combine_branches {op : TwoOp} {type : CType} {right : Operand} :
    Yields (operand.combine op type right) context fun made after =>
      context.Branches [] [] made.1 after :=
  Pass.newTemporary_branches _ _ fun _ => ⟨rfl, rfl⟩

end Operand

namespace Expr

theorem unaryCode_branches {op : UnaryOp} {type : CType} {value : Operand} :
    Yields (unaryCode op type value) context fun made after =>
      context.Branches [] [] made.1 after := by
  unfold unaryCode
  split
  · exact Ensures.pure (.nil context)
  · exact Pass.newTemporary_branches _ _ fun _ => ⟨rfl, rfl⟩

theorem pointerCode_branches {op : ArithOp} {leftType rightType : CType} {left right : Operand} :
    Yields (pointerCode op leftType rightType left right) context fun made after =>
      context.Branches [] [] made.1 after := by
  unfold pointerCode
  split
  · split <;> exact Operand.addPointer_branches
  · split
    · exact Operand.pointerDifference_branches
    · exact Operand.subPointer_branches

theorem binaryCode_branches {op : TwoOp} {type leftType rightType : CType} {left right : Operand} :
    Yields (binaryCode op type leftType rightType left right) context fun made after =>
      context.Branches [] [] made.1 after := by
  unfold binaryCode
  split
  · exact Operand.combine_branches
  · split
    · exact pointerCode_branches
    · exact Operand.combine_branches

theorem compoundCode_branches {op : ArithOp} {type opType : CType} {current right : Operand} :
    Yields (compoundCode op type opType current right) context fun made after =>
      context.Branches [] [] made.1 after := by
  unfold compoundCode
  split
  · split
    · exact Operand.subPointer_branches
    · exact Operand.addPointer_branches
  · refine Operand.convert_branches.bind ?_
    rintro ⟨widenCode, current⟩ first widens
    refine Operand.combine_branches.bind ?_
    rintro ⟨computeCode, result⟩ second computes
    refine Operand.convert_branches.bind ?_
    rintro ⟨narrowCode, result⟩ after narrows
    exact Ensures.pure ((widens.append computes).append narrows)

theorem stepCode_branches {op : StepOp} {type : CType} {current : Operand} :
    Yields (stepCode op type current) context fun made after =>
      context.Branches [] [] made.1 after := by
  unfold stepCode
  split
  · exact Operand.addPointer_branches
  · refine Const.convert_yields.bind ?_
    rintro one _ rfl
    exact compoundCode_branches

theorem stepPlace_branches {form : StepForm} {op : StepOp} {type : CType} {place : Place} :
    Yields (stepPlace form op type place) context fun made after =>
      context.Branches [] [] made.1 after := by
  unfold stepPlace
  refine (Place.load_branches place).bind ?_
  rintro ⟨loadCode, current⟩ first loads
  have finish : ∀ (keepCode : Code) (old : Operand) (second : Context),
      first.Branches [] [] keepCode second →
      Yields (do
        let stepped ← stepCode op type current
        let storeCode ← place.store stepped.2
        pure (loadCode ++ keepCode ++ stepped.1 ++ storeCode,
          if form = .after then old else stepped.2))
        second fun made after => context.Branches [] [] made.1 after := by
    intro keepCode old second keeps
    refine stepCode_branches.bind ?_
    rintro ⟨code, new⟩ third steps
    refine (Place.store_branches place).bind ?_
    intro storeCode after stores
    exact Ensures.pure (((loads.append keeps).append steps).append stores)
  dsimp only
  split
  · have keeps : Yields (do
        let old ← Pass.newTemporary type
        pure (([.copy current old] : Code), old)) first fun made after =>
          first.Branches [] [] made.1 after := Pass.newTemporary_branches _ _ fun _ => ⟨rfl, rfl⟩
    rw [← bind_assoc (Pass.newTemporary type)]
    refine keeps.bind ?_
    rintro ⟨keepCode, old⟩ second keeps
    exact finish keepCode old second keeps
  · exact finish _ _ _ (.nil first)

theorem callCode_branches {name : Text} {type : CType} {arguments : List Operand} :
    Yields (callCode name type arguments) context fun made after =>
      context.Branches [] [] made.1 after := by
  unfold callCode
  split
  · exact Ensures.pure (.straight (Nat.le_refl _) rfl rfl)
  · exact Pass.newTemporary_branches _ _ fun _ => ⟨rfl, rfl⟩

end Expr

end Blocks

/-! ### Expressions -/

theorem LogicOp.labels_exit (op : LogicOp) (operand : Operand) (label : Text) (code : Code) :
    Code.labels (op.exit operand label :: code) = Code.labels code := by
  cases op <;> simp [exit, Code.label?]

theorem LogicOp.targets_exit (op : LogicOp) (operand : Operand) (label : Text) (code : Code) :
    Code.targets (op.exit operand label :: code) = label :: Code.targets code := by
  cases op <;> simp [exit, Code.target?]

theorem LogicOp.isStem_stems (op : LogicOp) :
    op.stems.1 ≠ op.stems.2 ∧ op.stems.1.IsStem ∧ op.stems.2.IsStem := by
  cases op with
  | and => exact ⟨by decide, Text.isStem_of_getLast? rfl (by decide),
      Text.isStem_of_getLast? rfl (by decide)⟩
  | or => exact ⟨by decide, Text.isStem_of_getLast? rfl (by decide),
      Text.isStem_of_getLast? rfl (by decide)⟩

namespace Context.Branches

variable {exits tests ways others : List Text} {context first second third after : Context}
  {testCode thenCode elseCode leftCode rightCode : Code}

/-- A test with two ways on, which meet behind the second one. -/
theorem choice (stems : Text × Text) (value : Operand) (differ : stems.1 ≠ stems.2)
    (areStems : stems.1.IsStem ∧ stems.2.IsStem)
    (conditions : Branches exits tests { context with nextName := context.nextName + 1 } testCode
      second)
    (thens : second.Branches exits ways thenCode third)
    (elses : third.Branches exits others elseCode after) :
    context.Branches exits (tests ++ ways ++ others)
      (testCode ++ [Instruction.jumpIfZero value (labelText stems.1 context.nextName)] ++
        thenCode ++ [Instruction.jump (labelText stems.2 context.nextName),
          .label (labelText stems.1 context.nextName)] ++ elseCode ++
        [Instruction.label (labelText stems.2 context.nextName)]) after := by
  have nodup : [stems.1, stems.2].Nodup := by simpa using differ
  refine .draw nodup (by simp [areStems]) ((conditions.append thens).append elses) ?_ ?_
  · intro label
    simp [Code.label?, List.count_cons]
    omega
  · intro target
    simp [Code.label?, Code.target?]
    grind

/-- Both operands of a logical operator may end the test. -/
theorem logic (op : LogicOp) {left right target : Operand}
    (le : context.nextName + 1 ≤ first.nextName)
    (lefts : first.Branches exits tests leftCode second)
    (rights : second.Branches exits ways rightCode after) :
    context.Branches exits (tests ++ ways)
      (leftCode ++ [op.exit left (labelText op.stems.1 context.nextName)] ++ rightCode ++
        [op.exit right (labelText op.stems.1 context.nextName),
          .copy (LogicOp.result !op.decided) target,
          .jump (labelText op.stems.2 context.nextName),
          .label (labelText op.stems.1 context.nextName),
          .copy (LogicOp.result op.decided) target,
          .label (labelText op.stems.2 context.nextName)]) after := by
  rcases op.isStem_stems with ⟨differ, isFirst, isSecond⟩
  have nodup : [op.stems.1, op.stems.2].Nodup := by simpa using differ
  have start : Branches exits (tests ++ ways) { context with nextName := context.nextName + 1 }
      (leftCode ++ rightCode) after := (lefts.append rights).grow le
  refine .draw nodup (by simp [isFirst, isSecond]) start ?_ ?_
  · intro label
    simp only [Code.labels_append, LogicOp.labels_exit]
    simp [Code.label?, List.count_cons]
    omega
  · intro target
    simp only [Code.labels_append, Code.targets_append, LogicOp.labels_exit,
      LogicOp.targets_exit]
    simp [Code.label?, Code.target?]
    grind

end Context.Branches

namespace Expr

theorem loaded_branches {expr : Expr} {context : Context}
    (lowers : Yields expr.lower context fun made after => context.Branches [] [] made.1 after) :
    Yields (expr.lower >>= Place.loaded expr.type) context fun made after =>
      context.Branches [] [] made.1 after :=
  lowers.bind fun _ _ branches => Place.loaded_branches branches

mutual

/-- The code of an expression has no labels but those drawn for it. -/
theorem lower_branches : ∀ (expr : Expr) {context : Context},
    Yields expr.lower context fun made after => context.Branches [] [] made.1 after
  | .constant _ _, context | .var _ _, context | .sizeofExpr _ _, context
  | .sizeofType _ _, context => by
      rw [lower]
      exact Ensures.pure (.nil context)
  | .string _ bytes, context => by
      rw [lower]
      refine Ensures.bind_ok rfl ?_
      exact Ensures.pure (.straight (Nat.le_succ _) rfl rfl)
  | .unary _ op operand, context => by
      rw [lower]
      refine (loaded_branches (lower_branches operand)).bind ?_
      rintro ⟨operandCode, value⟩ first operands
      refine unaryCode_branches.bind ?_
      rintro ⟨code, result⟩ after computes
      exact Ensures.pure (operands.append computes)
  | .binary _ op left right, context => by
      rw [lower]
      split
      · rename_i op _
        refine Ensures.bind_ok (Pass.run_newLabelPair _ _ _) ?_
        refine (Pass.newTemporary_le _).bind ?_
        intro target first le
        refine (loaded_branches (lower_branches left)).bind ?_
        rintro ⟨leftCode, leftValue⟩ second lefts
        refine (loaded_branches (lower_branches right)).bind ?_
        rintro ⟨rightCode, rightValue⟩ after rights
        exact Ensures.pure (.logic op le lefts rights)
      · refine (loaded_branches (lower_branches left)).bind ?_
        rintro ⟨leftCode, leftValue⟩ second lefts
        refine (loaded_branches (lower_branches right)).bind ?_
        rintro ⟨rightCode, rightValue⟩ third rights
        refine binaryCode_branches.bind ?_
        rintro ⟨code, result⟩ after computes
        exact Ensures.pure ((lefts.append rights).append computes)
  | .assign _ op left right opType, context => by
      rw [lower]
      refine (lower_branches left).bind ?_
      rintro ⟨leftCode, place⟩ first lefts
      cases op with
      | plain =>
          refine (loaded_branches (lower_branches right)).bind ?_
          rintro ⟨rightCode, value⟩ second rights
          refine (Place.store_branches place).bind ?_
          intro storeCode after stores
          exact Ensures.pure ((lefts.append rights).append stores)
      | compound op =>
          refine (Place.load_branches place).bind ?_
          rintro ⟨loadCode, current⟩ second loads
          refine (loaded_branches (lower_branches right)).bind ?_
          rintro ⟨rightCode, value⟩ third rights
          refine compoundCode_branches.bind ?_
          rintro ⟨code, result⟩ fourth computes
          refine (Place.store_branches place).bind ?_
          intro storeCode after stores
          exact Ensures.pure ((((lefts.append loads).append rights).append computes).append stores)
  | .conditional note condition thenBranch elseBranch, context => by
      have areStems : Text.IsStem "cond_else" ∧ Text.IsStem "cond_end" :=
        ⟨Text.isStem_of_getLast? rfl (by decide), Text.isStem_of_getLast? rfl (by decide)⟩
      rw [lower]
      refine Ensures.bind_ok (Pass.run_newLabelPair _ _ _) ?_
      refine (loaded_branches (lower_branches condition)).bind ?_
      rintro ⟨conditionCode, value⟩ first conditions
      dsimp only
      refine Ensures.ite ?_ ?_
      · intro _
        refine (lower_branches thenBranch).bind ?_
        rintro ⟨thenCode, thenPlace⟩ second thens
        refine (lower_branches elseBranch).bind ?_
        rintro ⟨elseCode, elsePlace⟩ after elses
        exact Ensures.pure
          (.choice ("cond_else", "cond_end") value (by decide) areStems conditions thens elses)
      · intro _
        refine (Pass.newTemporary_le _).bind ?_
        intro target second le
        refine (loaded_branches (lower_branches thenBranch)).bind ?_
        rintro ⟨thenCode, thenValue⟩ third thens
        refine (loaded_branches (lower_branches elseBranch)).bind ?_
        rintro ⟨elseCode, elseValue⟩ after elses
        have thens : first.Branches [] [] (thenCode ++ [.copy thenValue target]) third :=
          (thens.grow le).close rfl rfl
        have elses : third.Branches [] [] (elseCode ++ [.copy elseValue target]) after :=
          elses.close rfl rfl
        have branches := Context.Branches.choice ("cond_else", "cond_end") value (by decide)
          areStems conditions thens elses
        simp only [List.append_assoc, List.cons_append, List.nil_append] at branches ⊢
        exact Ensures.pure branches
  | .call note name arguments, context => by
      rw [lower]
      refine (lowerArguments_branches arguments).bind ?_
      rintro ⟨argumentsCode, values⟩ first branches
      refine callCode_branches.bind ?_
      rintro ⟨code, place⟩ after calls
      exact Ensures.pure (branches.append calls)
  | .cast _ target operand _, context => by
      rw [lower]
      split
      · refine (lower_branches operand).bind ?_
        rintro ⟨code, place⟩ after branches
        exact Ensures.pure branches
      · refine (loaded_branches (lower_branches operand)).bind ?_
        rintro ⟨operandCode, value⟩ first operands
        refine Operand.convert_branches.bind ?_
        rintro ⟨code, result⟩ after converts
        exact Ensures.pure (operands.append converts)
  | .addressOf note operand, context => by
      rw [lower]
      refine (lower_branches operand).bind ?_
      rintro ⟨operandCode, place⟩ first operands
      refine (Place.address_branches place).bind ?_
      rintro ⟨code, pointer⟩ after addresses
      exact Ensures.pure (operands.append addresses)
  | .dereference _ operand, context => by
      rw [lower]
      refine (loaded_branches (lower_branches operand)).bind ?_
      rintro ⟨code, pointer⟩ after branches
      exact Ensures.pure branches
  | .subscript _ array index, context => by
      rw [lower]
      refine (loaded_branches (lower_branches array)).bind ?_
      rintro ⟨arrayCode, arrayValue⟩ first arrays
      refine (loaded_branches (lower_branches index)).bind ?_
      rintro ⟨indexCode, indexValue⟩ second indices
      refine pointerCode_branches.bind ?_
      rintro ⟨code, pointer⟩ after computes
      exact Ensures.pure ((arrays.append indices).append computes)
  | .step _ form op operand, context => by
      rw [lower]
      refine (lower_branches operand).bind ?_
      rintro ⟨operandCode, place⟩ first operands
      refine stepPlace_branches.bind ?_
      rintro ⟨code, value⟩ after steps
      exact Ensures.pure (operands.append steps)
  | .decay note operand, context => by
      rw [lower]
      refine (lower_branches operand).bind ?_
      rintro ⟨operandCode, place⟩ first operands
      refine (Place.firstElement_branches place).bind ?_
      rintro ⟨code, pointer⟩ after decays
      exact Ensures.pure (operands.append decays)

theorem lowerArguments_branches : ∀ (arguments : List Expr) {context : Context},
    Yields (lowerArguments arguments) context fun made after => context.Branches [] [] made.1 after
  | [], context => by
      rw [lowerArguments]
      exact Ensures.pure (.nil context)
  | argument :: arguments, context => by
      rw [lowerArguments]
      refine (loaded_branches (lower_branches argument)).bind ?_
      rintro ⟨code, value⟩ first branches
      refine (lowerArguments_branches arguments).bind ?_
      rintro ⟨restCode, values⟩ after rest
      exact Ensures.pure (branches.append rest)

end

theorem lowerEffect_branches (expr : Expr) {context : Context} :
    Yields expr.lowerEffect context (context.Branches [] []) := by
  unfold lowerEffect
  refine (lower_branches expr).bind ?_
  rintro ⟨code, place⟩ after branches
  exact Ensures.pure branches

theorem lowerEffectOption_branches (value : Option Expr) {context : Context} :
    Yields (lowerEffectOption value) context (context.Branches [] []) := by
  cases value with
  | none => exact Ensures.pure (.nil context)
  | some expr => exact lowerEffect_branches expr

theorem lowerTest_branches {exits : List Text} (target : Text) (condition : Option Expr)
    (isExit : target ∈ exits) {context : Context} :
    Yields (lowerTest target condition) context (context.Branches exits []) := by
  cases condition with
  | none => exact Ensures.pure (.nil context)
  | some condition =>
      rw [lowerTest]
      refine (loaded_branches (lower_branches condition)).bind ?_
      rintro ⟨code, value⟩ after branches
      have all : context.Branches exits ([] ++ [])
          (code ++ [Instruction.jumpIfZero value target]) after := by
        refine branches.mark ?_ ?_ nofun
        · simp [Code.label?]
        · intro other
          simp only [Code.targets_append, Code.targets_cons, Code.target?, List.mem_append]
          simp
          rintro (mem | rfl)
          · exact .inl mem
          · exact .inr (.inr isExit)
      exact Ensures.pure all

end Expr

end SubsetC
