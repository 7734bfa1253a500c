import SubsetC.Proofs.CheckedLabels
import SubsetC.Proofs.CodeLabels
import SubsetC.Proofs.StmtCode
import Mathlib.Logic.Relation

/-!
# Control flow of lowered code

The code of a statement has the labels of its loops, switches and cases, and labels drawn while it
is made; its jumps go to these, or leave for the loop or switch around. No jump leaves the body of a
function, which ends with a return. So every path through the code of a function stays inside it,
until it comes to a return.
-/

namespace SubsetC

/-! ### Declarations -/

theorem labels_writeBytes (name : Text) (offset : Size) (bytes : Text) :
    Code.labels (writeBytes name offset bytes) = [] ∧
      Code.targets (writeBytes name offset bytes) = [] := by
  fun_induction writeBytes name offset bytes with
  | case1 => exact ⟨rfl, rfl⟩
  | case2 offset bytes _ width ih => simpa [Code.label?, Code.target?] using ih

theorem Expr.lowerValue_branches (expr : Expr) {context : Context} :
    Yields expr.lowerValue context fun made after => context.Branches [] [] made.1 after :=
  loaded_branches (lower_branches expr)

namespace Initializer

mutual

theorem lowerAt_branches (name : Text) : ∀ (init : Initializer) (type : CType) (offset : Size)
    {context : Context},
    Yields (init.lowerAt name type offset) context (context.Branches [] [])
  | .single _ value, type, offset, context => by
      unfold lowerAt
      split
      · rename_i size element _ bytes
        generalize CType.array size element = type
        refine Ensures.ite (fun _ => Ensures.throw trivial) fun _ => ?_
        rcases labels_writeBytes name offset
          ((bytes ++ List.replicate (type.size.toNat - bytes.length) 0).take type.size.toNat) with
          ⟨noLabels, noTargets⟩
        exact Ensures.pure (.straight (Nat.le_refl _) noLabels noTargets)
      · refine (Expr.lowerValue_branches value).bind ?_
        rintro ⟨code, operand⟩ after branches
        exact Ensures.pure (branches.close rfl rfl)
  | .compound _ items, type, offset, context => by
      rw [lowerAt]
      exact lowerElements_branches name items _ offset

theorem lowerElements_branches (name : Text) : ∀ (items : List Initializer) (element : CType)
    (offset : Size) {context : Context},
    Yields (lowerElements name element offset items) context (context.Branches [] [])
  | [], element, offset, context => by
      rw [lowerElements]
      exact Ensures.pure (.nil context)
  | item :: items, element, offset, context => by
      rw [lowerElements]
      refine (lowerAt_branches name item element offset).bind ?_
      intro code between branches
      refine (lowerElements_branches name items element _).bind ?_
      intro more after rest
      exact Ensures.pure (branches.append rest)

end

end Initializer

theorem VarDecl.lower_branches (decl : VarDecl) {context : Context} :
    Yields decl.lower context (context.Branches [] []) := by
  unfold VarDecl.lower
  split
  · split
    · exact Initializer.lowerAt_branches _ _ _ _
    · rename_i value _ _
      refine (Expr.lowerValue_branches value).bind ?_
      rintro ⟨code, operand⟩ after branches
      exact Ensures.pure (branches.close rfl rfl)
    · exact Initializer.lowerAt_branches _ _ _ _
  · exact Ensures.pure (.nil context)

theorem VarDecl.lowerList_branches : ∀ (decls : List VarDecl) {context : Context},
    Yields (VarDecl.lowerList decls) context (context.Branches [] [])
  | [], context => Ensures.pure (.nil context)
  | decl :: decls, context => by
      rw [lowerList]
      refine (VarDecl.lower_branches decl).bind ?_
      intro code between branches
      refine (lowerList_branches decls).bind ?_
      intro more after rest
      exact Ensures.pure (branches.append rest)

theorem ForInit.lower_branches (init : ForInit) {context : Context} :
    Yields init.lower context (context.Branches [] []) := by
  cases init with
  | declarations _ decls => exact VarDecl.lowerList_branches decls
  | expression _ value => exact Expr.lowerEffectOption_branches value

/-! ### Statements -/

/-- The labels that jumps at a place may go to outside the statement they stand in. -/
def Targets.exits (targets : Targets) : List Text :=
  (targets.breakLabel.map fun label => breakLabelOf (some label)).toList ++
    (targets.continueLabel.map fun label => continueLabelOf (some label)).toList

/-- The comparisons of a switch go to its cases. -/
theorem SwitchCase.lowerList_branches {value : Operand} {type : CType} :
    ∀ (cases : List SwitchCase) {context : Context},
    Yields (lowerList value type cases) context
      (context.Branches (cases.map SwitchCase.label) [])
  | [], context => Ensures.pure (.nil context)
  | ⟨none, label, span⟩ :: cases, context => by
      rw [lowerList]
      exact (lowerList_branches cases).mono fun _ _ branches =>
        branches.mono (List.subset_cons_self _ _)
  | ⟨some constant, label, span⟩ :: cases, context => by
      rw [lowerList]
      refine (Pass.newTemporary_le _).bind ?_
      intro same first le
      refine Const.convert_yields.bind ?_
      rintro converted _ rfl
      refine (lowerList_branches cases).bind ?_
      intro code after branches
      have first : context.Branches (label :: cases.map SwitchCase.label) []
          [.binary (.compare .equal) value (.constant converted) same, .jumpIfNotZero same label]
          first := ⟨⟨[], .nil le, by simp [Code.label?]⟩, by simp [Code.target?]⟩
      exact Ensures.pure (first.append (branches.mono (List.subset_cons_self _ _)))

theorem SwitchCase.fallback_mem (otherwise : Text) (cases : List SwitchCase) :
    fallback otherwise cases ∈ otherwise :: cases.map SwitchCase.label := by
  unfold fallback
  induction cases generalizing otherwise with
  | nil => simp
  | cons case cases ih =>
      rw [List.foldl_cons, List.map_cons]
      split
      · exact List.mem_cons_of_mem _ (ih case.label)
      · rcases List.mem_cons.1 (ih otherwise) with same | mem
        · rw [same]
          exact List.mem_cons_self
        · exact List.mem_cons_of_mem _ (List.mem_cons_of_mem _ mem)

theorem SwitchCase.Denotes.map_label {type : CType} {cases : List SwitchCase}
    {nodes : List CaseNode} (denote : List.Forall₂ (Denotes type) cases nodes) :
    cases.map SwitchCase.label = nodes.map CaseNode.label := by
  induction denote with
  | nil => rfl
  | cons denotes _ ih => rw [List.map_cons, List.map_cons, denotes.1, ih]

/-- The comparisons of a switch go to cases in its body, and what the body leaves the switch for
stands behind it. -/
theorem Context.Branches.switch {targets : Targets} {own : Text} {cases : List SwitchCase}
    {labels : List Text} {valueCode casesCode bodyCode : Code}
    {context first second after : Context} (values : context.Branches [] [] valueCode first)
    (comparisons : first.Branches (cases.map SwitchCase.label) [] casesCode second)
    (bodies : second.Branches (targets.inSwitch own).exits labels bodyCode after)
    (inBody : cases.map SwitchCase.label ⊆ labels) :
    context.Branches targets.exits ([Targets.breakLabelOf (some own)] ++ labels)
      (valueCode ++ casesCode ++
        [Instruction.jump (SwitchCase.fallback (Targets.breakLabelOf (some own)) cases)] ++
        bodyCode ++ [Instruction.label (Targets.breakLabelOf (some own))]) after := by
  have isLabel : ∀ label ∈ Targets.breakLabelOf (some own) :: cases.map SwitchCase.label,
      label ∈ Code.labels (valueCode ++ casesCode ++
        [Instruction.jump (SwitchCase.fallback (Targets.breakLabelOf (some own)) cases)] ++
        bodyCode ++ [Instruction.label (Targets.breakLabelOf (some own))]) := by
    intro label mem
    rw [Code.labels_append, Code.labels_append, List.mem_append, List.mem_append]
    rcases List.mem_cons.1 mem with rfl | mem
    · exact .inr List.mem_cons_self
    · exact .inl (.inr (bodies.mem_labels (inBody mem)))
  have all := ((values.mono (List.nil_subset _)).append
    (comparisons.mono (List.subset_append_left _ _))).append
    (bodies.mono (List.subset_append_right (cases.map SwitchCase.label) _))
  refine all.mark ?_ ?_ ?_
  · intro label
    simp [Code.label?, List.count_cons]
    omega
  · intro target mem
    simp only [Code.targets_append, List.mem_append] at mem ⊢
    rcases mem with (((mem | mem) | mem) | mem) | mem
    · exact .inl (.inl (.inl mem))
    · exact .inl (.inl (.inr mem))
    · obtain rfl := List.mem_singleton.1 mem
      exact .inr (.inl (isLabel _ (SwitchCase.fallback_mem _ cases)))
    · exact .inl (.inr mem)
    · cases mem
  · intro exit mem
    rcases List.mem_append.1 mem with mem | mem
    · exact .inl (isLabel exit (List.mem_cons_of_mem _ mem))
    · rcases List.mem_cons.1 mem with rfl | mem
      · exact .inl (isLabel _ List.mem_cons_self)
      · exact .inr (List.mem_append_right _ mem)

mutual

/-- The code of a statement has its labels, and its jumps stay inside or leave for the loop or
switch around. -/
theorem Stmt.lower_branches : ∀ (stmt : Stmt) {targets : Targets} {context : Context},
    stmt.Bound SwitchCase.Denotes targets →
    Yields stmt.lower context (context.Branches targets.exits stmt.labels)
  | .ret _ none, targets, context, _ => by
      rw [Stmt.lower]
      exact Ensures.pure (.straight (Nat.le_refl _) rfl rfl)
  | .ret _ (some value), targets, context, _ => by
      rw [Stmt.lower]
      refine (Expr.lowerValue_branches value).bind ?_
      rintro ⟨code, operand⟩ after branches
      exact Ensures.pure ((branches.close rfl rfl).mono (List.nil_subset _))
  | .expr _ value, targets, context, _ => by
      rw [Stmt.lower]
      exact (Expr.lowerEffect_branches value).mono fun _ _ branches =>
        branches.mono (List.nil_subset _)
  | .ifThen _ condition body, targets, context, bound => by
      rw [Stmt.lower]
      refine Ensures.bind_ok (Pass.run_newLabelPair _ _ _) ?_
      refine (Expr.lowerValue_branches condition).bind ?_
      rintro ⟨conditionCode, value⟩ first conditions
      refine (Stmt.lower_branches body bound).bind ?_
      intro bodyCode after bodies
      have isStem : ∀ stem ∈ (["if_end"] : List Text), stem.IsStem := by
        simpa using Text.isStem_of_getLast? rfl (by decide)
      refine Ensures.pure (.draw (List.nodup_singleton _) isStem
        ((conditions.mono (List.nil_subset _)).append bodies) ?_ ?_)
      · intro label
        simp [Code.label?, List.count_cons]
        omega
      · intro target
        simp [Code.label?, Code.target?]
        grind
  | .ifElse _ condition thenBranch elseBranch, targets, context, bound => by
      rw [Stmt.lower]
      refine Ensures.bind_ok (Pass.run_newLabelPair _ _ _) ?_
      refine (Expr.lowerValue_branches condition).bind ?_
      rintro ⟨conditionCode, value⟩ first conditions
      refine (Stmt.lower_branches thenBranch bound.1).bind ?_
      intro thenCode second thens
      refine (Stmt.lower_branches elseBranch bound.2).bind ?_
      intro elseCode after elses
      have areStems : Text.IsStem "if_else" ∧ Text.IsStem "if_end" :=
        ⟨Text.isStem_of_getLast? rfl (by decide), Text.isStem_of_getLast? rfl (by decide)⟩
      exact Ensures.pure (.choice ("if_else", "if_end") value (by decide) areStems
        (conditions.mono (List.nil_subset _)) thens elses)
  | .block _ items, targets, context, bound => by
      rw [Stmt.lower]
      exact Item.lowerList_branches items bound
  | .whileLoop _ _ condition body, targets, context, ⟨own, rfl, bound⟩ => by
      rw [Stmt.lower]
      refine (Expr.lowerValue_branches condition).bind ?_
      rintro ⟨conditionCode, value⟩ first conditions
      refine (Stmt.lower_branches body bound).bind ?_
      intro bodyCode after bodies
      refine Ensures.pure (((conditions.mono (List.nil_subset _)).append bodies).mark ?_ ?_ ?_)
      · intro label
        simp [Code.label?, List.count_cons]
        omega
      · intro target
        simp [Code.label?, Code.target?]
        grind
      · simp [Targets.exits, Targets.inLoop, Code.label?]
  | .doWhile _ _ body condition, targets, context, ⟨own, rfl, bound⟩ => by
      rw [Stmt.lower]
      refine (Stmt.lower_branches body bound).bind ?_
      intro bodyCode first bodies
      refine (Expr.lowerValue_branches condition).bind ?_
      rintro ⟨conditionCode, value⟩ after conditions
      have all := bodies.append (conditions.mono (List.nil_subset _))
      rw [List.append_nil] at all
      refine Ensures.pure (all.mark ?_ ?_ ?_)
      · intro label
        simp [Code.label?, List.count_cons]
        omega
      · intro target
        simp [Code.label?, Code.target?]
        grind
      · simp [Targets.exits, Targets.inLoop, Code.label?]
  | .forLoop _ _ init condition post body, targets, context, ⟨own, rfl, bound⟩ => by
      rw [Stmt.lower]
      refine (ForInit.lower_branches init).bind ?_
      intro initCode first inits
      have isExit : Targets.breakLabelOf (some own) ∈ (targets.inLoop own).exits :=
        List.mem_cons_self
      refine (Expr.lowerTest_branches _ condition isExit).bind ?_
      intro testCode second tests
      refine (Stmt.lower_branches body bound).bind ?_
      intro bodyCode third bodies
      refine (Expr.lowerEffectOption_branches post).bind ?_
      intro postCode after posts
      have all := (((inits.mono (List.nil_subset _)).append tests).append bodies).append
        (posts.mono (List.nil_subset _))
      rw [List.append_nil] at all
      refine Ensures.pure (all.mark ?_ ?_ ?_)
      · intro label
        simp [Code.label?, List.count_cons]
        omega
      · intro target
        simp [Code.label?, Code.target?]
        grind
      · simp [Targets.exits, Targets.inLoop, Code.label?]
  | .switch _ _ value body cases, targets, context, ⟨own, rfl, bound, denote, _⟩ => by
      rw [Stmt.lower]
      refine (Expr.lowerValue_branches value).bind ?_
      rintro ⟨valueCode, operand⟩ first values
      refine (SwitchCase.lowerList_branches cases).bind ?_
      intro casesCode second comparisons
      refine (Stmt.lower_branches body bound).bind ?_
      intro bodyCode after bodies
      refine Ensures.pure (.switch values comparisons bodies ?_)
      intro label mem
      rw [SwitchCase.Denotes.map_label denote] at mem
      rcases List.mem_map.1 mem with ⟨node, nodeMem, rfl⟩
      exact Stmt.label_mem_labels body nodeMem
  | .case _ label _ body, targets, context, bound
  | .default _ label body, targets, context, bound => by
      rw [Stmt.lower]
      refine (Stmt.lower_branches body bound).bind ?_
      intro code after branches
      refine Ensures.pure (branches.mark ?_ ?_ fun exit mem => .inr mem)
      · simp [Code.label?, List.count_cons]
        omega
      · intro target
        simp [Code.label?, Code.target?]
        grind
  | .break _ label, targets, context, ⟨isTarget, isSome⟩ => by
      rw [Stmt.lower]
      rcases Option.isSome_iff_exists.1 isSome with ⟨own, rfl⟩
      refine Ensures.pure ⟨⟨[], .nil (Nat.le_refl _), by simp [Code.label?, Stmt.labels]⟩, ?_⟩
      simp [Code.target?, Targets.exits, ← isTarget]
  | .continue _ label, targets, context, ⟨isTarget, isSome⟩ => by
      rw [Stmt.lower]
      rcases Option.isSome_iff_exists.1 isSome with ⟨own, rfl⟩
      refine Ensures.pure ⟨⟨[], .nil (Nat.le_refl _), by simp [Code.label?, Stmt.labels]⟩, ?_⟩
      simp [Code.target?, Targets.exits, ← isTarget]
  | .null _, targets, context, _ => by
      rw [Stmt.lower]
      exact Ensures.pure (.nil context)

theorem Item.lowerList_branches : ∀ (items : List Item) {targets : Targets} {context : Context},
    Item.BoundList SwitchCase.Denotes targets items →
    Yields (Item.lowerList items) context (context.Branches targets.exits (Item.labelsList items))
  | [], targets, context, _ => by
      rw [Item.lowerList]
      exact Ensures.pure (.nil context)
  | .stmt stmt :: items, targets, context, bound => by
      rw [Item.lowerList]
      refine (Stmt.lower_branches stmt bound.1).bind ?_
      intro code between branches
      refine (Item.lowerList_branches items bound.2).bind ?_
      intro more after rest
      exact Ensures.pure (branches.append rest)
  | .decl (.object decl) :: items, targets, context, bound => by
      rw [Item.lowerList]
      refine (VarDecl.lower_branches decl).bind ?_
      intro code between branches
      refine (Item.lowerList_branches items bound).bind ?_
      intro more after rest
      exact Ensures.pure ((branches.mono (List.nil_subset _)).append rest)
  | .decl (.function _) :: items, targets, context, bound
  | .decl (.definition _ _ _) :: items, targets, context, bound => by
      rw [Item.lowerList]
      · exact Item.lowerList_branches items bound
      · simp

end

/-! ### Paths -/

namespace Code

/-- The instruction behind may be executed next. -/
def fallsThrough : Instruction → Bool
  | .ret _ | .jump _ => false
  | _ => true

/-- One step along a path through the body of a function, from the code that remains to the code
that remains then. -/
inductive Flows (body : Code) : Code → Code → Prop where
  | next {instruction : Instruction} {rest : Code} (falls : fallsThrough instruction) :
      Flows body (instruction :: rest) rest
  | jump {instruction : Instruction} {rest code : Code} {target : Text}
      (goes : target? instruction = some target) (found : after? target body = some code) :
      Flows body (instruction :: rest) code

/-- The first instruction of the remaining code returns, or a path goes on. -/
def Proceeds (body : Code) : Code → Prop
  | [] => False
  | instruction :: rest =>
      (∃ value, instruction = .ret value) ∨ ∃ code, body.Flows (instruction :: rest) code

end Code

/-- The control flow of a function is closed. -/
structure Function.IsClosed (function : Function) : Prop where
  /-- Every jump goes to one place of the function. -/
  targets : ∀ target ∈ Code.targets function.body,
    (Code.labels function.body).count target = 1
  /-- The last instruction returns. -/
  returns : ∃ value, function.body.getLast? = some (.ret value)

namespace Code

theorem after?_suffix {target : Text} : ∀ {body code : Code}, after? target body = some code →
    ∃ name, .label name :: code <:+ body
  | [], code, found => nomatch found
  | instruction :: rest, code, found => by
      rw [after?] at found
      split at found
      · rename_i isLabel
        cases found
        cases instruction <;> simp [label?] at isLabel
        exact ⟨_, List.suffix_refl _⟩
      · rcases after?_suffix found with ⟨name, suffix⟩
        exact ⟨name, suffix.trans (List.suffix_cons _ _)⟩

theorem exists_after? {target : Text} : ∀ {body : Code}, target ∈ labels body →
    ∃ code, after? target body = some code
  | [], mem => nomatch mem
  | instruction :: rest, mem => by
      rw [after?]
      split
      · exact ⟨rest, rfl⟩
      · rename_i differs
        rw [labels_cons, List.mem_append] at mem
        refine exists_after? (mem.resolve_left ?_)
        simpa [Option.mem_toList] using differs

theorem getLast?_of_suffix {body : Code} {instruction : Instruction}
    (suffix : [instruction] <:+ body) : body.getLast? = some instruction := by
  rcases suffix with ⟨front, rfl⟩
  simp

end Code

namespace Function.IsClosed

variable {function : Function} {rest : Code}

/-- Every jump goes to code of the function. -/
theorem exists_after? (closed : function.IsClosed) {target : Text}
    (isTarget : target ∈ Code.targets function.body) :
    ∃ code, Code.after? target function.body = some code :=
  have once := closed.targets target isTarget
  Code.exists_after? (List.count_pos_iff.1 (Nat.lt_of_lt_of_eq Nat.zero_lt_one once.symm))

/-- A step along a path stays in the function. -/
theorem flows_suffix (closed : function.IsClosed) {code : Code} (suffix : rest <:+ function.body)
    (flows : function.body.Flows rest code) : code <:+ function.body ∧ code ≠ [] := by
  rcases closed.returns with ⟨value, last⟩
  cases flows with
  | next falls =>
      refine ⟨(List.suffix_cons _ _).trans suffix, ?_⟩
      rintro rfl
      cases last.symm.trans (Code.getLast?_of_suffix suffix)
      cases falls
  | jump goes found =>
      rcases Code.after?_suffix found with ⟨name, suffix⟩
      refine ⟨(List.suffix_cons _ _).trans suffix, ?_⟩
      rintro rfl
      cases last.symm.trans (Code.getLast?_of_suffix suffix)

/-- A path goes on until it comes to a return. -/
theorem proceeds_of_suffix (closed : function.IsClosed) (suffix : rest <:+ function.body)
    (notEmpty : rest ≠ []) : function.body.Proceeds rest := by
  cases rest with
  | nil => exact absurd rfl notEmpty
  | cons instruction rest =>
      have mem : instruction ∈ function.body := suffix.mem List.mem_cons_self
      have goes : ∀ target, Code.target? instruction = some target →
          ∃ code, function.body.Flows (instruction :: rest) code := by
        intro target isTarget
        rcases closed.exists_after? (List.mem_filterMap.2 ⟨instruction, mem, isTarget⟩) with
          ⟨code, found⟩
        exact ⟨code, .jump isTarget found⟩
      cases instruction with
      | ret value => exact .inl ⟨value, rfl⟩
      | jump target => exact .inr (goes target rfl)
      | _ => exact .inr ⟨rest, .next rfl⟩

/-- No path leaves the function. -/
theorem proceeds (closed : function.IsClosed)
    (path : Relation.ReflTransGen function.body.Flows function.body rest) :
    function.body.Proceeds rest := by
  have inside : rest <:+ function.body ∧ rest ≠ [] := by
    induction path with
    | refl =>
        refine ⟨List.suffix_refl _, ?_⟩
        rcases closed.returns with ⟨value, last⟩
        intro isEmpty
        rw [isEmpty] at last
        cases last
    | tail _ flows ih => exact closed.flows_suffix ih.1 flows
  exact closed.proceeds_of_suffix inside.1 inside.2

end Function.IsClosed

/-- The steps of the machine are steps along paths. -/
theorem Machine.flows_of_step? {machine : Machine} {body code next : Code} {store after : Store}
    (steps : machine.step? body (code, store) = some (.inr (next, after))) :
    body.Flows code next := by
  have goes : ∀ {instruction : Instruction} {rest : Code} {target : Text},
      Code.target? instruction = some target →
      goto? body target store = some (.inr (next, after)) →
      body.Flows (instruction :: rest) next := by
    intro instruction rest target isTarget found
    rcases Option.map_eq_some_iff.1 found with ⟨code, isCode, same⟩
    cases same
    exact .jump isTarget isCode
  cases code with
  | nil => cases steps
  | cons instruction rest =>
      cases instruction with
      | ret value =>
          rcases Option.map_eq_some_iff.1 steps with ⟨_, _, same⟩
          cases same
      | jump target => exact goes rfl steps
      | label name =>
          cases steps
          exact .next rfl
      | jumpIfZero condition target | jumpIfNotZero condition target =>
          rcases Option.bind_eq_some_iff.1 steps with ⟨number, _, steps⟩
          split at steps
          · first
              | exact goes rfl steps
              | cases steps; exact .next rfl
          · first
              | exact goes rfl steps
              | cases steps; exact .next rfl
      | convert _ _ _ | unary _ _ _ | binary _ _ _ _ | copy _ _ =>
          rcases Option.map_eq_some_iff.1 steps with ⟨_, _, same⟩
          cases same
          exact .next rfl
      | _ => cases steps

/-- No run of a machine leaves the function. -/
theorem Function.IsClosed.proceeds_of_run {function : Function} (closed : function.IsClosed)
    {machine : Machine} {store : Store} {state : Machine.State}
    (run : Relation.ReflTransGen (machine.Steps function.body) (function.body, store) state) :
    function.body.Proceeds state.1 :=
  closed.proceeds (run.lift Prod.fst fun _ _ steps => Machine.flows_of_step? steps)

/-- Control never leaves a function: it goes on inside until it comes to a return. -/
structure Function.StaysInside (function : Function) : Prop extends function.IsClosed where
  paths : ∀ rest, Relation.ReflTransGen function.body.Flows function.body rest →
    function.body.Proceeds rest
  /-- No machine leaves it, from any store. -/
  runs : ∀ (machine : Machine) (store : Store) (state : Machine.State),
    Relation.ReflTransGen (machine.Steps function.body) (function.body, store) state →
      function.body.Proceeds state.1

/-! ### Functions -/

theorem CType.lowerEnd_returns {result : CType} {context : Context} :
    Yields result.lowerEnd context fun code after =>
      context = after ∧ ∃ value, code = [.ret value] := by
  unfold CType.lowerEnd
  refine Ensures.ite (fun _ => Ensures.pure ⟨rfl, _, rfl⟩) fun _ => ?_
  split
  · exact Ensures.pure ⟨rfl, _, rfl⟩
  · exact Ensures.throw trivial

/-- The code of a function has the labels of its body and labels drawn for it, its jumps stay
inside, and it ends with a return. -/
theorem FunDecl.lower_branches {decl : FunDecl} {body : List Item} {context : Context}
    (bound : Item.BoundList SwitchCase.Denotes .none body) :
    Yields (decl.lower body) context fun function after =>
      context.Branches [] (Item.labelsList body) function.body after ∧
        ∃ value, function.body.getLast? = some (.ret value) := by
  unfold FunDecl.lower
  refine Pass.functionIsGlobal_yields.bind ?_
  rintro isGlobal _ rfl
  refine (Item.lowerList_branches body bound).bind ?_
  intro bodyCode after branches
  refine CType.lowerEnd_returns.bind ?_
  rintro endCode _ ⟨rfl, value, rfl⟩
  exact Ensures.pure ⟨branches.close rfl rfl, value, by simp⟩

/-! ### Compilation units -/

def Function.labels (function : Function) : List Text := Code.labels function.body

/-- The labels of all functions, in order. -/
def LinearProgram.labels (program : LinearProgram) : List Text :=
  program.functions.flatMap Function.labels

theorem LinearProgram.functions_parts (functions : List Function) (objects : List StaticObject)
    (constants : List StaticConstant) : LinearProgram.functions
      (functions.map .function ++ objects.map .object ++ constants.map .constant) = functions := by
  simp only [LinearProgram.functions, List.filterMap_append, List.filterMap_map]
  have ofFunction : TopLevel.function? ∘ TopLevel.function = some := rfl
  have ofObject : TopLevel.function? ∘ TopLevel.object = fun _ => none := rfl
  have ofConstant : TopLevel.function? ∘ TopLevel.constant = fun _ => none := rfl
  rw [ofFunction, ofObject, ofConstant]
  simp

namespace Program

/-- The functions of a lowered compilation unit are those its definitions are lowered to. -/
theorem lower_functions {program : Program} {context : Context}
    {wanted : List Function → Context → Prop}
    (lowers : Yields program.lowerFunctions context wanted) :
    Yields program.lower context fun linear after => wanted linear.functions after := by
  unfold lower
  refine lowers.bind ?_
  intro functions after holds
  refine Ensures.bind_ok (Pass.run_get _) (Ensures.pure ?_)
  rw [LinearProgram.functions_parts]
  exact holds

/-- The functions have the labels of their bodies and labels drawn for them, and their jumps stay
inside. -/
theorem lowerFunctions_branches : ∀ (program : Program) {context : Context},
    program.Bound SwitchCase.Denotes →
    Yields program.lowerFunctions context fun functions after =>
      (∃ drawn, Text.Marked context.nextName after.nextName drawn ∧
        ∀ label, (functions.flatMap Function.labels).count label =
          program.labels.count label + drawn.count label) ∧
      ∀ function ∈ functions, (∀ target ∈ Code.targets function.body, target ∈ function.labels) ∧
        ∃ value, function.body.getLast? = some (.ret value)
  | [], context, _ => by
      rw [lowerFunctions]
      exact Ensures.pure ⟨⟨[], .nil (Nat.le_refl _), fun _ => rfl⟩, List.forall_mem_nil _⟩
  | .definition decl bodyLoc body :: decls, context, bound => by
      rcases List.forall_mem_cons.1 bound with ⟨bodyBound, declsBound⟩
      rw [lowerFunctions]
      refine (FunDecl.lower_branches bodyBound).bind ?_
      rintro function between ⟨⟨⟨drawn, marked, count⟩, targets⟩, returns⟩
      refine (lowerFunctions_branches decls declsBound).bind ?_
      rintro functions after ⟨⟨moreDrawn, moreMarked, moreCount⟩, rest⟩
      refine Ensures.pure ⟨⟨drawn ++ moreDrawn, marked.append moreMarked, ?_⟩, ?_⟩
      · intro label
        simp only [List.flatMap_cons, labels_cons, List.count_append, moreCount, Function.labels,
          count, Decl.labels]
        omega
      · refine List.forall_mem_cons.2 ⟨⟨?_, returns⟩, rest⟩
        exact fun target mem => (targets target mem).resolve_right List.not_mem_nil
  | .object decl :: decls, context, bound | .function decl :: decls, context, bound => by
      rcases List.forall_mem_cons.1 bound with ⟨_, declsBound⟩
      rw [lowerFunctions]
      · exact lowerFunctions_branches decls declsBound
      · simp

/-- The labels of a lowered compilation unit are all different, and the control flow of its
functions is closed. -/
theorem Analysed.lower_closed {program : Program} {context : Context}
    (analysed : program.Analysed context) :
    Yields program.lower context fun linear _ =>
      linear.labels.Nodup ∧ ∀ function ∈ linear.functions, function.IsClosed := by
  refine (lower_functions (lowerFunctions_branches program analysed.bound)).mono ?_
  rintro linear after ⟨⟨drawn, marked, count⟩, functions⟩
  rcases analysed.marked with ⟨low, treeMarked⟩
  have nodup : linear.labels.Nodup := by
    refine ((treeMarked.append marked).of_count ?_).nodup
    intro label
    rw [List.count_append]
    exact count label
  refine ⟨nodup, ?_⟩
  intro function mem
  rcases functions function mem with ⟨targets, returns⟩
  have isSublist : function.labels.Sublist linear.labels :=
    List.sublist_flatten_of_mem (List.mem_map_of_mem mem)
  refine ⟨?_, returns⟩
  intro target isTarget
  exact List.count_eq_one_of_mem (nodup.sublist isSublist) (targets target isTarget)

theorem analysed_of_parse {source : Text} {program analysed : Program} {lastId : Nat}
    {context : Context} (parses : Program.parse source = .ok (program, lastId))
    (accepts : program.analyze.run (parsedContext lastId) = .ok (analysed, context)) :
    analysed.Analysed context :=
  (analyze_yields (isSource_of_parse parses) rfl).of_ok accepts

/-- The labels of the code that a parsed and accepted source is lowered to are all different. In each
function every jump goes to one label, the last instruction returns, and every path and every run
goes on inside the function until it comes to a return. -/
theorem closed_of_lower {source : Text} {program analysed : Program} {lastId : Nat}
    {context final : Context} {linear : LinearProgram}
    (parses : Program.parse source = .ok (program, lastId))
    (accepts : program.analyze.run (parsedContext lastId) = .ok (analysed, context))
    (lowers : analysed.lower.run context = .ok (linear, final)) :
    linear.labels.Nodup ∧ ∀ function ∈ linear.functions, function.StaysInside := by
  rcases (analysed_of_parse parses accepts).lower_closed.of_ok lowers with ⟨nodup, closed⟩
  refine ⟨nodup, ?_⟩
  intro function mem
  have isClosed := closed function mem
  exact ⟨isClosed, fun _ path => isClosed.proceeds path, fun _ _ _ run =>
    isClosed.proceeds_of_run run⟩

/-- A switch in a loop: its break leaves the switch, its continue the round of the loop. -/
theorem closed_of_lower_loop :
    ∃ program lastId analysed context linear final,
      Program.parse
          "void f(int a) { while (a && 1) switch (a) { case 1: break; default: continue; } }" =
          .ok (program, lastId) ∧
        program.analyze.run (parsedContext lastId) = .ok (analysed, context) ∧
        analysed.lower.run context = .ok (linear, final) ∧ linear.labels.length = 7 ∧
        linear.labels.Nodup ∧ ∀ function ∈ linear.functions, function.StaysInside := by
  have computed : succeedsWith (fun parsed => succeedsWith (fun analysed => succeedsWith
        (fun lowered => lowered.1.labels.length = 7) (analysed.1.lower.run analysed.2))
          (parsed.1.analyze.run (parsedContext parsed.2)))
      (Program.parse
        "void f(int a) { while (a && 1) switch (a) { case 1: break; default: continue; } }") := by
    decide +kernel
  rcases exists_of_succeedsWith computed with ⟨⟨program, lastId⟩, parses, computed⟩
  rcases exists_of_succeedsWith computed with ⟨⟨analysed, context⟩, accepts, computed⟩
  rcases exists_of_succeedsWith computed with ⟨⟨linear, final⟩, lowers, computed⟩
  exact ⟨program, lastId, analysed, context, linear, final, parses, accepts, lowers,
    of_decide_eq_true computed, closed_of_lower parses accepts lowers⟩

end Program

end SubsetC
