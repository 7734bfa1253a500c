import SubsetC.Proofs.SwitchSimulation

/-!
# Code of functions does what their bodies mean

The statements about single constructs are put together along the tree. A function then returns an
answer exactly if the execution of its body ends with that answer.
-/

namespace SubsetC

/-! ### Statements -/

section

variable {base : SymbolTable} {targets : Targets} {context after : Context} {code : Code}

/-- The code of a statement mirrors its execution, from its start and from its cases. -/
def Stmt.Performed (base : SymbolTable) (targets : Targets) (stmt : Stmt) (context : Context)
    (code : Code) (after : Context) : Prop :=
  context.Performs base targets (fun gaps rounds store => stmt.exec gaps rounds store) code after ∧
    ∀ node ∈ stmt.caseNodes, Context.PerformsBehind base targets node.label
      (fun gaps rounds store => stmt.exec gaps rounds store) code after

/-- The code of the items of a block mirrors their execution, from the start and from each case. -/
def Item.Performed (base : SymbolTable) (targets : Targets) (items : List Item) (context : Context)
    (code : Code) (after : Context) : Prop :=
  context.Performs base targets (fun gaps rounds store => Item.execList gaps rounds store items)
    code after ∧ Context.PerformsCases base targets items code after

theorem Stmt.Performed.of_performs {stmt : Stmt} {isItem : Bool}
    (structured : stmt.isStructured isItem) (noCase : stmt.isCase = false)
    (performs : context.Performs base targets (fun gaps rounds store => stmt.exec gaps rounds store)
      code after) : stmt.Performed base targets context code after := by
  refine ⟨performs, ?_⟩
  rw [caseNodes_of_isCase structured noCase]
  exact nofun

/-- A case in front of a statement marks the start of its code. -/
theorem Stmt.Performed.labelled {body : Stmt}
    (performed : body.Performed base targets context code after) (stmt : Stmt) (node : CaseNode)
    (nodes : stmt.caseNodes = node :: body.caseNodes)
    (same : ∀ gaps rounds store, body.exec gaps rounds store = stmt.exec gaps rounds store) :
    stmt.Performed base targets context ([Instruction.label node.label] ++ code) after := by
  rcases performed with ⟨performs, behind⟩
  obtain performs := performs.congr same
  refine ⟨⟨performs.grows, ?_⟩, ?_⟩
  · intro machine known body rest nodup suffix rounds store start agree
    have fromCode := (List.suffix_cons _ _).trans suffix
    exact .of_leads (Machine.leads_label _ _ _)
      (performs.mirrors machine known body rest nodup fromCode rounds store start agree)
  · rw [nodes, List.forall_mem_cons]
    refine ⟨⟨[], code, context, rfl, performs⟩, ?_⟩
    intro other mem
    rcases behind other mem with ⟨front, back, first, rfl, later⟩
    exact ⟨.label node.label :: front, back, first, rfl, later.congr same⟩

theorem Item.Performed.stmt {head : Stmt} {items : List Item} {between : Context} {more : Code}
    (performed : head.Performed base targets context code between)
    (rest : Item.Performed base targets items between more after) :
    Item.Performed base targets (.stmt head :: items) context (code ++ more) after := by
  refine ⟨performed.1.append rest.1, ?_⟩
  intro other later isSuffix node mem
  rcases List.suffix_cons_iff.1 isSuffix with same | isSuffix
  · cases same
    exact (performed.2 node mem).append rest.1
  · exact (rest.2 other later isSuffix node mem).prepend code

end

theorem Machine.answer?_of_read? {machine : Machine} {store : Store} {operand : Operand}
    {number : Int} (reads : machine.read? store operand = some number) :
    machine.answer? store operand = some (.number number) := by
  cases operand with
  | constant value =>
      cases value with
      | double value => cases reads
      | _ =>
          cases reads
          rfl
  | var name => rw [answer?, reads, Option.map_some]
  | absent => cases reads

section

variable {base : SymbolTable} {result : CType}

mutual

/-- The code of a structured statement does what the statement means. -/
theorem Stmt.lower_performed : ∀ (stmt : Stmt) {context : Context} {targets : Targets}
    {isItem : Bool}, context.Tidy → context.symbols.Extends base → stmt.Explicit base result →
    stmt.isStructured isItem → stmt.Bound SwitchCase.Denotes targets →
    Yields stmt.lower context (stmt.Performed base targets context)
  | .ret loc none, context, targets, isItem, tidy, extension, explicit, structured, bound => by
      rw [Stmt.lower]
      refine Ensures.pure (.of_performs structured rfl ⟨.refl _ _, ?_⟩)
      intro machine known body rest nodup suffix rounds store start agree
      exact ⟨1, rfl⟩
  | .ret loc (some value), context, targets, isItem, tidy, extension, explicit, structured,
    bound => by
      rcases explicit with ⟨_, ⟨valueExplicit, _⟩, _⟩
      rcases Expr.exists_kind value valueExplicit structured with ⟨kind, sameType⟩
      rw [Stmt.lower]
      refine (Expr.lowerValue_simulates tidy extension valueExplicit structured sameType).bind ?_
      rintro ⟨code, operand⟩ after simulates
      refine Ensures.pure (.of_performs structured rfl ⟨simulates.grows, ?_⟩)
      intro machine known body rest nodup suffix rounds store start agree
      rw [List.append_assoc] at suffix ⊢
      rw [Stmt.exec]
      refine .value extension valueExplicit simulates known nodup suffix agree ?_
      intro number last _ reads
      have answers := Machine.answer?_of_read? reads
      exact ⟨1, by simp [Machine.run, Machine.step?, answers]⟩
  | .expr loc value, context, targets, isItem, tidy, extension, explicit, structured, bound => by
      rw [Stmt.lower]
      refine (Expr.lowerEffect_performs targets tidy extension explicit.1 structured).mono ?_
      exact fun code after performs => .of_performs structured rfl performs
  | .ifThen loc condition thenBranch, context, targets, isItem, tidy, extension, explicit,
    structured, bound => by
      rcases explicit with ⟨⟨conditionExplicit, _⟩, thenExplicit⟩
      have parts := structured
      simp only [Stmt.isStructured, Bool.and_eq_true] at parts
      rcases Expr.exists_kind condition conditionExplicit parts.1 with ⟨kind, sameType⟩
      rw [Stmt.lower]
      refine Ensures.bind_ok (Pass.run_newLabelPair _ _ _) ?_
      have drawn := Context.Grows.draw context
      have tidy := drawn.tidy tidy (by simp)
      have extension := drawn.extends_.trans extension
      refine (Expr.lowerValue_simulates tidy extension conditionExplicit parts.1 sameType).bind ?_
      rintro ⟨conditionCode, value⟩ first simulates
      refine (Stmt.lower_performed thenBranch (simulates.tidy tidy)
        (simulates.extends_.trans extension) thenExplicit parts.2 bound).bind ?_
      intro thenCode after performed
      exact Ensures.pure (.of_performs structured rfl
        (.grow drawn (.ifThen extension conditionExplicit simulates performed.1)))
  | .ifElse loc condition thenBranch elseBranch, context, targets, isItem, tidy, extension,
    explicit, structured, bound => by
      rcases explicit with ⟨⟨conditionExplicit, _⟩, thenExplicit, elseExplicit⟩
      have parts := structured
      simp only [Stmt.isStructured, Bool.and_eq_true] at parts
      rcases Expr.exists_kind condition conditionExplicit parts.1.1 with ⟨kind, sameType⟩
      rw [Stmt.lower]
      refine Ensures.bind_ok (Pass.run_newLabelPair _ _ _) ?_
      have drawn := Context.Grows.draw context
      have tidy := drawn.tidy tidy (by simp)
      have extension := drawn.extends_.trans extension
      refine (Expr.lowerValue_simulates tidy extension conditionExplicit parts.1.1 sameType).bind ?_
      rintro ⟨conditionCode, value⟩ first simulates
      have tidy := simulates.tidy tidy
      have wider := simulates.extends_.trans extension
      refine (Stmt.lower_performed thenBranch tidy wider thenExplicit parts.1.2 bound.1).bind ?_
      intro thenCode second thenPerformed
      refine (Stmt.lower_performed elseBranch (thenPerformed.1.tidy tidy)
        (thenPerformed.1.extends_ wider) elseExplicit parts.2 bound.2).bind ?_
      intro elseCode after elsePerformed
      exact Ensures.pure (.of_performs structured rfl (.grow drawn
        (.ifElse extension conditionExplicit simulates thenPerformed.1 elsePerformed.1)))
  | .block loc items, context, targets, isItem, tidy, extension, explicit, structured, bound => by
      rw [Stmt.lower]
      refine (Item.lowerList_performed items tidy extension explicit structured bound).mono ?_
      exact fun code after performed => .of_performs structured rfl performed.1
  | .whileLoop loc label condition body, context, targets, isItem, tidy, extension, explicit,
    structured, bound => by
      rcases explicit with ⟨⟨conditionExplicit, _⟩, bodyExplicit⟩
      rcases bound with ⟨own, rfl, bodyBound⟩
      have parts := structured
      simp only [Stmt.isStructured, Bool.and_eq_true] at parts
      rcases Expr.exists_kind condition conditionExplicit parts.1 with ⟨kind, sameType⟩
      rw [Stmt.lower]
      refine (Expr.lowerValue_simulates tidy extension conditionExplicit parts.1 sameType).bind ?_
      rintro ⟨conditionCode, value⟩ first simulates
      refine (Stmt.lower_performed body (simulates.tidy tidy)
        (simulates.extends_.trans extension) bodyExplicit parts.2 bodyBound).bind ?_
      intro bodyCode after performed
      have loops := Context.Performs.whileLoop
        (.test rfl extension conditionExplicit simulates) performed.1
      simp only [← List.append_assoc] at loops
      exact Ensures.pure (.of_performs structured rfl loops)
  | .doWhile loc label body condition, context, targets, isItem, tidy, extension, explicit,
    structured, bound => by
      rcases explicit with ⟨⟨conditionExplicit, _⟩, bodyExplicit⟩
      rcases bound with ⟨own, rfl, bodyBound⟩
      have parts := structured
      simp only [Stmt.isStructured, Bool.and_eq_true] at parts
      rcases Expr.exists_kind condition conditionExplicit parts.1 with ⟨kind, sameType⟩
      rw [Stmt.lower]
      refine (Stmt.lower_performed body tidy extension bodyExplicit parts.2 bodyBound).bind ?_
      intro bodyCode first performed
      have wider := performed.1.extends_ extension
      refine (Expr.lowerValue_simulates (performed.1.tidy tidy) wider conditionExplicit parts.1
        sameType).bind ?_
      rintro ⟨conditionCode, value⟩ after simulates
      exact Ensures.pure (.of_performs structured rfl
        (.doWhile wider conditionExplicit performed.1 simulates))
  | .forLoop loc label init condition post body, context, targets, isItem, tidy, extension,
    explicit, structured, bound => by
      rcases explicit with ⟨initExplicit, isCondition, postExplicit, bodyExplicit⟩
      rcases bound with ⟨own, rfl, bodyBound⟩
      have parts := structured
      simp only [Stmt.isStructured, Bool.and_eq_true] at parts
      rcases parts with ⟨⟨⟨initStructured, isPure⟩, isEffect⟩, bodyStructured⟩
      rw [Stmt.lower]
      refine (ForInit.lower_performs targets tidy extension initExplicit initStructured).bind ?_
      intro initCode first initPerforms
      have tidy := initPerforms.tidy tidy
      have extension := initPerforms.extends_ extension
      refine (Expr.lowerTest_performs (targets.inLoop own) tidy extension rfl isCondition isPure).bind ?_
      intro testCode second testPerforms
      have tidy := testPerforms.tidy tidy
      have extension := testPerforms.extends_ extension
      refine (Stmt.lower_performed body tidy extension bodyExplicit bodyStructured bodyBound).bind ?_
      intro bodyCode third performed
      refine (Expr.lowerEffectOption_performs (targets.inLoop own) (performed.1.tidy tidy)
        (performed.1.extends_ extension) postExplicit isEffect).bind ?_
      intro postCode after postPerforms
      have loops := initPerforms.append (.forLoop testPerforms performed.1 postPerforms)
      simp only [← List.append_assoc] at loops
      exact Ensures.pure (.of_performs structured rfl loops)
  | .switch loc label value body cases, context, targets, isItem, tidy, extension, explicit,
    structured, bound => by
      rcases explicit with ⟨valueExplicit, integer, _, constantTypes, bodyExplicit⟩
      rcases bound with ⟨own, rfl, bodyBound, denotes, single⟩
      have parts := structured
      simp only [Stmt.isStructured, Bool.and_eq_true] at parts
      rcases CType.exists_kind integer with ⟨kind, sameType⟩
      rw [sameType] at denotes constantTypes
      rw [Stmt.lower, sameType]
      refine (Expr.lowerValue_simulates tidy extension valueExplicit parts.1 sameType).bind ?_
      rintro ⟨valueCode, operand⟩ first simulates
      have tidy := simulates.tidy tidy
      have wider := simulates.extends_.trans extension
      refine (SwitchCase.lowerList_jumps cases tidy wider simulates.hasType constantTypes).bind ?_
      rintro casesCode second ⟨grows, selects⟩
      -- A switch that is structured has a block for a body, which is entered at the labels of its
      -- items.
      cases body with
      | block blockLoc items =>
          rw [Stmt.lower]
          refine (Item.lowerList_performed items (grows.tidy tidy (by simp))
            (grows.extends_.trans wider) bodyExplicit parts.2 bodyBound).bind ?_
          intro bodyCode after performed
          exact Ensures.pure (.of_performs structured rfl (.switch extension valueExplicit sameType
            parts.2 denotes single simulates grows selects performed.1.grows performed.2))
      | _ => simp [Stmt.isSwitchBody] at parts
  | .case loc label value body, context, targets, isItem, tidy, extension, explicit, structured,
    bound => by
      simp only [Stmt.isStructured, Bool.and_eq_true] at structured
      rw [Stmt.lower]
      refine (Stmt.lower_performed body tidy extension explicit.2 structured.2 bound).bind ?_
      intro code after performed
      -- Execution that comes to a label from above goes on with the statement behind it.
      have same : ∀ gaps rounds store, body.exec gaps rounds store =
          (Stmt.case loc label value body).exec gaps rounds store :=
        fun _ _ _ => by rw [Stmt.exec]
      exact Ensures.pure (performed.labelled _ ⟨some value, label.getD []⟩ rfl same)
  | .default loc label body, context, targets, isItem, tidy, extension, explicit, structured,
    bound => by
      simp only [Stmt.isStructured, Bool.and_eq_true] at structured
      rw [Stmt.lower]
      refine (Stmt.lower_performed body tidy extension explicit structured.2 bound).bind ?_
      intro code after performed
      have same : ∀ gaps rounds store, body.exec gaps rounds store =
          (Stmt.default loc label body).exec gaps rounds store :=
        fun _ _ _ => by rw [Stmt.exec]
      exact Ensures.pure (performed.labelled _ ⟨none, label.getD []⟩ rfl same)
  | .break loc label, context, targets, isItem, tidy, extension, explicit, structured, bound => by
      rcases bound with ⟨rfl, isTarget⟩
      rw [Stmt.lower]
      refine Ensures.pure (.of_performs structured rfl ⟨.refl _ _, ?_⟩)
      intro machine known body rest nodup suffix rounds store start agree
      exact ⟨isTarget, _, start, .refl _, rfl, agree⟩
  | .continue loc label, context, targets, isItem, tidy, extension, explicit, structured,
    bound => by
      rcases bound with ⟨rfl, isTarget⟩
      rw [Stmt.lower]
      refine Ensures.pure (.of_performs structured rfl ⟨.refl _ _, ?_⟩)
      intro machine known body rest nodup suffix rounds store start agree
      exact ⟨isTarget, _, start, .refl _, rfl, agree⟩
  | .null loc, context, targets, isItem, tidy, extension, explicit, structured, bound => by
      rw [Stmt.lower]
      exact Ensures.pure (.of_performs structured rfl (.nil context))

theorem Item.lowerList_performed : ∀ (items : List Item) {context : Context} {targets : Targets}
    {isItem : Bool}, context.Tidy → context.symbols.Extends base →
    Item.ExplicitList base result items → Item.areStructured isItem items →
    Item.BoundList SwitchCase.Denotes targets items →
    Yields (Item.lowerList items) context (Item.Performed base targets items context)
  | [], context, targets, isItem, tidy, extension, explicit, structured, bound => by
      rw [Item.lowerList]
      refine Ensures.pure ⟨.nil context, ?_⟩
      intro head later isSuffix
      cases List.suffix_nil.1 isSuffix
  | .stmt stmt :: items, context, targets, isItem, tidy, extension, explicit, structured,
    bound => by
      simp only [Item.areStructured, Bool.and_eq_true] at structured
      rw [Item.lowerList]
      refine (Stmt.lower_performed stmt tidy extension explicit.1 structured.1 bound.1).bind ?_
      intro code between performed
      refine (Item.lowerList_performed items (performed.1.tidy tidy)
        (performed.1.extends_ extension) explicit.2 structured.2 bound.2).bind ?_
      intro more after rest
      exact Ensures.pure (.stmt performed rest)
  | .decl (.object decl) :: items, context, targets, isItem, tidy, extension, explicit,
    structured, bound => by
      simp only [Item.areStructured, Bool.and_eq_true] at structured
      rw [Item.lowerList]
      refine (VarDecl.lower_performs targets tidy extension explicit.1 structured.1).bind ?_
      intro code between performs
      refine (Item.lowerList_performed items (performs.tidy tidy)
        (performs.extends_ extension) explicit.2 structured.2 bound).bind ?_
      intro more after rest
      refine Ensures.pure ⟨performs.append rest.1, ?_⟩
      intro head later isSuffix node mem
      rcases List.suffix_cons_iff.1 isSuffix with same | isSuffix
      · cases same
      · exact (rest.2 head later isSuffix node mem).prepend code
  | .decl (.function decl) :: items, context, targets, isItem, tidy, extension, explicit,
    structured, bound => by
      rw [Item.lowerList]
      · refine (Item.lowerList_performed items tidy extension explicit.2 structured bound).mono ?_
        intro code after performed
        refine ⟨performed.1, ?_⟩
        intro head later isSuffix node mem
        rcases List.suffix_cons_iff.1 isSuffix with same | isSuffix
        · cases same
        · exact performed.2 head later isSuffix node mem
      · simp
  | .decl (.definition _ _ _) :: _, context, targets, isItem, tidy, extension, explicit,
    structured, bound => explicit.elim

end

end

/-! ### Functions -/

/-- Falling off the end returns zero of the type of the result. -/
theorem CType.lowerEnd_answers {result : CType} {context : Context} :
    Yields result.lowerEnd context fun code after => context = after ∧
      ∀ (machine : Machine) (body : Code) (store : Store),
        machine.run body 1 (code, store) = some result.zeroAnswer := by
  unfold lowerEnd
  cases result with
  | void => exact Ensures.pure ⟨rfl, fun _ _ _ => rfl⟩
  | integer kind => exact Ensures.pure ⟨rfl, fun _ _ _ => by cases kind <;> rfl⟩
  | double | pointer element => exact Ensures.pure ⟨rfl, fun _ _ _ => rfl⟩
  | array size element | function params result => exact Ensures.throw trivial

/-- A run of a function that ends as the execution of its body has the answer of the body. -/
theorem Machine.Mirrors.returns {machine : Machine} {body endCode : Code} {base : SymbolTable}
    {rounds : Nat} {start : State} {outcome : Outcome} {result : CType} {answer : Answer}
    (ends : ∀ store, machine.run body 1 (endCode, store) = some result.zeroAnswer)
    (mirrors : machine.Mirrors body base .none rounds start endCode outcome)
    (answers : outcome.answer? result = some answer) :
    ∃ steps, machine.run body steps start = some answer := by
  cases outcome with
  | normal store =>
      rcases mirrors with ⟨after, leads, _⟩
      exact leads.run_eq_some ((ends after).trans answers)
  | returned own =>
      cases answers
      exact mirrors
  | broke store | continued store | undefined | unfinished => cases answers

/-- A run with an answer has the answer of the execution that it mirrors. -/
theorem Machine.Mirrors.answer?_eq {machine : Machine} {body endCode : Code} {base : SymbolTable}
    {rounds : Nat} {start : State} {outcome : Outcome} {result : CType} {answer : Answer}
    (ends : ∀ store, machine.run body 1 (endCode, store) = some result.zeroAnswer)
    (mirrors : machine.Mirrors body base .none rounds start endCode outcome)
    (runs : machine.run body rounds start = some answer) :
    outcome.answer? result = some answer := by
  cases answers : outcome.answer? result with
  | some other =>
      rcases mirrors.returns ends answers with ⟨steps, others⟩
      rw [run_unique others runs]
  | none =>
      cases outcome with
      | normal store | returned own => cases answers
      | broke store | continued store => cases mirrors.1
      | undefined => cases (mirrors rounds).symm.trans runs
      | unfinished => cases mirrors.symm.trans runs

/-- The function returns what the execution of its body ends with. -/
theorem FunDecl.lower_returns {context : Context} (tidy : context.Tidy) {decl : FunDecl}
    {bodyLoc : Loc} {body : List Item}
    (explicit : (Decl.definition decl bodyLoc body).Explicit context.symbols)
    (structured : Item.areStructured false body)
    (bound : Item.BoundList SwitchCase.Denotes .none body) :
    Yields (decl.lower body) context fun function after =>
      (Code.labels function.body).Nodup → ∀ machine : Machine,
        machine.table.Extends after.symbols → ∀ store answer,
        (machine.Returns function.body store answer ↔
          decl.Returns machine.gaps body store answer) := by
  rcases explicit with ⟨_, _, bodyExplicit⟩
  unfold FunDecl.lower
  refine Pass.functionIsGlobal_yields.bind ?_
  rintro isGlobal _ rfl
  refine (Item.lowerList_performed body tidy (.refl _) bodyExplicit structured bound).bind ?_
  intro bodyCode after performed
  refine CType.lowerEnd_answers.bind ?_
  rintro endCode _ ⟨rfl, ends⟩
  refine Ensures.pure ?_
  intro nodup machine known store answer
  have mirrors rounds := performed.1.mirrors machine known _ endCode nodup
    (List.suffix_refl _) rounds store store (.refl _ _)
  constructor
  · rintro ⟨steps, runs⟩
    exact ⟨steps, (mirrors steps).answer?_eq (ends machine _) runs⟩
  · rintro ⟨rounds, answers⟩
    exact (mirrors rounds).returns (ends machine _) answers

end SubsetC
