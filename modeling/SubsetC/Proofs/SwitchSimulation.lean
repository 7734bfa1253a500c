import SubsetC.Proofs.CodeLabels
import SubsetC.Proofs.StmtSimulation

/-!
# Code of switches

The code of a switch compares the controlling value with the constants of its list of cases, one
after the other, and jumps to the label of the first that is equal, or else to the default, or else
behind the body. Labels of cases stand in the code of the body where the cases stand in the tree,
so that the run goes on as an execution that enters the block there.
-/

namespace SubsetC

/-! ### Single steps -/

namespace Machine

variable {machine : Machine} {body : Code} {state next : State}

theorem Leads.of_path (path : Relation.ReflTransGen (machine.Steps body) state next) :
    machine.Leads body state next := by
  induction path with
  | refl => exact .refl _
  | tail _ step ih => exact ih.trans (.of_step step)

end Machine

/-! ### Code behind a label -/

/-- The code behind a label in the code mirrors an execution. -/
def Context.PerformsBehind (base : SymbolTable) (targets : Targets) (label : Text)
    (exec : Gaps → Nat → Store → Outcome) (code : Code) (after : Context) : Prop :=
  ∃ front back first, code = front ++ .label label :: back ∧
    Context.Performs base targets exec first back after

namespace Context.PerformsBehind

variable {base : SymbolTable} {targets : Targets} {label : Text} {code more : Code}
  {exec next : Gaps → Nat → Store → Outcome} {second third : Context}

theorem prepend (more : Code) (behind : PerformsBehind base targets label exec code second) :
    PerformsBehind base targets label exec (more ++ code) second := by
  rcases behind with ⟨front, back, first, rfl, performs⟩
  exact ⟨more ++ front, back, first, by rw [List.append_assoc], performs⟩

theorem append (behind : PerformsBehind base targets label exec code second)
    (later : second.Performs base targets next more third) :
    PerformsBehind base targets label
      (fun gaps rounds store => (exec gaps rounds store).andThen (next gaps rounds))
      (code ++ more) third := by
  rcases behind with ⟨front, back, first, rfl, performs⟩
  refine ⟨front, back ++ more, first, ?_, performs.append later⟩
  rw [List.append_assoc, List.cons_append]

/-- A jump to the label goes on as the execution does. -/
theorem mirrors {machine : Machine} {body rest : Code} {rounds : Nat} {store : Store}
    {start : Machine.State} (behind : PerformsBehind base targets label exec code second)
    (known : machine.table.Extends second.symbols) (nodup : (Code.labels body).Nodup)
    (suffix : code ++ rest <:+ body) (jumps : machine.Jumps body base start label store) :
    machine.Mirrors body base targets rounds start rest (exec machine.gaps rounds store) := by
  rcases behind with ⟨front, back, first, rfl, performs⟩
  rw [List.append_assoc, List.cons_append] at suffix
  have fromLabel := (List.suffix_append front _).trans suffix
  have found := Code.after?_of_suffix nodup fromLabel
  rcases jumps.exists_step found with ⟨last, after, leads, steps, agree⟩
  have fromBack := (List.suffix_cons _ _).trans fromLabel
  exact .of_leads (leads.trans (.of_step steps))
    (performs.mirrors machine known body rest nodup fromBack rounds store after agree)

end Context.PerformsBehind

/-! ### Looking for a case -/

namespace SwitchCase

def hasValue (number : Int) (case : SwitchCase) : Bool :=
  case.value.bind Const.number? == some number

theorem hasValue_eq {kind : IntType} {number : Int} {gaps : Gaps} {store : Store}
    {case : SwitchCase} {node : CaseNode} (denotes : case.Denotes (.integer kind) node)
    (isPure : node.IsPure) :
    case.hasValue number = node.hasValue gaps store kind number := by
  rcases case with ⟨constant, label, span⟩
  rcases node with ⟨value, nodeLabel⟩
  rcases denotes with ⟨_, same⟩
  cases value with
  | none =>
      cases constant with
      | none => rfl
      | some constant => exact same.elim
  | some value =>
      cases constant with
      | none => exact same.elim
      | some constant =>
          rcases same (isPure value rfl) kind rfl with ⟨own, evaluates, isOwn⟩
          simp [hasValue, CaseNode.hasValue, evaluates, isOwn]

theorem isDefault_eq {type : CType} {case : SwitchCase} {node : CaseNode}
    (denotes : case.Denotes type node) : case.isDefault = node.isDefault := by
  rcases case with ⟨constant, label, span⟩
  rcases node with ⟨value, nodeLabel⟩
  rcases denotes with ⟨_, same⟩
  cases value <;> cases constant <;> first | rfl | exact same.elim

/-- Cases that are looked up in the list are found in the tree. -/
theorem find?_eq {type : CType} {wanted : SwitchCase → Bool} {wantedNode : CaseNode → Bool}
    {cases : List SwitchCase} {nodes : List CaseNode}
    (denotes : List.Forall₂ (Denotes type) cases nodes)
    (same : ∀ case, ∀ node ∈ nodes, case.Denotes type node → wanted case = wantedNode node) :
    (cases.find? wanted).map SwitchCase.label =
      (nodes.find? wantedNode).map CaseNode.label := by
  induction denotes with
  | nil => rfl
  | @cons case node cases nodes head tail ih =>
      have rest := ih fun case node mem => same case node (List.mem_cons_of_mem _ mem)
      rw [List.find?_cons, List.find?_cons, same case node (List.mem_cons_self ..) head]
      cases wantedNode node with
      | true => exact congrArg some head.1
      | false => exact rest

/-- With one default at most, the last default is the first one. -/
theorem fallback_eq {otherwise : Text} {cases : List SwitchCase}
    (single : (cases.filter isDefault).length ≤ 1) :
    fallback otherwise cases = ((cases.find? isDefault).map SwitchCase.label).getD otherwise := by
  have keeps : ∀ (cases : List SwitchCase) (label : Text), cases.filter isDefault = [] →
      fallback label cases = label := by
    intro cases label none
    induction cases with
    | nil => rfl
    | cons case cases ih =>
        rw [List.filter_cons] at none
        cases isDefault? : case.isDefault with
        | true => simp [isDefault?] at none
        | false =>
            rw [isDefault?] at none
            rw [fallback, List.foldl_cons, isDefault?]
            exact ih none
  induction cases with
  | nil => rfl
  | cons case cases ih =>
      rw [fallback, List.foldl_cons, List.find?_cons]
      rw [List.filter_cons] at single
      cases isDefault? : case.isDefault with
      | true =>
          rw [isDefault?] at single
          have none : cases.filter isDefault = [] := by simpa using single
          exact keeps cases case.label none
      | false =>
          rw [isDefault?] at single
          exact ih single

/-- The label to which a switch goes with a value, given the one for values that no case has. -/
def target (number : Int) (otherwise : Text) (cases : List SwitchCase) : Text :=
  ((cases.find? (hasValue number)).map SwitchCase.label).getD otherwise

/-- The comparisons step to a jump to the first case that has the value, or to their end. -/
theorem lowerList_steps {kind : IntType} {operand : Operand} :
    ∀ (cases : List SwitchCase) {context : Context}, context.Tidy →
    operand.HasType context.symbols (.integer kind) →
    (∀ case ∈ cases, ∀ constant ∈ case.value, constant.type = .integer kind) →
    Yields (lowerList operand (.integer kind) cases) context fun code after =>
      context.Grows [] after ∧ ∀ machine : Machine, machine.table.Extends after.symbols →
        ∀ (body rest : Code) (store : Store) (number : Int),
        machine.read? store operand = some number →
        ∃ state, Relation.ReflTransGen (machine.Steps body) (code ++ rest, store) state ∧
          context.symbols.Agree store state.2 ∧
          match cases.find? (hasValue number) with
          | some case => case.label ∈ Code.targets code ∧
              machine.step? body state = Machine.goto? body case.label state.2
          | none => state.1 = rest
  | [], context, _, _, _ =>
      Ensures.pure ⟨.refl _ _, fun _ _ _ rest store _ _ => ⟨(rest, store), .refl, .refl _ _, rfl⟩⟩
  | case :: cases, context, tidy, hasOperand, sameType => by
      rcases List.forall_mem_cons.1 sameType with ⟨headType, restType⟩
      rw [lowerList]
      split
      · rename_i noValue
        refine (lowerList_steps cases tidy hasOperand restType).mono ?_
        rintro code after ⟨grows, reaches⟩
        refine ⟨grows, ?_⟩
        intro machine known body rest store number
        have other : case.hasValue number = false := by simp [hasValue, noValue]
        rw [List.find?_cons, other]
        exact reaches machine known body rest store number
      · rename_i constant isValue
        refine ((Pass.newTemporary_yields tidy .int).and (Pass.newTemporary_fresh tidy .int)).bind ?_
        rintro _ first ⟨⟨grows, _⟩, name, rfl, fresh, hasName⟩
        unfold Const.convert
        split
        · rename_i converted converts
          rw [pure_bind]
          have hasOperandNow := hasOperand.extend grows.extends_
          refine (lowerList_steps cases (grows.tidy tidy (by simp)) hasOperandNow restType).bind ?_
          rintro code after ⟨restGrows, reaches⟩
          refine Ensures.pure ⟨grows.append restGrows, ?_⟩
          intro machine known body rest store number reads
          have hasName := hasName.extend (known.trans restGrows.extends_)
          have hasKind : constant.type.kind? = some kind := by
            simp [headType constant isValue, CType.kind?]
          rcases Const.exists_number? hasKind with ⟨own, isOwn, holds⟩
          have isConverted : machine.read? store (.constant converted) = some own := by
            rw [Machine.read?, Const.number?_convert? isOwn converts, holds]
          -- The comparison writes to a temporary that nothing has known before, so what is known
          -- stays.
          let compared := store.set name (IntType.int.wrap (number == own).toInt)
          have compares : machine.Steps body
              (.binary (.compare .equal) operand (.constant converted) (.var name) ::
                .jumpIfNotZero (.var name) case.label :: (code ++ rest), store)
              (.jumpIfNotZero (.var name) case.label :: (code ++ rest), compared) := by
            simp [Machine.Steps, Machine.step?, Machine.execute?, Machine.kind?_var hasName, reads,
              isConverted, Machine.combine?, CompareOp.holds, Machine.write?_var hasName, compared]
            rfl
          have readsSame : machine.read? compared (.var name) = some (number == own).toInt := by
            rw [Machine.read?_set hasName, IntType.holds_toInt]
          have agree : context.symbols.Agree store compared := .set_fresh fresh _ _
          have isCase : case.hasValue number = (number == own) := by
            simp [hasValue, isValue, isOwn, eq_comm]
          rw [List.find?_cons, isCase]
          cases isEqual : number == own with
          | true =>
              rw [isEqual] at readsSame
              refine ⟨_, .single compares, agree, ?_, ?_⟩
              · simp [Code.target?]
              · simp [Machine.step?, readsSame]
          | false =>
              rw [isEqual] at readsSame
              have falls : machine.Steps body
                  (.jumpIfNotZero (.var name) case.label :: (code ++ rest), compared)
                  (code ++ rest, compared) := by
                simp [Machine.Steps, Machine.step?, readsSame]
              rw [Machine.read?_congr hasOperand agree] at reads
              rcases reaches machine known body rest compared number reads with
                ⟨state, path, agreeLast, ends⟩
              refine ⟨state, .head compares (.head falls path),
                agree.trans (agreeLast.narrow grows.extends_), ?_⟩
              cases found : cases.find? (hasValue number) with
              | some other =>
                  rw [found] at ends
                  exact ⟨by simp [ends.1], ends.2⟩
              | none =>
                  rw [found] at ends
                  exact ends
        · exact Ensures.bind (Ensures.throw trivial) fun _ _ impossible => impossible

/-- The comparisons jump to the first case that has the value, or run to their end. -/
theorem lowerList_jumps {base : SymbolTable} {kind : IntType} {operand : Operand}
    (cases : List SwitchCase) {context : Context} (tidy : context.Tidy)
    (extension : context.symbols.Extends base)
    (hasOperand : operand.HasType context.symbols (.integer kind))
    (sameType : ∀ case ∈ cases, ∀ constant ∈ case.value, constant.type = .integer kind) :
    Yields (lowerList operand (.integer kind) cases) context fun code after =>
      context.Grows [] after ∧ ∀ machine : Machine, machine.table.Extends after.symbols →
        ∀ (body rest : Code) (otherwise : Text) (store start : Store) (number : Int),
        base.Agree store start → machine.read? start operand = some number →
        (∀ last, base.Agree store last → machine.Jumps body base (rest, last) otherwise store) →
        machine.Jumps body base (code ++ rest, start) (target number otherwise cases) store := by
  refine (lowerList_steps cases tidy hasOperand sameType).mono ?_
  rintro code after ⟨grows, reaches⟩
  refine ⟨grows, ?_⟩
  intro machine known body rest otherwise store start number agree reads ends
  rcases reaches machine known body rest start number reads with
    ⟨⟨behind, last⟩, path, agreeLast, arrives⟩
  have agree := agree.trans (agreeLast.narrow extension)
  rw [target]
  cases found : cases.find? (hasValue number) with
  | some case =>
      rw [found] at arrives
      exact ⟨_, last, .of_path path, arrives.2, agree⟩
  | none =>
      rw [found] at arrives
      cases arrives
      exact (ends last agree).of_leads (.of_path path)

end SwitchCase

/-! ### Switches -/

/-- In the body of a switch, a break goes to its end. -/
theorem Machine.Mirrors.leave {machine : Machine} {body rest : Code} {base : SymbolTable}
    {targets : Targets} {rounds : Nat} {start : State} {outcome : Outcome} {own : Text}
    (atBreak : Code.after? (Targets.breakLabelOf (some own)) body = some rest)
    (mirrors : machine.Mirrors body base (targets.inSwitch own) rounds start
      (.label (Targets.breakLabelOf (some own)) :: rest) outcome) :
    machine.Mirrors body base targets rounds start rest outcome.left := by
  cases outcome with
  | normal store =>
      rcases mirrors with ⟨after, leads, agree⟩
      exact ⟨after, leads.trans (leads_label _ _ _), agree⟩
  | broke store =>
      rcases mirrors.2.exists_step atBreak with ⟨last, after, leads, steps, agree⟩
      exact ⟨after, leads.trans (.of_step steps), agree⟩
  | continued store | returned answer | undefined | unfinished => exact mirrors

/-- The code behind the label of each case mirrors the execution from the item on where the case
stands. -/
def Context.PerformsCases (base : SymbolTable) (targets : Targets) (items : List Item) (code : Code)
    (after : Context) : Prop :=
  ∀ head later, .stmt head :: later <:+ items → ∀ node ∈ head.caseNodes,
    Context.PerformsBehind base targets node.label
      (fun gaps rounds store => Item.execList gaps rounds store (.stmt head :: later)) code after

/-- A switch goes to the case that the execution finds in the block, or else to the default. -/
theorem SwitchCase.target_eq {kind : IntType} {gaps : Gaps} {store : Store} {otherwise : Text}
    {cases : List SwitchCase} {items : List Item} (structured : Item.areStructured true items)
    (denotes : List.Forall₂ (SwitchCase.Denotes (.integer kind)) cases (Item.caseNodesList items))
    (single : (cases.filter SwitchCase.isDefault).length ≤ 1) (number : Int) :
    target number (fallback otherwise cases) cases =
      (((Item.caseNodesList items).find? (CaseNode.hasValue gaps store kind number)).map
        CaseNode.label).getD
        ((((Item.caseNodesList items).find? CaseNode.isDefault).map CaseNode.label).getD
          otherwise) := by
  have cases_eq : (cases.find? (SwitchCase.hasValue number)).map SwitchCase.label =
      ((Item.caseNodesList items).find?
        (CaseNode.hasValue gaps store kind number)).map CaseNode.label := by
    refine find?_eq denotes fun case node mem denotes => ?_
    rcases Item.exists_of_mem_caseNodesList mem with ⟨stmt, isItem, mem⟩
    exact hasValue_eq denotes (Stmt.isPure_of_mem_caseNodes stmt
      (Item.isStructured_of_mem structured stmt isItem) node mem)
  have default_eq : (cases.find? SwitchCase.isDefault).map SwitchCase.label =
      ((Item.caseNodesList items).find? CaseNode.isDefault).map CaseNode.label :=
    find?_eq denotes fun case node _ denotes => isDefault_eq denotes
  rw [target, fallback_eq single, cases_eq, default_eq]

theorem Context.Performs.switch {base : SymbolTable} {targets : Targets} {loc blockLoc : Loc}
    {own : Text} {value : Expr} {items : List Item} {cases : List SwitchCase} {kind : IntType}
    {context first second after : Context} {valueCode casesCode bodyCode : Code} {operand : Operand}
    (extension : context.symbols.Extends base) (explicit : value.Explicit base)
    (sameType : value.type = .integer kind) (structured : Item.areStructured true items)
    (denotes : List.Forall₂ (SwitchCase.Denotes (.integer kind)) cases (Item.caseNodesList items))
    (single : (cases.filter SwitchCase.isDefault).length ≤ 1)
    (simulates : context.Simulates kind (fun machine store => value.eval? machine.gaps store)
      (valueCode, operand) first)
    (grows : first.Grows [] second)
    (selects : ∀ machine : Machine, machine.table.Extends second.symbols →
      ∀ (body rest : Code) (otherwise : Text) (store start : Store) (number : Int),
      base.Agree store start → machine.read? start operand = some number →
      (∀ last, base.Agree store last → machine.Jumps body base (rest, last) otherwise store) →
      machine.Jumps body base (casesCode ++ rest, start) (SwitchCase.target number otherwise cases)
        store)
    (bodyGrows : second.Grows [] after)
    (entries : PerformsCases base (targets.inSwitch own) items bodyCode after) :
    context.Performs base targets (fun gaps rounds store =>
      (Stmt.switch loc (some own) value (.block blockLoc items) cases).exec gaps rounds store)
      (valueCode ++ casesCode ++
        [Instruction.jump (SwitchCase.fallback (Targets.breakLabelOf (some own)) cases)] ++
        bodyCode ++ [Instruction.label (Targets.breakLabelOf (some own))]) after := by
  refine ⟨(simulates.grows.append grows).append bodyGrows, ?_⟩
  intro machine known body rest nodup suffix rounds store start agree
  simp only [List.append_assoc, List.cons_append, List.nil_append] at suffix ⊢
  have fromJump := (List.suffix_append casesCode _).trans
    ((List.suffix_append valueCode _).trans suffix)
  have fromBody := (List.suffix_cons _ _).trans fromJump
  have atBreak := Code.after?_of_suffix nodup ((List.suffix_append bodyCode _).trans fromBody)
  have ofSecond := known.trans bodyGrows.extends_
  rw [Stmt.exec]
  refine .value extension explicit simulates (ofSecond.trans grows.extends_) nodup suffix agree ?_
  intro number last agree reads
  have jumps := selects machine ofSecond body
    (.jump (SwitchCase.fallback (Targets.breakLabelOf (some own)) cases) ::
      (bodyCode ++ .label (Targets.breakLabelOf (some own)) :: rest))
    (SwitchCase.fallback (Targets.breakLabelOf (some own)) cases) store last number agree reads
    fun last agree => ⟨_, last, .refl _, rfl, agree⟩
  rw [SwitchCase.target_eq structured denotes single] at jumps
  -- Whatever is looked for, the body is entered where a case has it, or else the jump still stands.
  -- This is used for the cases with the value first, and for the default if there is none.
  have entered : ∀ (select : Stmt → Bool) (wanted : CaseNode → Bool),
      (∀ stmt, .stmt stmt ∈ items → select stmt = stmt.caseNodes.any wanted) →
      ∀ start otherwise, machine.Jumps body base start
        ((((Item.caseNodesList items).find? wanted).map CaseNode.label).getD otherwise) store →
      (∀ outcome, Item.enterList machine.gaps rounds store select items = some outcome →
        machine.Mirrors body base targets rounds start rest outcome.left) ∧
      (Item.enterList machine.gaps rounds store select items = none →
        machine.Jumps body base start otherwise store) := by
    intro select wanted same start otherwise jumps
    have enters := Item.enterList_eq machine.gaps rounds store items same
    split at enters
    · rename_i found
      rw [found] at jumps
      rw [enters]
      refine ⟨?_, fun _ => jumps⟩
      rintro _ ⟨⟩
    · rename_i node found
      rcases enters with ⟨head, later, isSuffix, mem, enters⟩
      rw [found] at jumps
      rw [enters]
      refine ⟨?_, ?_⟩
      · rintro _ ⟨⟩
        exact .leave atBreak
          ((entries head later isSuffix node mem).mirrors known nodup fromBody jumps)
      · rintro ⟨⟩
  have enteredCase := entered _ _ (fun stmt isItem => Stmt.hasCase_eq stmt
    (Item.isStructured_of_mem structured stmt isItem)) _ _ jumps
  rw [sameType]
  simp only [CType.kind?, Stmt.enter]
  cases caseEntry : Item.enterList machine.gaps rounds store
      (fun stmt => stmt.hasCase machine.gaps store kind number) items with
  | some outcome => exact enteredCase.1 outcome caseEntry
  | none =>
      have enteredDefault := entered _ _ (fun stmt isItem => Stmt.hasDefault_eq stmt
        (Item.isStructured_of_mem structured stmt isItem)) _ _ (enteredCase.2 caseEntry)
      cases defaultEntry : Item.enterList machine.gaps rounds store Stmt.hasDefault items with
      | some outcome => exact enteredDefault.1 outcome defaultEntry
      | none =>
          rcases (enteredDefault.2 defaultEntry).exists_step atBreak with
            ⟨final, after, leads, steps, agree⟩
          exact ⟨after, leads.trans (.of_step steps), agree⟩

end SubsetC
