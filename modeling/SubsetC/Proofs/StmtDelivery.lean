import SubsetC.Proofs.ExprDelivery
import SubsetC.Proofs.Refinement

/-!
# What the code of a function mentions, calls and writes

The code of a statement makes the calls of the statement in the order in which it emits their code:
in a `for` statement those of the first clause, the condition, the body and the last clause, in a
`do` statement those of the body and the condition. Values of cases and the initializers of objects
with a storage class have no code. No result is carried from one statement to another, so at the
labels of a statement nothing is owed but the names that are known from the start.
-/

namespace SubsetC

/-! ### Calls and objects in trees -/

namespace Initializer

mutual

/-- The functions that an initializer calls, in order. -/
def calls : Initializer → List Text
  | .single _ value => value.calls
  | .compound _ items => callsList items

def callsList : List Initializer → List Text
  | [] => []
  | item :: items => item.calls ++ callsList items

end

mutual

/-- The objects that an initializer uses, in order. -/
def objects : Initializer → List Text
  | .single _ value => value.objects
  | .compound _ items => objectsList items

def objectsList : List Initializer → List Text
  | [] => []
  | item :: items => item.objects ++ objectsList items

end

end Initializer

namespace VarDecl

/-- The functions that are called to initialize an object. Objects with a storage class start out
initialized. -/
def calls (decl : VarDecl) : List Text :=
  match decl.storageClass, decl.init with
  | none, some init => init.calls
  | _, _ => []

def callsList : List VarDecl → List Text
  | [] => []
  | decl :: decls => decl.calls ++ callsList decls

/-- The object that is initialized, and those that are used for it. -/
def uses (decl : VarDecl) : List Text :=
  match decl.storageClass, decl.init with
  | none, some init => decl.name :: init.objects
  | _, _ => []

/-- The objects that are initialized, and those that are used for them. -/
def usesList : List VarDecl → List Text
  | [] => []
  | decl :: decls => decl.uses ++ usesList decls

end VarDecl

namespace ForInit

/-- The functions that the first clause of a for statement calls, in order. -/
def calls : ForInit → List Text
  | .declarations _ decls => VarDecl.callsList decls
  | .expression _ value => Expr.callsOption value

/-- The objects that the first clause of a for statement initializes or uses. -/
def uses : ForInit → List Text
  | .declarations _ decls => VarDecl.usesList decls
  | .expression _ value => Expr.objectsOption value

end ForInit

mutual

/-- The functions that a statement calls, in the order in which its code is made. -/
def Stmt.calls : Stmt → List Text
  | .ret _ value => Expr.callsOption value
  | .expr _ value => value.calls
  | .ifThen _ condition body | .whileLoop _ _ condition body | .switch _ _ condition body _ =>
      condition.calls ++ body.calls
  | .ifElse _ condition thenBranch elseBranch =>
      condition.calls ++ (thenBranch.calls ++ elseBranch.calls)
  | .block _ items => Item.callsList items
  | .doWhile _ _ body condition => body.calls ++ condition.calls
  | .forLoop _ _ init condition post body =>
      init.calls ++ (Expr.callsOption condition ++ (body.calls ++ Expr.callsOption post))
  | .case _ _ _ body | .default _ _ body => body.calls
  | .break _ _ | .continue _ _ | .null _ => []

def Item.callsList : List Item → List Text
  | [] => []
  | .stmt stmt :: items => stmt.calls ++ Item.callsList items
  | .decl (.object decl) :: items => decl.calls ++ Item.callsList items
  | .decl _ :: items => Item.callsList items

end

mutual

/-- The objects that a statement initializes or uses. Those in the value of a case do not count, as
it has no code. -/
def Stmt.uses : Stmt → List Text
  | .ret _ value => Expr.objectsOption value
  | .expr _ value => value.objects
  | .ifThen _ condition body | .whileLoop _ _ condition body | .switch _ _ condition body _ =>
      condition.objects ++ body.uses
  | .ifElse _ condition thenBranch elseBranch =>
      condition.objects ++ (thenBranch.uses ++ elseBranch.uses)
  | .block _ items => Item.usesList items
  | .doWhile _ _ body condition => body.uses ++ condition.objects
  | .forLoop _ _ init condition post body =>
      init.uses ++
        (Expr.objectsOption condition ++ (body.uses ++ Expr.objectsOption post))
  | .case _ _ _ body | .default _ _ body => body.uses
  | .break _ _ | .continue _ _ | .null _ => []

def Item.usesList : List Item → List Text
  | [] => []
  | .stmt stmt :: items => stmt.uses ++ Item.usesList items
  | .decl (.object decl) :: items => decl.uses ++ Item.usesList items
  | .decl _ :: items => Item.usesList items

end

/-! ### Where a value leads -/

/-- Code that compares a value and goes to some of the given labels, or falls through. -/
structure Context.Dispatches (labels : List Text) (value : Operand) (context : Context)
    (code : Code) (after : Context) : Prop where
  /-- The symbols entered are temporaries. -/
  appends : context.Appends after
  /-- The names are that of the value, or drawn. -/
  names : ∀ name ∈ Code.names code,
    name ∈ value.names ∨ name.IsNumbered context.nextName after.nextName
  callees : Code.callees code = []
  /-- What is known is known at the labels. -/
  defines : ∀ (owed : Text → Set Text) (known : Set Text), (∀ name ∈ value.names, name ∈ known) →
    (∀ label ∈ labels, owed label ⊆ known) → Code.Defines owed known known code

@[simp]
theorem Instruction.names_binary (op : TwoOp) (left right target : Operand) :
    (binary op left right target).names = left.names ++ (right.names ++ target.names) := by
  cases left <;> cases right <;> rfl

@[simp]
theorem Instruction.names_ret (value : Operand) : (ret value).names = value.names := by
  cases value <;> rfl

namespace Context.Dispatches

variable {labels : List Text} {value : Operand} {first second third : Context} {code rest : Code}

theorem nil (context : Context) : context.Dispatches labels value [] context :=
  ⟨.refl context, nofun, rfl, fun _ known _ _ => .nil known⟩

theorem append (earlier : first.Dispatches labels value code second)
    (next : second.Dispatches labels value rest third) :
    first.Dispatches labels value (code ++ rest) third := by
  refine ⟨earlier.appends.trans next.appends, ?_, ?_, ?_⟩
  · rw [Code.names_append]
    refine List.forall_mem_append.2 ⟨?_, ?_⟩
    · exact fun name mem => (earlier.names name mem).imp_right fun isNumbered =>
        isNumbered.widen (Nat.le_refl _) next.appends.le
    · exact fun name mem => (next.names name mem).imp_right fun isNumbered =>
        isNumbered.widen earlier.appends.le (Nat.le_refl _)
  · rw [Code.callees_append, earlier.callees, next.callees]
    rfl
  · exact fun owed known given owes =>
      (earlier.defines owed known given owes).append (next.defines owed known given owes)

theorem mono {more : List Text} (dispatches : first.Dispatches labels value code second)
    (subset : labels ⊆ more) : first.Dispatches more value code second :=
  ⟨dispatches.appends, dispatches.names, dispatches.callees, fun owed known given owes =>
    dispatches.defines owed known given fun label mem => owes label (subset mem)⟩

/-- A jump that depends on the value. -/
theorem branch {instruction : Instruction} {target : Text} (context : Context)
    (isBranch : instruction = .jumpIfZero value target ∨ instruction = .jumpIfNotZero value target)
    (isLabel : target ∈ labels) : context.Dispatches labels value [instruction] context := by
  refine ⟨.refl context, ?_, ?_, fun owed known given owes => ?_⟩
  · rcases isBranch with rfl | rfl <;> simpa using fun _ => .inl
  · rcases isBranch with rfl | rfl <;> rfl
  · exact .branch isBranch given (owes target isLabel) (.nil known)

/-- A return of the value. -/
theorem ret (context : Context) : context.Dispatches labels value [.ret value] context := by
  refine ⟨.refl context, ?_, rfl, fun owed known given _ => ⟨?_, nofun, Set.subset_univ _⟩⟩
  · simpa using fun _ => .inl
  · simpa [Instruction.reads, Instruction.sources] using given

end Context.Dispatches

namespace Context.Delivers

variable {labels inputs calls : List Text} {value : Operand} {context first second third : Context}
  {code rest : Code}

/-- A value is looked at, to go to labels or to fall through. -/
theorem dispatch (tests : first.Delivers [] inputs calls code value.names second)
    (goes : second.Dispatches labels value rest third) :
    first.Delivers labels inputs calls (code ++ rest) [] third := by
  have fromTest := tests.names_between (Nat.le_refl _) goes.appends.le (List.Subset.refl _)
  refine ⟨tests.appends.trans goes.appends, ?_, ?_, fun known strings given => ?_⟩
  · rw [List.append_nil, Code.names_append]
    refine List.forall_mem_append.2 ⟨fun name mem => fromTest name (List.mem_append_left _ mem), ?_⟩
    intro name mem
    rcases goes.names name mem with mem | isNumbered
    · exact fromTest name (List.mem_append_right _ mem)
    · exact .inr (isNumbered.widen tests.le (Nat.le_refl _))
  · rw [Code.callees_append, tests.callees, goes.callees, List.append_nil]
  · rcases tests.defines known strings given with ⟨own, defines⟩
    refine ⟨own, fun owed agrees owes => ?_⟩
    have begins := defines owed (fun number label above below =>
      agrees number label above (Nat.lt_of_lt_of_le below goes.appends.le)) nofun
    have goesOn := goes.defines owed (known ∪ {name | name ∈ value.names})
      (fun name mem => .inr mem) fun label mem =>
        (owes label mem).trans_subset Set.subset_union_left
    refine (begins.append goesOn).mono Set.Subset.rfl ?_
    exact Set.union_subset Set.subset_union_left nofun

/-- A label of the tree. -/
theorem mark {label : Text} (context : Context) (isLabel : label ∈ labels) :
    context.Delivers labels [] [] [.label label] [] context := by
  refine ⟨.refl context, nofun, rfl, fun known _ _ => .of_forall fun owed owes => ?_⟩
  refine .label (owes label isLabel).subset ?_
  rw [owes label isLabel]
  exact Set.union_subset Set.Subset.rfl nofun

/-- A jump to a label of the tree. -/
theorem go {label : Text} (context : Context) (isLabel : label ∈ labels) :
    context.Delivers labels [] [] [.jump label] [] context := by
  refine ⟨.refl context, nofun, rfl, fun known _ _ => .of_forall fun owed owes => ?_⟩
  exact .jump (owes label isLabel).subset (Set.subset_univ _)

/-- A test that leaves for a label of the tree. -/
theorem leave {target : Text} {instruction : Instruction}
    (tests : first.Delivers [] inputs calls code value.names second)
    (isBranch : instruction = .jumpIfZero value target ∨ instruction = .jumpIfNotZero value target)
    (isLabel : target ∈ labels) :
    first.Delivers labels inputs calls (code ++ [instruction]) [] second :=
  tests.dispatch (.branch second isBranch isLabel)

/-- A test that leaves for a label that is drawn first. -/
theorem skip (stem : Text) {others later : List Text} {bodyCode : Code} (isStem : stem.IsStem)
    (tests : Delivers [] inputs calls { context with nextName := context.nextName + 1 } code
      value.names second)
    (bodies : second.Delivers labels others later bodyCode [] third) :
    context.Delivers labels (inputs ++ others) (calls ++ later)
      (code ++ [Instruction.jumpIfZero value (labelText stem context.nextName)] ++ bodyCode ++
        [Instruction.label (labelText stem context.nextName)]) [] third := by
  have testsLe : context.nextName + 1 ≤ second.nextName := tests.le
  have bodiesLe := bodies.le
  refine ⟨(Context.Appends.draw context).trans (tests.appends.trans bodies.appends), ?_, ?_,
    fun known strings given => ?_⟩
  · have fromTest := tests.names_between (Nat.le_succ context.nextName) bodiesLe
      (List.subset_append_left _ others)
    have fromBody := bodies.names_between (Nat.le_of_succ_le testsLe) (Nat.le_refl _)
      (List.subset_append_right inputs _)
    intro name mem
    simp only [Code.names_append, Code.names_cons, Code.names_nil, Instruction.names_jumpIfZero,
      Instruction.names_label, List.append_nil] at fromTest fromBody mem
    exact (List.mem_append.1 mem).elim (fromTest name) (fromBody name)
  · simp [tests.callees, bodies.callees]
  · rcases List.forall_mem_append.1 given with ⟨givenTest, givenBody⟩
    refine ((Code.Chosen.draw context.nextName fun _ => known).and
      ((tests.defines known strings givenTest).and (bodies.defines known strings givenBody)
        tests.le bodiesLe) (Nat.le_succ _) (by omega)).mono ?_
    rintro owed ⟨owing, tests, bodies⟩ owes
    have atEnd := owing stem isStem
    have leaves : Code.Defines owed (known ∪ {name | name ∈ value.names})
        (known ∪ {name | name ∈ value.names})
        [.jumpIfZero value (labelText stem context.nextName)] :=
      .branch (.inl rfl) (fun name mem => .inr mem) (atEnd.trans_subset Set.subset_union_left)
        (.nil _)
    refine (((tests nofun).append leaves).append
      ((bodies owes).mono Set.subset_union_left Set.Subset.rfl)).append (.label ?_ ?_)
    · exact atEnd.trans_subset Set.subset_union_left
    · rw [atEnd]
      exact Set.union_subset Set.Subset.rfl nofun

end Context.Delivers

/-! ### Declarations -/

theorem writeBytes_delivers (context : Context) (name : Text) (offset : Size) (bytes : Text) :
    context.Delivers [] [name] [] (writeBytes name offset bytes) [] context := by
  fun_induction writeBytes name offset bytes with
  | case1 => exact .nil context (List.nil_subset _)
  | case2 offset bytes _ width ih =>
      have writes : context.Delivers [] [name] [] [.copyToOffset
          (.constant (.ofWord (bytes.take width))) name offset] [] context :=
        .instruction (.copyToOffset _ name offset) (.refl context) rfl
          (List.forall_mem_nil _) fun _ mem => .inl mem
      exact writes.append ih (List.Subset.refl _) (List.subset_append_left _ _)

namespace Initializer

mutual

theorem lowerAt_delivers (name : Text) : ∀ (init : Initializer) (type : CType) (offset : Size)
    {context : Context},
    Yields (init.lowerAt name type offset) context fun code after =>
      context.Delivers [] (name :: init.objects) init.calls code [] after
  | .single _ value, type, offset, context => by
      unfold lowerAt
      split
      · refine Ensures.ite (fun _ => Ensures.throw trivial) fun _ => Ensures.pure ?_
        exact (writeBytes_delivers context name offset _).mono (List.Subset.refl _)
          (List.subset_append_left [name] _) (List.nil_subset _)
      · refine (Expr.lowerValue_delivers value).bind ?_
        rintro ⟨code, operand⟩ after delivers
        have writes : after.Delivers [] (name :: value.objects ++ operand.names) []
            [.copyToOffset operand name offset] [] after := by
          refine .instruction (.copyToOffset operand name offset) (.refl after) rfl ?_ ?_
          · simpa [Instruction.reads, Instruction.sources] using
              fun other mem => .inr (.inr mem)
          · cases operand <;> simp [Instruction.names, Instruction.operands, Operand.name?]
        have all := delivers.append writes (List.subset_cons_self name _) (List.Subset.refl _)
        rw [List.append_nil] at all
        exact Ensures.pure all.drop
  | .compound _ items, type, offset, context => by
      rw [lowerAt]
      exact lowerElements_delivers name items _ offset

theorem lowerElements_delivers (name : Text) : ∀ (items : List Initializer) (element : CType)
    (offset : Size) {context : Context},
    Yields (lowerElements name element offset items) context fun code after =>
      context.Delivers [] (name :: objectsList items) (callsList items) code [] after
  | [], element, offset, context => by
      rw [lowerElements]
      exact Ensures.pure (.nil context (List.nil_subset _))
  | item :: items, element, offset, context => by
      rw [lowerElements]
      refine (lowerAt_delivers name item element offset).bind ?_
      intro code between delivers
      refine (lowerElements_delivers name items element _).bind ?_
      intro more after rest
      refine Ensures.pure (delivers.append rest ?_ ?_)
      · exact List.cons_subset_cons _ (List.subset_append_left _ _)
      · rw [List.append_nil]
        exact List.cons_subset_cons _ (List.subset_append_right _ _)

end

end Initializer

namespace VarDecl

theorem lower_delivers (decl : VarDecl) {context : Context} :
    Yields decl.lower context fun code after =>
      context.Delivers [] decl.uses decl.calls code [] after := by
  rcases decl with ⟨loc, name, type, _ | storageClass, _ | init⟩
  case none.some =>
    show Yields _ context fun code after =>
      context.Delivers [] (name :: init.objects) init.calls code [] after
    rw [lower]
    dsimp only
    split
    · exact init.lowerAt_delivers name _ 0
    · rename_i loc value _
      refine (Expr.lowerValue_delivers value).bind ?_
      rintro ⟨code, operand⟩ after delivers
      have writes : after.Delivers [] (name :: value.objects ++ operand.names) []
          [.copy operand (.var name)] [name] after := by
        refine .compute [operand] (.var name) ⟨rfl, rfl, rfl, rfl, rfl⟩ (.refl after) ?_ ?_
        · simp
        · simp
      have all := delivers.append writes (List.subset_cons_self name _) (List.Subset.refl _)
      rw [List.append_nil] at all
      exact Ensures.pure all.drop
    · exact init.lowerAt_delivers name type 0
  all_goals exact Ensures.pure (.nil context (List.nil_subset _))

theorem lowerList_delivers : ∀ (decls : List VarDecl) {context : Context},
    Yields (lowerList decls) context fun code after =>
      context.Delivers [] (usesList decls) (callsList decls) code [] after
  | [], context => Ensures.pure (.nil context (List.nil_subset _))
  | decl :: decls, context => by
      rw [lowerList]
      refine (lower_delivers decl).bind ?_
      intro code between delivers
      refine (lowerList_delivers decls).bind ?_
      intro more after rest
      exact Ensures.pure (delivers.sequence rest)

end VarDecl

theorem ForInit.lower_delivers (init : ForInit) {context : Context} :
    Yields init.lower context fun code after =>
      context.Delivers [] init.uses init.calls code [] after := by
  cases init with
  | declarations _ decls => exact VarDecl.lowerList_delivers decls
  | expression _ value => exact Expr.lowerEffectOption_delivers [] value

/-! ### Statements -/

theorem Expr.lowerTest_delivers {labels : List Text} (target : Text) (condition : Option Expr)
    (isLabel : target ∈ labels) {context : Context} :
    Yields (lowerTest target condition) context fun code after =>
      context.Delivers labels (objectsOption condition) (callsOption condition) code [] after := by
  cases condition with
  | none => exact Ensures.pure (.nil context (List.nil_subset _))
  | some condition =>
      rw [lowerTest]
      refine (lowerValue_delivers condition).bind ?_
      rintro ⟨code, value⟩ after delivers
      exact Ensures.pure (delivers.leave (.inl rfl) isLabel)

/-- The comparisons of a switch go to its cases. -/
theorem SwitchCase.lowerList_dispatches {value : Operand} {type : CType} :
    ∀ (cases : List SwitchCase) {context : Context},
    Yields (lowerList value type cases) context fun code after =>
      context.Dispatches (cases.map SwitchCase.label) value code after
  | [], context => Ensures.pure (.nil context)
  | ⟨none, label, span⟩ :: cases, context => by
      rw [lowerList]
      exact (lowerList_dispatches cases).mono fun _ _ dispatches =>
        dispatches.mono (List.subset_cons_self _ _)
  | ⟨some constant, label, span⟩ :: cases, context => by
      rw [lowerList]
      refine (Pass.newTemporary_draws _).bind ?_
      rintro _ first ⟨rfl, drawn, appends⟩
      refine Const.convert_yields.bind ?_
      rintro converted _ rfl
      refine (lowerList_dispatches cases).bind ?_
      intro code after rest
      let same := Text.numbered "tmp" context.nextName
      have compares : context.Dispatches (label :: cases.map SwitchCase.label) value
          [.binary (.compare .equal) value (.constant converted) (.var same),
            .jumpIfNotZero (.var same) label] first := by
        refine ⟨appends, ?_, rfl, fun owed known given owes => ?_⟩
        · have isNumbered := Text.isNumbered_numbered "tmp" context.nextName
          rw [← drawn] at isNumbered
          intro name mem
          simp only [Code.names_cons, Code.names_nil, Instruction.names_binary,
            Instruction.names_jumpIfNotZero, Operand.names_constant, Operand.names_var,
            List.append_nil, List.nil_append, List.mem_append, List.mem_singleton] at mem
          rcases mem with (mem | rfl) | rfl
          · exact .inl mem
          · exact .inr isNumbered
          · exact .inr isNumbered
        · refine .straight rfl ?_ (.branch (.inr rfl) (fun name mem => .inr mem) ?_ ?_)
          · simpa [Instruction.reads, Instruction.sources] using given
          · exact (owes label List.mem_cons_self).trans Set.subset_union_left
          · exact Set.subset_union_left
      exact Ensures.pure (compares.append (rest.mono (List.subset_cons_self _ _)))

theorem Targets.exits_left (targets : Targets) (first second : List Text) :
    targets.exits ++ first ⊆ targets.exits ++ (first ++ second) := by
  rw [← List.append_assoc]
  exact List.subset_append_left _ _

theorem Targets.exits_right (targets : Targets) (first second : List Text) :
    targets.exits ++ second ⊆ targets.exits ++ (first ++ second) :=
  List.append_subset.2 ⟨List.subset_append_left _ _,
    List.subset_append_of_subset_right _ (List.subset_append_right _ _)⟩

/-- The labels of a loop are labels of its statement, and those outside are labels outside. -/
theorem Targets.exits_inLoop (targets : Targets) {own : Text} (marks : List Text)
    {labels : List Text} (atBreak : breakLabelOf (some own) ∈ marks)
    (atContinue : continueLabelOf (some own) ∈ marks) :
    (targets.inLoop own).exits ++ labels ⊆ targets.exits ++ (marks ++ labels) := by
  refine List.append_subset.2 ⟨?_, List.subset_append_of_subset_right _
    (List.subset_append_right _ _)⟩
  refine List.subset_append_of_subset_right _ (List.subset_append_of_subset_left _ ?_)
  simpa [exits, inLoop] using ⟨atBreak, atContinue⟩

mutual

/-- The code of a statement makes its calls in order, mentions what the statement initializes or
uses, and reads nothing before it is written. -/
theorem Stmt.lower_delivers : ∀ (stmt : Stmt) {targets : Targets} {context : Context},
    stmt.Bound SwitchCase.Denotes targets →
    Yields stmt.lower context fun code after =>
      context.Delivers (targets.exits ++ stmt.labels) stmt.uses stmt.calls code [] after
  | .ret _ none, targets, context, _ => by
      rw [Stmt.lower]
      have begins : context.Delivers [] [] [] [] (Operand.names .absent) context :=
        .nil context (List.nil_subset _)
      exact Ensures.pure (begins.dispatch (.ret context))
  | .ret _ (some value), targets, context, _ => by
      rw [Stmt.lower]
      refine (Expr.lowerValue_delivers value).bind ?_
      rintro ⟨code, operand⟩ after delivers
      exact Ensures.pure (delivers.dispatch (.ret after))
  | .expr _ value, targets, context, _ => by
      rw [Stmt.lower]
      exact Expr.lowerEffect_delivers value
  | .ifThen _ condition body, targets, context, bound => by
      rw [Stmt.lower]
      refine Ensures.bind_ok (Pass.run_newLabelPair _ _ _) ?_
      refine (Expr.lowerValue_delivers condition).bind ?_
      rintro ⟨conditionCode, value⟩ first conditions
      refine (Stmt.lower_delivers body bound).bind ?_
      intro bodyCode after bodies
      exact Ensures.pure (.skip "if_end" (Text.isStem_of_getLast? rfl (by decide))
        conditions bodies)
  | .ifElse _ condition thenBranch elseBranch, targets, context, bound => by
      rw [Stmt.lower]
      refine Ensures.bind_ok (Pass.run_newLabelPair _ _ _) ?_
      refine (Expr.lowerValue_delivers condition).bind ?_
      rintro ⟨conditionCode, value⟩ first conditions
      refine (Stmt.lower_delivers thenBranch bound.1).bind ?_
      intro thenCode second thens
      refine (Stmt.lower_delivers elseBranch bound.2).bind ?_
      intro elseCode after elses
      have areStems : Text.IsStem "if_else" ∧ Text.IsStem "if_end" :=
        ⟨Text.isStem_of_getLast? rfl (by decide), Text.isStem_of_getLast? rfl (by decide)⟩
      refine Ensures.pure (.choice ("if_else", "if_end") areStems conditions
        (thens.relabel ?_) (elses.relabel ?_))
      · exact Targets.exits_left _ _ _
      · exact Targets.exits_right _ _ _
  | .block _ items, targets, context, bound => by
      rw [Stmt.lower]
      exact Item.lowerList_delivers items bound
  | .whileLoop _ _ condition body, targets, context, ⟨own, rfl, bound⟩ => by
      let marks := [Targets.continueLabelOf (some own), Targets.breakLabelOf (some own)]
      let labels := targets.exits ++ (marks ++ body.labels)
      have atContinue : Targets.continueLabelOf (some own) ∈ labels := by simp [labels, marks]
      have atBreak : Targets.breakLabelOf (some own) ∈ labels := by simp [labels, marks]
      rw [Stmt.lower]
      refine (Expr.lowerValue_delivers condition).bind ?_
      rintro ⟨conditionCode, value⟩ first conditions
      refine (Stmt.lower_delivers body bound).bind ?_
      intro bodyCode after bodies
      have bodies := bodies.relabel
        (targets.exits_inLoop marks (by simp [marks]) (by simp [marks]))
      have all := (((Context.Delivers.mark context atContinue).sequence
        (conditions.leave (.inl rfl) atBreak)).sequence bodies).sequence
          ((Context.Delivers.go after atContinue).sequence (.mark after atBreak))
      refine Ensures.pure ?_
      simp only [List.append_assoc, List.cons_append, List.nil_append, List.append_nil] at all ⊢
      exact all
  | .doWhile _ _ body condition, targets, context, ⟨own, rfl, bound⟩ => by
      let marks := [Targets.startLabelOf (some own), Targets.continueLabelOf (some own),
        Targets.breakLabelOf (some own)]
      let labels := targets.exits ++ (marks ++ body.labels)
      have atStart : Targets.startLabelOf (some own) ∈ labels := by simp [labels, marks]
      have atContinue : Targets.continueLabelOf (some own) ∈ labels := by simp [labels, marks]
      have atBreak : Targets.breakLabelOf (some own) ∈ labels := by simp [labels, marks]
      rw [Stmt.lower]
      refine (Stmt.lower_delivers body bound).bind ?_
      intro bodyCode first bodies
      refine (Expr.lowerValue_delivers condition).bind ?_
      rintro ⟨conditionCode, value⟩ after conditions
      have bodies := bodies.relabel
        (targets.exits_inLoop marks (by simp [marks]) (by simp [marks]))
      have all := ((((Context.Delivers.mark context atStart).sequence bodies).sequence
        (.mark first atContinue)).sequence (conditions.leave (.inr rfl) atStart)).sequence
          (.mark after atBreak)
      refine Ensures.pure ?_
      simp only [List.append_assoc, List.cons_append, List.nil_append, List.append_nil] at all ⊢
      exact all
  | .forLoop _ _ init condition post body, targets, context, ⟨own, rfl, bound⟩ => by
      let marks := [Targets.startLabelOf (some own), Targets.continueLabelOf (some own),
        Targets.breakLabelOf (some own)]
      let labels := targets.exits ++ (marks ++ body.labels)
      have atStart : Targets.startLabelOf (some own) ∈ labels := by simp [labels, marks]
      have atContinue : Targets.continueLabelOf (some own) ∈ labels := by simp [labels, marks]
      have atBreak : Targets.breakLabelOf (some own) ∈ labels := by simp [labels, marks]
      rw [Stmt.lower]
      refine (ForInit.lower_delivers init).bind ?_
      intro initCode first inits
      refine (Expr.lowerTest_delivers _ condition atBreak).bind ?_
      intro testCode second tests
      refine (Stmt.lower_delivers body bound).bind ?_
      intro bodyCode third bodies
      refine (Expr.lowerEffectOption_delivers labels post).bind ?_
      intro postCode after posts
      have bodies := bodies.relabel
        (targets.exits_inLoop marks (by simp [marks]) (by simp [marks]))
      have all := (((((inits.drop.sequence (.mark first atStart)).sequence tests).sequence
        bodies).sequence (.mark third atContinue)).sequence posts).sequence
          ((Context.Delivers.go after atStart).sequence (.mark after atBreak))
      refine Ensures.pure ?_
      simp only [List.append_assoc, List.cons_append, List.nil_append, List.append_nil] at all ⊢
      exact all
  | .switch _ _ value body cases, targets, context, ⟨own, rfl, bound, denote, _⟩ => by
      let labels := targets.exits ++ ([Targets.breakLabelOf (some own)] ++ body.labels)
      have isCase : cases.map SwitchCase.label ⊆ labels := by
        rw [SwitchCase.Denotes.map_label denote]
        intro label mem
        rcases List.mem_map.1 mem with ⟨node, nodeMem, rfl⟩
        exact List.mem_append_right _
          (List.mem_append_right _ (Stmt.label_mem_labels body nodeMem))
      have atBreak : Targets.breakLabelOf (some own) ∈ labels := by simp [labels]
      have atFallback : SwitchCase.fallback (Targets.breakLabelOf (some own)) cases ∈ labels :=
        List.cons_subset.2 ⟨atBreak, isCase⟩ (SwitchCase.fallback_mem _ cases)
      have exits : (targets.inSwitch own).exits ++ body.labels ⊆ labels := by
        refine List.append_subset.2 ⟨?_, ?_⟩
        · simp [Targets.exits, Targets.inSwitch, labels]
        · exact List.subset_append_of_subset_right _ (List.subset_append_right _ _)
      rw [Stmt.lower]
      refine (Expr.lowerValue_delivers value).bind ?_
      rintro ⟨valueCode, operand⟩ first values
      refine (SwitchCase.lowerList_dispatches cases).bind ?_
      intro casesCode second comparisons
      refine (Stmt.lower_delivers body bound).bind ?_
      intro bodyCode after bodies
      have all := (((values.dispatch (comparisons.mono isCase)).sequence
        (.go second atFallback)).sequence (bodies.relabel exits)).sequence (.mark after atBreak)
      refine Ensures.pure ?_
      simp only [List.append_assoc, List.cons_append, List.nil_append, List.append_nil] at all ⊢
      exact all
  | .case _ label _ body, targets, context, bound
  | .default _ label body, targets, context, bound => by
      have isLabel : label.getD [] ∈ targets.exits ++ ([label.getD []] ++ body.labels) := by simp
      rw [Stmt.lower]
      refine (Stmt.lower_delivers body bound).bind ?_
      intro code after bodies
      exact Ensures.pure ((Context.Delivers.mark context isLabel).sequence
        (bodies.relabel (targets.exits_right _ _)))
  | .break _ label, targets, context, ⟨isTarget, isSome⟩ => by
      rw [Stmt.lower]
      rcases Option.isSome_iff_exists.1 isSome with ⟨own, rfl⟩
      exact Ensures.pure (.go context (by simp [Targets.exits, ← isTarget]))
  | .continue _ label, targets, context, ⟨isTarget, isSome⟩ => by
      rw [Stmt.lower]
      rcases Option.isSome_iff_exists.1 isSome with ⟨own, rfl⟩
      exact Ensures.pure (.go context (by simp [Targets.exits, ← isTarget]))
  | .null _, targets, context, _ => by
      rw [Stmt.lower]
      exact Ensures.pure (.nil context (List.nil_subset _))

theorem Item.lowerList_delivers : ∀ (items : List Item) {targets : Targets} {context : Context},
    Item.BoundList SwitchCase.Denotes targets items →
    Yields (Item.lowerList items) context fun code after =>
      context.Delivers (targets.exits ++ Item.labelsList items) (Item.usesList items)
        (Item.callsList items) code [] after
  | [], targets, context, _ => by
      rw [Item.lowerList]
      exact Ensures.pure (.nil context (List.nil_subset _))
  | .stmt stmt :: items, targets, context, bound => by
      rw [Item.lowerList]
      refine (Stmt.lower_delivers stmt bound.1).bind ?_
      intro code between delivers
      refine (Item.lowerList_delivers items bound.2).bind ?_
      intro more after rest
      refine Ensures.pure ((delivers.relabel ?_).sequence (rest.relabel ?_))
      · exact Targets.exits_left _ _ _
      · exact Targets.exits_right _ _ _
  | .decl (.object decl) :: items, targets, context, bound => by
      rw [Item.lowerList]
      refine (VarDecl.lower_delivers decl).bind ?_
      intro code between delivers
      refine (Item.lowerList_delivers items bound).bind ?_
      intro more after rest
      exact Ensures.pure (delivers.drop.sequence rest)
  | .decl (.function _) :: items, targets, context, bound
  | .decl (.definition _ _ _) :: items, targets, context, bound => by
      rw [Item.lowerList]
      · exact Item.lowerList_delivers items bound
      · nofun

end

/-! ### Functions -/

theorem CType.lowerEnd_delivers (result : CType) (labels : List Text) {context : Context} :
    Yields result.lowerEnd context fun code after =>
      context.Delivers labels [] [] code [] after := by
  have returns : ∀ {value : Operand}, value.names = [] →
      context.Delivers labels [] [] [.ret value] [] context := fun noName =>
    (Context.Delivers.nil context (by simp [noName])).dispatch (.ret context)
  unfold CType.lowerEnd
  refine Ensures.ite (fun _ => Ensures.pure (returns rfl)) fun _ => ?_
  split
  · exact Ensures.pure (returns rfl)
  · exact Ensures.throw trivial

/-- The function has been made from a definition. -/
structure Context.DeliversFunction (context : Context) (definition : FunDecl × List Item)
    (function : Function) (after : Context) : Prop where
  name : function.name = definition.1.name
  params : function.params = definition.1.params.map Param.name
  /-- What its code mentions, calls and writes. -/
  body : context.Delivers (Item.labelsList definition.2) (Item.usesList definition.2)
    (Item.callsList definition.2) function.body [] after

theorem FunDecl.lower_delivers {decl : FunDecl} {body : List Item} {context : Context}
    (bound : Item.BoundList SwitchCase.Denotes .none body) :
    Yields (decl.lower body) context fun function after =>
      context.DeliversFunction (decl, body) function after := by
  have delivers : Yields (decl.lower body) context fun function after =>
      context.Delivers (Item.labelsList body) (Item.usesList body) (Item.callsList body)
        function.body [] after := by
    unfold FunDecl.lower
    refine Pass.functionIsGlobal_yields.bind ?_
    rintro isGlobal _ rfl
    refine (Item.lowerList_delivers body bound).bind ?_
    intro bodyCode between delivers
    refine (decl.result.lowerEnd_delivers (Item.labelsList body)).bind ?_
    intro endCode after ends
    have all := delivers.sequence ends
    simp only [List.append_nil] at all
    exact Ensures.pure all
  refine (FunDecl.lower_signature.and delivers).mono ?_
  rintro function after ⟨⟨name, params⟩, body⟩
  exact ⟨name, params, body⟩

/-- Functions are made from definitions, one after the other. -/
inductive Context.DeliversAll :
    Context → List (FunDecl × List Item) → List Function → Context → Prop where
  | nil (context : Context) : DeliversAll context [] [] context
  | cons {first second third : Context} {definition : FunDecl × List Item} {function : Function}
      {definitions : List (FunDecl × List Item)} {functions : List Function}
      (head : first.DeliversFunction definition function second)
      (tail : DeliversAll second definitions functions third) :
      DeliversAll first (definition :: definitions) (function :: functions) third

namespace Program

theorem lowerFunctions_delivers : ∀ (program : Program) {context : Context},
    program.Bound SwitchCase.Denotes →
    Yields program.lowerFunctions context fun functions after =>
      context.DeliversAll program.definitions functions after
  | [], context, _ => by
      rw [lowerFunctions]
      exact Ensures.pure (.nil context)
  | .definition decl bodyLoc body :: decls, context, bound => by
      rcases List.forall_mem_cons.1 bound with ⟨bodyBound, declsBound⟩
      rw [lowerFunctions]
      refine (FunDecl.lower_delivers bodyBound).bind ?_
      intro function between head
      refine (lowerFunctions_delivers decls declsBound).bind ?_
      intro functions after tail
      exact Ensures.pure (.cons head tail)
  | .object decl :: decls, context, bound | .function decl :: decls, context, bound => by
      rcases List.forall_mem_cons.1 bound with ⟨_, declsBound⟩
      rw [lowerFunctions]
      · exact lowerFunctions_delivers decls declsBound
      · simp

/-- The functions of a lowered compilation unit are made from its definitions, one after the
other. -/
theorem Analysed.lower_delivers {program : Program} {context : Context}
    (analysed : program.Analysed context) :
    Yields program.lower context fun linear after =>
      context.DeliversAll program.definitions linear.functions after :=
  lower_functions (lowerFunctions_delivers program analysed.bound)

end Program

end SubsetC
