import SubsetC.Proofs.Delivery

/-!
# What the code of an expression mentions, calls and writes

The code of an expression mentions the objects that the expression uses and names drawn for it,
makes the calls of the expression in order, and leaves its value in a place that is written by then.
Only `&&`, `||` and the conditional operator branch. Their result is a temporary that is written on
each way to the end, and what the ways have in common is what is written where they part.
-/

namespace SubsetC

/-! ### Branches -/

theorem LogicOp.isBranch_exit (op : LogicOp) (operand : Operand) (label : Text) :
    op.exit operand label = .jumpIfZero operand label ∨
      op.exit operand label = .jumpIfNotZero operand label := by
  cases op with
  | and => exact .inl rfl
  | or => exact .inr rfl

/-! What the instructions around the code of operands mention and call. -/

section

variable (source target condition : Operand) (label : Text)

@[simp]
theorem Instruction.names_copy : (copy source target).names = source.names ++ target.names := by
  cases source <;> rfl

@[simp]
theorem Instruction.names_jump : (jump label).names = [] := rfl

@[simp]
theorem Instruction.names_label : (Instruction.label label).names = [] := rfl

@[simp]
theorem Instruction.names_jumpIfZero : (jumpIfZero condition label).names = condition.names := by
  cases condition <;> rfl

@[simp]
theorem Instruction.names_jumpIfNotZero :
    (jumpIfNotZero condition label).names = condition.names := by
  cases condition <;> rfl

@[simp]
theorem LogicOp.names_exit (op : LogicOp) : (op.exit condition label).names = condition.names := by
  cases op
  · exact Instruction.names_jumpIfZero condition label
  · exact Instruction.names_jumpIfNotZero condition label

@[simp]
theorem LogicOp.names_result (value : Bool) : (result value).names = [] := rfl

@[simp]
theorem Code.callee?_copy : callee? (.copy source target) = none := rfl

@[simp]
theorem Code.callee?_jump : callee? (.jump label) = none := rfl

@[simp]
theorem Code.callee?_label : callee? (.label label) = none := rfl

@[simp]
theorem Code.callee?_jumpIfZero : callee? (.jumpIfZero condition label) = none := rfl

@[simp]
theorem Code.callee?_jumpIfNotZero : callee? (.jumpIfNotZero condition label) = none := rfl

@[simp]
theorem LogicOp.callee?_exit (op : LogicOp) :
    Code.callee? (op.exit condition label) = none := by
  cases op <;> rfl

end

namespace Context.Delivers

variable {context first second third : Context} {inputs others more calls later last : List Text}
  {leftCode rightCode testCode : Code} {left right value : Operand}

/-- The code of `&&` and `||`: the result is written on both ways to its end. -/
theorem logic (op : LogicOp) (drawn : first.nextName = context.nextName + 2)
    (appends : context.Appends first)
    (lefts : first.Delivers [] inputs calls leftCode left.names second)
    (rights : second.Delivers [] others later rightCode right.names third) :
    context.Delivers [] (inputs ++ others) (calls ++ later)
      (leftCode ++ [op.exit left (labelText op.stems.1 context.nextName)] ++ rightCode ++
        [op.exit right (labelText op.stems.1 context.nextName),
          .copy (LogicOp.result !op.decided) (.var (Text.numbered "tmp" (context.nextName + 1))),
          .jump (labelText op.stems.2 context.nextName),
          .label (labelText op.stems.1 context.nextName),
          .copy (LogicOp.result op.decided) (.var (Text.numbered "tmp" (context.nextName + 1))),
          .label (labelText op.stems.2 context.nextName)])
      [Text.numbered "tmp" (context.nextName + 1)] third := by
  have isBranch := fun operand => op.isBranch_exit operand (labelText op.stems.1 context.nextName)
  have operands := lefts.both rights
  have le := operands.le
  let target := Text.numbered "tmp" (context.nextName + 1)
  refine ⟨appends.trans operands.appends, ?_, ?_, ?_⟩
  · have isNumbered : target.IsNumbered context.nextName third.nextName :=
      ⟨"tmp", context.nextName + 1, by omega, by omega, rfl⟩
    have fromOperands := operands.names_between (show context.nextName ≤ first.nextName by omega)
      (Nat.le_refl _) (List.Subset.refl _)
    intro name mem
    by_cases same : name = target
    · exact .inr (same ▸ isNumbered)
    · refine fromOperands name ?_
      simp only [Code.names_append, Code.names_cons, Code.names_nil, LogicOp.names_exit,
        LogicOp.names_result, Instruction.names_copy, Instruction.names_jump,
        Instruction.names_label, Operand.names_var, List.mem_append, List.mem_singleton,
        List.append_nil, List.nil_append] at mem ⊢
      grind
  · simp [lefts.callees, rights.callees]
  · intro known strings given
    rcases List.forall_mem_append.1 given with ⟨givenLeft, givenRight⟩
    rcases op.isStem_stems with ⟨differ, isFirst, isSecond⟩
    have begins := lefts.defines known strings givenLeft
    have goesOn := rights.defines (known ∪ {name | name ∈ left.names})
      (strings.trans Set.subset_union_left) fun name mem => .inl (givenRight name mem)
    -- Where one operand decides, nothing is known of the other; at the end there is the result.
    have owing := Code.Chosen.draw context.nextName fun label =>
      if label = labelText op.stems.1 context.nextName then known else known ∪ {target}
    refine (owing.and ((begins.and goesOn lefts.le rights.le).widen (by omega))
      (Nat.le_succ _) (by omega)).mono ?_
    rintro owed ⟨owing, begins, goesOn⟩ _
    have atDecided : owed (labelText op.stems.1 context.nextName) = known := by
      rw [owing _ isFirst, if_pos rfl]
    have atFinish : owed (labelText op.stems.2 context.nextName) = known ∪ {target} := by
      rw [owing _ isSecond, if_neg fun same => differ (Text.labelText_inj same).1.symm]
    have skips : Code.Defines owed (known ∪ {name | name ∈ left.names})
        (known ∪ {name | name ∈ left.names})
        [op.exit left (labelText op.stems.1 context.nextName)] :=
      .branch (isBranch left) (fun name mem => .inr mem)
        (atDecided ▸ Set.subset_union_left) (.nil _)
    have begins := begins (List.forall_mem_nil _)
    have goesOn := goesOn (List.forall_mem_nil _)
    refine ((begins.append skips).append goesOn).append ?_
    refine .branch (isBranch right) (fun name mem => .inr mem) ?_ ?_
    · rw [atDecided]
      exact Set.subset_union_left.trans Set.subset_union_left
    refine .straight rfl (List.forall_mem_nil _) (.jump ?_ (.label (Set.subset_univ _) ?_))
    · rw [atFinish]
      refine Set.union_subset_union (Set.subset_union_left.trans Set.subset_union_left) ?_
      exact fun name same => List.mem_singleton.2 same
    · rw [atDecided]
      refine .straight rfl (List.forall_mem_nil _) (.label ?_ ?_)
      · rw [atFinish]
        exact Set.union_subset_union_right _ fun name same => List.mem_singleton.2 same
      · rw [atFinish]
        exact Set.union_subset_union_right _ fun name mem => List.mem_singleton.1 mem

/-- A test and two ways on from it, without a result. -/
theorem choice (stems : Text × Text) {labels : List Text} {thenCode elseCode : Code}
    {after : Context} (areStems : stems.1.IsStem ∧ stems.2.IsStem)
    (tests : Delivers [] inputs calls { context with nextName := context.nextName + 1 } testCode
      value.names second)
    (thens : second.Delivers labels others later thenCode [] third)
    (elses : third.Delivers labels more last elseCode [] after) :
    context.Delivers labels (inputs ++ (others ++ more)) (calls ++ (later ++ last))
      (testCode ++ [Instruction.jumpIfZero value (labelText stems.1 context.nextName)] ++
        thenCode ++ [Instruction.jump (labelText stems.2 context.nextName),
          .label (labelText stems.1 context.nextName)] ++ elseCode ++
        [Instruction.label (labelText stems.2 context.nextName)]) [] after := by
  have ways := thens.sequence elses
  have testsLe : context.nextName + 1 ≤ second.nextName := tests.le
  have waysLe := ways.le
  refine ⟨(Context.Appends.draw context).trans (tests.appends.trans ways.appends), ?_, ?_, ?_⟩
  · have fromTest := tests.names_between (Nat.le_succ context.nextName) waysLe
      (List.subset_append_left _ (others ++ more))
    have fromWays := ways.names_between (Nat.le_of_succ_le testsLe) (Nat.le_refl _)
      (List.subset_append_right inputs _)
    intro name mem
    simp only [Code.names_append, Code.names_cons, Code.names_nil, Instruction.names_jumpIfZero,
      Instruction.names_jump, Instruction.names_label, List.append_nil] at fromTest fromWays mem
    rcases List.mem_append.1 mem with mem | mem
    · rcases List.mem_append.1 mem with mem | mem
      · exact fromTest name mem
      · exact fromWays name (List.mem_append_left _ mem)
    · exact fromWays name (List.mem_append_right _ mem)
  · simp [tests.callees, thens.callees, elses.callees]
  · intro known strings given
    rcases List.forall_mem_append.1 given with ⟨givenTest, givenWays⟩
    rcases List.forall_mem_append.1 givenWays with ⟨givenThen, givenElse⟩
    have owing := Code.Chosen.draw context.nextName fun _ => known
    have goesOn := (thens.defines known strings givenThen).and
      (elses.defines known strings givenElse) thens.le elses.le
    refine (owing.and ((tests.defines known strings givenTest).and goesOn tests.le waysLe)
      (Nat.le_succ _) (Nat.le_trans testsLe waysLe)).mono ?_
    rintro owed ⟨owing, tests, thens, elses⟩ owes
    have atOtherwise := owing stems.1 areStems.1
    have atFinish := owing stems.2 areStems.2
    have asked : owed (labelText stems.2 context.nextName) ⊆ known ∪ {name | name ∈ []} :=
      atFinish ▸ Set.subset_union_left
    refine (Code.Defines.choice (tests (List.forall_mem_nil _)) (fun name mem => .inr mem)
      (atOtherwise ▸ Set.subset_union_left) ((thens owes).mono Set.subset_union_left asked)
      ((elses owes).mono (atOtherwise ▸ Set.Subset.rfl) asked)).mono Set.Subset.rfl ?_
    rw [atFinish]
    exact Set.union_subset Set.Subset.rfl nofun

/-- The code of the conditional operator with a value, which is written on both ways. -/
theorem conditional (stems : Text × Text) {thenCode elseCode : Code} {fourth after : Context}
    (differ : stems.1 ≠ stems.2) (areStems : stems.1.IsStem ∧ stems.2.IsStem)
    (tests : Delivers [] inputs calls { context with nextName := context.nextName + 1 } testCode
      value.names second)
    (drawn : third.nextName = second.nextName + 1) (appends : second.Appends third)
    (thens : third.Delivers [] others later thenCode left.names fourth)
    (elses : fourth.Delivers [] more last elseCode right.names after) :
    context.Delivers [] (inputs ++ (others ++ more)) (calls ++ (later ++ last))
      (testCode ++ [Instruction.jumpIfZero value (labelText stems.1 context.nextName)] ++
        thenCode ++ [Instruction.copy left (.var (Text.numbered "tmp" second.nextName)),
          .jump (labelText stems.2 context.nextName),
          .label (labelText stems.1 context.nextName)] ++ elseCode ++
        [Instruction.copy right (.var (Text.numbered "tmp" second.nextName)),
          .label (labelText stems.2 context.nextName)])
      [Text.numbered "tmp" second.nextName] after := by
  have ways := thens.both elses
  have testsLe : context.nextName + 1 ≤ second.nextName := tests.le
  have waysLe := ways.le
  let target := Text.numbered "tmp" second.nextName
  refine ⟨(Context.Appends.draw context).trans
    (tests.appends.trans (appends.trans ways.appends)), ?_, ?_, ?_⟩
  · have isNumbered : target.IsNumbered context.nextName after.nextName :=
      ⟨"tmp", second.nextName, by omega, by omega, rfl⟩
    have fromTest := tests.names_between (Nat.le_succ context.nextName)
      (show second.nextName ≤ after.nextName by omega)
      (List.subset_append_left _ (others ++ more))
    have fromWays := ways.names_between (show context.nextName ≤ third.nextName by omega)
      (Nat.le_refl _) (List.subset_append_right inputs _)
    intro name mem
    by_cases same : name = target
    · exact .inr (same ▸ isNumbered)
    · have isOld : name ∈ Code.names testCode ++ value.names ∨
          name ∈ Code.names (thenCode ++ elseCode) ++ (left.names ++ right.names) := by
        simp only [Code.names_append, Code.names_cons, Code.names_nil,
          Instruction.names_jumpIfZero, Instruction.names_copy, Instruction.names_jump,
          Instruction.names_label, Operand.names_var, List.mem_append, List.mem_singleton,
          List.append_nil] at mem ⊢
        grind
      exact isOld.elim (fromTest name) (fromWays name)
  · simp [tests.callees, thens.callees, elses.callees]
  · intro known strings given
    rcases List.forall_mem_append.1 given with ⟨givenTest, givenWays⟩
    rcases List.forall_mem_append.1 givenWays with ⟨givenThen, givenElse⟩
    -- The branch not taken is not known of, but both have written the result.
    have owing := Code.Chosen.draw context.nextName fun label =>
      if label = labelText stems.1 context.nextName then known else known ∪ {target}
    have goesOn := (thens.defines known strings givenThen).and
      (elses.defines known strings givenElse) thens.le elses.le
    refine (owing.and ((tests.defines known strings givenTest).and (goesOn.widen (by omega))
      tests.le (by omega)) (Nat.le_succ _) (by omega)).mono ?_
    rintro owed ⟨owing, tests, thens, elses⟩ _
    have atOtherwise : owed (labelText stems.1 context.nextName) = known := by
      rw [owing _ areStems.1, if_pos rfl]
    have atFinish : owed (labelText stems.2 context.nextName) = known ∪ {target} := by
      rw [owing _ areStems.2, if_neg fun same => differ (Text.labelText_inj same).1.symm]
    have writes : ∀ {operand : Operand}, Code.Defines owed
        (owed (labelText stems.2 context.nextName)) (known ∪ {name | name ∈ operand.names})
        [.copy operand (.var target)] := by
      intro operand
      refine .straight rfl (fun name mem => .inr (by simpa [Instruction.reads,
        Instruction.sources] using mem)) ?_
      rw [atFinish]
      exact Set.union_subset_union Set.subset_union_left fun name same => List.mem_singleton.2 same
    have thenWrites := ((thens (List.forall_mem_nil _)).append writes).mono
      (Set.subset_union_left (t := {name | name ∈ value.names})) Set.Subset.rfl
    have elseWrites := (elses (List.forall_mem_nil _)).append writes
    rw [← atOtherwise] at elseWrites
    have reshaped := Code.Defines.choice (tests (List.forall_mem_nil _))
      (fun name mem => .inr mem) (atOtherwise.trans_subset Set.subset_union_left) thenWrites
      elseWrites
    simp only [List.append_assoc, List.cons_append, List.nil_append] at reshaped ⊢
    refine reshaped.mono Set.Subset.rfl ?_
    rw [atFinish]
    exact Set.union_subset_union_right _ fun name mem => List.mem_singleton.1 mem

end Context.Delivers

/-! ### Expressions -/

namespace Expr

variable {context : Context}

theorem loaded_delivers {expr : Expr}
    (lowers : Yields expr.lower context fun made after =>
      context.Delivers [] expr.objects expr.calls made.1 made.2.names after) :
    Yields (expr.lower >>= Place.loaded expr.type) context fun made after =>
      context.Delivers [] expr.objects expr.calls made.1 made.2.names after :=
  lowers.bind fun _ _ delivers => Place.loaded_delivers delivers

/-- In every context, the code of an expression makes its calls in order, mentions what the
expression uses, and leaves its result in names that are written by then. -/
abbrev AlwaysDelivers (expr : Expr) : Prop :=
  ∀ {context : Context}, Yields expr.lower context fun made after =>
    context.Delivers [] expr.objects expr.calls made.1 made.2.names after

theorem plain_delivers {note : Note} {left right : Expr} {opType : Option CType}
    (leftDelivers : left.AlwaysDelivers) (rightDelivers : right.AlwaysDelivers) :
    (assign note .plain left right opType).AlwaysDelivers := by
  intro context
  rw [lower]
  refine leftDelivers.bind ?_
  rintro ⟨leftCode, place⟩ first lefts
  refine (loaded_delivers rightDelivers).bind ?_
  rintro ⟨rightCode, value⟩ second rights
  have operands := lefts.both rights
  refine (Place.store_delivers
    (Text.left_subset (left.objects ++ right.objects) place.names value.names)
    (Text.right_subset _ _ _)).bind ?_
  intro storeCode after stores
  have all := operands.append stores (List.Subset.refl _) (List.Subset.refl _)
  rw [List.append_nil, List.append_nil] at all
  refine Ensures.pure (all.mono (List.Subset.refl _) (List.Subset.refl _) ?_)
  exact List.subset_append_of_subset_left _ (List.subset_append_right _ _)

theorem compound_delivers {note : Note} {op : ArithOp} {left right : Expr}
    {opType : Option CType} (leftDelivers : left.AlwaysDelivers)
    (rightDelivers : right.AlwaysDelivers) :
    (assign note (.compound op) left right opType).AlwaysDelivers := by
  intro context
  rw [lower]
  refine leftDelivers.bind ?_
  rintro ⟨leftCode, place⟩ first lefts
  refine (Place.load_delivers (List.subset_append_right left.objects place.names)).bind ?_
  rintro ⟨loadCode, current⟩ second loads
  have lefts := lefts.append loads (List.Subset.refl _) (List.Subset.refl _)
  refine (loaded_delivers rightDelivers).bind ?_
  rintro ⟨rightCode, value⟩ third rights
  have operands := lefts.both rights
  have currentKnown : current.names ⊆ left.objects ++ right.objects ++
      (place.names ++ current.names ++ value.names) :=
    List.Subset.trans (List.subset_append_right _ _) (Text.left_subset _ _ _)
  refine (compoundCode_delivers currentKnown (Text.right_subset _ _ _)).bind ?_
  rintro ⟨code, result⟩ fourth computes
  have operands := operands.append computes (List.Subset.refl _) (List.Subset.refl _)
  have placeKnown : place.names ⊆ left.objects ++ right.objects ++
      (place.names ++ current.names ++ value.names ++ result.names) := by
    rw [List.append_assoc (place.names ++ _), List.append_assoc place.names]
    exact Text.left_subset _ _ _
  refine (Place.store_delivers placeKnown (Text.right_subset _ _ _)).bind ?_
  intro storeCode after stores
  have all := operands.append stores (List.Subset.refl _) (List.Subset.refl _)
  simp only [List.append_nil] at all
  refine Ensures.pure (all.mono (List.Subset.refl _) (List.Subset.refl _) ?_)
  exact List.subset_append_of_subset_left _ (List.subset_append_right _ _)

mutual

/-- The code of an expression makes its calls in order, mentions what the expression uses, and
leaves its result in names that are written by then. -/
theorem lower_delivers : ∀ (expr : Expr) {context : Context},
    Yields expr.lower context fun made after =>
      context.Delivers [] expr.objects expr.calls made.1 made.2.names after
  | .constant _ _, context | .sizeofExpr _ _, context | .sizeofType _ _, context => by
      rw [lower]
      exact Ensures.pure (.nil context (List.nil_subset _))
  | .var _ _, context => by
      rw [lower]
      exact Ensures.pure (.nil context (List.Subset.refl _))
  | .string _ bytes, context => by
      rw [lower]
      refine Ensures.bind_ok rfl ?_
      refine Ensures.pure ⟨.enter "string" _ rfl, ?_, rfl, fun known strings _ => ?_⟩
      · intro name mem
        rw [List.mem_singleton.1 mem]
        exact .inr (Text.isNumbered_numbered _ _)
      · refine .of_forall fun owed _ => Set.union_subset Set.Subset.rfl fun name mem => strings ?_
        exact ⟨context.nextName, List.mem_singleton.1 mem⟩
  | .unary _ op operand, context => by
      rw [lower]
      refine (loaded_delivers (lower_delivers operand)).bind ?_
      rintro ⟨operandCode, value⟩ first operands
      refine (unaryCode_delivers (List.subset_append_right operand.objects value.names)).bind ?_
      rintro ⟨code, result⟩ after computes
      exact Ensures.pure (operands.close computes)
  | .binary _ op left right, context => by
      rw [lower]
      split
      · rename_i op _
        refine Ensures.bind_ok (Pass.run_newLabelPair _ _ _) ?_
        refine (Pass.newTemporary_draws _).bind ?_
        rintro _ first ⟨rfl, drawn, appends⟩
        refine (loaded_delivers (lower_delivers left)).bind ?_
        rintro ⟨leftCode, leftValue⟩ second lefts
        refine (loaded_delivers (lower_delivers right)).bind ?_
        rintro ⟨rightCode, rightValue⟩ after rights
        exact Ensures.pure (.logic op drawn ((Context.Appends.draw context).trans appends) lefts
          rights)
      · refine (loaded_delivers (lower_delivers left)).bind ?_
        rintro ⟨leftCode, leftValue⟩ second lefts
        refine (loaded_delivers (lower_delivers right)).bind ?_
        rintro ⟨rightCode, rightValue⟩ third rights
        have operands := lefts.both rights
        refine (binaryCode_delivers
          (Text.left_subset (left.objects ++ right.objects) leftValue.names rightValue.names)
          (Text.right_subset _ _ _)).bind ?_
        rintro ⟨code, result⟩ after computes
        exact Ensures.pure (operands.close computes)
  | .assign _ .plain left right _, _ =>
      plain_delivers (lower_delivers left) (lower_delivers right)
  | .assign _ (.compound _) left right _, _ =>
      compound_delivers (lower_delivers left) (lower_delivers right)
  | .conditional note condition thenBranch elseBranch, context => by
      have areStems : Text.IsStem "cond_else" ∧ Text.IsStem "cond_end" :=
        ⟨Text.isStem_of_getLast? rfl (by decide), Text.isStem_of_getLast? rfl (by decide)⟩
      rw [lower]
      refine Ensures.bind_ok (Pass.run_newLabelPair _ _ _) ?_
      refine (loaded_delivers (lower_delivers condition)).bind ?_
      rintro ⟨conditionCode, value⟩ first conditions
      dsimp only
      refine Ensures.ite ?_ ?_
      · intro _
        refine (lower_delivers thenBranch).bind ?_
        rintro ⟨thenCode, thenPlace⟩ second thens
        refine (lower_delivers elseBranch).bind ?_
        rintro ⟨elseCode, elsePlace⟩ after elses
        exact Ensures.pure (.choice ("cond_else", "cond_end") areStems conditions
          thens.drop elses.drop)
      · intro _
        refine (Pass.newTemporary_draws _).bind ?_
        rintro _ second ⟨rfl, drawn, appends⟩
        refine (loaded_delivers (lower_delivers thenBranch)).bind ?_
        rintro ⟨thenCode, thenValue⟩ third thens
        refine (loaded_delivers (lower_delivers elseBranch)).bind ?_
        rintro ⟨elseCode, elseValue⟩ after elses
        exact Ensures.pure (.conditional ("cond_else", "cond_end") (by decide) areStems
          conditions drawn appends thens elses)
  | .call note name arguments, context => by
      rw [lower]
      refine (lowerArguments_delivers arguments).bind ?_
      rintro ⟨argumentsCode, values⟩ first delivers
      refine (callCode_delivers (List.subset_append_right (objectsList arguments)
        (values.flatMap Operand.names))).bind ?_
      rintro ⟨code, place⟩ after calls
      exact Ensures.pure (delivers.join calls)
  | .cast _ target operand _, context => by
      rw [lower]
      split
      · refine (lower_delivers operand).bind ?_
        rintro ⟨code, place⟩ after delivers
        exact Ensures.pure delivers.drop
      · refine (loaded_delivers (lower_delivers operand)).bind ?_
        rintro ⟨operandCode, value⟩ first operands
        refine (Operand.convert_delivers
          (List.subset_append_right operand.objects value.names)).bind ?_
        rintro ⟨code, result⟩ after converts
        exact Ensures.pure (operands.close converts)
  | .addressOf note operand, context => by
      rw [lower]
      refine (lower_delivers operand).bind ?_
      rintro ⟨operandCode, place⟩ first operands
      refine (Place.address_delivers
        (List.subset_append_right operand.objects place.names)).bind ?_
      rintro ⟨code, pointer⟩ after addresses
      exact Ensures.pure (operands.close addresses)
  | .dereference _ operand, context => by
      rw [lower]
      refine (loaded_delivers (lower_delivers operand)).bind ?_
      rintro ⟨code, pointer⟩ after delivers
      exact Ensures.pure delivers
  | .subscript _ array index, context => by
      rw [lower]
      refine (loaded_delivers (lower_delivers array)).bind ?_
      rintro ⟨arrayCode, arrayValue⟩ first arrays
      refine (loaded_delivers (lower_delivers index)).bind ?_
      rintro ⟨indexCode, indexValue⟩ second indices
      have operands := arrays.both indices
      refine (pointerCode_delivers
        (Text.left_subset (array.objects ++ index.objects) arrayValue.names indexValue.names)
        (Text.right_subset _ _ _)).bind ?_
      rintro ⟨code, pointer⟩ after computes
      exact Ensures.pure (operands.close computes)
  | .step _ form op operand, context => by
      rw [lower]
      refine (lower_delivers operand).bind ?_
      rintro ⟨operandCode, place⟩ first operands
      refine (stepPlace_delivers (List.subset_append_right operand.objects place.names)).bind ?_
      rintro ⟨code, value⟩ after steps
      exact Ensures.pure (operands.close steps)
  | .decay note operand, context => by
      rw [lower]
      refine (lower_delivers operand).bind ?_
      rintro ⟨operandCode, place⟩ first operands
      refine (Place.firstElement_delivers
        (List.subset_append_right operand.objects place.names)).bind ?_
      rintro ⟨code, pointer⟩ after decays
      exact Ensures.pure (operands.close decays)

theorem lowerArguments_delivers : ∀ (arguments : List Expr) {context : Context},
    Yields (lowerArguments arguments) context fun made after =>
      context.Delivers [] (objectsList arguments) (callsList arguments) made.1
        (made.2.flatMap Operand.names) after
  | [], context => by
      rw [lowerArguments]
      exact Ensures.pure (.nil context (List.nil_subset _))
  | argument :: arguments, context => by
      rw [lowerArguments]
      refine (loaded_delivers (lower_delivers argument)).bind ?_
      rintro ⟨code, value⟩ first delivers
      refine (lowerArguments_delivers arguments).bind ?_
      rintro ⟨restCode, values⟩ after rest
      exact Ensures.pure (delivers.both rest)

end

theorem lowerValue_delivers (expr : Expr) :
    Yields expr.lowerValue context fun made after =>
      context.Delivers [] expr.objects expr.calls made.1 made.2.names after :=
  loaded_delivers (lower_delivers expr)

theorem lowerEffect_delivers {labels : List Text} (expr : Expr) :
    Yields expr.lowerEffect context fun code after =>
      context.Delivers labels expr.objects expr.calls code [] after := by
  unfold lowerEffect
  refine (lower_delivers expr).bind ?_
  rintro ⟨code, place⟩ after delivers
  exact Ensures.pure delivers.drop

theorem lowerEffectOption_delivers (labels : List Text) (value : Option Expr) :
    Yields (lowerEffectOption value) context fun code after =>
      context.Delivers labels (objectsOption value) (callsOption value) code [] after := by
  cases value with
  | none => exact Ensures.pure (.nil context (List.nil_subset _))
  | some expr => exact lowerEffect_delivers expr

end Expr

end SubsetC
