import SubsetC.Proofs.CaseValues
import SubsetC.Proofs.ExprSimulation
import SubsetC.Proofs.StmtCode

/-!
# Code of statements does what the statements mean

The run of a statement's code mirrors the execution of the statement: it goes on behind the code,
or at the label of the loop or switch that is left or continued, with a store that agrees on all
objects of the tree; or it returns what the statement returns. Where the execution of the tree is
undefined, the run never has an answer, and where it needs more rounds than it is given, the run has
no answer within as many steps. So a run has an answer exactly if the execution has one.
-/

namespace SubsetC

namespace Machine

/-! ### Runs that mirror an execution -/

variable (machine : Machine) (body : Code) (base : SymbolTable) (targets : Targets) (rounds : Nat)

/-- The run from a state goes on to a jump to a label, with a store that agrees. -/
def Jumps (start : State) (label : Text) (store : Store) : Prop :=
  ∃ last after, machine.Leads body start last ∧
    machine.step? body last = goto? body label after ∧ base.Agree store after

/-- The run from a state ends as an execution with a number of rounds does. -/
def Mirrors (start : State) (rest : Code) : Outcome → Prop
  | .normal store => ∃ after, machine.Leads body start (rest, after) ∧ base.Agree store after
  | .broke store => targets.breakLabel.isSome ∧
      machine.Jumps body base start (Targets.breakLabelOf targets.breakLabel) store
  | .continued store => targets.continueLabel.isSome ∧
      machine.Jumps body base start (Targets.continueLabelOf targets.continueLabel) store
  | .returned answer => ∃ steps, machine.run body steps start = some answer
  | .undefined => machine.Never body start
  | .unfinished => machine.run body rounds start = none

variable {machine body base targets rounds} {start next : State} {rest middle : Code}
  {outcome : Outcome}

namespace Jumps

variable {label : Text} {store : Store}

theorem of_leads (jumps : machine.Jumps body base next label store)
    (leads : machine.Leads body start next) : machine.Jumps body base start label store := by
  rcases jumps with ⟨last, after, later, steps, agree⟩
  exact ⟨last, after, leads.trans later, steps, agree⟩

/-- The last step leads behind the label. -/
theorem exists_step {code : Code} (jumps : machine.Jumps body base start label store)
    (found : Code.after? label body = some code) :
    ∃ last after, machine.Leads body start last ∧
      machine.step? body last = some (.inr (code, after)) ∧ base.Agree store after := by
  rcases jumps with ⟨last, after, leads, steps, agree⟩
  exact ⟨last, after, leads, by rw [steps, goto?, found, Option.map_some], agree⟩

end Jumps

namespace Mirrors

theorem of_leads (leads : machine.Leads body start next)
    (mirrors : machine.Mirrors body base targets rounds next rest outcome) :
    machine.Mirrors body base targets rounds start rest outcome := by
  cases outcome with
  | normal store =>
      rcases mirrors with ⟨after, later, agree⟩
      exact ⟨after, leads.trans later, agree⟩
  | broke store | continued store => exact ⟨mirrors.1, mirrors.2.of_leads leads⟩
  | returned answer =>
      rcases mirrors with ⟨steps, runs⟩
      exact leads.run_eq_some runs
  | undefined => exact leads.never mirrors
  | unfinished => exact leads.run_eq_none mirrors

theorem normal {store after : Store} (agree : base.Agree store after) :
    machine.Mirrors body base targets rounds (rest, after) rest (.normal store) :=
  ⟨after, .refl _, agree⟩

theorem andThen {continuation : Store → Outcome}
    (mirrors : machine.Mirrors body base targets rounds start middle outcome)
    (later : ∀ store after, base.Agree store after →
      machine.Mirrors body base targets rounds (middle, after) rest (continuation store)) :
    machine.Mirrors body base targets rounds start rest (outcome.andThen continuation) := by
  cases outcome with
  | normal store =>
      rcases mirrors with ⟨after, leads, agree⟩
      exact of_leads leads (later store after agree)
  | broke store | continued store | returned answer | undefined | unfinished => exact mirrors

/-- At the end, the run may go on without any effect. -/
theorem proceed (mirrors : machine.Mirrors body base targets rounds start middle outcome)
    (leads : ∀ after, machine.Leads body (middle, after) (rest, after)) :
    machine.Mirrors body base targets rounds start rest outcome := by
  cases outcome with
  | normal store =>
      rcases mirrors with ⟨after, earlier, agree⟩
      exact ⟨after, earlier.trans (leads after), agree⟩
  | broke store | continued store | returned answer | undefined | unfinished => exact mirrors

/-- A number that decides how the execution goes on. -/
theorem given {wider : SymbolTable} {store after : Store} {operand : Operand} {value : Option Int}
    {continuation : Int → Outcome} (extension : wider.Extends base) (agree : base.Agree store after)
    (gives : machine.Gives body wider after start middle operand value)
    (later : ∀ number after, base.Agree store after → machine.read? after operand = some number →
      machine.Mirrors body base targets rounds (middle, after) rest (continuation number)) :
    machine.Mirrors body base targets rounds start rest (.given value continuation) := by
  cases value with
  | none => exact gives
  | some number =>
      rcases gives with ⟨last, leads, agreeLast, reads⟩
      exact of_leads leads (later number last (agree.trans (agreeLast.narrow extension)) reads)

end Mirrors

end Machine

/-- A part of lowering has made code that mirrors an execution. -/
structure Context.Performs (base : SymbolTable) (targets : Targets)
    (exec : Gaps → Nat → Store → Outcome) (context : Context) (code : Code) (after : Context) :
    Prop where
  grows : context.Grows [] after
  /-- Machines that know the new names run the code as the execution goes. -/
  mirrors : ∀ machine : Machine, machine.table.Extends after.symbols →
    ∀ (body rest : Code), (Code.labels body).Nodup → code ++ rest <:+ body →
    ∀ (rounds : Nat) (store start : Store), base.Agree store start →
      machine.Mirrors body base targets rounds (code ++ rest, start) rest
        (exec machine.gaps rounds store)

namespace Context.Performs

variable {base : SymbolTable} {targets : Targets} {first second third : Context} {code more : Code}
  {exec next : Gaps → Nat → Store → Outcome}

theorem tidy (performs : first.Performs base targets exec code second) (tidy : first.Tidy) :
    second.Tidy :=
  performs.grows.tidy tidy (by simp)

theorem extends_ (performs : first.Performs base targets exec code second)
    (extension : first.symbols.Extends base) : second.symbols.Extends base :=
  performs.grows.extends_.trans extension

theorem nil (context : Context) :
    context.Performs base targets (fun _ _ store => .normal store) [] context :=
  ⟨.refl _ _, fun _ _ _ _ _ _ _ _ _ agree => .normal agree⟩

theorem append (earlier : first.Performs base targets exec code second)
    (later : second.Performs base targets next more third) :
    first.Performs base targets
      (fun gaps rounds store => (exec gaps rounds store).andThen (next gaps rounds))
      (code ++ more) third := by
  refine ⟨earlier.grows.append later.grows, ?_⟩
  intro machine extension body rest nodup suffix rounds store start agree
  rw [List.append_assoc] at suffix ⊢
  have known := extension.trans later.grows.extends_
  refine (earlier.mirrors machine known body _ nodup suffix rounds store start agree).andThen
    ?_
  intro store after agree
  have ends : more ++ rest <:+ body := (List.suffix_append code _).trans suffix
  exact later.mirrors machine extension body rest nodup ends rounds store after agree

theorem congr {other : Gaps → Nat → Store → Outcome}
    (performs : first.Performs base targets exec code second)
    (same : ∀ gaps rounds store, exec gaps rounds store = other gaps rounds store) :
    first.Performs base targets other code second := by
  obtain rfl : exec = other := funext fun gaps => funext fun rounds => funext (same gaps rounds)
  exact performs

end Context.Performs

/-! ### Expressions in statements -/

section Expressions

variable {base : SymbolTable} {targets : Targets} {context : Context}

theorem Machine.Mirrors.value {machine : Machine} {body middle rest code : Code} {rounds : Nat}
    {after : Context} {expr : Expr} {kind : IntType} {operand : Operand} {store start : Store}
    {continuation : Int → Outcome} (extension : context.symbols.Extends base)
    (explicit : expr.Explicit base)
    (simulates : context.Simulates kind (fun machine store => expr.eval? machine.gaps store)
      (code, operand) after)
    (known : machine.table.Extends after.symbols) (nodup : (Code.labels body).Nodup)
    (suffix : code ++ middle <:+ body) (agree : base.Agree store start)
    (later : ∀ number after, base.Agree store after → machine.read? after operand = some number →
      machine.Mirrors body base targets rounds (middle, after) rest (continuation number)) :
    machine.Mirrors body base targets rounds (code ++ middle, start) rest
      (.given (expr.eval? machine.gaps store) continuation) := by
  rw [Expr.eval?_congr agree expr explicit]
  exact .given extension agree (simulates.evaluates machine known body middle start nodup suffix)
    later

/-- Code that computes a number, and a copy of it to an object of the tree. -/
theorem Context.Performs.store {kind : IntType} {machine? : Machine → Store → Option Int}
    (tree? : Gaps → Store → Option Int) {code : Code} {operand : Operand} {after : Context}
    {name : Text} (extension : context.symbols.Extends base)
    (simulates : context.Simulates kind machine? (code, operand) after)
    (hasType : base.HasType name (.integer kind))
    (same : ∀ (machine : Machine) (store start : Store), machine.table.Extends after.symbols →
      base.Agree store start → machine? machine start = tree? machine.gaps store) :
    context.Performs base targets (fun gaps _ store =>
      .given (tree? gaps store) fun number => .normal (store.set name (kind.wrap number)))
      (code ++ [Instruction.copy operand (.var name)]) after := by
  refine ⟨simulates.grows, ?_⟩
  intro machine known body rest nodup suffix rounds store start agree
  rw [List.append_assoc] at suffix ⊢
  have gives := simulates.evaluates machine known body _ start nodup suffix
  rw [same machine store start known agree] at gives
  refine .given extension agree gives ?_
  intro number after agree reads
  have hasType := hasType.extend ((known.trans simulates.extends_).trans extension)
  have steps : machine.step? body (.copy operand (.var name) :: rest, after) =
      some (.inr (rest, after.set name (kind.wrap number))) := by
    simp [Machine.step?, Machine.execute?, reads, Machine.write?_var hasType]
  exact .of_leads (.of_step steps) (.normal (agree.set name _))

/-- A test goes to the end of the loop around it if it fails. -/
theorem Context.Performs.test {condition : Expr} {kind : IntType} {code : Code} {operand : Operand}
    {after : Context} (inLoop : targets.breakLabel.isSome) (extension : context.symbols.Extends base)
    (explicit : condition.Explicit base)
    (simulates : context.Simulates kind (fun machine store => condition.eval? machine.gaps store)
      (code, operand) after) :
    context.Performs base targets (fun gaps _ store => Expr.test gaps store (some condition))
      (code ++ [Instruction.jumpIfZero operand (Targets.breakLabelOf targets.breakLabel)])
      after := by
  refine ⟨simulates.grows, ?_⟩
  intro machine known body rest nodup suffix rounds store start agree
  rw [List.append_assoc] at suffix ⊢
  refine .value extension explicit simulates known nodup suffix agree ?_
  intro number last agree reads
  split
  · rename_i isZero
    exact ⟨inLoop, _, last, .refl _, by simp [Machine.step?, reads, isZero], agree⟩
  · rename_i notZero
    have steps : machine.step? body (.jumpIfZero operand (Targets.breakLabelOf targets.breakLabel) ::
        rest, last) = some (.inr (rest, last)) := by
      simp [Machine.step?, reads, notZero]
    exact .of_leads (.of_step steps) (.normal agree)

theorem Expr.perform?_of_isPure {expr : Expr} (isPure : expr.isPure) (gaps : Gaps) (store : Store) :
    expr.perform? gaps store = (expr.eval? gaps store).map fun _ => store := by
  cases expr <;> first | rfl | cases isPure

theorem Expr.run_lower_var (note : Note) (name : Text) :
    (Expr.var note name).lower.run context = .ok (([], .value (.var name)), context) := by
  rw [lower]
  rfl

theorem Expr.exists_opKind {op : ArithOp} {left right : IntType} {opType : Option CType}
    (types : (AssignOp.compound op).HasTypes (.integer left) (.integer right) opType) :
    ∃ kind, opType.getD .void = .integer kind := by
  cases types with
  | offset _ complete => cases complete
  | shift => exact CType.exists_kind (CType.isInteger_promote rfl)
  | arithmetic => exact ⟨right, rfl⟩

theorem Machine.read?_object {machine : Machine} {kind : IntType} {name : Text}
    {store start : Store} (hasType : base.HasType name (.integer kind))
    (extension : machine.table.Extends base) (agree : base.Agree store start) :
    machine.read? start (.var name) = some (kind.wrap (store name)) := by
  rcases hasType with ⟨symbol, found, _⟩
  rw [read?, kind?_var (SymbolTable.HasType.extend ⟨symbol, found, ‹_›⟩ extension),
    agree name (by simp [found]), Option.map_some]

/-- An updated value is already wrapped around to the type of the object. -/
theorem ArithOp.wrap_update? (gaps : Gaps) (op : ArithOp) (kind opKind : IntType)
    (current right : Int) :
    (op.update? gaps kind opKind current right).map kind.wrap =
      op.update? gaps kind opKind current right := by
  unfold update?
  cases op.apply gaps opKind (opKind.wrap current) right with
  | none => rfl
  | some number => simp only [Option.map_some, kind.wrap_wrap]

variable (targets) (tidy : context.Tidy) (extension : context.symbols.Extends base)

include tidy extension

theorem Expr.lowerValue_simulates {expr : Expr} {kind : IntType} (explicit : expr.Explicit base)
    (isPure : expr.isPure) (sameType : expr.type = .integer kind) :
    Yields expr.lowerValue context
      (context.Simulates kind fun machine store => expr.eval? machine.gaps store) :=
  value_simulates (lower_simulates expr tidy (explicit.extend extension expr) isPure sameType)

/-- An assignment changes the object it assigns to. -/
theorem Expr.assign_performs {note varNote : Note} {name : Text} {right : Expr}
    {opType : Option CType} {op : AssignOp}
    (explicit : (Expr.assign note op (.var varNote name) right opType).Explicit base)
    (integer : varNote.knownType.isInteger) (isPure : right.isPure) :
    Yields (Expr.assign note op (.var varNote name) right opType).lower context fun made after =>
      context.Performs base targets (fun gaps _ store =>
        Expr.effect gaps store (some (.assign note op (.var varNote name) right opType)))
        made.1 after := by
  rcases explicit with ⟨_, ⟨_, _, hasType⟩, rightExplicit, _, _, types⟩
  rcases CType.exists_kind integer with ⟨kind, leftType⟩
  rcases exists_kind right rightExplicit isPure with ⟨rightKind, rightType⟩
  have rightSimulated := value_simulates
    (lower_simulates right tidy (rightExplicit.extend extension right) isPure rightType)
  rw [leftType] at hasType
  rw [lower]
  refine Ensures.bind_ok (run_lower_var varNote name) ?_
  cases op with
  | plain =>
      refine rightSimulated.bind ?_
      rintro ⟨rightCode, value⟩ after simulates
      obtain rfl : kind = rightKind :=
        CType.integer.inj (leftType.symm.trans ((plainTypes types).1.trans rightType))
      have performs : context.Performs base targets _
          (rightCode ++ [Instruction.copy value (.var name)]) after :=
        .store (fun gaps store => right.eval? gaps store) extension simulates hasType
          fun machine store start _ agree => (eval?_congr agree right rightExplicit).symm
      refine Ensures.pure (performs.congr ?_)
      intro gaps rounds store
      simp only [effect, perform?, leftType, CType.kind?]
      cases right.eval? gaps store <;> rfl
  | compound op =>
      refine Ensures.bind_ok rfl ?_
      refine rightSimulated.bind ?_
      rintro ⟨rightCode, value⟩ first simulates
      have sameLeft : (Expr.var varNote name).type = .integer kind := leftType
      rw [sameLeft, rightType] at types
      rcases exists_opKind types with ⟨opKind, isOpKind⟩
      have hasCurrent : (Operand.var name).HasType first.symbols (.integer kind) :=
        hasType.extend (simulates.extends_.trans extension)
      rw [sameLeft, isOpKind]
      refine (compoundCode_simulates (simulates.tidy tidy) hasCurrent simulates.hasType).bind ?_
      rintro ⟨code, result⟩ after computes
      -- The object is read behind the right side, whose code writes nothing but temporaries.
      have all := simulates.append (fun machine store number =>
        (machine.read? store (.var name)).bind fun current =>
          op.update? machine.gaps kind opKind current number) computes (by
        intro machine store after number _ agree reads
        have known : (Operand.var name).HasType context.symbols (.integer kind) :=
          hasType.extend extension
        rw [reads, Machine.read?_congr known agree.symm]
        rfl)
      have performs : context.Performs base targets _
          ((rightCode ++ code) ++ [Instruction.copy result (.var name)]) after :=
        .store (fun gaps store => (right.eval? gaps store).bind fun number =>
          op.update? gaps kind opKind (kind.wrap (store name)) number) extension all hasType (by
          intro machine store start known agree
          have known := (known.trans all.extends_).trans extension
          simp only [eval?_congr agree right rightExplicit,
            Machine.read?_object hasType known agree, Option.bind_some])
      refine Ensures.pure (performs.congr ?_)
      intro gaps rounds store
      simp only [effect, perform?, leftType, isOpKind, CType.kind?]
      cases right.eval? gaps store with
      | none => rfl
      | some number =>
          have wrapped := op.wrap_update? gaps kind opKind (kind.wrap (store name)) number
          cases updates : op.update? gaps kind opKind (kind.wrap (store name)) number with
          | none => simp [updates, Outcome.given]
          | some updated =>
              rw [updates, Option.map_some, Option.some.injEq] at wrapped
              simp [updates, Outcome.given, wrapped]

omit extension in
/-- The new value of an object that is stepped. -/
theorem Expr.stepCode_simulates {op : StepOp} {kind opKind : IntType} {current : Operand}
    (promotes : (CType.integer kind).promote = .integer opKind)
    (hasCurrent : current.HasType context.symbols (.integer kind)) :
    Yields (stepCode op (.integer kind) current) context
      (context.Simulates kind fun machine store =>
        (machine.read? store current).bind fun number =>
          op.arith.update? machine.gaps kind opKind number 1) := by
  rw [stepCode, if_neg (by simp [CType.isPointer]), promotes, Const.convert]
  split
  · rename_i one converts
    have isOne : one.number? = some 1 := by
      have isNumber : (Const.int 1).number? = some 1 := rfl
      have holds : opKind.wrap 1 = 1 := opKind.holds_toInt true
      rw [Const.number?_convert? isNumber converts, holds]
    have hasOne : (Operand.constant one).HasType context.symbols (.integer opKind) :=
      Const.hasType_of_convert? converts
    have sameOp : (if op = .increment then ArithOp.add else .sub) = op.arith := by
      cases op <;> rfl
    refine (compoundCode_simulates tidy hasCurrent hasOne).mono ?_
    intro made after simulates
    refine simulates.congr ?_
    intro machine store _
    rw [Machine.read?, isOne, sameOp]
    rfl
  · exact Ensures.bind (Ensures.throw trivial) fun _ _ impossible => impossible

/-- A step changes the object it is about, whichever value it yields. -/
theorem Expr.stepPlace_performs {name : Text} {form : StepForm} {op : StepOp}
    {kind opKind : IntType} (promotes : (CType.integer kind).promote = .integer opKind)
    (hasType : base.HasType name (.integer kind)) :
    Yields (stepPlace form op (.integer kind) (.value (.var name))) context fun made after =>
      context.Performs base targets (fun gaps _ store =>
        .given (op.arith.update? gaps kind opKind (kind.wrap (store name)) 1) fun number =>
          .normal (store.set name (kind.wrap number))) made.1 after := by
  have hasName : (Operand.var name).HasType context.symbols (.integer kind) :=
    hasType.extend extension
  -- Both forms end alike, behind code that keeps the old value or none.
  have finish : ∀ (keepCode : Code) (old : Operand) (first : Context),
      context.Simulates kind (fun machine store => machine.read? store (.var name))
        (keepCode, old) first →
      Yields (do
        let stepped ← stepCode op (.integer kind) (.var name)
        let storeCode ← (Place.value (.var name)).store stepped.2
        pure ([] ++ keepCode ++ stepped.1 ++ storeCode,
          if form = .after then old else stepped.2))
        first fun made after => context.Performs base targets (fun gaps _ store =>
          .given (op.arith.update? gaps kind opKind (kind.wrap (store name)) 1) fun number =>
            .normal (store.set name (kind.wrap number))) made.1 after := by
    intro keepCode old first keeps
    refine (stepCode_simulates (keeps.tidy tidy) promotes
      (hasName.extend keeps.extends_)).bind ?_
    rintro ⟨code, new⟩ after simulates
    have all := keeps.append (fun machine store _ =>
      (machine.read? store (.var name)).bind fun number =>
        op.arith.update? machine.gaps kind opKind number 1) simulates (by
      intro machine store after number _ agree _
      rw [Machine.read?_congr hasName agree.symm])
    refine Ensures.pure ?_
    exact .store (fun gaps store =>
      op.arith.update? gaps kind opKind (kind.wrap (store name)) 1) extension all hasType (by
      intro machine store start known agree
      have known := (known.trans all.extends_).trans extension
      simp only [Machine.read?_object hasType known agree, Option.bind_some])
  unfold stepPlace
  refine Ensures.bind_ok rfl ?_
  dsimp only
  split
  · have keeps : Yields (do
        let old ← Pass.newTemporary (.integer kind)
        pure (([.copy (.var name) old] : Code), old)) context
        (context.Simulates kind fun machine store => machine.read? store (.var name)) := by
      refine Context.simulates_instruction (fun old => .copy (.var name) old) tidy ?_
      intro machine store old extension _
      rcases Machine.exists_read? (hasName.extend extension) store with ⟨number, isNumber, holds⟩
      refine .inl ⟨number, by rw [isNumber, holds], fun body rest => ?_⟩
      simp [Machine.step?, Machine.execute?, isNumber]
    rw [← bind_assoc (Pass.newTemporary (.integer kind))]
    refine keeps.bind ?_
    rintro ⟨keepCode, old⟩ first simulates
    exact finish keepCode old first simulates
  · exact finish _ _ _ (.nil hasName fun _ _ _ _ _ reads => reads)

theorem Expr.step_performs {note varNote : Note} {name : Text} {form : StepForm} {op : StepOp}
    (explicit : (Expr.step note form op (.var varNote name)).Explicit base)
    (integer : varNote.knownType.isInteger) :
    Yields (Expr.step note form op (.var varNote name)).lower context fun made after =>
      context.Performs base targets (fun gaps _ store =>
        Expr.effect gaps store (some (.step note form op (.var varNote name)))) made.1 after := by
  rcases explicit with ⟨_, ⟨_, _, hasType⟩, _⟩
  rcases CType.exists_kind integer with ⟨kind, leftType⟩
  have promotable : (CType.integer kind).promote.isInteger := CType.isInteger_promote rfl
  rcases CType.exists_kind promotable with ⟨opKind, promotes⟩
  rw [leftType] at hasType
  have sameLeft : (Expr.var varNote name).type = .integer kind := leftType
  have hasName : (Operand.var name).HasType context.symbols (.integer kind) :=
    hasType.extend extension
  rw [lower]
  refine Ensures.bind_ok (run_lower_var varNote name) ?_
  rw [sameLeft]
  refine (stepPlace_performs targets tidy extension promotes hasType).bind ?_
  rintro ⟨code, value⟩ after performs
  refine Ensures.pure (performs.congr ?_)
  intro gaps rounds store
  simp only [effect, perform?, leftType, promotes, CType.kind?]
  have wrapped := op.arith.wrap_update? gaps kind opKind (kind.wrap (store name)) 1
  cases updates : op.arith.update? gaps kind opKind (kind.wrap (store name)) 1 with
  | none => simp [updates, Outcome.given]
  | some updated =>
      rw [updates, Option.map_some, Option.some.injEq] at wrapped
      simp [updates, Outcome.given, wrapped]

/-- The code of a whole expression has the effect of the expression. -/
theorem Expr.lowerEffect_performs {expr : Expr} (explicit : expr.Explicit base)
    (isEffect : expr.isEffect) :
    Yields expr.lowerEffect context (context.Performs base targets fun gaps _ store =>
      Expr.effect gaps store (some expr)) := by
  have lowers : Yields expr.lower context fun made after =>
      context.Performs base targets (fun gaps _ store => Expr.effect gaps store (some expr))
        made.1 after := by
    unfold Expr.isEffect at isEffect
    split at isEffect
    · simp only [Bool.and_eq_true] at isEffect
      exact assign_performs targets tidy extension explicit isEffect.1 isEffect.2
    · exact step_performs targets tidy extension explicit isEffect
    · rcases exists_kind expr explicit isEffect with ⟨kind, sameType⟩
      refine (lower_simulates expr tidy (explicit.extend extension expr) isEffect sameType).mono ?_
      rintro ⟨code, _⟩ after ⟨operand, rfl, simulates⟩
      refine ⟨simulates.grows, ?_⟩
      intro machine known body rest nodup suffix rounds store start agree
      have same : Expr.effect machine.gaps store (some expr) =
          .given (expr.eval? machine.gaps store) fun _ => .normal store := by
        rw [effect, perform?_of_isPure isEffect]
        cases expr.eval? machine.gaps store <;> rfl
      rw [same]
      exact .value extension explicit simulates known nodup suffix agree
        fun number after agree _ => .normal agree
  unfold lowerEffect
  refine lowers.bind ?_
  rintro ⟨code, place⟩ after performs
  exact Ensures.pure performs

theorem Expr.lowerEffectOption_performs {value : Option Expr}
    (isValue : ∀ expr ∈ value, expr.IsValue base) (isEffect : value.all Expr.isEffect) :
    Yields (lowerEffectOption value) context (context.Performs base targets fun gaps _ store =>
      Expr.effect gaps store value) := by
  cases value with
  | none => exact Ensures.pure (.nil context)
  | some expr => exact lowerEffect_performs targets tidy extension (isValue expr rfl).1 isEffect

/-- The code of a declaration initializes the object. -/
theorem VarDecl.lower_performs {decl : VarDecl} (explicit : decl.Explicit base false)
    (isStructured : decl.isStructured) :
    Yields decl.lower context (context.Performs base targets fun gaps _ store =>
      decl.exec gaps store) := by
  rcases decl with ⟨loc, name, type, storageClass, init⟩
  rcases explicit with ⟨hasType, initExplicit⟩
  simp only [VarDecl.isStructured, Bool.and_eq_true, Option.isNone_iff_eq_none] at isStructured
  rcases isStructured with ⟨⟨rfl, integer⟩, isPure⟩
  rcases CType.exists_kind integer with ⟨kind, rfl⟩
  cases init with
  | none => exact Ensures.pure (.nil context)
  | some init =>
      cases init with
      | compound loc items => cases isPure
      | single loc value =>
          have simulated : value.Simulated kind context ∧ ∀ (gaps : Gaps) (store start : Store),
              base.Agree store start → value.eval? gaps start = value.eval? gaps store := by
            cases initExplicit _ rfl with
            | value explicit sameType =>
                exact ⟨Expr.lower_simulates value tidy (explicit.extend extension value) isPure
                  sameType, fun gaps store start agree =>
                    (Expr.eval?_congr agree value explicit).symm⟩
            | zero _ _ isZero =>
                exact ⟨Expr.constant_simulated (Const.hasType_of_ofInt64? isZero) _,
                  fun _ _ _ _ => rfl⟩
            | string _ isArray => cases isArray
          have simulates : Yields value.lowerValue context _ := Expr.value_simulates simulated.1
          refine simulates.bind ?_
          rintro ⟨code, operand⟩ after simulates
          exact Ensures.pure (.store (fun gaps store => value.eval? gaps store) extension simulates
            hasType fun machine store start _ agree => simulated.2 machine.gaps store start agree)

omit tidy extension in
theorem VarDecl.lowerList_performs : ∀ (decls : List VarDecl) {context : Context}, context.Tidy →
    context.symbols.Extends base → (∀ decl ∈ decls, decl.Explicit base false) →
    decls.all VarDecl.isStructured →
    Yields (lowerList decls) context (context.Performs base targets fun gaps _ store =>
      execList gaps store decls)
  | [], context, _, _, _, _ => Ensures.pure (.nil context)
  | decl :: decls, context, tidy, extension, explicit, isStructured => by
      rw [List.all_cons, Bool.and_eq_true] at isStructured
      rcases List.forall_mem_cons.1 explicit with ⟨declExplicit, declsExplicit⟩
      rw [lowerList]
      refine (lower_performs targets tidy extension declExplicit isStructured.1).bind ?_
      intro code between performs
      refine (lowerList_performs decls (performs.tidy tidy) (performs.extends_ extension)
        declsExplicit isStructured.2).bind ?_
      intro more after rest
      exact Ensures.pure (performs.append rest)

theorem ForInit.lower_performs {init : ForInit} (explicit : init.Explicit base)
    (isStructured : init.isStructured) :
    Yields init.lower context (context.Performs base targets fun gaps _ store =>
      init.exec gaps store) := by
  cases init with
  | declarations loc decls =>
      exact VarDecl.lowerList_performs targets decls tidy extension explicit isStructured
  | expression loc value =>
      exact Expr.lowerEffectOption_performs targets tidy extension explicit isStructured

/-- The test of a loop leaves the loop if it fails. -/
theorem Expr.lowerTest_performs {condition : Option Expr} (inLoop : targets.breakLabel.isSome)
    (isCondition : ∀ expr ∈ condition, expr.IsCondition base)
    (isPure : condition.all Expr.isPure) :
    Yields (lowerTest (Targets.breakLabelOf targets.breakLabel) condition) context
      (context.Performs base targets fun gaps _ store => Expr.test gaps store condition) := by
  cases condition with
  | none => exact Ensures.pure (.nil context)
  | some condition =>
      have explicit := (isCondition condition rfl).1
      rcases exists_kind condition explicit isPure with ⟨kind, sameType⟩
      rw [lowerTest]
      refine (lowerValue_simulates tidy extension explicit isPure sameType).bind ?_
      rintro ⟨code, operand⟩ after simulates
      exact Ensures.pure (.test inLoop extension explicit simulates)

end Expressions

/-! ### Loops -/

namespace Machine

variable (machine : Machine) (body : Code) (base : SymbolTable) (targets : Targets) (rounds : Nat)

/-- The run of one round of a loop: at its end, the last step leads back to the start. -/
def Circles (start : State) (top : Code) : Outcome → Prop
  | .normal store => ∃ last after, machine.Leads body start last ∧
      machine.step? body last = some (.inr (top, after)) ∧ base.Agree store after
  | outcome => machine.Mirrors body base targets rounds start top outcome

variable {machine body base targets rounds} {start next : State} {top rest middle : Code}
  {outcome : Outcome}

namespace Circles

theorem of_leads (leads : machine.Leads body start next)
    (circles : machine.Circles body base targets rounds next top outcome) :
    machine.Circles body base targets rounds start top outcome := by
  cases outcome with
  | normal store =>
      rcases circles with ⟨last, after, later, steps, agree⟩
      exact ⟨last, after, leads.trans later, steps, agree⟩
  | broke store | continued store | returned answer | undefined | unfinished =>
      simp only [Circles] at circles ⊢
      exact Mirrors.of_leads leads circles

theorem andThen {continuation : Store → Outcome}
    (mirrors : machine.Mirrors body base targets rounds start middle outcome)
    (later : ∀ store after, base.Agree store after →
      machine.Circles body base targets rounds (middle, after) top (continuation store)) :
    machine.Circles body base targets rounds start top (outcome.andThen continuation) := by
  cases outcome with
  | normal store =>
      rcases mirrors with ⟨after, leads, agree⟩
      exact of_leads leads (later store after agree)
  | broke store | continued store | returned answer | undefined | unfinished => exact mirrors

/-- A round that ends in a jump to the start. -/
theorem of_jump {label : Text} (atTop : Code.after? label body = some top)
    (mirrors : machine.Mirrors body base targets rounds start (.jump label :: rest) outcome) :
    machine.Circles body base targets rounds start top outcome := by
  cases outcome with
  | normal store =>
      rcases mirrors with ⟨after, leads, agree⟩
      exact ⟨_, after, leads, by simp [step?, goto?, atTop], agree⟩
  | broke store | continued store | returned answer | undefined | unfinished => exact mirrors

/-- A round that ends in a jump to the start, to which a continue goes as well. -/
theorem of_resumed (atTop :
      Code.after? (Targets.continueLabelOf targets.continueLabel) body = some top)
    (mirrors : machine.Mirrors body base targets rounds start
      (.jump (Targets.continueLabelOf targets.continueLabel) :: rest) outcome) :
    machine.Circles body base targets rounds start top outcome.resumed := by
  cases outcome with
  | continued store => exact mirrors.2.exists_step atTop
  | normal store => exact of_jump atTop mirrors
  | broke store | returned answer | undefined | unfinished => exact mirrors

end Circles

/-- The rounds of a loop. A round takes at least one step, so that rounds which need not end take
at least as many steps. -/
theorem Mirrors.repeated (inner : Targets) {round : Store → Outcome} {limit : Nat}
    (atBreak : Code.after? (Targets.breakLabelOf inner.breakLabel) body = some rest)
    (noContinue : ∀ store after, round store ≠ .continued after)
    (circles : ∀ store start, base.Agree store start →
      machine.Circles body base inner limit (top, start) top (round store)) :
    ∀ rounds, rounds ≤ limit → ∀ store start, base.Agree store start →
      machine.Mirrors body base targets rounds (top, start) rest
        (Outcome.repeated round rounds store).left := by
  intro rounds
  induction rounds with
  | zero => exact fun _ _ _ _ => rfl
  | succ rounds ih =>
      intro le store start agree
      have circle := circles store start agree
      rw [Outcome.repeated]
      cases ends : round store with
      | normal store =>
          rw [ends] at circle
          rcases circle with ⟨last, after, ⟨lag, leads⟩, steps, agree⟩
          have mirrors := ih (by omega) store after agree
          have back := leads.trans (leadsBy_of_step steps)
          rw [Outcome.andThen]
          cases outcome : (Outcome.repeated round rounds store).left with
          | unfinished =>
              rw [outcome] at mirrors
              exact run_eq_none_of_le ((back rounds).trans mirrors) (by omega)
          | normal store | broke store | continued store | returned answer | undefined =>
              rw [outcome] at mirrors
              exact of_leads ⟨_, back⟩ mirrors
      | broke store =>
          rw [ends] at circle
          rcases Jumps.exists_step circle.2 atBreak with ⟨last, after, leads, steps, agree⟩
          exact ⟨after, leads.trans (.of_step steps), agree⟩
      | continued store => exact absurd ends (noContinue _ store)
      | returned answer =>
          rw [ends] at circle
          exact circle
      | undefined =>
          rw [ends] at circle
          exact circle
      | unfinished =>
          rw [ends] at circle
          exact run_eq_none_of_le circle le

/-- A continue in the body of a loop goes to the end of the body. -/
theorem Mirrors.resumed (atContinue :
      Code.after? (Targets.continueLabelOf targets.continueLabel) body = some middle)
    (mirrors : machine.Mirrors body base targets rounds start middle outcome) :
    machine.Mirrors body base targets rounds start middle outcome.resumed := by
  cases outcome with
  | continued store =>
      rcases mirrors.2.exists_step atContinue with ⟨last, after, leads, steps, agree⟩
      exact ⟨after, leads.trans (.of_step steps), agree⟩
  | normal store | broke store | returned answer | undefined | unfinished => exact mirrors

end Machine

namespace Outcome

variable {outcome : Outcome} {continuation : Store → Outcome} {store : Store}

theorem resumed_ne_continued : outcome.resumed ≠ .continued store := by
  cases outcome <;> simp [resumed]

theorem andThen_ne_continued (first : outcome ≠ .continued store)
    (second : ∀ between, continuation between ≠ .continued store) :
    outcome.andThen continuation ≠ .continued store := by
  cases outcome <;> simp_all [andThen]

end Outcome

theorem Expr.test_ne_continued {gaps : Gaps} {store after : Store} {condition : Option Expr} :
    Expr.test gaps store condition ≠ .continued after := by
  cases condition with
  | none => simp [test]
  | some condition =>
      rw [test]
      cases condition.eval? gaps store with
      | none => simp [Outcome.given]
      | some number =>
          simp only [Outcome.given]
          split <;> simp

theorem Expr.effect_ne_continued {gaps : Gaps} {store after : Store} {value : Option Expr} :
    Expr.effect gaps store value ≠ .continued after := by
  cases value with
  | none => simp [effect]
  | some expr =>
      rw [effect]
      split <;> simp

/-! ### Code of compound statements -/

namespace Context.Performs

variable {base : SymbolTable} {targets : Targets} {context first second after : Context}
  {condition : Expr} {kind : IntType} {conditionCode thenCode elseCode : Code} {value : Operand}
  {thenExec elseExec : Gaps → Nat → Store → Outcome}

theorem grow (grows : first.Grows [] second)
    (performs : second.Performs base targets thenExec thenCode after) :
    first.Performs base targets thenExec thenCode after :=
  ⟨grows.append performs.grows, performs.mirrors⟩

theorem ifThen {finish : Text} (extension : context.symbols.Extends base)
    (explicit : condition.Explicit base)
    (simulates : context.Simulates kind (fun machine store => condition.eval? machine.gaps store)
      (conditionCode, value) first)
    (performs : first.Performs base targets thenExec thenCode after) :
    context.Performs base targets (fun gaps rounds store =>
      .given (condition.eval? gaps store) fun number =>
        if number = 0 then .normal store else thenExec gaps rounds store)
      (conditionCode ++ [Instruction.jumpIfZero value finish] ++ thenCode ++
        [Instruction.label finish]) after := by
  refine ⟨simulates.grows.append performs.grows, ?_⟩
  intro machine known body rest nodup suffix rounds store start agree
  simp only [List.append_assoc, List.cons_append, List.nil_append] at suffix ⊢
  have fromThen := (List.suffix_cons _ _).trans ((List.suffix_append conditionCode _).trans suffix)
  have fromFinish := (List.suffix_append thenCode _).trans fromThen
  have atFinish := Code.after?_of_suffix nodup fromFinish
  have ofFirst := known.trans performs.grows.extends_
  refine .value extension explicit simulates ofFirst nodup suffix agree ?_
  intro number last agree reads
  refine .of_leads (Machine.leads_jumpIfZero atFinish reads _) ?_
  split
  · exact .normal agree
  · have mirrors := performs.mirrors machine known body _ nodup fromThen rounds store last
      agree
    exact mirrors.proceed (Machine.leads_label finish rest)

theorem ifElse {otherwise finish : Text} (extension : context.symbols.Extends base)
    (explicit : condition.Explicit base)
    (simulates : context.Simulates kind (fun machine store => condition.eval? machine.gaps store)
      (conditionCode, value) first)
    (thenPerforms : first.Performs base targets thenExec thenCode second)
    (elsePerforms : second.Performs base targets elseExec elseCode after) :
    context.Performs base targets (fun gaps rounds store =>
      .given (condition.eval? gaps store) fun number =>
        if number = 0 then elseExec gaps rounds store else thenExec gaps rounds store)
      (conditionCode ++ [Instruction.jumpIfZero value otherwise] ++ thenCode ++
        [Instruction.jump finish, .label otherwise] ++ elseCode ++
        [Instruction.label finish]) after := by
  refine ⟨(simulates.grows.append thenPerforms.grows).append elsePerforms.grows, ?_⟩
  intro machine known body rest nodup suffix rounds store start agree
  simp only [List.append_assoc, List.cons_append, List.nil_append] at suffix ⊢
  have fromThen := (List.suffix_cons _ _).trans ((List.suffix_append conditionCode _).trans suffix)
  have fromJump := (List.suffix_append thenCode _).trans fromThen
  have fromOtherwise := (List.suffix_cons _ _).trans fromJump
  have fromElse := (List.suffix_cons _ _).trans fromOtherwise
  have fromFinish := (List.suffix_append elseCode _).trans fromElse
  have atOtherwise := Code.after?_of_suffix nodup fromOtherwise
  have atFinish := Code.after?_of_suffix nodup fromFinish
  have ofSecond := known.trans elsePerforms.grows.extends_
  have ofFirst := ofSecond.trans thenPerforms.grows.extends_
  refine .value extension explicit simulates ofFirst nodup suffix agree ?_
  intro number last agree reads
  refine .of_leads (Machine.leads_jumpIfZero atOtherwise reads _) ?_
  split
  · have mirrors := elsePerforms.mirrors machine known body _ nodup fromElse rounds store
      last agree
    exact mirrors.proceed (Machine.leads_label finish rest)
  · have mirrors := thenPerforms.mirrors machine ofSecond body _ nodup fromThen rounds store
      last agree
    exact mirrors.proceed (Machine.leads_jump atFinish _)

/-! Loops. In the body, jumps go to the labels of the loop. -/

variable {own : Text} {testCode bodyCode postCode : Code}
  {bodyExec : Gaps → Nat → Store → Outcome}

theorem whileLoop {tests : Option Expr}
    (testPerforms : context.Performs base (targets.inLoop own)
      (fun gaps _ store => Expr.test gaps store tests) testCode first)
    (bodyPerforms : first.Performs base (targets.inLoop own) bodyExec bodyCode after) :
    context.Performs base targets (fun gaps rounds store =>
      (Outcome.repeated (fun store => (Expr.test gaps store tests).andThen fun store =>
        (bodyExec gaps rounds store).resumed) rounds store).left)
      ([Instruction.label (Targets.continueLabelOf (some own))] ++ testCode ++ bodyCode ++
        [Instruction.jump (Targets.continueLabelOf (some own)),
          .label (Targets.breakLabelOf (some own))]) after := by
  refine ⟨testPerforms.grows.append bodyPerforms.grows, ?_⟩
  intro machine known body rest nodup suffix rounds store start agree
  simp only [List.append_assoc, List.cons_append, List.nil_append] at suffix ⊢
  have fromTest := (List.suffix_cons _ _).trans suffix
  have fromBody := (List.suffix_append testCode _).trans fromTest
  have fromJump := (List.suffix_append bodyCode _).trans fromBody
  have fromBreak := (List.suffix_cons _ _).trans fromJump
  have atContinue := Code.after?_of_suffix nodup suffix
  have atBreak := Code.after?_of_suffix nodup fromBreak
  have ofFirst := known.trans bodyPerforms.grows.extends_
  refine .of_leads (Machine.leads_label _ _ _) ?_
  refine Machine.Mirrors.repeated (targets.inLoop own) atBreak ?_ ?_ rounds (Nat.le_refl _)
    store start agree
  · intro store after
    exact Outcome.andThen_ne_continued Expr.test_ne_continued
      fun _ => Outcome.resumed_ne_continued
  · intro store start agree
    refine .andThen (testPerforms.mirrors machine ofFirst body _ nodup fromTest rounds store start
      agree) ?_
    intro store after agree
    exact .of_resumed atContinue (bodyPerforms.mirrors machine known body _ nodup fromBody rounds
      store after agree)

theorem doWhile (extension : first.symbols.Extends base) (explicit : condition.Explicit base)
    (bodyPerforms : context.Performs base (targets.inLoop own) bodyExec bodyCode first)
    (simulates : first.Simulates kind (fun machine store => condition.eval? machine.gaps store)
      (conditionCode, value) after) :
    context.Performs base targets (fun gaps rounds store =>
      (Outcome.repeated (fun store => (bodyExec gaps rounds store).resumed.andThen fun store =>
        Expr.test gaps store (some condition)) rounds store).left)
      ([Instruction.label (Targets.startLabelOf (some own))] ++ bodyCode ++
        [Instruction.label (Targets.continueLabelOf (some own))] ++ conditionCode ++
        [Instruction.jumpIfNotZero value (Targets.startLabelOf (some own)),
          .label (Targets.breakLabelOf (some own))]) after := by
  refine ⟨bodyPerforms.grows.append simulates.grows, ?_⟩
  intro machine known body rest nodup suffix rounds store start agree
  simp only [List.append_assoc, List.cons_append, List.nil_append] at suffix ⊢
  have fromBody := (List.suffix_cons _ _).trans suffix
  have fromContinue := (List.suffix_append bodyCode _).trans fromBody
  have fromCondition := (List.suffix_cons _ _).trans fromContinue
  have fromJump := (List.suffix_append conditionCode _).trans fromCondition
  have fromBreak := (List.suffix_cons _ _).trans fromJump
  have atStart := Code.after?_of_suffix nodup suffix
  have atContinue := Code.after?_of_suffix nodup fromContinue
  have atBreak := Code.after?_of_suffix nodup fromBreak
  have ofFirst := known.trans simulates.extends_
  refine .of_leads (Machine.leads_label _ _ _) ?_
  refine Machine.Mirrors.repeated (targets.inLoop own) atBreak ?_ ?_ rounds (Nat.le_refl _)
    store start agree
  · intro store after
    exact Outcome.andThen_ne_continued Outcome.resumed_ne_continued
      fun _ => Expr.test_ne_continued
  · intro store start agree
    have mirrors := (bodyPerforms.mirrors machine ofFirst body _ nodup fromBody rounds store start
      agree).proceed (Machine.leads_label _ _)
    refine .andThen (mirrors.resumed atContinue) ?_
    intro store after agree
    -- The test is the last instruction of a round, so the step back is the conditional jump itself.
    rw [Expr.test, Expr.eval?_congr agree condition explicit]
    have gives : machine.Gives body _ after _ _ value (condition.eval? machine.gaps after) :=
      simulates.evaluates machine known body _ after nodup fromCondition
    cases value? : condition.eval? machine.gaps after with
    | none =>
        rw [value?] at gives
        exact gives
    | some number =>
        rw [value?] at gives
        rcases gives with ⟨last, leads, agreeLast, reads⟩
        have agree := agree.trans (agreeLast.narrow extension)
        refine .of_leads leads ?_
        rw [Outcome.given]
        split
        · rename_i isZero
          have falls : machine.step? body (.jumpIfNotZero value (Targets.startLabelOf (some own)) ::
              .label (Targets.breakLabelOf (some own)) :: rest, last) =
              some (.inr (.label (Targets.breakLabelOf (some own)) :: rest, last)) := by
            simp [Machine.step?, reads, isZero]
          refine ⟨rfl, _, last, .of_step falls, ?_, agree⟩
          simp [Machine.step?, Machine.goto?, Targets.inLoop, atBreak]
        · rename_i notZero
          exact ⟨_, last, .refl _, by simp [Machine.step?, Machine.goto?, reads, notZero, atStart],
            agree⟩

theorem forLoop {tests post : Option Expr}
    (testPerforms : context.Performs base (targets.inLoop own)
      (fun gaps _ store => Expr.test gaps store tests) testCode first)
    (bodyPerforms : first.Performs base (targets.inLoop own) bodyExec bodyCode second)
    (postPerforms : second.Performs base (targets.inLoop own)
      (fun gaps _ store => Expr.effect gaps store post) postCode after) :
    context.Performs base targets (fun gaps rounds store =>
      (Outcome.repeated (fun store => (Expr.test gaps store tests).andThen fun store =>
        (bodyExec gaps rounds store).resumed.andThen fun store =>
          Expr.effect gaps store post) rounds store).left)
      ([Instruction.label (Targets.startLabelOf (some own))] ++ testCode ++ bodyCode ++
        [Instruction.label (Targets.continueLabelOf (some own))] ++ postCode ++
        [Instruction.jump (Targets.startLabelOf (some own)),
          .label (Targets.breakLabelOf (some own))]) after := by
  refine ⟨(testPerforms.grows.append bodyPerforms.grows).append postPerforms.grows, ?_⟩
  intro machine known body rest nodup suffix rounds store start agree
  simp only [List.append_assoc, List.cons_append, List.nil_append] at suffix ⊢
  have fromTest := (List.suffix_cons _ _).trans suffix
  have fromBody := (List.suffix_append testCode _).trans fromTest
  have fromContinue := (List.suffix_append bodyCode _).trans fromBody
  have fromPost := (List.suffix_cons _ _).trans fromContinue
  have fromBreak := (List.suffix_cons _ _).trans ((List.suffix_append postCode _).trans fromPost)
  have atStart := Code.after?_of_suffix nodup suffix
  have atContinue := Code.after?_of_suffix nodup fromContinue
  have atBreak := Code.after?_of_suffix nodup fromBreak
  have ofSecond := known.trans postPerforms.grows.extends_
  have ofFirst := ofSecond.trans bodyPerforms.grows.extends_
  refine .of_leads (Machine.leads_label _ _ _) ?_
  refine Machine.Mirrors.repeated (targets.inLoop own) atBreak ?_ ?_ rounds (Nat.le_refl _)
    store start agree
  · intro store after
    exact Outcome.andThen_ne_continued Expr.test_ne_continued fun _ =>
      Outcome.andThen_ne_continued Outcome.resumed_ne_continued fun _ => Expr.effect_ne_continued
  · intro store start agree
    refine .andThen (testPerforms.mirrors machine ofFirst body _ nodup fromTest rounds store start
      agree) ?_
    intro store after agree
    have mirrors := (bodyPerforms.mirrors machine ofSecond body _ nodup fromBody rounds store after
      agree).proceed (Machine.leads_label _ _)
    refine .andThen (mirrors.resumed atContinue) ?_
    intro store after agree
    exact .of_jump atStart (postPerforms.mirrors machine known body _ nodup fromPost rounds store
      after agree)

end Context.Performs

end SubsetC
