import SubsetC.Proofs.ExprCode
import SubsetC.Proofs.TreeSemantics

/-!
# Code of expressions computes their values

The code of a pure expression, executed from any store, leaves the value of the expression in its
operand and changes no object that was known before; where the value is undefined, the run never
has an answer. There is a statement for each block of lowering, and `Expr.lower_simulates` puts
them together. Whole assignments and steps change the one object they are about.
-/

namespace SubsetC

/-! ### Stores that agree -/

/-- Two stores hold the same in all objects of a table. -/
def SymbolTable.Agree (known : SymbolTable) (first second : Store) : Prop :=
  ∀ name, (known.find? name).isSome → first name = second name

namespace SymbolTable.Agree

variable {known wider : SymbolTable} {first second third : Store}

theorem refl (known : SymbolTable) (store : Store) : known.Agree store store := fun _ _ => rfl

theorem symm (agree : known.Agree first second) : known.Agree second first :=
  fun name isKnown => (agree name isKnown).symm

theorem trans (earlier : known.Agree first second) (later : known.Agree second third) :
    known.Agree first third :=
  fun name isKnown => (earlier name isKnown).trans (later name isKnown)

theorem narrow (agree : wider.Agree first second) (extension : wider.Extends known) :
    known.Agree first second :=
  fun name isKnown => agree name (extension.isSome isKnown)

theorem set_fresh {name : Text} (fresh : known.find? name = none) (store : Store) (number : Int) :
    known.Agree store (store.set name number) := by
  intro other isKnown
  have differ : other ≠ name := by
    rintro rfl
    simp [fresh] at isKnown
  simp [Store.set, differ]

theorem set (agree : known.Agree first second) (name : Text) (number : Int) :
    known.Agree (first.set name number) (second.set name number) := by
  intro other isKnown
  by_cases same : other = name
  · simp [Store.set, same]
  · simp [Store.set, same, agree other isKnown]

end SymbolTable.Agree

/-! ### Reading and writing operands -/

namespace Machine

variable {machine : Machine} {known : SymbolTable} {kind : IntType} {operand : Operand}
  {store other : Store} {number : Int}

theorem kind?_var {name : Text} (hasType : machine.table.HasType name (.integer kind)) :
    machine.kind? (.var name) = some kind := by
  rcases hasType with ⟨symbol, found, sameType⟩
  simp [kind?, found, sameType, CType.kind?]

/-- The constants of an integer type have a type with the same values. -/
theorem kind?_of_hasType (hasType : operand.HasType machine.table (.integer kind)) :
    ∃ own, machine.kind? operand = some own ∧ own.size = kind.size ∧ own.isSigned = kind.isSigned := by
  cases operand with
  | constant value =>
      have sameType : value.type = (Const.ofInt64 0 kind).type := (Option.some.inj hasType).symm
      cases kind with
      | schar => exact ⟨.char, by rw [kind?, sameType]; rfl, rfl, rfl⟩
      | _ => exact ⟨_, by rw [kind?, sameType]; rfl, rfl, rfl⟩
  | var name => exact ⟨kind, kind?_var hasType, rfl, rfl⟩
  | absent => exact hasType.elim

/-- Every operand of an integer type can be read. -/
theorem exists_read? (hasType : operand.HasType machine.table (.integer kind)) (store : Store) :
    ∃ number, machine.read? store operand = some number ∧ kind.Holds number := by
  cases operand with
  | constant value =>
      rcases kind?_of_hasType hasType with ⟨own, isOwn, size, sign⟩
      rcases Const.exists_number? isOwn with ⟨number, isNumber, holds⟩
      refine ⟨number, isNumber, ?_⟩
      rw [IntType.Holds, ← IntType.wrap_eq_wrap size sign]
      exact holds
  | var name =>
      refine ⟨kind.wrap (store name), ?_, kind.holds_wrap _⟩
      rw [read?, kind?_var hasType, Option.map_some]
  | absent => exact hasType.elim

theorem holds_of_read? (hasType : operand.HasType machine.table (.integer kind))
    (reads : machine.read? store operand = some number) : kind.Holds number := by
  rcases exists_read? hasType store with ⟨own, isOwn, holds⟩
  cases reads.symm.trans isOwn
  exact holds

/-- An operand that is known reads the same from stores that agree. -/
theorem read?_congr {type : CType} (hasType : operand.HasType known type)
    (agree : known.Agree store other) : machine.read? store operand = machine.read? other operand := by
  cases operand with
  | constant value => rfl
  | var name =>
      rcases hasType with ⟨symbol, found, _⟩
      rw [read?, read?, agree name (by simp [found])]
  | absent => rfl

theorem write?_var {name : Text} (hasType : machine.table.HasType name (.integer kind)) :
    machine.write? store (.var name) number = some (store.set name (kind.wrap number)) := by
  rw [write?, kind?_var hasType, Option.map_some]

theorem read?_set {name : Text} (hasType : machine.table.HasType name (.integer kind)) :
    machine.read? (store.set name (kind.wrap number)) (.var name) = some (kind.wrap number) := by
  rw [read?, kind?_var hasType, Option.map_some, Store.set, Function.update_self, kind.wrap_wrap]

/-! ### Runs that compute a number -/

variable (machine) (body : Code)

/-- The run from a state computes a number, or has no answer if there is none: it goes on with the
given code, with the number in an operand and with the known objects as in a store. -/
def Gives (known : SymbolTable) (store : Store) (start : State) (rest : Code) (operand : Operand) :
    Option Int → Prop
  | none => machine.Never body start
  | some number => ∃ after, machine.Leads body start (rest, after) ∧ known.Agree store after ∧
      machine.read? after operand = some number

variable {machine body} {start next : State} {rest middle : Code} {value : Option Int}

namespace Gives

theorem of_leads (leads : machine.Leads body start next)
    (gives : machine.Gives body known store next rest operand value) :
    machine.Gives body known store start rest operand value := by
  cases value with
  | none => exact leads.never gives
  | some number =>
      rcases gives with ⟨after, later, agree, reads⟩
      exact ⟨after, leads.trans later, agree, reads⟩

theorem done (agree : known.Agree store other) (reads : machine.read? other operand = some number) :
    machine.Gives body known store (rest, other) rest operand (some number) :=
  ⟨other, .refl _, agree, reads⟩

/-- A number that is used for another one. -/
theorem bind {first : Operand} {second : Int → Option Int}
    (gives : machine.Gives body known store start middle first value)
    (later : ∀ number after, known.Agree store after → machine.read? after first = some number →
      machine.Gives body known store (middle, after) rest operand (second number)) :
    machine.Gives body known store start rest operand (value.bind second) := by
  cases value with
  | none => exact gives
  | some number =>
      rcases gives with ⟨after, leads, agree, reads⟩
      exact of_leads leads (later number after agree reads)

/-- A number that is moved to another operand. -/
theorem move {first : Operand}
    (gives : machine.Gives body known store start middle first value)
    (later : ∀ number after, known.Agree store after → machine.read? after first = some number →
      machine.Gives body known store (middle, after) rest operand (some number)) :
    machine.Gives body known store start rest operand value := by
  rw [← Option.bind_fun_some value]
  exact gives.bind later

/-- What keeps more objects from a later store keeps fewer from an earlier one. -/
theorem mono {wider : SymbolTable} (extension : wider.Extends known)
    (agree : known.Agree store other)
    (gives : machine.Gives body wider other start rest operand value) :
    machine.Gives body known store start rest operand value := by
  cases value with
  | none => exact gives
  | some number =>
      rcases gives with ⟨after, leads, later, reads⟩
      exact ⟨after, leads, agree.trans (later.narrow extension), reads⟩

/-- After the number is computed, the run may go on without any effect. -/
theorem proceed (gives : machine.Gives body known store start middle operand value)
    (leads : ∀ after, machine.Leads body (middle, after) (rest, after)) :
    machine.Gives body known store start rest operand value := by
  cases value with
  | none => exact gives
  | some number =>
      rcases gives with ⟨after, earlier, agree, reads⟩
      exact ⟨after, earlier.trans (leads after), agree, reads⟩

end Gives

theorem leads_label (name : Text) (rest : Code) (store : Store) :
    machine.Leads body (.label name :: rest, store) (rest, store) :=
  .of_step rfl

theorem leads_jump {target : Text} {code : Code} (found : Code.after? target body = some code)
    (rest : Code) (store : Store) :
    machine.Leads body (.jump target :: rest, store) (code, store) :=
  .of_step (by simp [step?, goto?, found])

theorem leads_jumpIfZero {target : Text} {code : Code}
    (found : Code.after? target body = some code) (reads : machine.read? store operand = some number)
    (rest : Code) :
    machine.Leads body (.jumpIfZero operand target :: rest, store)
      (if number = 0 then code else rest, store) := by
  refine .of_step ?_
  by_cases isZero : number = 0 <;> simp [step?, goto?, reads, found, isZero]

theorem leads_jumpIfNotZero {target : Text} {code : Code}
    (found : Code.after? target body = some code) (reads : machine.read? store operand = some number)
    (rest : Code) :
    machine.Leads body (.jumpIfNotZero operand target :: rest, store)
      (if number = 0 then rest else code, store) := by
  refine .of_step ?_
  by_cases isZero : number = 0 <;> simp [step?, goto?, reads, found, isZero]

/-- An instruction that writes a number to a new object. -/
theorem Gives.write {instruction : Instruction} {name : Text}
    (steps : machine.step? body (instruction :: rest, other) =
      (machine.write? other (.var name) number).map fun after => .inr (rest, after))
    (hasType : machine.table.HasType name (.integer kind)) (fresh : known.find? name = none)
    (agree : known.Agree store other) :
    machine.Gives body known store (instruction :: rest, other) rest (.var name)
      (some (kind.wrap number)) := by
  rw [write?_var hasType, Option.map_some] at steps
  exact .of_leads (.of_step steps) (.done (agree.trans (.set_fresh fresh _ _)) (read?_set hasType))

theorem Gives.copy {source : Operand} {name : Text} (reads : machine.read? other source = some number)
    (holds : kind.Holds number) (hasType : machine.table.HasType name (.integer kind))
    (fresh : known.find? name = none) (agree : known.Agree store other) :
    machine.Gives body known store (.copy source (.var name) :: rest, other) rest (.var name)
      (some number) := by
  have steps : machine.step? body (.copy source (.var name) :: rest, other) =
      (machine.write? other (.var name) number).map fun after => .inr (rest, after) := by
    simp [step?, execute?, reads]
  have gives := Gives.write steps hasType fresh agree
  rw [holds] at gives
  exact gives

/-- Code that computes what is read from each store, and changes no known object. -/
def Evaluates (machine : Machine) (known : SymbolTable) (made : Code × Operand)
    (value? : Store → Option Int) : Prop :=
  ∀ (body rest : Code) (store : Store), (Code.labels body).Nodup → made.1 ++ rest <:+ body →
    machine.Gives body known store (made.1 ++ rest, store) rest made.2 (value? store)

theorem Evaluates.narrow {wider : SymbolTable} {made : Code × Operand}
    {value? : Store → Option Int} (evaluates : machine.Evaluates wider made value?)
    (extension : wider.Extends known) : machine.Evaluates known made value? :=
  fun body rest store nodup suffix =>
    (evaluates body rest store nodup suffix).mono extension (.refl _ _)

end Machine

/-- A part of lowering has made code that computes a number of an integer type from each store. -/
structure Context.Simulates (kind : IntType) (value? : Machine → Store → Option Int)
    (context : Context) (made : Code × Operand) (after : Context) : Prop where
  grows : context.Grows [] after
  /-- The number is left in an operand of the type. -/
  hasType : made.2.HasType after.symbols (.integer kind)
  /-- Machines that know the new names compute the number. -/
  evaluates : ∀ machine : Machine, machine.table.Extends after.symbols →
    machine.Evaluates context.symbols made (value? machine)

namespace Context.Simulates

variable {kind : IntType} {value? : Machine → Store → Option Int} {context after : Context}
  {made : Code × Operand}

theorem tidy (simulates : context.Simulates kind value? made after) (tidy : context.Tidy) :
    after.Tidy :=
  simulates.grows.tidy tidy (by simp)

theorem extends_ (simulates : context.Simulates kind value? made after) :
    after.symbols.Extends context.symbols :=
  simulates.grows.extends_

/-- An operand that needs no code. -/
theorem nil {operand : Operand} (hasType : operand.HasType context.symbols (.integer kind))
    (reads : ∀ (machine : Machine) (store : Store) (number : Int),
      machine.table.Extends context.symbols → kind.Holds number →
      machine.read? store operand = some number → value? machine store = some number) :
    context.Simulates kind value? ([], operand) context := by
  refine ⟨.refl _ _, hasType, ?_⟩
  intro machine extension body rest store _ _
  rcases Machine.exists_read? (hasType.extend extension) store with ⟨number, isNumber, holds⟩
  rw [reads machine store number extension holds isNumber]
  exact .done (.refl _ _) isNumber

theorem congr {other? : Machine → Store → Option Int}
    (simulates : context.Simulates kind value? made after)
    (same : ∀ machine store, machine.table.Extends after.symbols →
      value? machine store = other? machine store) :
    context.Simulates kind other? made after := by
  refine ⟨simulates.grows, simulates.hasType, ?_⟩
  intro machine extension body rest store nodup suffix
  rw [← same machine store extension]
  exact simulates.evaluates machine extension body rest store nodup suffix

/-- A number is computed from another one, which was computed before. -/
theorem append {first second third : Context} {firstKind : IntType} {code more : Code}
    {operand result : Operand} {first? second? : Machine → Store → Option Int}
    (next? : Machine → Store → Int → Option Int)
    (earlier : first.Simulates firstKind first? (code, operand) second)
    (later : second.Simulates kind second? (more, result) third)
    (links : ∀ machine store after number, machine.table.Extends third.symbols →
      first.symbols.Agree store after → machine.read? after operand = some number →
      second? machine after = next? machine store number) :
    first.Simulates kind (fun machine store => (first? machine store).bind (next? machine store))
      (code ++ more, result) third := by
  refine ⟨earlier.grows.append later.grows, later.hasType, ?_⟩
  intro machine extension body rest store nodup suffix
  rw [List.append_assoc] at suffix ⊢
  have known := extension.trans later.extends_
  refine (earlier.evaluates machine known body _ store nodup suffix).bind ?_
  intro number after agree reads
  have ends : more ++ rest <:+ body := (List.suffix_append code _).trans suffix
  have gives := later.evaluates machine extension body rest after nodup ends
  rw [links machine store after number extension agree reads] at gives
  exact gives.mono earlier.extends_ agree

end Context.Simulates

/-! ### Blocks of code -/

section Blocks

variable {context : Context} {kind : IntType}

/-- A temporary is not known before. -/
theorem Pass.newTemporary_fresh (tidy : context.Tidy) (type : CType) :
    Yields (Pass.newTemporary type) context fun operand after =>
      ∃ name, operand = .var name ∧ context.symbols.find? name = none ∧
        after.symbols.HasType name type := by
  unfold Pass.newTemporary
  refine Ensures.bind_ok (Pass.run_uniqueName _ _) ?_
  refine Ensures.bind_ok (Pass.run_setSymbol _ _ _ _) ?_
  refine Ensures.pure ⟨_, rfl, tidy.find?_fresh "tmp", ?_⟩
  exact ⟨_, SymbolTable.find?_set _ _ _ _ _ |>.trans (if_pos rfl), rfl⟩

/-- A block of one instruction that writes to a new temporary. -/
theorem Context.simulates_instruction {value? : Machine → Store → Option Int}
    (instruction : Operand → Instruction) (tidy : context.Tidy)
    (executes : ∀ (machine : Machine) (store : Store) (target : Operand),
      machine.table.Extends context.symbols → machine.kind? target = some kind →
      (∃ number, value? machine store = some (kind.wrap number) ∧
        ∀ body rest, machine.step? body (instruction target :: rest, store) =
          (machine.write? store target number).map fun after => .inr (rest, after)) ∨
      value? machine store = none ∧
        ∀ body rest, machine.step? body (instruction target :: rest, store) = none) :
    Yields (do
      let target ← Pass.newTemporary (.integer kind)
      pure ([instruction target], target)) context (context.Simulates kind value?) := by
  refine ((Pass.newTemporary_yields tidy _).and (Pass.newTemporary_fresh tidy _)).bind ?_
  rintro _ after ⟨⟨grows, _⟩, name, rfl, fresh, hasType⟩
  refine Ensures.pure ⟨grows, hasType, ?_⟩
  intro machine extension body rest store _ _
  have hasType := hasType.extend extension
  have known := extension.trans grows.extends_
  rcases executes machine store (.var name) known (Machine.kind?_var hasType) with
    ⟨number, isNumber, steps⟩ | ⟨isNone, stops⟩
  · rw [isNumber]
    exact .write (steps body rest) hasType fresh (.refl _ _)
  · rw [isNone]
    exact .of_step (stops body rest)

theorem Expr.unaryCode_simulates (tidy : context.Tidy) {op : UnaryOp} {operandKind : IntType}
    {value : Operand} (hasValue : value.HasType context.symbols (.integer operandKind))
    (types : op.HasTypes (.integer operandKind) (.integer kind)) :
    Yields (unaryCode op (.integer kind) value) context
      (context.Simulates kind fun machine store =>
        (machine.read? store value).map (op.apply kind)) := by
  have computes : ∀ one : OneOp, (∀ number, op.apply kind number = kind.wrap (one.apply number)) →
      Yields (do
        let target ← Pass.newTemporary (.integer kind)
        pure ([.unary one value target], target)) context
        (context.Simulates kind fun machine store =>
          (machine.read? store value).map (op.apply kind)) := by
    intro one same
    refine Context.simulates_instruction (fun target => .unary one value target) tidy ?_
    intro machine store target extension _
    rcases Machine.exists_read? (hasValue.extend extension) store with ⟨number, isNumber, _⟩
    refine .inl ⟨one.apply number, by rw [isNumber, Option.map_some, same], fun body rest => ?_⟩
    simp [Machine.step?, Machine.execute?, isNumber]
  cases op with
  | negate => exact computes .negate fun _ => rfl
  | complement => exact computes .complement fun _ => rfl
  | not => exact computes .not fun number => (kind.holds_toInt (number == 0)).symm
  | plus =>
      have sameKind : operandKind = kind := by
        cases types
        rfl
      refine Ensures.pure (.nil (sameKind ▸ hasValue) ?_)
      intro machine store number _ _ isNumber
      simp only [isNumber, Option.map_some, UnaryOp.apply]

theorem Operand.combine_simulates (tidy : context.Tidy) {op : TwoOp} {leftKind rightKind : IntType}
    {left right : Operand} (hasLeft : left.HasType context.symbols (.integer leftKind))
    (hasRight : right.HasType context.symbols (.integer rightKind)) :
    Yields (left.combine op (.integer kind) right) context
      (context.Simulates kind fun machine store =>
        (machine.read? store left).bind fun leftNumber =>
          (machine.read? store right).bind fun rightNumber =>
            machine.combine? op kind leftNumber rightNumber) := by
  refine Context.simulates_instruction (fun target => .binary op left right target) tidy ?_
  intro machine store target extension hasKind
  rcases Machine.exists_read? (hasLeft.extend extension) store with ⟨leftNumber, isLeft, _⟩
  rcases Machine.exists_read? (hasRight.extend extension) store with ⟨rightNumber, isRight, _⟩
  rw [isLeft, isRight, Option.bind_some, Option.bind_some]
  cases computes : machine.combine? op kind leftNumber rightNumber with
  | none =>
      refine .inr ⟨rfl, fun body rest => ?_⟩
      simp [Machine.step?, Machine.execute?, hasKind, isLeft, isRight, computes]
  | some number =>
      refine .inl ⟨number, ?_, fun body rest => ?_⟩
      · have holds : kind.Holds number := by
          cases op with
          | arith op => exact op.holds_of_apply computes
          | compare op =>
              cases computes
              exact kind.holds_toInt _
        rw [holds]
      · simp [Machine.step?, Machine.execute?, hasKind, isLeft, isRight, computes]

/-- A change of representation keeps the numbers of the type it is chosen for. -/
theorem ConvertOp.result?_of_between? {op : ConvertOp} {source target own : IntType} {number : Int}
    (found : ConvertOp.between? (.integer source) (.integer target) = some op)
    (size : own.size = source.size) (holds : source.Holds number) :
    op.result? own number = some number := by
  have modulus : own.modulus = source.modulus := by rw [IntType.modulus, size, IntType.modulus]
  have wrapped : source.wrap number = number := holds
  unfold IntType.wrap at wrapped
  simp only [between?, CType.isDouble, Bool.false_eq_true, if_false] at found
  split at found
  · cases found
  · split at found
    · cases found
      rfl
    · split at found
      · rename_i signed
        have signed : source.isSigned = true := signed
        cases found
        rw [if_pos signed] at wrapped
        rw [result?, modulus, wrapped]
      · rename_i unsigned
        have unsigned : ¬source.isSigned = true := unsigned
        cases found
        rw [if_neg unsigned] at wrapped
        rw [result?, modulus, wrapped]

theorem Operand.convertObject_simulates (tidy : context.Tidy) {source target : IntType}
    {operand : Operand} (hasType : operand.HasType context.symbols (.integer source)) :
    Yields (operand.convertObject (.integer source) (.integer target)) context
      (context.Simulates target fun machine store =>
        (machine.read? store operand).map target.wrap) := by
  unfold convertObject
  cases found : ConvertOp.between? (.integer source) (.integer target) with
  | some op =>
      refine Context.simulates_instruction (fun temporary => .convert op operand temporary) tidy ?_
      intro machine store temporary extension _
      have hasType := hasType.extend extension
      rcases Machine.exists_read? hasType store with ⟨number, isNumber, holds⟩
      rcases Machine.kind?_of_hasType hasType with ⟨own, isOwn, size, _⟩
      refine .inl ⟨number, by rw [isNumber, Option.map_some], fun body rest => ?_⟩
      simp [Machine.step?, Machine.execute?, isOwn, isNumber,
        ConvertOp.result?_of_between? found size holds]
  | none =>
      refine Context.simulates_instruction (fun temporary => .copy operand temporary) tidy ?_
      intro machine store temporary extension _
      rcases Machine.exists_read? (hasType.extend extension) store with ⟨number, isNumber, _⟩
      refine .inl ⟨number, by rw [isNumber, Option.map_some], fun body rest => ?_⟩
      simp [Machine.step?, Machine.execute?, isNumber]

/-- A converted value is the value wrapped around to the new type. -/
theorem Operand.convert_simulates (tidy : context.Tidy) {source target : IntType}
    {operand : Operand} (hasType : operand.HasType context.symbols (.integer source)) :
    Yields (operand.convert (.integer source) (.integer target)) context
      (context.Simulates target fun machine store =>
        (machine.read? store operand).map target.wrap) := by
  unfold convert
  refine Ensures.ite ?_ ?_
  · intro same
    cases same
    refine Ensures.pure (.nil hasType ?_)
    intro machine store number _ holds isNumber
    simpa only [isNumber, Option.map_some] using congrArg some holds
  · intro _
    split
    · rename_i value
      rw [if_pos (by rfl), Const.convert]
      split
      · rename_i converted converts
        refine Ensures.pure (.nil (Const.hasType_of_convert? converts) ?_)
        intro machine store number _ _ isConverted
        have hasOwn : (Operand.constant value).HasType machine.table (.integer source) := hasType
        rcases Machine.exists_read? hasOwn store with ⟨own, isOwn, _⟩
        have sameNumber := Const.number?_convert? isOwn converts
        simp only [isOwn, Option.map_some]
        exact sameNumber.symm.trans isConverted
      · exact Ensures.bind (Ensures.throw trivial) fun _ _ impossible => impossible
    · exact convertObject_simulates tidy hasType

/-- The new value of an object: widened, combined and narrowed again. -/
theorem Expr.compoundCode_simulates (tidy : context.Tidy) {op : ArithOp}
    {opKind rightKind : IntType} {current right : Operand}
    (hasCurrent : current.HasType context.symbols (.integer kind))
    (hasRight : right.HasType context.symbols (.integer rightKind)) :
    Yields (compoundCode op (.integer kind) (.integer opKind) current right) context
      (context.Simulates kind fun machine store =>
        (machine.read? store current).bind fun number =>
          (machine.read? store right).bind fun rightNumber =>
            op.update? machine.gaps kind opKind number rightNumber) := by
  rw [compoundCode, if_neg (by simp [CType.isPointer])]
  refine (Operand.convert_simulates tidy hasCurrent).bind ?_
  rintro ⟨widenCode, wide⟩ first widens
  have tidy := widens.tidy tidy
  refine (Operand.combine_simulates tidy widens.hasType (hasRight.extend widens.extends_)).bind ?_
  rintro ⟨computeCode, computed⟩ second computes
  refine (Operand.convert_simulates (computes.tidy tidy) computes.hasType).bind ?_
  rintro ⟨narrowCode, narrow⟩ after narrows
  dsimp only
  rw [List.append_assoc]
  have finishes := computes.append (fun _ _ number => some (kind.wrap number)) narrows (by
    intro machine store after number _ _ reads
    rw [reads, Option.map_some])
  have all := widens.append (fun machine store number =>
    (machine.read? store right).bind fun rightNumber =>
      (op.apply machine.gaps opKind number rightNumber).map kind.wrap) finishes (by
    intro machine store after number _ agree reads
    rw [reads, Machine.read?_congr hasRight agree.symm]
    cases machine.read? store right with
    | none => rfl
    | some rightNumber => simp [Machine.combine?, Option.map_eq_bind])
  refine Ensures.pure (all.congr ?_)
  intro machine store _
  cases machine.read? store current with
  | none => rfl
  | some number => rfl

end Blocks

/-! ### Pure expressions -/

theorem CType.exists_kind {type : CType} (integer : type.isInteger) : ∃ kind, type = .integer kind := by
  cases type with
  | integer kind => exact ⟨kind, rfl⟩
  | _ => cases integer

namespace Expr

theorem exists_kind_of_arith {op : ArithOp} {left right : IntType} {result : CType}
    (types : op.HasTypes (.integer left) (.integer right) result) : result = .integer left := by
  cases types with
  | shift => rfl
  | arithmetic => rfl
  | offset _ complete => cases complete
  | offsetOf complete => cases complete
  | difference complete => cases complete

/-- An explicit pure expression has an integer type. -/
theorem exists_kind {table : SymbolTable} : ∀ expr : Expr, expr.Explicit table → expr.isPure →
    ∃ kind, expr.type = .integer kind
  | .constant note value, explicit, isPure => by
      rcases CType.exists_kind isPure with ⟨kind, sameType⟩
      exact ⟨kind, explicit.2.trans sameType⟩
  | .var note name, explicit, isPure => CType.exists_kind isPure
  | .unary note op operand, explicit, isPure => by
      rcases exists_kind operand explicit.2.1 isPure with ⟨kind, sameType⟩
      have types := explicit.2.2
      rw [sameType] at types
      generalize resultType : note.knownType = result at types
      cases types with
      | not => exact ⟨.int, resultType⟩
      | complement => exact ⟨kind, resultType⟩
      | sign => exact ⟨kind, resultType⟩
  | .binary note op left right, explicit, isPure => by
      simp only [Expr.isPure, Bool.and_eq_true] at isPure
      rcases exists_kind left explicit.2.1 isPure.1 with ⟨leftKind, leftType⟩
      rcases exists_kind right explicit.2.2.1 isPure.2 with ⟨rightKind, rightType⟩
      have types := explicit.2.2.2
      rw [leftType, rightType] at types
      generalize resultType : note.knownType = result at types
      cases types with
      | arith types => exact ⟨leftKind, resultType.trans (exists_kind_of_arith types)⟩
      | compareArithmetic => exact ⟨.int, resultType⟩
      | comparePointers isPointer => cases isPointer
      | logic => exact ⟨.int, resultType⟩
  | .conditional note condition thenBranch elseBranch, explicit, isPure => by
      simp only [Expr.isPure, Bool.and_eq_true] at isPure
      rcases exists_kind thenBranch explicit.2.2.1 isPure.1.2 with ⟨kind, sameType⟩
      exact ⟨kind, explicit.2.2.2.2.2.1.symm.trans sameType⟩
  | .cast note target operand _, explicit, isPure => by
      simp only [Expr.isPure, Bool.and_eq_true] at isPure
      rcases CType.exists_kind isPure.1 with ⟨kind, sameType⟩
      exact ⟨kind, explicit.2.2.1.trans sameType⟩
  | .sizeofExpr note operand, explicit, _ => ⟨.ulong, explicit.2.2.2⟩
  | .sizeofType note operand, explicit, _ => ⟨.ulong, explicit.2.2⟩
  | .string _ _, _, isPure | .assign _ _ _ _ _, _, isPure | .call _ _ _, _, isPure
  | .addressOf _ _, _, isPure | .dereference _ _, _, isPure | .subscript _ _ _, _, isPure
  | .step _ _ _ _, _, isPure | .decay _ _, _, isPure => nomatch isPure

/-- The value of an explicit expression depends on known objects only. -/
theorem eval?_congr {table : SymbolTable} {gaps : Gaps} {first second : Store}
    (agree : table.Agree first second) : ∀ expr : Expr, expr.Explicit table →
    expr.eval? gaps first = expr.eval? gaps second
  | .constant _ _, _ | .sizeofExpr _ _, _ | .sizeofType _ _, _ | .string _ _, _
  | .assign _ _ _ _ _, _ | .call _ _ _, _ | .addressOf _ _, _ | .dereference _ _, _
  | .subscript _ _ _, _ | .step _ _ _ _, _ | .decay _ _, _ => rfl
  | .var note name, explicit => by
      rcases explicit.2.2 with ⟨symbol, found, _⟩
      rw [eval?, eval?, agree name (by simp [found])]
  | .unary note op operand, explicit => by
      rw [eval?, eval?, eval?_congr agree operand explicit.2.1]
  | .binary note (.arith op) left right, explicit
  | .binary note (.compare op) left right, explicit
  | .binary note (.logic .and) left right, explicit
  | .binary note (.logic .or) left right, explicit => by
      rw [eval?, eval?, eval?_congr agree left explicit.2.1, eval?_congr agree right explicit.2.2.1]
  | .conditional note condition thenBranch elseBranch, explicit => by
      rw [eval?, eval?, eval?_congr agree condition explicit.2.1,
        eval?_congr agree thenBranch explicit.2.2.1, eval?_congr agree elseBranch explicit.2.2.2.1]
  | .cast note target operand _, explicit => by
      rw [eval?, eval?, eval?_congr agree operand explicit.2.1]

/-- A run of lowering leads to code that computes the value of the expression. -/
abbrev Simulated (expr : Expr) (kind : IntType) (context : Context) : Prop :=
  Yields expr.lower context fun made after => ∃ operand, made.2 = .value operand ∧
    context.Simulates kind (fun machine store => expr.eval? machine.gaps store)
      (made.1, operand) after

theorem value_simulates {expr : Expr} {kind : IntType} {context : Context}
    (simulated : expr.Simulated kind context) :
    Yields (expr.lower >>= Place.loaded expr.type) context
      (context.Simulates kind fun machine store => expr.eval? machine.gaps store) := by
  refine simulated.bind ?_
  rintro ⟨code, _⟩ after ⟨operand, rfl, simulates⟩
  have loads : Yields (Place.loaded expr.type (code, .value operand)) after
      (fun made last => made = (code ++ [], operand) ∧ last = after) := Ensures.pure ⟨rfl, rfl⟩
  refine loads.mono ?_
  rintro _ _ ⟨rfl, rfl⟩
  rw [List.append_nil]
  exact simulates

theorem binaryCode_simulates {context : Context} (tidy : context.Tidy) {op : TwoOp}
    {kind leftKind rightKind : IntType} {left right : Operand}
    (hasLeft : left.HasType context.symbols (.integer leftKind))
    (hasRight : right.HasType context.symbols (.integer rightKind)) :
    Yields (binaryCode op (.integer kind) (.integer leftKind) (.integer rightKind) left right)
      context (context.Simulates kind fun machine store =>
        (machine.read? store left).bind fun leftNumber =>
          (machine.read? store right).bind fun rightNumber =>
            machine.combine? op kind leftNumber rightNumber) := by
  cases op with
  | arith op =>
      rw [binaryCode, if_neg (by simp [CType.isPointer])]
      exact Operand.combine_simulates tidy hasLeft hasRight
  | compare op => exact Operand.combine_simulates tidy hasLeft hasRight

/-- The operation of a binary operator that does not jump. -/
theorem twoOp_simulates {context : Context} {note : Note} {op : TwoOp} {left right : Expr}
    {kind leftKind rightKind : IntType} (tidy : context.Tidy)
    (leftType : left.type = .integer leftKind) (rightType : right.type = .integer rightKind)
    (resultType : note.knownType = .integer kind) (rightExplicit : right.Explicit context.symbols)
    (leftSimulated : left.Simulated leftKind context)
    (rightSimulated : ∀ {next : Context}, next.Tidy → next.symbols.Extends context.symbols →
      right.Simulated rightKind next) :
    Yields (do
      let (leftCode, leftValue) ← left.lower >>= Place.loaded left.type
      let (rightCode, rightValue) ← right.lower >>= Place.loaded right.type
      let (code, result) ←
        binaryCode op note.knownType left.type right.type leftValue rightValue
      pure (leftCode ++ rightCode ++ code, .value result)) context fun made after =>
        ∃ operand, made.2 = Place.value operand ∧
          context.Simulates kind (fun machine store =>
            (left.eval? machine.gaps store).bind fun leftNumber =>
              (right.eval? machine.gaps store).bind fun rightNumber =>
                machine.combine? op kind leftNumber rightNumber) (made.1, operand) after := by
  refine (value_simulates leftSimulated).bind ?_
  rintro ⟨leftCode, leftValue⟩ first leftSimulates
  have tidy := leftSimulates.tidy tidy
  refine (value_simulates (rightSimulated tidy leftSimulates.extends_)).bind ?_
  rintro ⟨rightCode, rightValue⟩ second rightSimulates
  have hasLeft := leftSimulates.hasType
  rw [leftType, rightType, resultType]
  refine (binaryCode_simulates (rightSimulates.tidy tidy)
    (hasLeft.extend rightSimulates.extends_) rightSimulates.hasType).bind ?_
  rintro ⟨code, result⟩ after simulates
  have finishes := rightSimulates.append (fun machine store rightNumber =>
    (machine.read? store leftValue).bind fun leftNumber =>
      machine.combine? op kind leftNumber rightNumber) simulates (by
    intro machine store after number _ agree reads
    rw [Machine.read?_congr hasLeft agree.symm, reads]
    rfl)
  have all := leftSimulates.append (fun machine store leftNumber =>
    (right.eval? machine.gaps store).bind fun rightNumber =>
      machine.combine? op kind leftNumber rightNumber) finishes (by
    intro machine store after number _ agree reads
    rw [eval?_congr agree.symm right rightExplicit, reads]
    rfl)
  dsimp only
  rw [List.append_assoc]
  exact Ensures.pure ⟨result, rfl, all⟩

theorem eval?_logic (gaps : Gaps) (store : Store) (note : Note) (op : LogicOp) (left right : Expr) :
    (Expr.binary note (.logic op) left right).eval? gaps store =
      (left.eval? gaps store).bind fun leftNumber =>
        if (leftNumber != 0) = op.decided then some op.decided.toInt
        else (right.eval? gaps store).bind fun rightNumber => some (rightNumber != 0).toInt := by
  cases op with
  | and =>
      rw [eval?]
      refine congrArg (Option.bind _) (funext fun leftNumber => ?_)
      by_cases isZero : leftNumber = 0 <;> simp [LogicOp.decided, isZero]
  | or =>
      rw [eval?]
      refine congrArg (Option.bind _) (funext fun leftNumber => ?_)
      by_cases isZero : leftNumber = 0 <;> simp [LogicOp.decided, isZero]

/-- An operand that decides the result leads to a label. -/
theorem leads_exit {machine : Machine} {body code rest : Code} {op : LogicOp} {operand : Operand}
    {target : Text} {store : Store} {number : Int}
    (found : Code.after? target body = some code)
    (reads : machine.read? store operand = some number) :
    machine.Leads body (op.exit operand target :: rest, store)
      (if (number != 0) = op.decided then code else rest, store) := by
  cases op with
  | and =>
      have leads := Machine.leads_jumpIfZero found reads rest
      by_cases isZero : number = 0 <;> simpa [LogicOp.exit, LogicOp.decided, isZero] using leads
  | or =>
      have leads := Machine.leads_jumpIfNotZero found reads rest
      by_cases isZero : number = 0 <;> simpa [LogicOp.exit, LogicOp.decided, isZero] using leads

/-- The code of `&&` and `||` computes the value, and runs the code of the right operand only if
the left one does not decide. -/
theorem logic_evaluates {machine : Machine} {known afterLeft : SymbolTable} {op : LogicOp}
    {left right : Expr} {leftCode rightCode : Code} {leftValue rightValue : Operand} {note : Note}
    {target decided finish : Text} (hasTarget : machine.table.HasType target .int)
    (fresh : known.find? target = none) (rightExplicit : right.Explicit known)
    (extension : afterLeft.Extends known)
    (leftEvaluates : machine.Evaluates known (leftCode, leftValue)
      (fun store => left.eval? machine.gaps store))
    (rightEvaluates : machine.Evaluates afterLeft (rightCode, rightValue)
      (fun store => right.eval? machine.gaps store)) :
    machine.Evaluates known (leftCode ++ [op.exit leftValue decided] ++ rightCode ++
      [op.exit rightValue decided, .copy (LogicOp.result !op.decided) (.var target), .jump finish,
        .label decided, .copy (LogicOp.result op.decided) (.var target), .label finish],
      .var target) (fun store => (Expr.binary note (.logic op) left right).eval? machine.gaps store) := by
  intro body rest store nodup suffix
  simp only [List.append_assoc, List.cons_append, List.nil_append] at suffix ⊢
  have fromExit := (List.suffix_append leftCode _).trans suffix
  have fromRight := (List.suffix_cons _ _).trans fromExit
  have fromCopy := (List.suffix_cons _ _).trans ((List.suffix_append rightCode _).trans fromRight)
  have fromDecided := (List.suffix_cons _ _).trans ((List.suffix_cons _ _).trans fromCopy)
  have fromFinish := (List.suffix_cons _ _).trans ((List.suffix_cons _ _).trans fromDecided)
  have atDecided := Code.after?_of_suffix nodup fromDecided
  have atFinish := Code.after?_of_suffix nodup fromFinish
  have writes : ∀ (value : Bool) (next : Code) (after : Store), known.Agree store after →
      machine.Gives body known store (.copy (LogicOp.result value) (.var target) :: next, after)
        next (.var target) (some value.toInt) := by
    intro value next after agree
    exact .copy (Const.number?_ofBool value) (IntType.int.holds_toInt value) hasTarget fresh agree
  have decides : ∀ after, known.Agree store after →
      machine.Gives body known store
        (.copy (LogicOp.result op.decided) (.var target) :: .label finish :: rest, after) rest
        (.var target) (some op.decided.toInt) :=
    fun after agree => (writes op.decided _ after agree).proceed (Machine.leads_label _ _)
  rw [eval?_logic]
  refine (leftEvaluates body _ store nodup suffix).bind ?_
  intro leftNumber first agreeFirst readsLeft
  refine .of_leads (leads_exit atDecided readsLeft) ?_
  split
  · exact decides first agreeFirst
  · rw [eval?_congr agreeFirst right rightExplicit]
    have gives := (rightEvaluates body _ first nodup fromRight).mono extension agreeFirst
    refine gives.bind ?_
    intro rightNumber second agreeSecond readsRight
    refine .of_leads (leads_exit atDecided readsRight) ?_
    split
    · rename_i isDecided
      rw [isDecided]
      exact decides second agreeSecond
    · rename_i notDecided
      have isOther : (rightNumber != 0) = !op.decided := Bool.eq_not_iff.2 notDecided
      rw [isOther]
      exact (writes _ _ second agreeSecond).proceed (Machine.leads_jump atFinish _)

/-- The code of a conditional computes the value, and runs the code of one branch only. -/
theorem conditional_evaluates {machine : Machine} {known afterCondition afterThen : SymbolTable}
    {kind : IntType} {condition thenBranch elseBranch : Expr}
    {conditionCode thenCode elseCode : Code} {conditionValue thenValue elseValue : Operand}
    {note : Note} {target otherwise finish : Text}
    (hasTarget : machine.table.HasType target (.integer kind)) (fresh : known.find? target = none)
    (thenExplicit : thenBranch.Explicit known) (elseExplicit : elseBranch.Explicit known)
    (hasThen : thenValue.HasType machine.table (.integer kind))
    (hasElse : elseValue.HasType machine.table (.integer kind))
    (thenExtends : afterCondition.Extends known) (elseExtends : afterThen.Extends known)
    (conditionEvaluates : machine.Evaluates known (conditionCode, conditionValue)
      (fun store => condition.eval? machine.gaps store))
    (thenEvaluates : machine.Evaluates afterCondition (thenCode, thenValue)
      (fun store => thenBranch.eval? machine.gaps store))
    (elseEvaluates : machine.Evaluates afterThen (elseCode, elseValue)
      (fun store => elseBranch.eval? machine.gaps store)) :
    machine.Evaluates known
      (conditionCode ++ [Instruction.jumpIfZero conditionValue otherwise] ++ thenCode ++
        [Instruction.copy thenValue (.var target), .jump finish, .label otherwise] ++ elseCode ++
        [Instruction.copy elseValue (.var target), .label finish], .var target)
      (fun store => (Expr.conditional note condition thenBranch elseBranch).eval?
        machine.gaps store) := by
  intro body rest store nodup suffix
  simp only [List.append_assoc, List.cons_append, List.nil_append] at suffix ⊢
  have fromThen := (List.suffix_cons _ _).trans ((List.suffix_append conditionCode _).trans suffix)
  have fromJump := (List.suffix_cons _ _).trans ((List.suffix_append thenCode _).trans fromThen)
  have fromOtherwise := (List.suffix_cons _ _).trans fromJump
  have fromElse := (List.suffix_cons _ _).trans fromOtherwise
  have fromFinish := (List.suffix_cons _ _).trans ((List.suffix_append elseCode _).trans fromElse)
  have atOtherwise := Code.after?_of_suffix nodup fromOtherwise
  have atFinish := Code.after?_of_suffix nodup fromFinish
  rw [eval?]
  refine (conditionEvaluates body _ store nodup suffix).bind ?_
  intro number first agreeFirst reads
  refine .of_leads (Machine.leads_jumpIfZero atOtherwise reads _) ?_
  split
  · rw [eval?_congr agreeFirst elseBranch elseExplicit]
    have gives := (elseEvaluates body _ first nodup fromElse).mono elseExtends agreeFirst
    refine gives.move ?_
    intro number second agree reads
    have holds := Machine.holds_of_read? hasElse reads
    exact (Machine.Gives.copy reads holds hasTarget fresh agree).proceed
      (Machine.leads_label finish rest)
  · rw [eval?_congr agreeFirst thenBranch thenExplicit]
    have gives := (thenEvaluates body _ first nodup fromThen).mono thenExtends agreeFirst
    refine gives.move ?_
    intro number second agree reads
    have holds := Machine.holds_of_read? hasThen reads
    exact (Machine.Gives.copy reads holds hasTarget fresh agree).proceed
      (Machine.leads_jump atFinish _)

theorem constant_simulated {context : Context} {kind : IntType} {value : Const}
    (hasType : value.HasType (.integer kind)) (note : Note) :
    (Expr.constant note value).Simulated kind context := by
  have hasType : (Operand.constant value).HasType context.symbols (.integer kind) := hasType
  rw [Simulated, lower]
  exact Ensures.pure ⟨_, rfl, .nil hasType fun _ _ _ _ _ reads => reads⟩

/-- Wherever names are in order, the code of a pure expression computes its value. -/
abbrev AlwaysSimulated (expr : Expr) : Prop :=
  ∀ {context : Context} {kind : IntType}, context.Tidy → expr.Explicit context.symbols →
    expr.isPure → expr.type = .integer kind → expr.Simulated kind context

theorem logic_simulated {note : Note} {op : LogicOp} {left right : Expr}
    (simulatesLeft : left.AlwaysSimulated) (simulatesRight : right.AlwaysSimulated) :
    (binary note (.logic op) left right).AlwaysSimulated := by
  intro context kind tidy explicit isPure sameType
  simp only [Expr.isPure, Bool.and_eq_true] at isPure
  rcases explicit with ⟨_, leftExplicit, rightExplicit, types⟩
  rcases exists_kind left leftExplicit isPure.1 with ⟨leftKind, leftType⟩
  rcases exists_kind right rightExplicit isPure.2 with ⟨rightKind, rightType⟩
  obtain rfl : kind = .int := CType.integer.inj (sameType.symm.trans (logicTypes types).2.2)
  rw [Simulated, lower]
  refine Ensures.bind_ok (Pass.run_newLabelPair _ _ _) ?_
  have drawn := Context.Grows.draw context
  have tidy := drawn.tidy tidy (by simp)
  refine ((Pass.newTemporary_yields tidy .int).and (Pass.newTemporary_fresh tidy .int)).bind ?_
  rintro _ first ⟨⟨entered, _⟩, target, rfl, fresh, hasTarget⟩
  have start := drawn.append entered
  have tidy := entered.tidy tidy (by simp)
  have leftExplicit := leftExplicit.extend start.extends_ left
  refine (value_simulates (simulatesLeft tidy leftExplicit isPure.1 leftType)).bind ?_
  rintro ⟨leftCode, leftValue⟩ second leftSimulates
  have tidy := leftSimulates.tidy tidy
  have fromStart := start.append leftSimulates.grows
  have rightAfter := rightExplicit.extend fromStart.extends_ right
  refine (value_simulates (simulatesRight tidy rightAfter isPure.2 rightType)).bind ?_
  rintro ⟨rightCode, rightValue⟩ after rightSimulates
  have hasTarget := (hasTarget.extend leftSimulates.extends_).extend rightSimulates.extends_
  refine Ensures.pure ⟨.var target, rfl, fromStart.append rightSimulates.grows, hasTarget, ?_⟩
  intro machine extension
  have known := extension.trans rightSimulates.extends_
  exact logic_evaluates (hasTarget.extend extension) fresh rightExplicit fromStart.extends_
    ((leftSimulates.evaluates machine known).narrow start.extends_)
    (rightSimulates.evaluates machine extension)

theorem conditional_simulated {note : Note} {condition thenBranch elseBranch : Expr}
    (simulatesCondition : condition.AlwaysSimulated) (simulatesThen : thenBranch.AlwaysSimulated)
    (simulatesElse : elseBranch.AlwaysSimulated) :
    (conditional note condition thenBranch elseBranch).AlwaysSimulated := by
  intro context kind tidy explicit isPure sameType
  simp only [Expr.isPure, Bool.and_eq_true] at isPure
  rcases explicit with ⟨_, conditionExplicit, thenExplicit, elseExplicit, _, thenType, elseType, _⟩
  rcases exists_kind condition conditionExplicit isPure.1.1 with ⟨conditionKind, conditionType⟩
  have sameType : note.knownType = .integer kind := sameType
  have thenType := thenType.trans sameType
  have elseType := elseType.trans sameType
  rw [Simulated, lower]
  refine Ensures.bind_ok (Pass.run_newLabelPair _ _ _) ?_
  have drawn := Context.Grows.draw context
  have tidy := drawn.tidy tidy (by simp)
  refine (value_simulates (simulatesCondition tidy conditionExplicit isPure.1.1
    conditionType)).bind ?_
  rintro ⟨conditionCode, conditionValue⟩ first conditionSimulates
  have tidy := conditionSimulates.tidy tidy
  rw [sameType]
  refine Ensures.ite (fun isVoid => absurd isVoid Bool.false_ne_true) fun _ => ?_
  refine ((Pass.newTemporary_yields tidy (.integer kind)).and
    (Pass.newTemporary_fresh tidy (.integer kind))).bind ?_
  rintro _ second ⟨⟨entered, _⟩, target, rfl, fresh, hasTarget⟩
  have tidy := entered.tidy tidy (by simp)
  have start := drawn.append (conditionSimulates.grows.append entered)
  have thenAfter := thenExplicit.extend start.extends_ thenBranch
  refine (value_simulates (simulatesThen tidy thenAfter isPure.1.2 thenType)).bind ?_
  rintro ⟨thenCode, thenValue⟩ third thenSimulates
  have tidy := thenSimulates.tidy tidy
  have fromStart := start.append thenSimulates.grows
  have elseAfter := elseExplicit.extend fromStart.extends_ elseBranch
  refine (value_simulates (simulatesElse tidy elseAfter isPure.2 elseType)).bind ?_
  rintro ⟨elseCode, elseValue⟩ after elseSimulates
  have hasTarget := (hasTarget.extend thenSimulates.extends_).extend elseSimulates.extends_
  refine Ensures.pure ⟨.var target, rfl, fromStart.append elseSimulates.grows, hasTarget, ?_⟩
  intro machine extension
  have ofThird := extension.trans elseSimulates.extends_
  have ofFirst := ofThird.trans (entered.append thenSimulates.grows).extends_
  have freshBefore : context.symbols.find? target = none := by
    cases before : context.symbols.find? target with
    | none => rfl
    | some symbol =>
        have isSome : (context.symbols.find? target).isSome := by simp [before]
        have present := conditionSimulates.extends_.isSome isSome
        simp [fresh] at present
  exact conditional_evaluates (hasTarget.extend extension) freshBefore thenExplicit elseExplicit
    (thenSimulates.hasType.extend ofThird) (elseSimulates.hasType.extend extension)
    start.extends_ fromStart.extends_ (conditionSimulates.evaluates machine ofFirst)
    (thenSimulates.evaluates machine ofThird) (elseSimulates.evaluates machine extension)

/-- The code of a pure expression computes its value. -/
theorem lower_simulates : ∀ (expr : Expr) {context : Context} {kind : IntType}, context.Tidy →
    expr.Explicit context.symbols → expr.isPure → expr.type = .integer kind →
    expr.Simulated kind context
  | .constant note value, context, kind, tidy, explicit, isPure, sameType => by
      have sameType : value.type = .integer kind := explicit.2.symm.trans sameType
      exact constant_simulated (sameType ▸ value.hasType_type) note
  | .var note name, context, kind, tidy, explicit, isPure, sameType => by
      have sameType : note.knownType = .integer kind := sameType
      have hasType : context.symbols.HasType name (.integer kind) := sameType ▸ explicit.2.2
      rw [Simulated, lower]
      refine Ensures.pure ⟨_, rfl, .nil hasType ?_⟩
      intro machine store number extension _ reads
      rw [Machine.read?, Machine.kind?_var (hasType.extend extension)] at reads
      rw [eval?, sameType]
      exact reads
  | .unary note op operand, context, kind, tidy, explicit, isPure, sameType => by
      rcases exists_kind operand explicit.2.1 isPure with ⟨operandKind, operandType⟩
      have sameType : note.knownType = .integer kind := sameType
      have types := explicit.2.2
      rw [operandType, sameType] at types
      rw [Simulated, lower]
      refine (value_simulates (lower_simulates operand tidy explicit.2.1 isPure operandType)).bind ?_
      rintro ⟨operandCode, value⟩ first simulates
      rw [sameType]
      refine (unaryCode_simulates (simulates.tidy tidy) simulates.hasType types).bind ?_
      rintro ⟨code, result⟩ after computes
      have all := simulates.append (fun _ _ number => some (op.apply kind number)) computes (by
        intro machine store after number _ _ reads
        rw [reads, Option.map_some])
      refine Ensures.pure ⟨result, rfl, all.congr ?_⟩
      intro machine store _
      rw [eval?, sameType]
      rfl
  | .binary note (.arith op) left right, context, kind, tidy, explicit, isPure, sameType => by
      simp only [Expr.isPure, Bool.and_eq_true] at isPure
      rcases explicit with ⟨_, leftExplicit, rightExplicit, _⟩
      rcases exists_kind left leftExplicit isPure.1 with ⟨leftKind, leftType⟩
      rcases exists_kind right rightExplicit isPure.2 with ⟨rightKind, rightType⟩
      have sameType : note.knownType = .integer kind := sameType
      rw [Simulated, lower]
      refine (twoOp_simulates tidy leftType rightType sameType rightExplicit
        (lower_simulates left tidy leftExplicit isPure.1 leftType) ?_).mono ?_
      · intro next tidy extension
        exact lower_simulates right tidy (rightExplicit.extend extension right) isPure.2 rightType
      · rintro made after ⟨operand, isValue, simulates⟩
        refine ⟨operand, isValue, simulates.congr ?_⟩
        intro machine store _
        rw [eval?, sameType]
        rfl
  | .binary note (.compare op) left right, context, kind, tidy, explicit, isPure, sameType => by
      simp only [Expr.isPure, Bool.and_eq_true] at isPure
      rcases explicit with ⟨_, leftExplicit, rightExplicit, _⟩
      rcases exists_kind left leftExplicit isPure.1 with ⟨leftKind, leftType⟩
      rcases exists_kind right rightExplicit isPure.2 with ⟨rightKind, rightType⟩
      rw [Simulated, lower]
      refine (twoOp_simulates tidy leftType rightType sameType rightExplicit
        (lower_simulates left tidy leftExplicit isPure.1 leftType) ?_).mono ?_
      · intro next tidy extension
        exact lower_simulates right tidy (rightExplicit.extend extension right) isPure.2 rightType
      · rintro made after ⟨operand, isValue, simulates⟩
        refine ⟨operand, isValue, simulates.congr ?_⟩
        intro machine store _
        rw [eval?]
        rfl
  | .binary note (.logic op) left right, _, _, tidy, explicit, isPure, sameType =>
      logic_simulated (lower_simulates left) (lower_simulates right) tidy explicit isPure sameType
  | .conditional note condition thenBranch elseBranch, _, _, tidy, explicit, isPure, sameType =>
      conditional_simulated (lower_simulates condition) (lower_simulates thenBranch)
        (lower_simulates elseBranch) tidy explicit isPure sameType
  | .cast note target operand _, context, kind, tidy, explicit, isPure, sameType => by
      simp only [Expr.isPure, Bool.and_eq_true] at isPure
      rcases exists_kind operand explicit.2.1 isPure.2 with ⟨operandKind, operandType⟩
      obtain rfl : target = .integer kind := explicit.2.2.1.symm.trans sameType
      rw [Simulated, lower, if_neg (by simp [CType.isVoid])]
      refine (value_simulates (lower_simulates operand tidy explicit.2.1 isPure.2 operandType)).bind ?_
      rintro ⟨operandCode, value⟩ first simulates
      rw [operandType]
      refine (Operand.convert_simulates (simulates.tidy tidy) simulates.hasType).bind ?_
      rintro ⟨code, result⟩ after converts
      have all := simulates.append (fun _ _ number => some (kind.wrap number)) converts (by
        intro machine store after number _ _ reads
        rw [reads, Option.map_some])
      refine Ensures.pure ⟨result, rfl, all.congr ?_⟩
      intro machine store _
      rw [eval?]
      rfl
  | .sizeofExpr note operand, context, kind, tidy, explicit, isPure, sameType => by
      obtain rfl : kind = .ulong := CType.integer.inj (sameType.symm.trans explicit.2.2.2)
      rw [Simulated, lower]
      refine Ensures.pure ⟨_, rfl, .nil (Const.hasType_type (Const.ofSize _)) ?_⟩
      intro machine store number _ _ reads
      exact (Const.number?_ofSize _).symm.trans reads
  | .sizeofType note operand, context, kind, tidy, explicit, isPure, sameType => by
      obtain rfl : kind = .ulong := CType.integer.inj (sameType.symm.trans explicit.2.2)
      rw [Simulated, lower]
      refine Ensures.pure ⟨_, rfl, .nil (Const.hasType_type (Const.ofSize _)) ?_⟩
      intro machine store number _ _ reads
      exact (Const.number?_ofSize _).symm.trans reads
  | .string _ _, _, _, _, _, isPure, _ | .assign _ _ _ _ _, _, _, _, _, isPure, _
  | .call _ _ _, _, _, _, _, isPure, _ | .addressOf _ _, _, _, _, _, isPure, _
  | .dereference _ _, _, _, _, _, isPure, _ | .subscript _ _ _, _, _, _, _, isPure, _
  | .step _ _ _ _, _, _, _, _, isPure, _ | .decay _ _, _, _, _, _, isPure, _ => nomatch isPure

end Expr

end SubsetC
