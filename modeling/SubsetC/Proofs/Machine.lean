import SubsetC.Proofs.Arithmetic
import SubsetC.Proofs.TypedCode
import SubsetC.TopLevel

/-!
# A machine for integer code

A machine executes the body of a function one instruction at a time. It knows the types of objects
from a symbol table, and each operation happens at the types of its own operands and target: a
narrow object that is widened by the wrong instruction, or an object that is read at the wrong
type, gives another number. Only instructions on integers are executed; at all others the machine
stops.

The state of a run is the code that remains, always the end of the body, and a store. A run is cut
off after a number of steps, so that it always has an answer or none, and more steps keep an answer.
-/

namespace SubsetC

/-- What each object holds. An object is read at its type, so that any number can stand here. -/
abbrev Store := Text → Int

/-- The store with a number written to an object. -/
def Store.set (store : Store) (name : Text) (number : Int) : Store := Function.update store name number

/-- What a function returns. -/
inductive Answer where
  | nothing
  | number (value : Int)
  | double (value : Double)
  deriving DecidableEq, Repr

/-- The constant as an answer. -/
def Const.answer : Const → Answer
  | .double value => .double value
  | constant => .number (constant.number?.getD 0)

namespace Code

/-- The label an instruction marks. -/
def label? : Instruction → Option Text
  | .label name => some name
  | _ => none

/-- The labels of the code, in order. -/
def labels (code : Code) : List Text := code.filterMap label?

/-- The code behind the first place that a label marks. -/
def after? (target : Text) : Code → Option Code
  | [] => none
  | instruction :: rest => if label? instruction = some target then some rest else after? target rest

@[simp]
theorem labels_nil : labels [] = [] := rfl

@[simp]
theorem labels_cons (instruction : Instruction) (code : Code) :
    labels (instruction :: code) = (label? instruction).toList ++ labels code := by
  simp only [labels, List.filterMap_cons]
  cases label? instruction <;> rfl

@[simp]
theorem labels_append (first second : Code) : labels (first ++ second) = labels first ++ labels second :=
  List.filterMap_append

/-- A label that marks one place only is found there. -/
theorem after?_of_suffix {body rest : Code} {name : Text} (nodup : (labels body).Nodup)
    (suffix : .label name :: rest <:+ body) : after? name body = some rest := by
  rcases suffix with ⟨front, rfl⟩
  induction front with
  | nil => simp [after?, label?]
  | cons instruction front ih =>
      simp only [List.cons_append, labels_cons] at nodup ⊢
      have other : label? instruction ≠ some name := by
        intro same
        simp only [labels_append, labels_cons, same] at nodup
        simp [label?] at nodup
      rw [after?, if_neg other]
      exact ih (List.nodup_append.1 nodup).2.1

end Code

/-! ### Operations -/

/-- The number that a change of representation makes of a value of an integer type. -/
def ConvertOp.result? (op : ConvertOp) (source : IntType) (number : Int) : Option Int :=
  match op with
  | .signExtend => some (number.bmod source.modulus)
  | .zeroExtend => some (number % source.modulus)
  | .truncate => some number
  | .doubleToInt | .doubleToUInt | .intToDouble | .uintToDouble => none

/-- The number that an operation on one operand gives. -/
def OneOp.apply (op : OneOp) (number : Int) : Int :=
  match op with
  | .complement => -number - 1
  | .negate => -number
  | .not => (number == 0).toInt

/-- A machine, for objects of a symbol table. -/
structure Machine where
  /-- The types of objects. -/
  table : SymbolTable
  /-- What undefined operations do. -/
  gaps : Gaps

namespace Machine

variable (machine : Machine)

/-- The integer type of an operand. -/
def kind? : Operand → Option IntType
  | .constant value => value.type.kind?
  | .var name => (machine.table.find? name).bind fun symbol => symbol.type.kind?
  | .absent => none

/-- The number an operand stands for. -/
def read? (store : Store) : Operand → Option Int
  | .constant value => value.number?
  | .var name => (machine.kind? (.var name)).map fun kind => kind.wrap (store name)
  | .absent => none

/-- The store with a number written to an operand. -/
def write? (store : Store) (target : Operand) (number : Int) : Option Store :=
  match target with
  | .var name => (machine.kind? (.var name)).map fun kind => store.set name (kind.wrap number)
  | .constant _ | .absent => none

/-- The number that an operation on two operands gives, at the type of its target. -/
def combine? (op : TwoOp) (kind : IntType) (left right : Int) : Option Int :=
  match op with
  | .arith op => op.apply machine.gaps kind left right
  | .compare op => some (op.holds left right).toInt

/-- The store after an instruction that computes. -/
def execute? (store : Store) : Instruction → Option Store
  | .convert op source target => do
    let kind ← machine.kind? source
    let number ← machine.read? store source
    machine.write? store target (← op.result? kind number)
  | .unary op source target => do
    machine.write? store target (op.apply (← machine.read? store source))
  | .binary op left right target => do
    let kind ← machine.kind? target
    let left ← machine.read? store left
    let right ← machine.read? store right
    machine.write? store target (← machine.combine? op kind left right)
  | .copy source target => do
    machine.write? store target (← machine.read? store source)
  | _ => none

/-- What a function returns that returns an operand. -/
def answer? (store : Store) : Operand → Option Answer
  | .absent => some .nothing
  | .constant value => some value.answer
  | .var name => (machine.read? store (.var name)).map .number

/-- The state of a run: the code that remains, and the store. -/
abbrev State := Code × Store

/-- A state that goes on at a label. -/
def goto? (body : Code) (target : Text) (store : Store) : Option (Answer ⊕ State) :=
  (Code.after? target body).map fun code => .inr (code, store)

/-- One step, to an answer or to another state. -/
def step? (body : Code) : State → Option (Answer ⊕ State)
  | ([], _) => none
  | (instruction :: rest, store) =>
    match instruction with
    | .ret value => (machine.answer? store value).map .inl
    | .label _ => some (.inr (rest, store))
    | .jump target => goto? body target store
    | .jumpIfZero condition target => do
      if (← machine.read? store condition) = 0 then goto? body target store
      else some (.inr (rest, store))
    | .jumpIfNotZero condition target => do
      if (← machine.read? store condition) = 0 then some (.inr (rest, store))
      else goto? body target store
    | instruction => (machine.execute? store instruction).map fun store => .inr (rest, store)

/-- One step leads from one state to another. -/
def Steps (body : Code) (state next : State) : Prop :=
  machine.step? body state = some (.inr next)

/-- The answer of a run within a number of steps, if there is one. -/
def run (body : Code) : (steps : Nat) → State → Option Answer
  | 0, _ => none
  | steps + 1, state =>
    match machine.step? body state with
    | none => none
    | some (.inl answer) => some answer
    | some (.inr next) => run body steps next

/-- The body of a function, executed from a store, returns an answer. -/
def Returns (body : Code) (store : Store) (answer : Answer) : Prop :=
  ∃ steps, machine.run body steps (body, store) = some answer

/-! ### Runs -/

variable {machine} {body : Code} {state next : State} {answer : Answer}

/-- More steps keep an answer. -/
theorem run_add {steps : Nat} (more : Nat) (runs : machine.run body steps state = some answer) :
    machine.run body (steps + more) state = some answer := by
  induction steps generalizing state with
  | zero => cases runs
  | succ steps ih =>
      rw [Nat.succ_add]
      unfold run at runs ⊢
      split at runs
      · cases runs
      · exact runs
      · exact ih runs

theorem run_of_le {steps more : Nat} (runs : machine.run body steps state = some answer)
    (le : steps ≤ more) : machine.run body more state = some answer := by
  rcases Nat.exists_eq_add_of_le le with ⟨extra, rfl⟩
  exact run_add extra runs

theorem run_unique {first second : Nat} {other : Answer}
    (runs : machine.run body first state = some answer)
    (others : machine.run body second state = some other) : answer = other := by
  have runs := run_of_le runs (Nat.le_max_left first second)
  have others := run_of_le others (Nat.le_max_right first second)
  exact Option.some.inj (runs.symm.trans others)

/-- Fewer steps give no answer either. -/
theorem run_eq_none_of_le {steps fewer : Nat} (silent : machine.run body steps state = none)
    (le : fewer ≤ steps) : machine.run body fewer state = none := by
  cases runs : machine.run body fewer state with
  | none => rfl
  | some answer => cases silent.symm.trans (run_of_le runs le)

variable (machine body)

/-- The run goes on from one state to another, which is as many steps closer to an answer. -/
def LeadsBy (lag : Nat) (state next : State) : Prop :=
  ∀ steps, machine.run body (lag + steps) state = machine.run body steps next

/-- The run goes on from one state to another. -/
def Leads (state next : State) : Prop := ∃ lag, machine.LeadsBy body lag state next

/-- The run never has an answer. -/
def Never (state : State) : Prop := ∀ steps, machine.run body steps state = none

variable {machine body}

theorem LeadsBy.trans {first second : Nat} {middle : State}
    (earlier : machine.LeadsBy body first state middle)
    (later : machine.LeadsBy body second middle next) :
    machine.LeadsBy body (first + second) state next := by
  intro steps
  rw [Nat.add_assoc, earlier, later]

theorem leadsBy_of_step (steps : machine.step? body state = some (.inr next)) :
    machine.LeadsBy body 1 state next := by
  intro more
  rw [Nat.add_comm, run, steps]

theorem Leads.refl (state : State) : machine.Leads body state state :=
  ⟨0, fun steps => by rw [Nat.zero_add]⟩

theorem Leads.trans {middle : State} (earlier : machine.Leads body state middle)
    (later : machine.Leads body middle next) : machine.Leads body state next := by
  rcases earlier with ⟨first, earlier⟩
  rcases later with ⟨second, later⟩
  exact ⟨first + second, earlier.trans later⟩

theorem Leads.of_step (steps : machine.step? body state = some (.inr next)) :
    machine.Leads body state next :=
  ⟨1, leadsBy_of_step steps⟩

theorem Leads.never (leads : machine.Leads body state next) (never : machine.Never body next) :
    machine.Never body state := by
  rcases leads with ⟨lag, leads⟩
  intro steps
  exact run_eq_none_of_le ((leads steps).trans (never steps)) (Nat.le_add_left _ _)

theorem Never.of_step (stops : machine.step? body state = none) : machine.Never body state := by
  intro steps
  cases steps with
  | zero => rfl
  | succ steps => rw [run, stops]

/-- A run that goes on has no answer within a number of steps if the rest of it has none. -/
theorem Leads.run_eq_none (leads : machine.Leads body state next) {steps : Nat}
    (silent : machine.run body steps next = none) : machine.run body steps state = none := by
  rcases leads with ⟨lag, leads⟩
  exact run_eq_none_of_le ((leads steps).trans silent) (Nat.le_add_left _ _)

theorem Leads.run_eq_some (leads : machine.Leads body state next) {steps : Nat}
    (runs : machine.run body steps next = some answer) :
    ∃ steps, machine.run body steps state = some answer := by
  rcases leads with ⟨lag, leads⟩
  exact ⟨lag + steps, (leads steps).trans runs⟩

end Machine

end SubsetC
