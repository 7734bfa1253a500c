import SubsetC.Proofs.ControlFlow
import Mathlib.Data.Set.Lattice

/-!
# Names written along paths

An instruction reads objects and may write one as a whole. `Code.Defines` is a system of rules which
checks code from front to back that whatever it reads has been written: it carries along the set of
names that are written whenever control comes to an instruction, and at a label it goes on with the
set that is owed there, which every jump to the label must have written. If the body of a function
passes, then on every path through it each name that is read is written before, or is one of those
that are known from the start.

The rules leave open what is owed at a label. Lowering draws labels as it goes, so a part of the code
is free to choose what is owed at the labels it has drawn, as `Code.Chosen` says, and the choices of
two parts never meet.
-/

namespace SubsetC

/-! ### What an instruction reads and writes -/

namespace Operand

/-- The name of the object that an operand is, if it is one. -/
def names (operand : Operand) : List Text := operand.name?.toList

@[simp]
theorem names_var (name : Text) : names (.var name) = [name] := rfl

@[simp]
theorem names_constant (value : Const) : names (.constant value) = [] := rfl

@[simp]
theorem names_absent : names .absent = [] := rfl

end Operand

namespace Instruction

/-- The operands an instruction reads. One whose address is taken is among them, and so is an object
of which a part is read. -/
def sources : Instruction → List Operand
  | .ret value => [value]
  | .convert _ source _ | .unary _ source _ | .copy source _ | .getAddress source _
  | .copyToOffset source _ _ => [source]
  | .binary _ left right _ => [left, right]
  | .load pointer _ => [pointer]
  | .store source pointer => [source, pointer]
  | .addPointer pointer index _ _ => [pointer, index]
  | .copyFromOffset source _ _ => [.var source]
  | .jumpIfZero condition _ | .jumpIfNotZero condition _ => [condition]
  | .jump _ | .label _ => []
  | .call _ arguments _ => arguments

/-- The names of the objects an instruction reads. -/
def reads (instruction : Instruction) : List Text := instruction.sources.flatMap Operand.names

/-- The operand that an instruction writes as a whole, if there is one. -/
def result : Instruction → Operand
  | .convert _ _ target | .unary _ _ target | .binary _ _ _ target | .copy _ target
  | .getAddress _ target | .load _ target | .addPointer _ _ _ target | .copyFromOffset _ _ target
  | .call _ _ target => target
  | .ret _ | .store _ _ | .copyToOffset _ _ _ | .jump _ | .jumpIfZero _ _ | .jumpIfNotZero _ _
  | .label _ => .absent

/-- The names of the objects an instruction writes as a whole. -/
def writes (instruction : Instruction) : List Text := instruction.result.names

theorem writes_subset (instruction : Instruction) : instruction.writes ⊆ instruction.names := by
  have isOperand : instruction.result ∈ instruction.operands ∨ instruction.result = .absent := by
    cases instruction <;> simp [result, operands]
  intro name mem
  have isName : instruction.result.name? = some name := Option.mem_toList.1 mem
  rcases isOperand with isOperand | isAbsent
  · exact List.mem_filterMap.2 ⟨_, isOperand, isName⟩
  · rw [isAbsent] at isName
    cases isName

/-- An instruction that control only comes to from the one before, and only leaves for the next
one. -/
def isStraight : Instruction → Bool
  | .ret _ | .jump _ | .jumpIfZero _ _ | .jumpIfNotZero _ _ | .label _ => false
  | _ => true

end Instruction

/-! ### Rules -/

namespace Code

/-- The names that are written when control goes on to the next instruction. At a label they are
those that are owed there. Where control never goes on, they are all. -/
def leaves (owed : Text → Set Text) (known : Set Text) : Instruction → Set Text
  | .label name => owed name
  | .ret _ | .jump _ => Set.univ
  | instruction => known ∪ {name | name ∈ instruction.writes}

/-- If control comes to the code with the known names written, the code reads only names that are
written by then, and where it ends the given names are written. -/
def Defines (owed : Text → Set Text) (given : Set Text) : (known : Set Text) → Code → Prop
  | known, [] => given ⊆ known
  | known, instruction :: rest =>
      (∀ name ∈ instruction.reads, name ∈ known) ∧
        (∀ name, label? instruction = some name ∨ target? instruction = some name →
          owed name ⊆ known) ∧
        Defines owed given (leaves owed known instruction) rest

theorem leaves_mono {owed : Text → Set Text} {known more : Set Text} (subset : known ⊆ more)
    (instruction : Instruction) :
    leaves owed known instruction ⊆ leaves owed more instruction := by
  cases instruction <;> first
    | exact Set.Subset.rfl
    | exact Set.union_subset_union_left _ subset

namespace Defines

variable {owed : Text → Set Text} {given middle known more : Set Text}

/-- More may be written before, and less may be asked for at the end. -/
theorem mono {less : Set Text} (subset : known ⊆ more) (fewer : less ⊆ given) :
    ∀ {code : Code}, Defines owed given known code → Defines owed less more code := by
  intro code defines
  induction code generalizing known more with
  | nil => exact fewer.trans (defines.trans subset)
  | cons instruction rest ih =>
      rcases defines with ⟨reads, meets, defines⟩
      exact ⟨fun name mem => subset (reads name mem),
        fun name isLabel => (meets name isLabel).trans subset,
        ih (leaves_mono subset instruction) defines⟩

theorem append : ∀ {first second : Code}, Defines owed middle known first →
    Defines owed given middle second → Defines owed given known (first ++ second) := by
  intro first second earlier later
  induction first generalizing known with
  | nil => exact later.mono earlier Set.Subset.rfl
  | cons instruction rest ih =>
      rcases earlier with ⟨reads, meets, earlier⟩
      exact ⟨reads, meets, ih earlier⟩

theorem nil (known : Set Text) : Defines owed known known [] := Set.Subset.rfl

/-- An instruction between two others. -/
theorem straight {instruction : Instruction} {rest : Code} (isStraight : instruction.isStraight)
    (reads : ∀ name ∈ instruction.reads, name ∈ known)
    (later : Defines owed given (known ∪ {name | name ∈ instruction.writes}) rest) :
    Defines owed given known (instruction :: rest) := by
  refine ⟨reads, ?_, ?_⟩
  · intro name isLabel
    cases instruction <;> simp [Instruction.isStraight, label?, target?] at isStraight isLabel
  · cases instruction <;> first | exact later | cases isStraight

theorem label {name : Text} {rest : Code} (owes : owed name ⊆ known)
    (later : Defines owed given (owed name) rest) :
    Defines owed given known (.label name :: rest) := by
  refine ⟨List.forall_mem_nil _, ?_, later⟩
  rintro _ (isLabel | isTarget)
  · cases isLabel
    exact owes
  · cases isTarget

/-- Behind a jump, everything counts as written. -/
theorem jump {target : Text} {rest : Code} (owes : owed target ⊆ known)
    (later : Defines owed given Set.univ rest) :
    Defines owed given known (.jump target :: rest) := by
  refine ⟨List.forall_mem_nil _, ?_, later⟩
  rintro _ (isLabel | isTarget)
  · cases isLabel
  · cases isTarget
    exact owes

theorem branch {instruction : Instruction} {condition : Operand} {target : Text} {rest : Code}
    (isBranch : instruction = .jumpIfZero condition target ∨
      instruction = .jumpIfNotZero condition target)
    (reads : ∀ name ∈ condition.names, name ∈ known) (owes : owed target ⊆ known)
    (later : Defines owed given known rest) :
    Defines owed given known (instruction :: rest) := by
  rcases isBranch with rfl | rfl <;>
    refine ⟨by simpa [Instruction.reads, Instruction.sources] using reads, ?_,
      later.mono Set.subset_union_left Set.Subset.rfl⟩
  all_goals
    rintro _ (isLabel | isTarget)
    · cases isLabel
    · cases isTarget
      exact owes

/-- Two ways from a test to a label. -/
theorem choice {testCode thenCode elseCode : Code} {condition : Operand} {otherwise finish : Text}
    (tests : Defines owed middle known testCode) (reads : ∀ name ∈ condition.names, name ∈ middle)
    (owes : owed otherwise ⊆ middle) (thens : Defines owed (owed finish) middle thenCode)
    (elses : Defines owed (owed finish) (owed otherwise) elseCode) :
    Defines owed (owed finish) known
      (testCode ++ [Instruction.jumpIfZero condition otherwise] ++ thenCode ++
        [Instruction.jump finish, .label otherwise] ++ elseCode ++
        [Instruction.label finish]) := by
  have leaves : Defines owed middle middle [.jumpIfZero condition otherwise] :=
    .branch (.inl rfl) reads owes (.nil _)
  have meets : Defines owed (owed otherwise) (owed finish) [.jump finish, .label otherwise] :=
    .jump Set.Subset.rfl (.label (Set.subset_univ _) (.nil _))
  exact ((((tests.append leaves).append thens).append meets).append elses).append
    (.label Set.Subset.rfl (.nil _))

/-- Where the code has a label, what is owed there is enough for the code behind it. -/
theorem of_after? {target : Text} : ∀ {body rest : Code}, Defines owed given known body →
    after? target body = some rest → Defines owed given (owed target) rest := by
  intro body rest defines found
  induction body generalizing known with
  | nil => cases found
  | cons instruction code ih =>
      rw [after?] at found
      split at found
      · rename_i isLabel
        cases found
        cases instruction <;> simp [label?] at isLabel
        exact isLabel ▸ defines.2.2
      · exact ih defines.2.2 found

end Defines

/-! ### Paths -/

/-- A path through the body of a function that starts at its first instruction, with the
instructions on it, the latest one first, and the code that remains. -/
inductive Path (body : Code) : List Instruction → Code → Prop where
  | start : Path body [] body
  | step {trace : List Instruction} {instruction : Instruction} {rest next : Code}
      (path : Path body trace (instruction :: rest))
      (flows : body.Flows (instruction :: rest) next) : Path body (instruction :: trace) next

variable {owed : Text → Set Text} {given known : Set Text} {body rest : Code}
  {trace : List Instruction}

/-- Along a path, the code that remains passes with names that are known from the start or written
on the path. -/
theorem Defines.of_path (defines : Defines owed given known body) (path : Path body trace rest) :
    ∃ written, Defines owed given written rest ∧
      ∀ name ∈ written, name ∈ known ∨ ∃ earlier ∈ trace, name ∈ earlier.writes := by
  induction path with
  | start => exact ⟨known, defines, fun name mem => .inl mem⟩
  | @step trace instruction rest next path flows ih =>
      rcases ih with ⟨written, ⟨_, meets, later⟩, origin⟩
      have kept : ∀ name ∈ written,
          name ∈ known ∨ ∃ earlier ∈ instruction :: trace, name ∈ earlier.writes := by
        intro name mem
        refine (origin name mem).imp_right ?_
        rintro ⟨earlier, isEarlier, writes⟩
        exact ⟨earlier, List.mem_cons_of_mem _ isEarlier, writes⟩
      cases flows with
      | next falls =>
          refine ⟨_, later, fun name mem => ?_⟩
          cases instruction with
          | ret | jump => cases falls
          | label label => exact kept name (meets label (.inl rfl) mem)
          | _ =>
              rcases mem with mem | writes
              · exact kept name mem
              · exact .inr ⟨_, List.mem_cons_self, writes⟩
      | jump goes found =>
          exact ⟨_, defines.of_after? found, fun name mem => kept name (meets _ (.inr goes) mem)⟩

/-- A name that is read on a path is known from the start or written before on the path. -/
theorem Defines.written_of_path {instruction : Instruction} {name : Text}
    (defines : Defines owed given known body) (path : Path body trace (instruction :: rest))
    (isRead : name ∈ instruction.reads) :
    name ∈ known ∨ ∃ earlier ∈ trace, name ∈ earlier.writes := by
  rcases defines.of_path path with ⟨written, ⟨reads, _⟩, origin⟩
  exact origin name (reads name isRead)

/-! ### Choosing what is owed -/

/-- What is owed at the labels that belong to numbers from an interval can be chosen so that a fact
holds, whatever is owed at other labels. -/
def Chosen (low high : Nat) (fact : (Text → Set Text) → Prop) : Prop :=
  ∃ own : Text → Set Text, ∀ owed : Text → Set Text,
    (∀ number label, low ≤ number → number < high → label.Marks number → owed label = own label) →
      fact owed

namespace Chosen

variable {low middle high : Nat} {fact other : (Text → Set Text) → Prop}

theorem of_forall (holds : ∀ owed, fact owed) : Chosen low high fact :=
  ⟨fun _ => ∅, fun owed _ => holds owed⟩

theorem mono (chosen : Chosen low high fact) (weaken : ∀ owed, fact owed → other owed) :
    Chosen low high other := by
  rcases chosen with ⟨own, holds⟩
  exact ⟨own, fun owed agrees => weaken owed (holds owed agrees)⟩

/-- Facts about the labels of two intervals. -/
theorem and (left : Chosen low middle fact) (right : Chosen middle high other)
    (lower : low ≤ middle) (upper : middle ≤ high) :
    Chosen low high fun owed => fact owed ∧ other owed := by
  classical
  rcases left with ⟨leftOwn, leftHolds⟩
  rcases right with ⟨rightOwn, rightHolds⟩
  let own : Text → Set Text := fun label =>
    if ∃ number < middle, label.Marks number then leftOwn label else rightOwn label
  refine ⟨own, fun owed agrees => ⟨leftHolds owed ?_, rightHolds owed ?_⟩⟩
  · intro number label above below marks
    rw [agrees number label above (by omega) marks]
    exact if_pos ⟨number, below, marks⟩
  · intro number label above below marks
    rw [agrees number label (by omega) below marks]
    refine if_neg ?_
    rintro ⟨_, isBelow, others⟩
    rw [others.unique marks] at isBelow
    omega

theorem widen {lower : Nat} (chosen : Chosen low high fact) (le : lower ≤ low) :
    Chosen lower high fact := by
  rcases chosen with ⟨own, holds⟩
  exact ⟨own, fun owed agrees => holds owed fun number label above below marks =>
    agrees number label (Nat.le_trans le above) below marks⟩

/-- What is owed at labels of one number. -/
theorem draw (number : Nat) (own : Text → Set Text) : Chosen number (number + 1) fun owed =>
    ∀ stem : Text, stem.IsStem →
      owed (Context.labelText stem number) = own (Context.labelText stem number) :=
  ⟨own, fun _ agrees _ isStem =>
    agrees number _ (Nat.le_refl _) (Nat.lt_succ_self _) (.plain isStem)⟩

end Chosen

end Code

end SubsetC
