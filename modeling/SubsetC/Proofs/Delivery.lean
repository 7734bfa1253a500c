import SubsetC.Proofs.AppendedSymbols
import SubsetC.Proofs.WrittenNames

/-!
# What code mentions, calls and writes

`Context.Delivers` says what a part of lowering does: the code mentions names that it is given and
names drawn for it, calls functions in a given order, and reads nothing that has not been written.
Its outputs are the names in which it leaves results for the code behind it. The rules put such
parts together; here they are put together to the blocks of lowering, none of which branches.

The calls in a tree are listed in the order in which a reader meets them from left to right, with
those of the arguments before the call itself. Beside them stand the objects that a tree uses.
-/

namespace SubsetC

/-! ### Calls and objects in trees -/

namespace Expr

mutual

/-- The functions that an expression calls, in order. The operand of sizeof is not evaluated. -/
def calls : Expr → List Text
  | .constant _ _ | .string _ _ | .var _ _ | .sizeofExpr _ _ | .sizeofType _ _ => []
  | .unary _ _ operand | .cast _ _ operand _ | .addressOf _ operand | .dereference _ operand
  | .step _ _ _ operand | .decay _ operand => operand.calls
  | .binary _ _ left right | .assign _ _ left right _ | .subscript _ left right =>
      left.calls ++ right.calls
  | .conditional _ condition thenBranch elseBranch =>
      condition.calls ++ (thenBranch.calls ++ elseBranch.calls)
  | .call _ name arguments => callsList arguments ++ [name]

def callsList : List Expr → List Text
  | [] => []
  | expr :: exprs => expr.calls ++ callsList exprs

end

def callsOption : Option Expr → List Text
  | none => []
  | some expr => expr.calls

mutual

/-- The objects that an expression uses, in order. The operand of sizeof is not evaluated. -/
def objects : Expr → List Text
  | .constant _ _ | .string _ _ | .sizeofExpr _ _ | .sizeofType _ _ => []
  | .var _ name => [name]
  | .unary _ _ operand | .cast _ _ operand _ | .addressOf _ operand | .dereference _ operand
  | .step _ _ _ operand | .decay _ operand => operand.objects
  | .binary _ _ left right | .assign _ _ left right _ | .subscript _ left right =>
      left.objects ++ right.objects
  | .conditional _ condition thenBranch elseBranch =>
      condition.objects ++ (thenBranch.objects ++ elseBranch.objects)
  | .call _ _ arguments => objectsList arguments

def objectsList : List Expr → List Text
  | [] => []
  | expr :: exprs => expr.objects ++ objectsList exprs

end

def objectsOption : Option Expr → List Text
  | none => []
  | some expr => expr.objects

end Expr

/-! ### Names and calls in code -/

namespace Code

/-- The names of the objects that code mentions. -/
def names (code : Code) : List Text := code.flatMap Instruction.names

/-- The function that an instruction calls, if it calls one. -/
def callee? : Instruction → Option Text
  | .call function _ _ => some function
  | _ => none

/-- The functions that code calls, in the order of its instructions. -/
def callees (code : Code) : List Text := code.filterMap callee?

@[simp]
theorem names_nil : names [] = [] := rfl

@[simp]
theorem names_cons (instruction : Instruction) (code : Code) :
    names (instruction :: code) = instruction.names ++ names code := List.flatMap_cons

@[simp]
theorem names_append (first second : Code) :
    names (first ++ second) = names first ++ names second :=
  List.flatMap_append

@[simp]
theorem callees_nil : callees [] = [] := rfl

@[simp]
theorem callees_cons (instruction : Instruction) (code : Code) :
    callees (instruction :: code) = (callee? instruction).toList ++ callees code := by
  simp only [callees, List.filterMap_cons]
  cases callee? instruction <;> rfl

@[simp]
theorem callees_append (first second : Code) :
    callees (first ++ second) = callees first ++ callees second :=
  List.filterMap_append

end Code

/-- The name of the object or of the pointer in a place. -/
def Place.names : Place → List Text
  | .nowhere => []
  | .value operand | .behind operand => operand.names

/-- The names of strings. Code does not write strings, but may read them at any time. -/
def Text.strings : Set Text := {name | ∃ number, name = numbered "string" number}

/-- A part of lowering has made code, and leaves results in the outputs. At the given labels,
which the code has not drawn, what is owed are the names that are known where the code begins. -/
structure Context.Delivers (labels inputs calls : List Text) (context : Context) (code : Code)
    (outputs : List Text) (after : Context) : Prop where
  /-- The symbols entered are temporaries and strings. -/
  appends : context.Appends after
  /-- The names are given or drawn. -/
  names : ∀ name ∈ Code.names code ++ outputs,
    name ∈ inputs ∨ name.IsNumbered context.nextName after.nextName
  callees : Code.callees code = calls
  /-- Once the inputs are written, nothing is read before it is written. -/
  defines : ∀ known : Set Text, Text.strings ⊆ known → (∀ name ∈ inputs, name ∈ known) →
    Code.Chosen context.nextName after.nextName fun owed =>
      (∀ label ∈ labels, owed label = known) →
        Code.Defines owed (known ∪ {name | name ∈ outputs}) known code

/-! ### Rules -/

namespace Context.Delivers

variable {labels more inputs others all calls later outputs results : List Text}
  {first second third : Context} {code rest : Code}

/-- The counter does not go back. -/
theorem le (delivers : first.Delivers labels inputs calls code outputs second) :
    first.nextName ≤ second.nextName := delivers.appends.le

/-- No code, which leaves its inputs as they are. -/
theorem nil (context : Context) (subset : outputs ⊆ inputs) :
    context.Delivers labels inputs [] [] outputs context := by
  refine ⟨.refl context, fun name mem => .inl (subset mem), rfl, fun known _ given => ?_⟩
  refine .of_forall fun owed _ => ?_
  exact Set.union_subset Set.Subset.rfl fun name mem => given name (subset mem)

/-- The names lie between bounds around the numbers drawn. -/
theorem names_between (delivers : first.Delivers labels inputs calls code outputs second)
    {low high : Nat} (lower : low ≤ first.nextName) (upper : second.nextName ≤ high)
    (subset : inputs ⊆ all) :
    ∀ name ∈ Code.names code ++ outputs, name ∈ all ∨ name.IsNumbered low high :=
  fun name mem => (delivers.names name mem).imp (subset ·) fun isNumbered =>
    isNumbered.widen lower upper

/-- More may be given, and fewer outputs looked at. -/
theorem mono (delivers : first.Delivers labels inputs calls code outputs second)
    (moreLabels : labels ⊆ more) (subset : inputs ⊆ all) (fewer : results ⊆ outputs ++ all) :
    first.Delivers more all calls code results second := by
  refine ⟨delivers.appends, ?_, delivers.callees, fun known strings given => ?_⟩
  · have widened := delivers.names_between (Nat.le_refl _) (Nat.le_refl _) subset
    intro name mem
    rcases List.mem_append.1 mem with mem | mem
    · exact widened name (List.mem_append_left _ mem)
    · rcases List.mem_append.1 (fewer mem) with mem | mem
      · exact widened name (List.mem_append_right _ mem)
      · exact .inl mem
  · refine (delivers.defines known strings fun name mem => given name (subset mem)).mono ?_
    intro owed defines owes
    refine (defines fun label mem => owes label (moreLabels mem)).mono Set.Subset.rfl ?_
    refine Set.union_subset Set.subset_union_left fun name mem => ?_
    exact (List.mem_append.1 (fewer mem)).elim .inr fun mem => .inl (given name mem)

/-- The outputs do not matter. -/
theorem drop (delivers : first.Delivers [] inputs calls code outputs second) :
    first.Delivers labels inputs calls code [] second :=
  delivers.mono (List.nil_subset _) (List.Subset.refl _) (List.nil_subset _)

/-- More labels may be taken into account. -/
theorem relabel (delivers : first.Delivers labels inputs calls code outputs second)
    (subset : labels ⊆ more) : first.Delivers more inputs calls code outputs second :=
  delivers.mono subset (List.Subset.refl _) (List.subset_append_left _ _)

/-- Names of two parts of code. -/
theorem append_names (earlier : first.Delivers labels inputs calls code outputs second)
    (next : second.Delivers more others later rest results third) (subset : inputs ⊆ all)
    (covers : others ⊆ all ++ outputs) :
    ∀ name ∈ Code.names (code ++ rest) ++ (outputs ++ results),
      name ∈ all ∨ name.IsNumbered first.nextName third.nextName := by
  have fromFirst := earlier.names_between (Nat.le_refl _) next.le subset
  have fromSecond : ∀ name ∈ Code.names rest ++ results,
      name ∈ all ∨ name.IsNumbered first.nextName third.nextName := by
    intro name mem
    rcases next.names name mem with mem | isNumbered
    · rcases List.mem_append.1 (covers mem) with mem | mem
      · exact .inl mem
      · exact fromFirst name (List.mem_append_right _ mem)
    · exact .inr (isNumbered.widen earlier.le (Nat.le_refl _))
  intro name mem
  simp only [Code.names_append, List.mem_append] at mem fromFirst fromSecond
  rcases mem with (mem | mem) | (mem | mem)
  · exact fromFirst name (.inl mem)
  · exact fromSecond name (.inl mem)
  · exact fromFirst name (.inr mem)
  · exact fromSecond name (.inr mem)

/-- Code that goes on with the outputs of other code. -/
theorem append (earlier : first.Delivers labels inputs calls code outputs second)
    (next : second.Delivers [] others later rest results third) (subset : inputs ⊆ all)
    (covers : others ⊆ all ++ outputs) :
    first.Delivers labels all (calls ++ later) (code ++ rest) (outputs ++ results) third := by
  refine ⟨earlier.appends.trans next.appends, append_names earlier next subset covers, ?_, ?_⟩
  · rw [Code.callees_append, earlier.callees, next.callees]
  · intro known strings given
    have begins := earlier.defines known strings fun name mem => given name (subset mem)
    have goesOn := next.defines (known ∪ {name | name ∈ outputs})
      (strings.trans Set.subset_union_left) fun name mem =>
        (List.mem_append.1 (covers mem)).imp (given name) id
    refine (begins.and goesOn earlier.le next.le).mono ?_
    rintro owed ⟨begins, goesOn⟩ owes
    refine ((begins owes).append (goesOn nofun)).mono Set.Subset.rfl ?_
    rintro name (mem | mem)
    · exact .inl (.inl mem)
    · exact (List.mem_append.1 mem).imp .inr id

/-- Code that goes on with inputs of its own. -/
theorem both (earlier : first.Delivers labels inputs calls code outputs second)
    (next : second.Delivers [] others later rest results third) :
    first.Delivers labels (inputs ++ others) (calls ++ later) (code ++ rest) (outputs ++ results)
      third :=
  earlier.append next (List.subset_append_left _ _)
    (List.subset_append_of_subset_left _ (List.subset_append_right inputs others))

/-- Code that goes on with what other code was given and with its outputs. -/
theorem join (earlier : first.Delivers labels inputs calls code outputs second)
    (next : second.Delivers [] (inputs ++ outputs) later rest results third) :
    first.Delivers labels inputs (calls ++ later) (code ++ rest) results third :=
  (earlier.append next (List.Subset.refl _) (List.Subset.refl _)).mono (List.Subset.refl _)
    (List.Subset.refl _)
    (List.subset_append_of_subset_left _ (List.subset_append_right outputs results))

/-- Code that goes on like this, and calls nothing. -/
theorem close (earlier : first.Delivers labels inputs calls code outputs second)
    (next : second.Delivers [] (inputs ++ outputs) [] rest results third) :
    first.Delivers labels inputs calls (code ++ rest) results third := by
  have all := earlier.join next
  rwa [List.append_nil] at all

/-- Code that goes on without looking at outputs. -/
theorem sequence (earlier : first.Delivers labels inputs calls code [] second)
    (next : second.Delivers labels others later rest [] third) :
    first.Delivers labels (inputs ++ others) (calls ++ later) (code ++ rest) [] third := by
  refine ⟨earlier.appends.trans next.appends, ?_, ?_, ?_⟩
  · exact append_names earlier next (List.subset_append_left _ _)
      (List.Subset.trans (List.subset_append_right _ _) (List.subset_append_left _ _))
  · rw [Code.callees_append, earlier.callees, next.callees]
  · intro known strings given
    rcases List.forall_mem_append.1 given with ⟨givenFirst, givenSecond⟩
    refine ((earlier.defines known strings givenFirst).and
      (next.defines known strings givenSecond) earlier.le next.le).mono ?_
    rintro owed ⟨begins, goesOn⟩ owes
    exact ((begins owes).mono Set.Subset.rfl Set.subset_union_left).append (goesOn owes)

/-- A single instruction. The name it writes is given or drawn. -/
theorem instruction (instruction : Instruction) (appends : first.Appends second)
    (isStraight : instruction.isStraight) (reads : ∀ name ∈ instruction.reads, name ∈ inputs)
    (names : ∀ name ∈ instruction.names,
      name ∈ inputs ∨ name.IsNumbered first.nextName second.nextName) :
    first.Delivers labels inputs (Code.callees [instruction]) [instruction] instruction.writes
      second := by
  refine ⟨appends, ?_, rfl, fun known _ given => .of_forall fun owed _ => ?_⟩
  · intro name mem
    simp only [Code.names_cons, Code.names_nil, List.append_nil, List.mem_append] at mem
    exact names name (mem.elim id (instruction.writes_subset ·))
  · exact .straight isStraight (fun name mem => given name (reads name mem)) (.nil _)

end Context.Delivers

/-! ### Blocks -/

theorem Text.left_subset (inputs left right : List Text) : left ⊆ inputs ++ (left ++ right) :=
  List.subset_append_of_subset_right _ (List.subset_append_left _ _)

theorem Text.right_subset (inputs left right : List Text) : right ⊆ inputs ++ (left ++ right) :=
  List.subset_append_of_subset_right _ (List.subset_append_right _ _)

/-- The instruction reads operands, and writes a target as a whole. -/
structure Instruction.Computes (sources : List Operand) (calls : List Text) (target : Operand)
    (instruction : Instruction) : Prop where
  /-- It does not jump and is not jumped to. -/
  isStraight : instruction.isStraight
  reads : instruction.sources = sources
  writes : instruction.result = target
  /-- It mentions nothing else. -/
  mentions : instruction.operands = sources ++ [target]
  callees : Code.callees [instruction] = calls

/-- An instruction that computes from inputs. Its target is an input, or drawn for it. -/
theorem Context.Delivers.compute {first second : Context} {inputs calls : List Text}
    (sources : List Operand) (target : Operand) {instruction : Instruction}
    (computes : instruction.Computes sources calls target)
    (appends : first.Appends second) (given : sources.flatMap Operand.names ⊆ inputs)
    (names : ∀ name ∈ target.names,
      name ∈ inputs ∨ name.IsNumbered first.nextName second.nextName) :
    first.Delivers [] inputs calls [instruction] target.names second := by
  have written : instruction.writes = target.names := by rw [Instruction.writes, computes.writes]
  rw [← written, ← computes.callees]
  refine .instruction _ appends computes.isStraight ?_ ?_
  · intro name mem
    rw [Instruction.reads, computes.reads] at mem
    exact given mem
  · intro name mem
    rcases List.mem_filterMap.1 mem with ⟨operand, isOperand, isName⟩
    have mem : name ∈ operand.names := Option.mem_toList.2 isName
    rw [computes.mentions] at isOperand
    rcases List.mem_append.1 isOperand with isSource | isTarget
    · exact .inl (given (List.mem_flatMap.2 ⟨operand, isSource, mem⟩))
    · exact names name (List.mem_singleton.1 isTarget ▸ mem)

/-- An instruction that computes from inputs into a temporary that is drawn for it. -/
theorem Context.Delivers.temporary {first second : Context} {inputs calls : List Text}
    (sources : List Operand) {instruction : Instruction}
    (computes : instruction.Computes sources calls (.var (Text.numbered "tmp" first.nextName)))
    (drawn : second.nextName = first.nextName + 1) (appends : first.Appends second)
    (given : sources.flatMap Operand.names ⊆ inputs) :
    first.Delivers [] inputs calls [instruction] [Text.numbered "tmp" first.nextName] second := by
  refine .compute sources _ computes appends given ?_
  intro name mem
  rw [List.mem_singleton.1 mem, drawn]
  exact .inr (Text.isNumbered_numbered _ _)

section Blocks

variable {context : Context} {inputs : List Text}

theorem Pass.newTemporary_draws (type : CType) :
    Yields (Pass.newTemporary type) context fun target after =>
      target = .var (Text.numbered "tmp" context.nextName) ∧
        after.nextName = context.nextName + 1 ∧ context.Appends after := by
  unfold Pass.newTemporary
  refine Ensures.bind_ok (Pass.run_uniqueName _ _) ?_
  refine Ensures.bind_ok (Pass.run_setSymbol _ _ _ _) ?_
  exact Ensures.pure ⟨rfl, rfl, .enter "tmp" type rfl⟩

/-- A block of one instruction that computes into a new temporary. -/
theorem Pass.newTemporary_delivers {α : Type} {type : CType} {calls : List Text}
    (sources : List Operand) {instruction : Operand → Instruction} {value : Operand → α}
    {outputs : α → List Text}
    (computes : ∀ target, (instruction target).Computes sources calls target)
    (same : ∀ target, outputs (value target) = target.names)
    (given : sources.flatMap Operand.names ⊆ inputs) :
    Yields (do
      let target ← Pass.newTemporary type
      pure ([instruction target], value target)) context fun made after =>
        context.Delivers [] inputs calls made.1 (outputs made.2) after := by
  refine (Pass.newTemporary_draws type).bind ?_
  rintro _ after ⟨rfl, drawn, appends⟩
  refine Ensures.pure ?_
  rw [same]
  exact .temporary sources (computes _) drawn appends given

namespace Place

variable {place : Place} {type : CType}

theorem load_delivers (given : place.names ⊆ inputs) :
    Yields (place.load type) context fun made after =>
      context.Delivers [] inputs [] made.1 made.2.names after := by
  cases place with
  | nowhere => exact Ensures.throw trivial
  | value operand => exact Ensures.pure (.nil context given)
  | behind pointer =>
      exact Pass.newTemporary_delivers [pointer] (fun _ => ⟨rfl, rfl, rfl, rfl, rfl⟩)
        (fun _ => rfl) (by simpa [names] using given)

theorem store_delivers {source : Operand} (given : place.names ⊆ inputs)
    (known : source.names ⊆ inputs) :
    Yields (place.store source) context fun code after =>
      context.Delivers [] inputs [] code [] after := by
  cases place with
  | nowhere => exact Ensures.throw trivial
  | value operand =>
      refine Ensures.pure (.drop (.compute [source] operand ⟨rfl, rfl, rfl, rfl, rfl⟩
        (.refl context) (by simpa using known) fun name mem => .inl (given mem)))
  | behind pointer =>
      have both : ∀ name ∈ (Instruction.store source pointer).reads, name ∈ inputs := by
        simp only [Instruction.reads, Instruction.sources, List.flatMap_cons, List.flatMap_nil,
          List.append_nil, List.mem_append]
        exact fun name mem => mem.elim (known ·) (given ·)
      refine Ensures.pure (.instruction _ (.refl context) rfl both ?_)
      refine fun name mem => .inl (both name ?_)
      simpa [Instruction.names, Instruction.operands, Instruction.reads, Instruction.sources,
        Operand.names] using mem

theorem addressOf_delivers {operand : Operand} (given : operand.names ⊆ inputs) :
    Yields (addressOf type operand) context fun made after =>
      context.Delivers [] inputs [] made.1 made.2.names after :=
  Pass.newTemporary_delivers [operand] (fun _ => ⟨rfl, rfl, rfl, rfl, rfl⟩)
    (fun _ => rfl) (by simpa using given)

theorem address_delivers (given : place.names ⊆ inputs) :
    Yields (place.address type) context fun made after =>
      context.Delivers [] inputs [] made.1 made.2.names after := by
  cases place with
  | nowhere => exact Ensures.throw trivial
  | value operand => exact addressOf_delivers given
  | behind pointer => exact Ensures.pure (.nil context given)

theorem firstElement_delivers (given : place.names ⊆ inputs) :
    Yields (place.firstElement type) context fun made after =>
      context.Delivers [] inputs [] made.1 made.2.names after := by
  cases place with
  | nowhere => exact Ensures.throw trivial
  | value operand => exact addressOf_delivers given
  | behind pointer =>
      exact Pass.newTemporary_delivers [pointer] (fun _ => ⟨rfl, rfl, rfl, rfl, rfl⟩)
        (fun _ => rfl) (by simpa [names] using given)

theorem loaded_delivers {start : Context} {calls : List Text} {made : Code × Place}
    (delivers : start.Delivers [] inputs calls made.1 made.2.names context) :
    Yields (loaded type made) context fun value after =>
      start.Delivers [] inputs calls value.1 value.2.names after := by
  unfold loaded
  refine (load_delivers (List.subset_append_right inputs made.2.names)).bind ?_
  rintro ⟨loadCode, operand⟩ after loads
  exact Ensures.pure (delivers.close loads)

end Place

namespace Operand

variable {operand index right : Operand} {type : CType}

theorem convertObject_delivers {source target : CType} (given : operand.names ⊆ inputs) :
    Yields (operand.convertObject source target) context fun made after =>
      context.Delivers [] inputs [] made.1 made.2.names after := by
  unfold convertObject
  cases ConvertOp.between? source target <;>
    exact Pass.newTemporary_delivers [operand] (fun _ => ⟨rfl, rfl, rfl, rfl, rfl⟩)
      (fun _ => rfl) (by simpa using given)

theorem convert_delivers {source target : CType} (given : operand.names ⊆ inputs) :
    Yields (operand.convert source target) context fun made after =>
      context.Delivers [] inputs [] made.1 made.2.names after := by
  have constant : ∀ (value : Const) (type : CType), Yields (do
      pure (ofConst (← value.convert type))) context fun made after =>
        context.Delivers [] inputs [] made.1 made.2.names after := by
    intro value type
    refine Const.convert_yields.bind ?_
    rintro converted _ rfl
    exact Ensures.pure (.nil context (List.nil_subset _))
  unfold convert
  split
  · exact Ensures.pure (.nil context given)
  · split
    · exact Ensures.ite (fun _ => constant _ _) fun _ =>
        Ensures.ite (fun _ => constant _ _) fun _ => convertObject_delivers given
    · exact convertObject_delivers given

theorem addPointer_delivers (given : operand.names ⊆ inputs) (known : index.names ⊆ inputs) :
    Yields (operand.addPointer type index) context fun made after =>
      context.Delivers [] inputs [] made.1 made.2.names after :=
  Pass.newTemporary_delivers [operand, index] (fun _ => ⟨rfl, rfl, rfl, rfl, rfl⟩)
    (fun _ => rfl) (by simpa using ⟨given, known⟩)

theorem negateIndex_delivers (known : index.names ⊆ inputs) :
    Yields index.negateIndex context fun made after =>
      context.Delivers [] inputs [] made.1 made.2.names after := by
  unfold negateIndex
  split
  · exact Ensures.pure (.nil context (List.nil_subset _))
  · exact Pass.newTemporary_delivers [index] (fun _ => ⟨rfl, rfl, rfl, rfl, rfl⟩)
      (fun _ => rfl) (by simpa using known)

theorem subPointer_delivers (given : operand.names ⊆ inputs) (known : index.names ⊆ inputs) :
    Yields (operand.subPointer type index) context fun made after =>
      context.Delivers [] inputs [] made.1 made.2.names after := by
  unfold subPointer
  refine (negateIndex_delivers known).bind ?_
  rintro ⟨negateCode, negative⟩ between negates
  refine (addPointer_delivers (List.subset_append_of_subset_left _ given)
    (List.subset_append_right inputs negative.names)).bind ?_
  rintro ⟨addCode, target⟩ after adds
  exact Ensures.pure (negates.join adds)

theorem pointerDifference_delivers (given : operand.names ⊆ inputs) (known : right.names ⊆ inputs) :
    Yields (operand.pointerDifference type right) context fun made after =>
      context.Delivers [] inputs [] made.1 made.2.names after := by
  unfold pointerDifference
  refine (Pass.newTemporary_draws _).bind ?_
  rintro _ between ⟨rfl, first, appends⟩
  refine (Pass.newTemporary_draws _).bind ?_
  rintro _ after ⟨rfl, second, more⟩
  let difference := Text.numbered "tmp" context.nextName
  let size := Operand.constant (.long (Int64.ofInt (type.element?.getD .void).size))
  have subtracts : context.Delivers [] inputs []
      [.binary (.arith .sub) operand right (.var difference)] [difference] between :=
    .temporary [operand, right] ⟨rfl, rfl, rfl, rfl, rfl⟩ first appends
      (by simpa using ⟨given, known⟩)
  have divides : between.Delivers [] (inputs ++ [difference]) []
      [.binary (.arith .div) (.var difference) size (.var (Text.numbered "tmp" between.nextName))]
      [Text.numbered "tmp" between.nextName] after :=
    .temporary [.var difference, size] ⟨rfl, rfl, rfl, rfl, rfl⟩ second more (by simp [size])
  exact Ensures.pure (subtracts.join divides)

theorem combine_delivers {op : TwoOp} (given : operand.names ⊆ inputs)
    (known : right.names ⊆ inputs) :
    Yields (operand.combine op type right) context fun made after =>
      context.Delivers [] inputs [] made.1 made.2.names after :=
  Pass.newTemporary_delivers [operand, right] (fun _ => ⟨rfl, rfl, rfl, rfl, rfl⟩)
    (fun _ => rfl) (by simpa using ⟨given, known⟩)

end Operand

namespace Expr

variable {type leftType rightType : CType} {left right value current : Operand}

theorem unaryCode_delivers {op : UnaryOp} (given : value.names ⊆ inputs) :
    Yields (unaryCode op type value) context fun made after =>
      context.Delivers [] inputs [] made.1 made.2.names after := by
  unfold unaryCode
  split
  · exact Ensures.pure (.nil context given)
  · exact Pass.newTemporary_delivers [value] (fun _ => ⟨rfl, rfl, rfl, rfl, rfl⟩)
      (fun _ => rfl) (by simpa using given)

theorem pointerCode_delivers {op : ArithOp} (given : left.names ⊆ inputs)
    (known : right.names ⊆ inputs) :
    Yields (pointerCode op leftType rightType left right) context fun made after =>
      context.Delivers [] inputs [] made.1 made.2.names after := by
  unfold pointerCode
  split
  · split
    · exact Operand.addPointer_delivers given known
    · exact Operand.addPointer_delivers known given
  · split
    · exact Operand.pointerDifference_delivers given known
    · exact Operand.subPointer_delivers given known

theorem binaryCode_delivers {op : TwoOp} (given : left.names ⊆ inputs)
    (known : right.names ⊆ inputs) :
    Yields (binaryCode op type leftType rightType left right) context fun made after =>
      context.Delivers [] inputs [] made.1 made.2.names after := by
  unfold binaryCode
  split
  · exact Operand.combine_delivers given known
  · split
    · exact pointerCode_delivers given known
    · exact Operand.combine_delivers given known

theorem compoundCode_delivers {op : ArithOp} {opType : CType} (given : current.names ⊆ inputs)
    (known : right.names ⊆ inputs) :
    Yields (compoundCode op type opType current right) context fun made after =>
      context.Delivers [] inputs [] made.1 made.2.names after := by
  unfold compoundCode
  split
  · split
    · exact Operand.subPointer_delivers given known
    · exact Operand.addPointer_delivers given known
  · refine (Operand.convert_delivers given).bind ?_
    rintro ⟨widenCode, wide⟩ first widens
    refine (Operand.combine_delivers (List.subset_append_right inputs wide.names)
      (List.subset_append_of_subset_left _ known)).bind ?_
    rintro ⟨computeCode, result⟩ second computes
    refine (Operand.convert_delivers (List.subset_append_right inputs result.names)).bind ?_
    rintro ⟨narrowCode, narrow⟩ after narrows
    exact Ensures.pure ((widens.join computes).join narrows)

theorem stepCode_delivers {op : StepOp} (given : current.names ⊆ inputs) :
    Yields (stepCode op type current) context fun made after =>
      context.Delivers [] inputs [] made.1 made.2.names after := by
  unfold stepCode
  split
  · exact Operand.addPointer_delivers given (List.nil_subset _)
  · refine Const.convert_yields.bind ?_
    rintro one _ rfl
    exact compoundCode_delivers given (List.nil_subset _)

theorem stepPlace_delivers {form : StepForm} {op : StepOp} {place : Place}
    (given : place.names ⊆ inputs) :
    Yields (stepPlace form op type place) context fun made after =>
      context.Delivers [] inputs [] made.1 made.2.names after := by
  unfold stepPlace
  refine (Place.load_delivers given).bind ?_
  rintro ⟨loadCode, current⟩ first loads
  -- Whether the value before is kept or not, the new one is computed from the value read.
  have finish : ∀ (keepCode : Code) (old : Operand) (second : Context),
      first.Delivers [] (inputs ++ current.names) [] keepCode old.names second →
      Yields (do
        let stepped ← stepCode op type current
        let storeCode ← place.store stepped.2
        pure (loadCode ++ keepCode ++ stepped.1 ++ storeCode,
          if form = .after then old else stepped.2))
        second fun made after => context.Delivers [] inputs [] made.1 made.2.names after := by
    intro keepCode old second keeps
    have begins := loads.append keeps (List.Subset.refl _) (List.Subset.refl _)
    refine (stepCode_delivers (Text.left_subset inputs current.names old.names)).bind ?_
    rintro ⟨code, new⟩ third steps
    have stepped := begins.append steps (List.Subset.refl _) (List.Subset.refl _)
    refine (Place.store_delivers (List.subset_append_of_subset_left _ given)
      (Text.right_subset inputs (current.names ++ old.names) new.names)).bind ?_
    intro storeCode after stores
    have all := stepped.append stores (List.Subset.refl _) (List.Subset.refl _)
    refine Ensures.pure (all.mono (List.Subset.refl _) (List.Subset.refl _) ?_)
    rw [List.append_nil]
    refine List.subset_append_of_subset_left _ ?_
    split
    · exact List.subset_append_of_subset_left _ (List.subset_append_right _ _)
    · exact List.subset_append_right _ _
  dsimp only
  split
  · rw [← bind_assoc (Pass.newTemporary type)]
    have copies : Yields (do
        let old ← Pass.newTemporary type
        pure ([Instruction.copy current old], old)) first fun made after =>
          first.Delivers [] (inputs ++ current.names) [] made.1 made.2.names after :=
      Pass.newTemporary_delivers [current] (fun _ => ⟨rfl, rfl, rfl, rfl, rfl⟩) (fun _ => rfl)
        (by simp)
    refine copies.bind ?_
    rintro ⟨keepCode, old⟩ second keeps
    exact finish keepCode old second keeps
  · exact finish _ _ _ (.nil first (List.subset_append_right _ _))

theorem callCode_delivers {name : Text} {arguments : List Operand}
    (given : arguments.flatMap Operand.names ⊆ inputs) :
    Yields (callCode name type arguments) context fun made after =>
      context.Delivers [] inputs [name] made.1 made.2.names after := by
  unfold callCode
  split
  · exact Ensures.pure (.compute arguments .absent
      ⟨rfl, rfl, rfl, rfl, rfl⟩ (.refl context) given (fun _ mem => nomatch mem))
  · exact Pass.newTemporary_delivers arguments (fun _ => ⟨rfl, rfl, rfl, rfl, rfl⟩)
      (fun _ => rfl) given

end Expr

end Blocks

end SubsetC
