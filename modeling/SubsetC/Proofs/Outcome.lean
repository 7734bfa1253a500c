import SubsetC.Pass

/-!
# Outcomes of passes

Parsers and passes are state transformers that may fail. This file gives the rules by which all
statements about them are proved: `Ensures` says of one run which failures it may end in, and what
holds of its result and of the state it leaves behind otherwise. A rule for sequencing and a rule
for each primitive reduce such a statement to facts about states.
-/

namespace SubsetC

variable {σ α β : Type}

/-- A run from a state fails only as allowed, or else ends with a result and a state as wanted. -/
def Ensures (action : StateT σ (Except Failure) α) (state : σ) (allowed : Failure → Prop)
    (wanted : α → σ → Prop) : Prop :=
  match action.run state with
  | .ok (result, next) => wanted result next
  | .error failure => allowed failure

/-- A run from a state, if it does not fail, ends with a result and a state as wanted. -/
abbrev Yields (action : StateT σ (Except Failure) α) (state : σ) (wanted : α → σ → Prop) : Prop :=
  Ensures action state (fun _ => True) wanted

namespace Ensures

variable {action : StateT σ (Except Failure) α} {next : α → StateT σ (Except Failure) β}
  {state : σ} {allowed : Failure → Prop} {wanted middle : α → σ → Prop} {final : β → σ → Prop}

theorem of_ok {result : α} {after : σ} (ensures : Ensures action state allowed wanted)
    (runs : action.run state = .ok (result, after)) : wanted result after := by
  simpa only [Ensures, runs] using ensures

theorem of_error {failure : Failure} (ensures : Ensures action state allowed wanted)
    (runs : action.run state = .error failure) : allowed failure := by
  simpa only [Ensures, runs] using ensures

theorem mono {wanted' : α → σ → Prop} (ensures : Ensures action state allowed wanted)
    (weaken : ∀ result after, wanted result after → wanted' result after) :
    Ensures action state allowed wanted' := by
  unfold Ensures at *
  split at ensures
  · exact weaken _ _ ensures
  · exact ensures

theorem allow {allowed' : Failure → Prop} (ensures : Ensures action state allowed wanted)
    (weaken : ∀ failure, allowed failure → allowed' failure) :
    Ensures action state allowed' wanted := by
  unfold Ensures at *
  split at ensures
  · exact ensures
  · exact weaken _ ensures

/-- What a run ensures may also be concluded from the fact that it ended as it did. -/
theorem with_run {wanted' : α → σ → Prop} (ensures : Ensures action state allowed wanted)
    (conclude : ∀ result after, action.run state = .ok (result, after) → wanted result after →
      wanted' result after) :
    Ensures action state allowed wanted' := by
  unfold Ensures at *
  split at ensures
  case h_1 result after runs => exact conclude result after runs ensures
  case h_2 => exact ensures

theorem and {wanted' : α → σ → Prop} (left : Ensures action state allowed wanted)
    (right : Ensures action state allowed wanted') :
    Ensures action state allowed fun result after => wanted result after ∧ wanted' result after :=
  left.with_run fun _ _ runs holds => ⟨holds, right.of_ok runs⟩

theorem pure {result : α} (holds : wanted result state) :
    Ensures (Pure.pure result : StateT σ (Except Failure) α) state allowed wanted := holds

theorem bind (first : Ensures action state allowed middle)
    (rest : ∀ result after, middle result after → Ensures (next result) after allowed final) :
    Ensures (action >>= next) state allowed final := by
  unfold Ensures at first
  split at first
  case h_1 result after runs =>
    have continued := rest result after first
    unfold Ensures at continued ⊢
    rw [StateT.run_bind, runs]
    exact continued
  case h_2 failure runs =>
    unfold Ensures
    rw [StateT.run_bind, runs]
    exact first

/-- A first action that is known to succeed is passed over. -/
theorem bind_ok {result : α} {after : σ} (runs : action.run state = .ok (result, after))
    (rest : Ensures (next result) after allowed final) :
    Ensures (action >>= next) state allowed final := by
  unfold Ensures at rest ⊢
  rw [StateT.run_bind, runs]
  exact rest

theorem of_forall (holds : ∀ result after, wanted result after) :
    Ensures action state (fun _ => True) wanted := by
  unfold Ensures
  split
  · exact holds _ _
  · trivial

theorem runs (action : StateT σ (Except Failure) α) (state : σ) :
    Yields action state fun result after => action.run state = .ok (result, after) :=
  (of_forall fun _ _ => True.intro).with_run fun _ _ runs _ => runs

/-- Nothing is known of a first action of which nothing is needed. -/
theorem bind_any
    (rest : ∀ result after, Ensures (next result) after (fun _ => True) final) :
    Ensures (action >>= next) state (fun _ => True) final :=
  have first : Yields action state fun _ _ => True := of_forall fun _ _ => True.intro
  first.bind fun result after _ => rest result after

/-- A run to which no failure is allowed has a result. -/
theorem exists_ok (ensures : Ensures action state (fun _ => False) wanted) :
    ∃ result after, action.run state = .ok (result, after) ∧ wanted result after := by
  unfold Ensures at ensures
  split at ensures
  case h_1 result after runs => exact ⟨result, after, runs, ensures⟩
  case h_2 => exact ensures.elim

theorem run_bind_of_ok {result : α} {after : σ} (runs : action.run state = .ok (result, after)) :
    (action >>= next).run state = (next result).run after := by
  rw [StateT.run_bind, runs]
  rfl

theorem throw {failure : Failure} (holds : allowed failure) :
    Ensures (MonadExcept.throw failure : StateT σ (Except Failure) α) state allowed wanted := holds

theorem ite {condition : Prop} [Decidable condition]
    {whenTrue whenFalse : StateT σ (Except Failure) α}
    (isTrue : condition → Ensures whenTrue state allowed wanted)
    (isFalse : ¬condition → Ensures whenFalse state allowed wanted) :
    Ensures (if condition then whenTrue else whenFalse) state allowed wanted := by
  split
  · exact isTrue ‹_›
  · exact isFalse ‹_›

end Ensures

/-! ### Computations that succeed -/

/-- Whether a computation succeeds with a result that passes a check. -/
def succeedsWith {ε : Type} (check : α → Bool) : Except ε α → Bool
  | .ok result => check result
  | .error _ => false

theorem exists_of_succeedsWith {ε : Type} {check : α → Bool} {outcome : Except ε α}
    (succeeds : succeedsWith check outcome) :
    ∃ result, outcome = .ok result ∧ check result := by
  cases outcome with
  | ok result => exact ⟨result, rfl, succeeds⟩
  | error failure => cases succeeds

/-! ### Primitives of passes -/

/-- The failures a user is to blame for once a source is parsed: those that are reported as name,
type and control flow errors. -/
def Failure.IsDiagnostic (failure : Failure) : Prop :=
  failure.diagnostic.kind = .name ∨ failure.diagnostic.kind = .type ∨
    failure.diagnostic.kind = .controlFlow

namespace Ensures

variable {context : Context} {allowed : Failure → Prop}

theorem nameError {span : Span} {error : NameError} {wanted : α → Context → Prop}
    (diagnostics : ∀ failure, Failure.IsDiagnostic failure → allowed failure) :
    Ensures (Pass.nameError span error) context allowed wanted :=
  diagnostics (.user span (.name error)) (.inl rfl)

theorem typeError {span : Span} {error : TypeError} {wanted : α → Context → Prop}
    (diagnostics : ∀ failure, Failure.IsDiagnostic failure → allowed failure) :
    Ensures (Pass.typeError span error) context allowed wanted :=
  diagnostics (.user span (.type error)) (.inr (.inl rfl))

theorem flowError {span : Span} {error : FlowError} {wanted : α → Context → Prop}
    (diagnostics : ∀ failure, Failure.IsDiagnostic failure → allowed failure) :
    Ensures (Pass.flowError span error) context allowed wanted :=
  diagnostics (.user span (.flow error)) (.inr (.inr rfl))

end Ensures

/-! What the primitives that cannot fail do. -/

namespace Pass

variable (context : Context)

theorem run_get : (get : Pass Context).run context = .ok (context, context) := rfl

theorem run_newLoc (span : Span) : (newLoc span).run context =
    .ok (⟨context.lastId + 1, span⟩, { context with lastId := context.lastId + 1 }) := rfl

theorem run_uniqueName (base : Text) : (uniqueName base).run context =
    .ok (base ++ "." ++ Text.ofNat context.nextName,
      { context with nextName := context.nextName + 1 }) := rfl

theorem run_newLabel (stem : Text) : (newLabel stem).run context =
    .ok (Context.labelText stem context.nextName,
      { context with nextName := context.nextName + 1 }) := rfl

theorem run_newLabelPair (first second : Text) : (newLabelPair first second).run context =
    .ok ((Context.labelText first context.nextName, Context.labelText second context.nextName),
      { context with nextName := context.nextName + 1 }) := rfl

theorem run_findSymbol? (name : Text) : (findSymbol? name).run context =
    .ok (context.symbols.find? name, context) := rfl

theorem run_setSymbol (name : Text) (type : CType) (storage : Storage) :
    (setSymbol name type storage).run context =
      .ok ((), { context with symbols := context.symbols.set name type storage }) := rfl

end Pass

end SubsetC
