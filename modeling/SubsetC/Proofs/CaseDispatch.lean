import SubsetC.Proofs.CodeParts
import SubsetC.Proofs.ExactFolding
import SubsetC.Proofs.SwitchSimulation

/-!
# Dispatch of switches

Checking a switch converts the values of its cases to the promoted type of the controlling value and
refuses two that are then equal, which it tells by their words. So at most one case has a value that
the controlling value can take, and the comparisons of the lowered switch go to that case whatever
the order of the list.
-/

namespace SubsetC

/-! ### Values of cases -/

/-- Constants of an integer type have the same word only if they have the same number. -/
theorem Const.toInt64_inj {kind : IntType} {left right : Const} {leftNumber rightNumber : Int}
    (leftType : left.type = .integer kind) (rightType : right.type = .integer kind)
    (isLeft : left.number? = some leftNumber) (isRight : right.number? = some rightNumber) :
    left.toInt64 = right.toInt64 ↔ leftNumber = rightNumber := by
  constructor
  · intro sameWord
    have leftKind : left.type.kind? = some kind := by rw [leftType]; rfl
    have rightKind : right.type.kind? = some kind := by rw [rightType]; rfl
    rcases exists_number? leftKind with ⟨first, isFirst, holdsLeft⟩
    rcases exists_number? rightKind with ⟨second, isSecond, holdsRight⟩
    cases isLeft.symm.trans isFirst
    cases isRight.symm.trans isSecond
    rw [← holdsLeft, ← holdsRight, ← wrap_toInt64 isLeft, ← wrap_toInt64 isRight, sameWord]
  · rintro rfl
    rw [eq_of_number? (leftType.trans rightType.symm) isLeft isRight]

namespace SwitchCase

/-- The numbers that the values of cases become at an integer type. -/
def residues (kind : IntType) (cases : List SwitchCase) : List Int :=
  cases.filterMap fun case => (case.value.bind Const.number?).map kind.wrap

/-- The case with its value converted to a type. -/
def converted (type : CType) (case : SwitchCase) : SwitchCase :=
  { case with value := case.value.bind (·.convert? type) }

theorem checkList_value {type : CType} {seen : List Int64} {value constant : Const} {label : Text}
    {span : Span} {cases : List SwitchCase} (integer : value.type.isInteger)
    (converts : value.convert? type = some constant) :
    checkList type seen (⟨some value, label, span⟩ :: cases) =
      if constant.toInt64 ∈ seen then Pass.flowError span (.duplicateCase constant)
      else (checkList type (constant.toInt64 :: seen) cases >>= fun cases =>
        pure (⟨some constant, label, span⟩ :: cases)) := by
  simp [checkList, integer, converts]

/-- The check of a list of cases, behind cases with given words, of which each stands for a number
of the type: it fails at the first value that is there already, and there is none otherwise. -/
theorem checkList_run {kind : IntType} (promoted : (CType.integer kind).IsPromoted)
    (context : Context) : ∀ (cases : List SwitchCase) {seen : List Int64} {numbers : List Int},
    (∀ constant : Const, constant.type = .integer kind → ∀ number ∈ constant.number?,
      (constant.toInt64 ∈ seen ↔ number ∈ numbers)) → numbers.Nodup →
    (∀ case ∈ cases, ∀ constant ∈ case.value, constant.type.isInteger) →
    ((numbers ++ residues kind cases).Nodup ∧
      (checkList (.integer kind) seen cases).run context =
        .ok (cases.map (converted (.integer kind)), context)) ∨
    (¬(numbers ++ residues kind cases).Nodup ∧ ∃ case ∈ cases, ∃ constant,
      (checkList (.integer kind) seen cases).run context =
        .error (.user case.span (.flow (.duplicateCase constant))))
  | [], seen, numbers, _, nodup, _ => .inl ⟨by simpa [residues] using nodup, rfl⟩
  | ⟨none, label, span⟩ :: cases, seen, numbers, tracks, nodup, integers => by
      have rest := checkList_run promoted context cases tracks nodup (List.forall_mem_cons.1 integers).2
      have sameResidues : residues kind (⟨none, label, span⟩ :: cases) = residues kind cases := rfl
      rw [checkList, sameResidues]
      rcases rest with ⟨distinct, runs⟩ | ⟨collide, case, mem, constant, runs⟩
      · refine .inl ⟨distinct, ?_⟩
        rw [Ensures.run_bind_of_ok runs]
        rfl
      · refine .inr ⟨collide, case, List.mem_cons_of_mem _ mem, constant, ?_⟩
        rw [StateT.run_bind, runs]
        rfl
  | ⟨some value, label, span⟩ :: cases, seen, numbers, tracks, nodup, integers => by
      rcases List.forall_mem_cons.1 integers with ⟨headInteger, restIntegers⟩
      have integer : value.type.isInteger := headInteger value rfl
      rcases CType.exists_kind integer with ⟨own, sameType⟩
      have hasKind : value.type.kind? = some own := by rw [sameType]; rfl
      have isInteger : (CType.integer kind).isInteger := rfl
      rcases Const.exists_number? hasKind with ⟨number, isNumber, _⟩
      rcases Const.exists_denotes isNumber isInteger with ⟨_, constant, ⟨⟩, converts, denotes⟩
      have hasType := denotes.type_eq promoted
      have sameResidues : residues kind (⟨some value, label, span⟩ :: cases) =
          kind.wrap number :: residues kind cases := by simp [residues, isNumber]
      rw [checkList_value integer converts, sameResidues, List.nodup_middle]
      have isSeen := tracks constant hasType _ denotes.isNumber
      by_cases mem : constant.toInt64 ∈ seen
      · refine .inr ⟨fun distinct => ?_, _, List.mem_cons_self, constant, ?_⟩
        · exact (List.nodup_cons.1 distinct).1 (List.mem_append_left _ (isSeen.1 mem))
        · rw [if_pos mem]
          rfl
      -- Constants of the type have the same word exactly if they have the same number.
      · have tracksMore : ∀ other : Const, other.type = .integer kind → ∀ found ∈ other.number?,
            (other.toInt64 ∈ constant.toInt64 :: seen ↔ found ∈ kind.wrap number :: numbers) := by
          intro other otherType found isFound
          rw [List.mem_cons, List.mem_cons, tracks other otherType found isFound,
            Const.toInt64_inj otherType hasType isFound denotes.isNumber]
        have nodupMore : (kind.wrap number :: numbers).Nodup :=
          List.nodup_cons.2 ⟨fun known => mem (isSeen.2 known), nodup⟩
        rw [if_neg mem]
        rcases checkList_run promoted context cases tracksMore nodupMore restIntegers with
          ⟨distinct, runs⟩ | ⟨collide, case, mem, found, runs⟩
        · refine .inl ⟨distinct, ?_⟩
          rw [Ensures.run_bind_of_ok runs, List.map_cons, converted, Option.bind_some, converts]
          rfl
        · refine .inr ⟨collide, case, List.mem_cons_of_mem _ mem, found, ?_⟩
          rw [StateT.run_bind, runs]
          rfl

section

variable (result : CType) (context : Context) (value : Expr) (cases : List SwitchCase)

/-- Checking a switch fails for a case of its own that has the value of another, whatever its body
is. -/
def AreRefused : Prop :=
  ∃ case ∈ cases, ∃ constant, ∀ loc label body,
    (Stmt.check result (.switch loc label value body cases)).run context =
      .error (.user case.span (.flow (.duplicateCase constant)))

/-- Checking a switch converts the values of its cases and goes on with its body, whatever that
is. -/
def AreAccepted (kind : IntType) : Prop :=
  ∃ promoted after, promoted.type = .integer kind ∧ ∀ loc label body,
    (Stmt.check result (.switch loc label value body cases)).run context =
      (body.check result >>= fun body => pure (.switch loc label promoted body
        (cases.map (converted (.integer kind))))).run after

end

theorem AreAccepted.not_areRefused {result : CType} {context : Context} {value : Expr}
    {cases : List SwitchCase} {kind : IntType}
    (accepted : AreAccepted result context value cases kind) :
    ¬AreRefused result context value cases := by
  rcases accepted with ⟨promoted, after, _, goesOn⟩
  rintro ⟨case, _, constant, fails⟩
  have contradiction := (goesOn ⟨0, case.span⟩ none (.null ⟨0, case.span⟩)).symm.trans (fails _ _ _)
  rw [Stmt.check] at contradiction
  cases contradiction

end SwitchCase

theorem Expr.checkSwitch_run {value typed : Expr} {context between : Context}
    (runs : value.checkValue.run context = .ok (typed, between)) (integer : typed.type.isInteger) :
    ∃ promoted after, value.checkSwitch.run context = .ok (promoted, after) ∧
      promoted.type = typed.type.promote := by
  have converts : Ensures (typed.convertTo typed.type.promote) between (fun _ => False)
      fun promoted _ => promoted.type = typed.type.promote := by
    unfold convertTo
    refine Ensures.ite (fun same => Ensures.pure same) fun _ => ?_
    exact Ensures.bind_ok (Pass.run_newLoc _ _) (Ensures.pure rfl)
  rcases converts.exists_ok with ⟨promoted, after, convertRuns, sameType⟩
  refine ⟨promoted, after, ?_, sameType⟩
  rw [checkSwitch, Ensures.run_bind_of_ok runs, if_pos integer, convertRuns]

/-- Checking a switch on an integer refuses its cases exactly if the values of two of them are equal
at the promoted type, and goes on with its body otherwise. -/
theorem Stmt.check_switch {result : CType} {context between : Context} {value typed : Expr}
    {cases : List SwitchCase} {kind : IntType}
    (runs : value.checkValue.run context = .ok (typed, between)) (integer : typed.type.isInteger)
    (promotes : typed.type.promote = .integer kind)
    (integers : ∀ case ∈ cases, ∀ constant ∈ case.value, constant.type.isInteger) :
    (SwitchCase.AreRefused result context value cases ↔
      ¬(SwitchCase.residues kind cases).Nodup) ∧
    (SwitchCase.AreAccepted result context value cases kind ↔
      (SwitchCase.residues kind cases).Nodup) := by
  rcases Expr.checkSwitch_run runs integer with ⟨promoted, after, switchRuns, sameType⟩
  rw [promotes] at sameType
  have isPromoted : (CType.integer kind).IsPromoted := promotes ▸ CType.isPromoted_promote _
  have unfolds : ∀ loc label body,
      (Stmt.check result (.switch loc label value body cases)).run context =
        (SwitchCase.checkList (.integer kind) [] cases >>= fun cases => body.check result >>=
          fun body => pure (.switch loc label promoted body cases)).run after := by
    intro loc label body
    rw [Stmt.check, Ensures.run_bind_of_ok switchRuns, sameType]
  have listRuns := SwitchCase.checkList_run isPromoted after cases
    (fun _ _ _ _ => iff_of_false List.not_mem_nil List.not_mem_nil) List.nodup_nil integers
  rw [List.nil_append] at listRuns
  rcases listRuns with ⟨distinct, listRuns⟩ | ⟨collide, case, mem, constant, listRuns⟩
  · have accepted : SwitchCase.AreAccepted result context value cases kind := by
      refine ⟨promoted, after, sameType, fun loc label body => ?_⟩
      rw [unfolds, Ensures.run_bind_of_ok listRuns]
    exact ⟨iff_of_false accepted.not_areRefused (not_not_intro distinct),
      iff_of_true accepted distinct⟩
  · have refused : SwitchCase.AreRefused result context value cases := by
      refine ⟨case, mem, constant, fun loc label body => ?_⟩
      rw [unfolds, StateT.run_bind, listRuns]
      rfl
    exact ⟨iff_of_true refused collide,
      iff_of_false (fun accepted => accepted.not_areRefused refused) collide⟩

/-! ### Distinct cases -/

namespace SwitchCase

/-- Only cases with integer values pass the check. -/
theorem checkList_integers {type : CType} {context : Context} :
    ∀ (cases : List SwitchCase) {seen : List Int64}, Yields (checkList type seen cases) context
      fun _ _ => ∀ case ∈ cases, ∀ constant ∈ case.value, constant.type.isInteger
  | [], _ => Ensures.pure (List.forall_mem_nil _)
  | ⟨none, label, span⟩ :: cases, _ => by
      rw [checkList]
      refine (checkList_integers cases).bind fun _ _ rest => Ensures.pure ?_
      refine List.forall_mem_cons.2 ⟨?_, rest⟩
      rintro _ ⟨⟩
  | ⟨some value, label, span⟩ :: cases, _ => by
      rw [checkList]
      refine Ensures.ite (fun _ => Ensures.throw trivial) fun integer => ?_
      split
      · exact Ensures.throw trivial
      · refine Ensures.ite (fun _ => Ensures.throw trivial) fun _ => ?_
        refine (checkList_integers cases).bind fun _ _ rest => Ensures.pure ?_
        refine List.forall_mem_cons.2 ⟨?_, rest⟩
        rintro _ ⟨⟩
        simpa using integer

/-- Conversion does not change what the values of cases become. -/
theorem residues_converted {kind : IntType} : ∀ {cases : List SwitchCase},
    (∀ case ∈ cases, ∀ constant ∈ case.value, constant.type.isInteger) →
    residues kind (cases.map (converted (.integer kind))) = residues kind cases
  | [], _ => rfl
  | ⟨none, label, span⟩ :: cases, integers => by
      have rest : residues kind (cases.map (converted (.integer kind))) = residues kind cases :=
        residues_converted (List.forall_mem_cons.1 integers).2
      exact rest
  | ⟨some value, label, span⟩ :: cases, integers => by
      rcases List.forall_mem_cons.1 integers with ⟨headInteger, restIntegers⟩
      rcases CType.exists_kind (headInteger value rfl) with ⟨own, sameType⟩
      have hasKind : value.type.kind? = some own := by rw [sameType]; rfl
      have isInteger : (CType.integer kind).isInteger := rfl
      rcases Const.exists_number? hasKind with ⟨number, isNumber, _⟩
      rcases Const.exists_denotes isNumber isInteger with ⟨_, constant, ⟨⟩, converts, denotes⟩
      have rest : residues kind (cases.map (converted (.integer kind))) = residues kind cases :=
        residues_converted restIntegers
      unfold residues at rest ⊢
      simp [converted, converts, denotes.isNumber, isNumber, kind.wrap_wrap] at rest ⊢
      exact rest

/-- The checked cases become different numbers. -/
theorem checkList_distinct {kind : IntType} (promoted : (CType.integer kind).IsPromoted)
    {context : Context} (cases : List SwitchCase) :
    Yields (checkList (.integer kind) [] cases) context fun cases' _ =>
      (residues kind cases').Nodup := by
  refine (checkList_integers cases).with_run fun cases' after runs integers => ?_
  have outcome := checkList_run promoted context cases
    (fun _ _ _ _ => iff_of_false List.not_mem_nil List.not_mem_nil) List.nodup_nil integers
  rw [List.nil_append, runs] at outcome
  rcases outcome with ⟨distinct, same⟩ | ⟨_, case, _, constant, fails⟩
  · cases same
    rwa [residues_converted integers]
  · cases fails

end SwitchCase

/-- In a checked switch, the values of the cases are different. -/
theorem Stmt.check_distinct {result : CType} (source : Stmt) {context : Context} :
    Yields (source.check result) context fun checked _ => ∀ loc label value body cases kind,
      checked = .switch loc label value body cases → value.type = .integer kind →
      (CType.integer kind).IsPromoted → (SwitchCase.residues kind cases).Nodup := by
  cases source with
  | switch loc label value body cases =>
      rw [check]
      refine Ensures.bind_any fun value' _ => ?_
      refine (Ensures.runs _ _).bind fun cases' second runs => Ensures.bind_any fun body' _ => ?_
      refine Ensures.pure ?_
      rintro _ _ _ _ _ kind ⟨⟩ sameType promoted
      rw [sameType] at runs
      exact (SwitchCase.checkList_distinct promoted cases).of_ok runs
  | _ =>
      rw [check]
      repeat' refine Ensures.bind_any fun _ _ => ?_
      refine Ensures.pure ?_
      rintro _ _ _ _ _ _ ⟨⟩

/-! ### The case of a number -/

namespace SwitchCase

/-- Where a switch goes on with a number: at the only case that has it as its value, if there is
none at the only default, and if there is none either, at a given label. -/
inductive Selects (otherwise : Text) (number : Int) (cases : List SwitchCase) : Text → Prop where
  | value {case : SwitchCase} (only : cases.filter (hasValue number) = [case]) :
      Selects otherwise number cases case.label
  | default {case : SwitchCase} (absent : cases.filter (hasValue number) = [])
      (only : cases.filter isDefault = [case]) : Selects otherwise number cases case.label
  | leave (absent : cases.filter (hasValue number) = [])
      (noDefault : cases.filter isDefault = []) : Selects otherwise number cases otherwise

section

variable {otherwise label other : Text} {number : Int} {cases order : List SwitchCase}

theorem Selects.unique (selects : Selects otherwise number cases label)
    (selectsOther : Selects otherwise number cases other) : label = other := by
  cases selects with
  | value only =>
      cases selectsOther with
      | value only' =>
          cases only.symm.trans only'
          rfl
      | default absent _ | leave absent _ => cases only.symm.trans absent
  | default absent only =>
      cases selectsOther with
      | value only' => cases absent.symm.trans only'
      | default _ only' =>
          cases only.symm.trans only'
          rfl
      | leave _ noDefault => cases only.symm.trans noDefault
  | leave absent noDefault =>
      cases selectsOther with
      | value only => cases absent.symm.trans only
      | default _ only => cases noDefault.symm.trans only
      | leave _ _ => rfl

/-- The order of the cases does not matter. -/
theorem Selects.perm (same : order.Perm cases) (selects : Selects otherwise number order label) :
    Selects otherwise number cases label := by
  have values := same.filter (hasValue number)
  have defaults := same.filter isDefault
  cases selects with
  | value only =>
      rw [only, List.singleton_perm] at values
      exact .value values.symm
  | default absent only =>
      rw [absent, List.nil_perm] at values
      rw [only, List.singleton_perm] at defaults
      exact .default values defaults.symm
  | leave absent noDefault =>
      rw [absent, List.nil_perm] at values
      rw [noDefault, List.nil_perm] at defaults
      exact .leave values defaults

end

/-- As many cases have a number as the number is there among the values. -/
theorem length_filter_hasValue {kind : IntType} (number : Int) : ∀ {cases : List SwitchCase},
    (∀ case ∈ cases, ∀ constant ∈ case.value, constant.type = .integer kind) →
    (cases.filter (hasValue number)).length = (residues kind cases).count number
  | [], _ => rfl
  | ⟨none, label, span⟩ :: cases, sameType => by
      have rest := length_filter_hasValue number (List.forall_mem_cons.1 sameType).2
      have sameResidues : residues kind (⟨none, label, span⟩ :: cases) = residues kind cases := rfl
      rw [List.filter_cons_of_neg (by simp [hasValue]), sameResidues, rest]
  | ⟨some value, label, span⟩ :: cases, sameType => by
      rcases List.forall_mem_cons.1 sameType with ⟨headType, restType⟩
      have rest := length_filter_hasValue number restType
      have hasKind : value.type.kind? = some kind := by rw [headType value rfl]; rfl
      rcases Const.exists_number? hasKind with ⟨own, isOwn, holds⟩
      have keeps : kind.wrap own = own := holds
      have sameResidues : residues kind (⟨some value, label, span⟩ :: cases) =
          own :: residues kind cases := by simp [residues, isOwn, keeps]
      rw [sameResidues, List.count_cons, ← rest, List.filter_cons]
      by_cases same : own = number <;> simp [hasValue, isOwn, same]

/-- With different values and one default at most, the first case with the number or else the last
default is the one that is selected. -/
theorem selects_target {kind : IntType} {otherwise : Text} {cases : List SwitchCase}
    (sameType : ∀ case ∈ cases, ∀ constant ∈ case.value, constant.type = .integer kind)
    (distinct : (residues kind cases).Nodup) (single : (cases.filter isDefault).length ≤ 1)
    (number : Int) :
    Selects otherwise number cases (target number (fallback otherwise cases) cases) := by
  have once : (cases.filter (hasValue number)).length ≤ 1 := by
    rw [length_filter_hasValue number sameType]
    exact List.nodup_iff_count_le_one.1 distinct number
  rw [target, fallback_eq single, ← List.head?_filter, ← List.head?_filter]
  rcases values : cases.filter (hasValue number) with _ | ⟨case, more⟩
  · rcases defaults : cases.filter isDefault with _ | ⟨case, more⟩
    · exact .leave values defaults
    · rw [defaults] at single
      cases List.length_eq_zero_iff.1 (Nat.le_zero.1 (Nat.le_of_succ_le_succ single))
      exact .default values defaults
  · rw [values] at once
    cases List.length_eq_zero_iff.1 (Nat.le_zero.1 (Nat.le_of_succ_le_succ once))
    exact .value values

end SwitchCase

/-! ### Code of switches -/

/-- The code of a switch. -/
structure SwitchCode where
  /-- It computes the controlling value. -/
  valueCode : Code
  /-- The controlling value. -/
  operand : Operand
  /-- The comparisons. -/
  tests : Code
  /-- Where the comparisons end if none of them jumps. -/
  fallback : Text
  bodyCode : Code
  /-- The label behind the body. -/
  finish : Text

namespace SwitchCode

/-- All code behind that of the controlling value. -/
def dispatch (parts : SwitchCode) : Code :=
  parts.tests ++ .jump parts.fallback :: (parts.bodyCode ++ [.label parts.finish])

def code (parts : SwitchCode) : Code := parts.valueCode ++ parts.dispatch

/-- The code is that of a switch. -/
structure IsLowered (parts : SwitchCode) (label : Option Text) (value : Expr)
    (body : Stmt) (cases : List SwitchCase) (context between after : Context) : Prop where
  isValue : value.lowerValue.run context = .ok ((parts.valueCode, parts.operand), between)
  isBody : ∃ third, (SwitchCase.lowerList parts.operand value.type cases).run between =
      .ok (parts.tests, third) ∧
    body.lower.run third = .ok (parts.bodyCode, after) ∧ third.Grows [] after
  fallback : parts.fallback = SwitchCase.fallback (Targets.breakLabelOf label) cases
  finish : parts.finish = Targets.breakLabelOf label
  grows : context.Grows [] between
  tidy : between.Tidy
  hasType : parts.operand.HasType between.symbols value.type

end SwitchCode

theorem Stmt.lower_switch {result : CType} {loc : Loc} {label : Option Text} {value : Expr}
    {body : Stmt} {cases : List SwitchCase} {context : Context} (tidy : context.Tidy)
    (explicit : (Stmt.switch loc label value body cases).Explicit context.symbols result) :
    Yields (Stmt.switch loc label value body cases).lower context fun code after =>
      ∃ (parts : SwitchCode) (between : Context), code = parts.code ∧
        parts.IsLowered label value body cases context between after := by
  rcases explicit with ⟨valueExplicit, integer, _, _, bodyExplicit⟩
  rw [Stmt.lower]
  refine ((Ensures.runs _ _).and (Expr.lowerValue_yields result tidy valueExplicit)).bind ?_
  rintro ⟨valueCode, operand⟩ between ⟨valueRuns, valueEmits, hasValue⟩
  have tidy := valueEmits.tidy tidy
  refine ((Ensures.runs _ _).and (SwitchCase.lowerList_yields result
    (CType.isScalar_of_isInteger integer) cases tidy hasValue)).bind ?_
  rintro tests third ⟨testsRun, testsEmits⟩
  have start := valueEmits.grows.append testsEmits.grows
  refine ((Ensures.runs _ _).and (Stmt.lower_yields result body (testsEmits.tidy tidy)
    (Stmt.Explicit.extend start.extends_ _ bodyExplicit))).bind ?_
  rintro bodyCode after ⟨bodyRuns, bodyEmits⟩
  let parts : SwitchCode :=
    ⟨valueCode, operand, tests, SwitchCase.fallback (Targets.breakLabelOf label) cases, bodyCode,
      Targets.breakLabelOf label⟩
  refine Ensures.pure ⟨parts, between, ?_, valueRuns, ⟨third, testsRun, bodyRuns, bodyEmits.grows⟩,
    rfl, rfl, valueEmits.grows, tidy, hasValue⟩
  simp only [SwitchCode.code, SwitchCode.dispatch, parts, List.append_assoc, List.cons_append,
    List.nil_append]

/-- The comparisons of a switch lead to the case that is selected, for every number of the
controlling value and whatever the order of the cases is. -/
def SwitchCode.Reaches (parts : SwitchCode) (machine : Machine) (known : SymbolTable) (body : Code)
    (otherwise : Text) (cases : List SwitchCase) (back : Code) : Prop :=
  ∀ store : Store, ∃ number target rest last,
    machine.read? store parts.operand = some number ∧
    Relation.ReflTransGen (machine.Steps body) (parts.dispatch ++ back, store) (rest, last) ∧
    Code.after? target body = some rest ∧ known.Agree store last ∧
    ∀ order : List SwitchCase, order.Perm cases → ∀ label,
      SwitchCase.Selects otherwise number order label ↔ label = target

/-- The code of a switch stands in the body of a function, and its comparisons lead to the case
that is selected. -/
def Code.Dispatches (table known : SymbolTable) (body : Code) (label : Option Text) (value : Expr)
    (inner : Stmt) (cases : List SwitchCase) : Prop :=
  ∃ (parts : SwitchCode) (front back : Code), body = front ++ parts.code ++ back ∧
    (∃ context between after, parts.IsLowered label value inner cases context between after) ∧
    ∀ gaps : Gaps, parts.Reaches ⟨table, gaps⟩ known body (Targets.breakLabelOf label) cases back

namespace SwitchCode.IsLowered

variable {parts : SwitchCode} {label : Option Text} {value : Expr} {inner : Stmt}
  {cases : List SwitchCase} {context between after : Context} {kind : IntType} {body back : Code}

/-- Whatever the operand holds, the comparisons end with a jump to the case that is selected. -/
theorem reaches (lowered : parts.IsLowered label value inner cases context between after)
    (sameType : value.type = .integer kind)
    (constants : ∀ case ∈ cases, ∀ constant ∈ case.value, constant.type = .integer kind)
    (distinct : (SwitchCase.residues kind cases).Nodup)
    (single : (cases.filter SwitchCase.isDefault).length ≤ 1)
    (closed : ∀ target ∈ Code.targets body, ∃ rest, Code.after? target body = some rest)
    (suffix : parts.dispatch ++ back <:+ body) {machine : Machine}
    (known : machine.table.Extends after.symbols) :
    parts.Reaches machine context.symbols body (Targets.breakLabelOf label) cases back := by
  intro store
  rcases lowered.isBody with ⟨third, testsRun, _, bodyGrows⟩
  have hasType := lowered.hasType
  rw [sameType] at testsRun hasType
  rcases (SwitchCase.lowerList_steps cases lowered.tidy hasType constants).of_ok testsRun with
    ⟨testsGrow, testsStep⟩
  have ofThird := known.trans bodyGrows.extends_
  rcases Machine.exists_read? (hasType.extend (ofThird.trans testsGrow.extends_)) store with
    ⟨number, reads, _⟩
  let rest := Instruction.jump parts.fallback :: (parts.bodyCode ++ [.label parts.finish]) ++ back
  have isDispatch : parts.dispatch ++ back = parts.tests ++ rest := by
    rw [dispatch, List.append_assoc]
  rcases testsStep machine ofThird body rest store number reads with ⟨state, path, agree, ends⟩
  -- The last step is a jump to the selected label, which the function has.
  have jumps : ∃ target, target = SwitchCase.target number parts.fallback cases ∧
      target ∈ Code.targets (parts.dispatch ++ back) ∧
      machine.step? body state = Machine.goto? body target state.2 := by
    rw [isDispatch, Code.targets_append]
    cases found : cases.find? (SwitchCase.hasValue number) with
    | some case =>
        rw [found] at ends
        exact ⟨case.label, by simp [SwitchCase.target, found], List.mem_append_left _ ends.1, ends.2⟩
    | none =>
        rw [found] at ends
        rcases state with ⟨code, last⟩
        obtain rfl : code = rest := ends
        refine ⟨parts.fallback, by simp [SwitchCase.target, found], ?_, rfl⟩
        simp [rest, Code.target?]
  rcases jumps with ⟨target, rfl, isTarget, jumps⟩
  have inside : SwitchCase.target number parts.fallback cases ∈ Code.targets body := by
    rcases suffix with ⟨front, rfl⟩
    rw [Code.targets_append]
    exact List.mem_append_right _ isTarget
  rcases closed _ inside with ⟨behind, found⟩
  have step : machine.Steps body state (behind, state.2) := by
    rw [Machine.Steps, jumps, Machine.goto?, found, Option.map_some]
  rw [isDispatch]
  refine ⟨number, _, behind, state.2, reads, path.tail step, found,
    agree.narrow lowered.grows.extends_, ?_⟩
  have selected : SwitchCase.Selects (Targets.breakLabelOf label) number cases
      (SwitchCase.target number parts.fallback cases) := by
    rw [lowered.fallback]
    exact SwitchCase.selects_target constants distinct single number
  intro order same other
  constructor
  · exact fun selects => (selects.perm same).unique selected
  · rintro rfl
    exact selected.perm same.symm

end SwitchCode.IsLowered

namespace Program

theorem LoweredPart.dispatches {context final : Context} {result : CType} {body : Code} {loc : Loc}
    {label : Option Text} {value : Expr} {inner : Stmt} {cases : List SwitchCase}
    (lowered : LoweredPart context final result body
      (.statement (.switch loc label value inner cases)))
    (closed : ∀ target ∈ Code.targets body, ∃ rest, Code.after? target body = some rest) :
    List.Forall₂ (SwitchCase.Converts value.type) cases inner.caseNodes ∧
      body.Dispatches final.symbols context.symbols label value inner cases := by
  rcases lowered.bound with ⟨targets, _, _, _, converts, single⟩
  rcases lowered.isChecked with ⟨source, first, second, checkRuns⟩
  rcases lowered.holds with
    ⟨front, own, back, before, after, rfl, start, tidy, explicit, runs, grows⟩
  refine ⟨converts, ?_⟩
  have explicit : (Stmt.switch loc label value inner cases).Explicit before.symbols result := explicit
  rcases (Stmt.lower_switch tidy explicit).of_ok runs with ⟨parts, between, rfl, isLowered⟩
  rcases explicit with ⟨_, integer, promoted, constants, _⟩
  rcases CType.exists_kind integer with ⟨kind, sameType⟩
  rw [sameType] at promoted constants
  have distinct := (Stmt.check_distinct source).of_ok checkRuns _ _ _ _ _ kind rfl sameType promoted
  refine ⟨parts, front, back, rfl, ⟨before, between, after, isLowered⟩, fun gaps store => ?_⟩
  have suffix : parts.dispatch ++ back <:+ front ++ parts.code ++ back :=
    ⟨front ++ parts.valueCode, by simp only [SwitchCode.code, List.append_assoc]⟩
  have reaches : parts.Reaches ⟨final.symbols, gaps⟩ before.symbols (front ++ parts.code ++ back)
      (Targets.breakLabelOf label) cases back :=
    isLowered.reaches sameType constants distinct single closed suffix grows.extends_
  rcases reaches store with ⟨number, target, rest, last, reads, path, found, agree, order⟩
  exact ⟨number, target, rest, last, reads, path, found, agree.narrow start.extends_, order⟩

/-- Switches select the right case. Checking a switch on an integer refuses a case exactly if the
values of two cases are equal when they are converted to the promoted type, and goes on with its
body otherwise. In the functions that an accepted source is lowered to, the comparisons of each
switch lead from every number of its value to the only case with this value, or else to the default,
or else behind the body. -/
theorem switch_dispatches :
    (∀ (result : CType) (context between : Context) (value typed : Expr) (cases : List SwitchCase)
      (kind : IntType), value.checkValue.run context = .ok (typed, between) →
      typed.type.isInteger → typed.type.promote = .integer kind →
      (∀ case ∈ cases, ∀ constant ∈ case.value, constant.type.isInteger) →
      (SwitchCase.AreRefused result context value cases ↔
        ¬(SwitchCase.residues kind cases).Nodup) ∧
      (SwitchCase.AreAccepted result context value cases kind ↔
        (SwitchCase.residues kind cases).Nodup)) ∧
    ∀ (source : Text) (program analysed : Program) (lastId : Nat) (context final : Context)
      (linear : LinearProgram), parse source = .ok (program, lastId) →
      program.analyze.run (parsedContext lastId) = .ok (analysed, context) →
      analysed.lower.run context = .ok (linear, final) →
      List.Forall₂ (fun definition function => ∀ loc label value inner cases,
        .statement (.switch loc label value inner cases) ∈ Item.partsList definition.2 →
        List.Forall₂ (SwitchCase.Converts value.type) cases inner.caseNodes ∧
          function.body.Dispatches final.symbols context.symbols label value inner cases)
        analysed.definitions linear.functions := by
  constructor
  · intro result context between value typed cases kind runs integer promotes integers
    exact Stmt.check_switch runs integer promotes integers
  · intro source program analysed lastId context final linear parses accepts lowers
    refine (parts_of_lower parses accepts lowers).imp ?_
    rintro definition function ⟨closed, lowered⟩ loc label value inner cases mem
    exact (lowered _ mem).dispatches fun _ => closed.exists_after?

/-- Two cases that are equal at the type of an unsigned value, and a default in front of other
cases. -/
theorem switch_dispatches_default_first :
    SwitchCase.AreRefused .int .empty (.constant (.untyped ⟨0, .none⟩) (.uint 7))
      [⟨some (.int (-1)), "first", .none⟩, ⟨some (.long 4294967295), "second", .none⟩] ∧
    ∃ program lastId analysed context linear final,
      parse "int f(int a) { switch (a) { default: a = 3; case 1: case -1: ; } return a; }" =
          .ok (program, lastId) ∧
        program.analyze.run (parsedContext lastId) = .ok (analysed, context) ∧
        analysed.lower.run context = .ok (linear, final) ∧
        ∃ definition function loc label value inner cases,
          analysed.definitions = [definition] ∧ linear.functions = [function] ∧
          .statement (.switch loc label value inner cases) ∈ Item.partsList definition.2 ∧
          cases.length = 3 ∧
          function.body.Dispatches final.symbols context.symbols label value inner cases := by
  refine ⟨?_, ?_⟩
  · have computed : succeedsWith (fun typed => typed.1.type = .uint)
        ((Expr.constant (.untyped ⟨0, .none⟩) (.uint 7)).checkValue.run .empty) := by
      decide +kernel
    rcases exists_of_succeedsWith computed with ⟨⟨typed, between⟩, runs, sameType⟩
    have sameType : typed.type = .uint := of_decide_eq_true sameType
    have refused := switch_dispatches.1 .int .empty between _ typed
      [⟨some (.int (-1)), "first", .none⟩, ⟨some (.long 4294967295), "second", .none⟩] .uint runs
      (by rw [sameType]; rfl) (by rw [sameType]; rfl) (by simp [Const.type, CType.isInteger])
    exact refused.1.2 (by decide +kernel)
  · have computed : succeedsWith (fun parsed => succeedsWith (fun analysed => succeedsWith
          (fun _ => analysed.1.definitions.length = 1 ∧ ∀ definition ∈ analysed.1.definitions,
            (Item.partsList definition.2).any fun part =>
              part.switchCases?.any fun cases => cases.length == 3)
          (analysed.1.lower.run analysed.2)) (parsed.1.analyze.run (parsedContext parsed.2)))
        (parse "int f(int a) { switch (a) { default: a = 3; case 1: case -1: ; } return a; }") := by
      decide +kernel
    rcases exists_of_succeedsWith computed with ⟨⟨program, lastId⟩, parses, computed⟩
    rcases exists_of_succeedsWith computed with ⟨⟨analysed, context⟩, accepts, computed⟩
    rcases exists_of_succeedsWith computed with ⟨⟨linear, final⟩, lowers, computed⟩
    rcases of_decide_eq_true computed with ⟨single, hasSwitch⟩
    rcases List.length_eq_one_iff.1 single with ⟨definition, single⟩
    rcases List.any_eq_true.1 (hasSwitch definition (by simp [single])) with ⟨part, mem, isSwitch⟩
    rcases (Option.any_eq_true _ _).1 isSwitch with ⟨cases, isSwitch, three⟩
    rcases Part.exists_of_switchCases? isSwitch with ⟨loc, label, value, inner, rfl⟩
    have dispatches := switch_dispatches.2 _ program analysed lastId context final linear parses
      accepts lowers
    rw [single, List.forall₂_cons_left_iff] at dispatches
    rcases dispatches with ⟨function, others, dispatches, none, functions⟩
    cases none
    exact ⟨program, lastId, analysed, context, linear, final, parses, accepts, lowers, definition,
      function, loc, label, value, inner, cases, single, functions, mem, eq_of_beq three,
      (dispatches loc label value inner cases mem).2⟩

end Program

end SubsetC
