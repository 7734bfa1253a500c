import SubsetC.Analysis.Initialization
import SubsetC.Proofs.ExprTyping

/-!
# Typed initializers

Checking an initializer brings it into the shape of the type of its object. That of an automatic
object only numbers nodes; that of a static object may enter strings, each under a name drawn for
it. The computation of static items has no failures of its own besides diagnostics, since every
arithmetic type has constants.
-/

namespace SubsetC

/-! ### Constants of a type -/

namespace Const

theorem isSome_ofInt64? {type : CType} (scalar : type.isScalar) (value : Int64) :
    (ofInt64? value type).isSome := by
  cases type <;> simp_all [ofInt64?, CType.isScalar, CType.isArithmetic, CType.isInteger,
    CType.isDouble, CType.isPointer]

theorem isSome_convert? {type : CType} (arithmetic : type.isArithmetic) (constant : Const) :
    (constant.convert? type).isSome := by
  have scalar := CType.isScalar_of_isArithmetic arithmetic
  unfold convert?
  split
  · rfl
  · split
    · rfl
    · split
      · split
        · exact isSome_ofInt64? scalar _
        · exact isSome_ofInt64? scalar _
      · exact isSome_ofInt64? scalar _

theorem isScalar_of_zero? {type : CType} {value : Const} (isZero : zero? type = some value) :
    type.isScalar := by
  cases type <;> simp_all [zero?, ofInt64?, CType.isScalar, CType.isArithmetic, CType.isInteger,
    CType.isDouble, CType.isPointer]

/-- A constant of a promoted integer type has exactly that type. -/
theorem type_ofInt64? {type : CType} (integer : type.isInteger) (promoted : type.IsPromoted)
    {value : Int64} {constant : Const} (found : ofInt64? value type = some constant) :
    constant.type = type := by
  cases type with
  | integer kind =>
      cases found
      cases kind with
      | char | schar | uchar => nomatch promoted
      | int | uint | long | ulong => rfl
  | void | double | pointer | array | function => simp [CType.isInteger] at integer

theorem type_convert? {type : CType} (integer : type.isInteger) (promoted : type.IsPromoted)
    {constant converted : Const} (found : constant.convert? type = some converted) :
    converted.type = type := by
  unfold convert? at found
  split at found
  · cases found
    assumption
  · split at found
    · rename_i isDouble
      cases type <;> simp_all [CType.isInteger, CType.isDouble]
    · split at found
      · split at found
        · exact type_ofInt64? integer promoted found
        · exact type_ofInt64? integer promoted found
      · exact type_ofInt64? integer promoted found

end Const

namespace CType

theorem isVoid_of_declarable {type : CType} (declarable : type.isComplete ∨ type.isFunction) :
    type.isVoid = false := by
  cases type <;> simp_all [isComplete, isFunction, isVoid]

end CType

/-! ### Values -/

namespace Expr

variable {table : SymbolTable} {allowed : Failure → Prop}

/-- An expression that passes as an initializer of a type is one. -/
theorem checkInitial_ensures (sound : table.Sound) {expr : Expr} {context : Context} {type : CType}
    {span : Span} (same : context.symbols = table) (isSource : expr.IsSource)
    (admits : Admits allowed table expr.mentioned)
    (declarable : type.isComplete ∨ type.isFunction) :
    Ensures (expr.checkInitial type span) context allowed fun value after =>
      context.Checks table expr.mentioned after ∧ value.Initializes table type := by
  unfold checkInitial
  split
  · rename_i size element
    split
    · rename_i note bytes
      refine Ensures.ite (fun _ => Ensures.typeError admits.diagnostics) ?_
      intro characters
      refine Ensures.ite (fun _ => Ensures.typeError admits.diagnostics) ?_
      intro fits
      rw [check]
      refine Ensures.pure ⟨.nil _, ?_⟩
      refine .string ⟨note.marks_typed _ _ rfl, rfl⟩ rfl (by simpa using characters) ?_
      exact Int.not_lt.1 fits
    · exact Ensures.typeError admits.diagnostics
  · refine (assigned_ensures admits.diagnostics
      (check_ensures sound expr same isSource admits) type).mono ?_
    rintro value after ⟨checks, isValue, sameType⟩
    refine ⟨checks, .value isValue.1 sameType ?_⟩
    refine CType.isScalar_of_isValue (sameType ▸ isValue.2) ?_
    exact CType.isVoid_of_declarable declarable

end Expr

namespace Initializer

theorem explicitList_iff {table : SymbolTable} {isStatic : Bool} {type : CType}
    {items : List Initializer} :
    ExplicitList table isStatic type items ↔ ∀ item ∈ items, item.Explicit table isStatic type := by
  induction items with
  | nil => simp [ExplicitList]
  | cons item items ih => simp [ExplicitList, ih]

end Initializer

theorem Pass.times_ensures {α : Type} {action : Pass α} {allowed : Failure → Prop}
    {wanted : α → Prop}
    (once : ∀ context : Context, Ensures action context allowed fun result after =>
      context.Renumbered after ∧ wanted result) :
    ∀ (count : Nat) (context : Context),
      Ensures (Pass.times action count) context allowed fun results after =>
        context.Renumbered after ∧ results.length = count ∧ ∀ result ∈ results, wanted result
  | 0, context => by
      rw [Pass.times]
      exact Ensures.pure ⟨.refl _, rfl, by simp⟩
  | count + 1, context => by
      rw [Pass.times]
      refine (once context).bind ?_
      rintro result between ⟨first, holds⟩
      refine (Pass.times_ensures once count between).bind ?_
      rintro results after ⟨second, length, allHold⟩
      exact Ensures.pure ⟨first.trans second, by simp [length],
        List.forall_mem_cons.2 ⟨holds, allHold⟩⟩

namespace Initializer

variable {table : SymbolTable} {allowed : Failure → Prop}

/-! ### Automatic objects -/

theorem zeroScalar_ensures {type : CType} {span : Span} {context : Context}
    (scalar : type.isScalar) :
    Ensures (zero span type) context allowed fun init after =>
      context.Renumbered after ∧ init.Explicit table false type := by
  rcases Option.isSome_iff_exists.1 (Const.isSome_ofInt64? scalar 0) with ⟨value, found⟩
  have isZero : Const.zero? type = some value := found
  unfold zero
  split
  · simp [CType.isScalar, CType.isArithmetic, CType.isInteger, CType.isDouble, CType.isPointer]
      at scalar
  · rw [isZero]
    refine Ensures.bind_ok (Pass.run_newLoc _ _) ?_
    refine Ensures.bind_ok (Pass.run_newLoc _ _) ?_
    refine Ensures.pure ⟨⟨_, rfl⟩, ?_⟩
    exact .zero ⟨rfl, rfl, CType.isFunction_of_isScalar scalar⟩ rfl isZero

theorem zero_ensures (table : SymbolTable) {span : Span} :
    ∀ (type : CType) (context : Context), type.isComplete →
    Ensures (zero span type) context allowed fun init after =>
      context.Renumbered after ∧ init.Explicit table false type
  | .array size element, context, complete => by
      rw [zero]
      refine Ensures.bind_ok (Pass.run_newLoc _ _) ?_
      refine (Pass.times_ensures (fun context => zero_ensures table element context complete)
        size.toNat _).bind ?_
      rintro items after ⟨renumbered, length, explicit⟩
      refine Ensures.pure ⟨(Context.Renumbered.next _).trans renumbered, ?_⟩
      exact .inl ⟨size, element, rfl, Nat.le_of_eq length, fun _ => length,
        explicitList_iff.2 explicit⟩
  | .integer _, _, _ | .double, _, _ | .pointer _, _, _ => zeroScalar_ensures rfl
  | .void, _, complete | .function _ _, _, complete => nomatch complete

mutual

/-- The checked initializer of an automatic object has all elements of the type. -/
theorem checkAutomatic_ensures (sound : table.Sound) : ∀ (init : Initializer) (type : CType)
    {context : Context}, context.symbols = table → init.IsSource →
    Admits allowed table init.mentioned → type.isComplete ∨ type.isFunction →
    Ensures (init.checkAutomatic type) context allowed fun init' after =>
      context.Checks table init.mentioned after ∧ init'.Explicit table false type
  | .single loc value, type, context, same, isSource, admits, declarable => by
      rw [checkAutomatic]
      refine (Expr.checkInitial_ensures sound same isSource admits declarable).bind ?_
      rintro value' after ⟨checks, initializes⟩
      exact Ensures.pure ⟨checks, initializes⟩
  | .compound loc items, type, context, same, isSource, admits, declarable => by
      unfold checkAutomatic
      split
      · rename_i size element
        have complete : element.isComplete := declarable.resolve_right (by simp [CType.isFunction])
        refine Ensures.ite (fun _ => Ensures.typeError admits.diagnostics) ?_
        intro fits
        refine (checkAutomaticList_ensures sound items element same isSource admits complete).bind ?_
        rintro given between ⟨checks, length, explicit⟩
        refine (Pass.times_ensures (fun context => zero_ensures table element context complete)
          _ _).bind ?_
        rintro zeros after ⟨renumbered, zerosLength, zerosExplicit⟩
        refine Ensures.pure ⟨checks.renumber renumbered, ?_⟩
        have filled : (given ++ zeros).length = size.toNat := by
          rw [List.length_append, length, zerosLength]
          omega
        refine .inl ⟨size, element, rfl, Nat.le_of_eq filled, fun _ => filled, ?_⟩
        exact explicitList_iff.2 (List.forall_mem_append.2 ⟨explicit, zerosExplicit⟩)
      · split
        · rename_i innerLoc value
          have admits : Admits allowed table value.mentioned :=
            admits.mono (by simp [mentioned, mentionedList])
          refine (Expr.checkInitial_ensures sound same isSource.1 admits declarable).bind ?_
          rintro value' after ⟨checks, initializes⟩
          refine Ensures.pure ⟨⟨checks.renumbered, ?_⟩, initializes⟩
          simpa [mentioned, mentionedList] using checks.known
        · exact Ensures.typeError admits.diagnostics

theorem checkAutomaticList_ensures (sound : table.Sound) :
    ∀ (items : List Initializer) (element : CType) {context : Context}, context.symbols = table →
    IsSourceList items → Admits allowed table (mentionedList items) → element.isComplete →
    Ensures (checkAutomaticList element items) context allowed fun items' after =>
      context.Checks table (mentionedList items) after ∧ items'.length = items.length ∧
        ∀ item ∈ items', item.Explicit table false element
  | [], element, context, _, _, _, _ => by
      rw [checkAutomaticList]
      exact Ensures.pure ⟨.nil _, rfl, by simp⟩
  | item :: items, element, context, same, isSource, admits, complete => by
      rw [checkAutomaticList]
      refine (checkAutomatic_ensures sound item element same isSource.1
        (admits.mono (List.subset_append_left _ _)) (.inl complete)).bind ?_
      rintro item' between ⟨checks, explicit⟩
      refine (checkAutomaticList_ensures sound items element (checks.symbols same) isSource.2
        (admits.mono (List.subset_append_right _ _)) complete).bind ?_
      rintro items' after ⟨restChecks, length, explicitRest⟩
      exact Ensures.pure ⟨checks.append restChecks, by simp [length],
        List.forall_mem_cons.2 ⟨explicit, explicitRest⟩⟩

end

end Initializer

/-! ### Static objects -/

/-- A pass that enters the given names, and others only under names drawn for them. -/
structure Context.Enters (names : List Text) (context after : Context) : Prop where
  grows : context.Grows names after
  /-- Names are in order and objects have sizes, as before. -/
  valid : after.Valid

namespace Context.Enters

variable {names more : List Text} {first second third : Context}

theorem refl (names : List Text) {context : Context} (valid : context.Valid) :
    context.Enters names context :=
  ⟨.refl _ _, valid⟩

theorem append (earlier : first.Enters names second) (later : second.Enters more third) :
    first.Enters (names ++ more) third :=
  ⟨earlier.grows.append later.grows, later.valid⟩

theorem of_renumbered (renumbered : first.Renumbered second) (valid : first.Valid) :
    first.Enters [] second := by
  rcases renumbered with ⟨_, rfl⟩
  exact ⟨⟨Nat.le_refl _, .refl _, fun name absent present => by simp [absent] at present⟩,
    valid.tidy, valid.sound⟩

end Context.Enters

theorem Admits.later {allowed : Failure → Prop} {earlier later : SymbolTable} {names : List Text}
    (admits : Admits allowed earlier names) (extension : later.Extends earlier) :
    Admits allowed later names := by
  refine ⟨admits.diagnostics, fun name mem absent => admits.undeclared name mem ?_⟩
  by_contra present
  have := extension.isSome (Option.isSome_iff_ne_none.2 present)
  simp [absent] at this

theorem Pass.newString_ensures {context : Context} {allowed : Failure → Prop}
    (valid : context.Valid) (bytes : Text) :
    Ensures (Pass.newString bytes) context allowed fun _ after => context.Enters [] after := by
  have complete : (CType.array (bytes.length + 1) .char).isComplete := rfl
  have grows := valid.tidy.enterFresh "string" (.array (bytes.length + 1) .char)
    (.constant (.string bytes true))
  unfold Pass.newString
  refine Ensures.bind_ok (Pass.run_uniqueName _ _) ?_
  refine Ensures.bind_ok (Pass.run_setSymbol _ _ _ _) ?_
  exact Ensures.pure ⟨grows, grows.tidy valid.tidy (by simp),
    valid.sound.set _ _ (.inl complete)⟩

namespace Expr

variable {context : Context} {allowed : Failure → Prop}
  (diagnostics : ∀ failure, Failure.IsDiagnostic failure → allowed failure)

include diagnostics

theorem staticAddress_ensures {span : Span} {name : Text} :
    Ensures (staticAddress span name) context allowed fun _ after => context = after := by
  unfold staticAddress
  refine Ensures.bind_ok (Pass.run_get _) ?_
  exact Ensures.ite (fun _ => Ensures.pure rfl) (fun _ => Ensures.typeError diagnostics)

theorem scalarItem_ensures {type : CType} {expr : Expr} (arithmetic : type.isArithmetic) :
    Ensures (expr.scalarItem type) context allowed fun _ after => context = after := by
  unfold scalarItem
  split
  · exact Ensures.typeError diagnostics
  · rename_i value _
    rcases Option.isSome_iff_exists.1 (Const.isSome_convert? arithmetic value) with
      ⟨converted, found⟩
    rw [found]
    exact Ensures.pure rfl

theorem pointerItem_ensures {expr : Expr} (valid : context.Valid) :
    Ensures expr.pointerItem context allowed fun _ after => context.Enters [] after := by
  have address : ∀ (span : Span) (name : Text),
      Ensures (staticAddress span name) context allowed fun _ after => context.Enters [] after := by
    intro span name
    refine (staticAddress_ensures diagnostics).mono ?_
    rintro _ _ rfl
    exact .refl _ valid
  unfold pointerItem
  split
  · split
    · refine Ensures.ite ?_ (fun _ => Ensures.typeError diagnostics)
      exact fun _ => Ensures.pure (.refl _ valid)
    · exact Ensures.typeError diagnostics
  · exact address _ _
  · exact address _ _
  · refine (Pass.newString_ensures valid _).bind ?_
    exact fun _ _ entered => Ensures.pure entered
  · exact Ensures.typeError diagnostics

theorem appendValue_ensures {type : CType} {items : List StaticItem} {expr : Expr}
    (valid : context.Valid) (scalar : type.isScalar) :
    Ensures (expr.appendValue type items) context allowed fun _ after =>
      context.Enters [] after := by
  unfold appendValue
  refine Ensures.ite ?_ ?_
  · intro _
    refine (pointerItem_ensures diagnostics valid).bind ?_
    intro item after entered
    cases item with
    | scalar value =>
        exact Ensures.ite (fun _ => Ensures.pure entered) (fun _ => Ensures.pure entered)
    | zero | string | pointer => exact Ensures.pure entered
  · intro notPointer
    have arithmetic : type.isArithmetic := by simpa [CType.isScalar, notPointer] using scalar
    refine (scalarItem_ensures diagnostics arithmetic).bind ?_
    rintro item _ rfl
    have unchanged := Context.Enters.refl [] valid
    cases item with
    | scalar value =>
        exact Ensures.ite (fun _ => Ensures.pure unchanged) (fun _ => Ensures.pure unchanged)
    | zero | string | pointer => exact Ensures.pure unchanged

theorem appendItems_ensures {type : CType} {items : List StaticItem} {expr : Expr}
    (valid : context.Valid) (initializes : expr.Initializes context.symbols type) :
    Ensures (expr.appendItems type items) context allowed fun _ after =>
      context.Enters [] after := by
  unfold appendItems
  split
  · exact Ensures.pure (.refl _ valid)
  · rename_i noString
    refine appendValue_ensures diagnostics valid ?_
    cases initializes with
    | value _ _ scalar => exact scalar
    | zero _ _ isZero => exact Const.isScalar_of_zero? isZero
    | string _ isArray => exact absurd rfl (noString _ _ _ _ isArray)

omit diagnostics in
/-- A static object is initialized as any other, and then its items are computed. -/
theorem initialItems_ensures {type : CType} {items : List StaticItem} {expr : Expr} {span : Span}
    (wrap : Expr → Initializer) (valid : context.Valid) (isSource : expr.IsSource)
    (admits : Admits allowed context.symbols expr.mentioned)
    (declarable : type.isComplete ∨ type.isFunction) :
    Ensures (do
      let value ← expr.checkInitial type span
      pure (wrap value, ← value.appendItems type items)) context allowed fun result after =>
        context.Enters [] after ∧
          (∀ name ∈ expr.mentioned, (after.symbols.find? name).isSome) ∧
          ∃ value, result.1 = wrap value ∧ value.Initializes after.symbols type := by
  refine (checkInitial_ensures valid.sound rfl isSource admits declarable).bind ?_
  rintro value between ⟨checks, initializes⟩
  have renumbered := Context.Enters.of_renumbered checks.renumbered valid
  rw [← checks.renumbered.symbols] at initializes
  refine (appendItems_ensures admits.diagnostics renumbered.valid initializes).bind ?_
  intro items after entered
  have all := renumbered.append entered
  refine Ensures.pure ⟨all, ?_, value, rfl, initializes.extend entered.grows.extends_⟩
  exact fun name mem => all.grows.extends_.isSome (checks.known name mem)

end Expr

namespace Initializer

variable {allowed : Failure → Prop}

mutual

/-- The checked initializer of a static object has the shape of the type, and all names it mentions
have symbols. -/
theorem checkStatic_ensures : ∀ (init : Initializer) (type : CType) {items : List StaticItem}
    {context : Context}, context.Valid → init.IsSource →
    Admits allowed context.symbols init.mentioned → type.isComplete ∨ type.isFunction →
    Ensures (init.checkStatic type items) context allowed fun result after =>
      context.Enters [] after ∧ (∀ name ∈ init.mentioned, (after.symbols.find? name).isSome) ∧
        result.1.Explicit after.symbols true type
  | .single loc value, type, items, context, valid, isSource, admits, declarable => by
      rw [checkStatic]
      refine (Expr.initialItems_ensures (.single loc) valid isSource admits declarable).mono ?_
      rintro ⟨_, items'⟩ after ⟨entered, known, value', rfl, initializes⟩
      exact ⟨entered, known, initializes⟩
  | .compound loc elements, type, items, context, valid, isSource, admits, declarable => by
      unfold checkStatic
      split
      · rename_i size element
        have complete : element.isComplete := declarable.resolve_right (by simp [CType.isFunction])
        refine Ensures.ite (fun _ => Ensures.typeError admits.diagnostics) ?_
        intro fits
        refine (checkStaticList_ensures elements element valid isSource admits complete).bind ?_
        rintro ⟨given, items'⟩ after ⟨entered, known, length, explicit⟩
        refine Ensures.pure ⟨entered, known, .inl ⟨size, element, rfl, ?_, by simp, ?_⟩⟩
        · rw [length]
          omega
        · exact explicitList_iff.2 explicit
      · rename_i notArray
        have isArray : type.isArray = false := by
          cases type <;> simp_all [CType.isArray]
        split
        · rename_i innerLoc value
          have admits : Admits allowed context.symbols value.mentioned :=
            admits.mono (by simp [mentioned, mentionedList])
          refine (Expr.initialItems_ensures (fun value => .compound loc [.single innerLoc value])
            valid isSource.1 admits declarable).mono ?_
          rintro ⟨_, items'⟩ after ⟨entered, known, value', rfl, initializes⟩
          refine ⟨entered, by simpa [mentioned, mentionedList] using known, ?_⟩
          exact .inr ⟨rfl, isArray, rfl, initializes, trivial⟩
        · exact Ensures.typeError admits.diagnostics

theorem checkStaticList_ensures : ∀ (elements : List Initializer) (element : CType)
    {items : List StaticItem} {context : Context}, context.Valid → IsSourceList elements →
    Admits allowed context.symbols (mentionedList elements) → element.isComplete →
    Ensures (checkStaticList element items elements) context allowed fun result after =>
      context.Enters [] after ∧
        (∀ name ∈ mentionedList elements, (after.symbols.find? name).isSome) ∧
        result.1.length = elements.length ∧
        ∀ init ∈ result.1, init.Explicit after.symbols true element
  | [], element, items, context, valid, _, _, _ => by
      rw [checkStaticList]
      exact Ensures.pure ⟨.refl _ valid, by simp [mentionedList], rfl, by simp⟩
  | first :: rest, element, items, context, valid, isSource, admits, complete => by
      rw [checkStaticList]
      refine (checkStatic_ensures first element valid isSource.1
        (admits.mono (List.subset_append_left _ _)) (.inl complete)).bind ?_
      rintro ⟨first', items'⟩ between ⟨firstEnters, firstKnown, firstExplicit⟩
      have admits := admits.later firstEnters.grows.extends_
      refine (checkStaticList_ensures rest element firstEnters.valid isSource.2
        (admits.mono (List.subset_append_right _ _)) complete).bind ?_
      rintro ⟨rest', items''⟩ after ⟨restEnters, restKnown, length, restExplicit⟩
      have extension := restEnters.grows.extends_
      refine Ensures.pure ⟨firstEnters.append restEnters, ?_, by simpa using length, ?_⟩
      · exact List.forall_mem_append.2
          ⟨fun name mem => extension.isSome (firstKnown name mem), restKnown⟩
      · exact List.forall_mem_cons.2
          ⟨Explicit.extend extension element first' firstExplicit, restExplicit⟩

end

end Initializer

end SubsetC
