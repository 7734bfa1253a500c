import SubsetC.Proofs.ByteImage
import SubsetC.Proofs.Folding
import SubsetC.Proofs.Progress
import SubsetC.Proofs.StaticLayout

/-!
# Automatic and static initialization agree

An initializer of literals means the same bytes for an automatic and for a static object. The one
is brought into the shape of its type, with zeros written out, and its code writes constants at
rising offsets; the other is flattened into items, with zeros gathered into runs. Both are accepted
or neither is, with the same error.

The two recursions are compared step by step, by `Pass.Agree`, which relates two runs that may start
in different states. What they have in common is the bytes a typed initializer leaves in its object,
`Initializer.Leaves`. The main statement is `Initializer.automatic_agrees_static`.
-/

namespace SubsetC

/-! ### Runs that agree -/

namespace Pass

variable {α β γ δ : Type}

/-- From whatever states they start, two runs end in the same failure, or with results that are
related. -/
def Agree (left : Pass α) (right : Pass β) (related : α → β → Prop) : Prop :=
  ∀ first second : Context,
    match left.run first, right.run second with
    | .ok (result, _), .ok (other, _) => related result other
    | .error failure, .error other => failure = other
    | _, _ => False

namespace Agree

variable {left : Pass α} {right : Pass β} {next : α → Pass γ} {next' : β → Pass δ}
  {related middle : α → β → Prop} {final : γ → δ → Prop}

theorem pure {result : α} {other : β} (holds : related result other) :
    Agree (Pure.pure result) (Pure.pure other) related :=
  fun _ _ => holds

theorem throw {failure : Failure} :
    Agree (MonadExcept.throw failure : Pass α) (MonadExcept.throw failure : Pass β) related :=
  fun _ _ => rfl

theorem bind (agree : Agree left right middle)
    (rest : ∀ result other, middle result other → Agree (next result) (next' other) final) :
    Agree (left >>= next) (right >>= next') final := by
  intro first second
  have start := agree first second
  rw [StateT.run_bind, StateT.run_bind]
  cases leftRuns : left.run first with
  | error failure =>
      cases rightRuns : right.run second with
      | error other =>
          simp only [leftRuns, rightRuns] at start
          exact start
      | ok other => simp only [leftRuns, rightRuns] at start
  | ok result =>
      cases rightRuns : right.run second with
      | error other => simp only [leftRuns, rightRuns] at start
      | ok other =>
          simp only [leftRuns, rightRuns] at start
          exact rest _ _ start _ _

theorem ite {condition : Prop} [Decidable condition] {whenTrue whenFalse : Pass α}
    {whenTrue' whenFalse' : Pass β} (isTrue : condition → Agree whenTrue whenTrue' related)
    (isFalse : ¬condition → Agree whenFalse whenFalse' related) :
    Agree (if condition then whenTrue else whenFalse) (if condition then whenTrue' else whenFalse')
      related := by
  split
  · exact isTrue ‹_›
  · exact isFalse ‹_›

theorem mono {related' : α → β → Prop} (agree : Agree left right related)
    (weaken : ∀ result other, related result other → related' result other) :
    Agree left right related' := by
  intro first second
  have holds := agree first second
  split at holds
  · exact weaken _ _ holds
  · exact holds
  · exact holds.elim

/-- What is known of the second run alone. -/
theorem and_right {wanted : β → Prop} (agree : Agree left right related)
    (yields : ∀ context, Yields right context fun other _ => wanted other) :
    Agree left right fun result other => related result other ∧ wanted other := by
  intro first second
  have holds := agree first second
  cases rightRuns : right.run second with
  | error failure =>
      rw [rightRuns] at holds
      cases leftRuns : left.run first with
      | error other => simpa only [leftRuns] using holds
      | ok result => simp only [leftRuns] at holds
  | ok other =>
      have known := (yields second).of_ok rightRuns
      cases leftRuns : left.run first with
      | error failure => simp only [leftRuns, rightRuns] at holds
      | ok result =>
          simp only [leftRuns, rightRuns] at holds
          exact ⟨holds, known⟩

/-- A step of the first run alone, which does not fail. -/
theorem bind_left {wanted : α → Prop} {right : Pass δ}
    (total : ∀ context, Ensures left context (fun _ => False) fun result _ => wanted result)
    (rest : ∀ result, wanted result → Agree (next result) right final) :
    Agree (left >>= next) right final := by
  intro first second
  rcases (total first).exists_ok with ⟨result, after, runs, holds⟩
  rw [StateT.run_bind, runs]
  exact rest result holds after second

/-- A step of the second run alone, which does not fail. -/
theorem bind_right {wanted : β → Prop} {left : Pass γ}
    (total : ∀ context, Ensures right context (fun _ => False) fun result _ => wanted result)
    (rest : ∀ result, wanted result → Agree left (next' result) final) :
    Agree left (right >>= next') final := by
  intro first second
  rcases (total second).exists_ok with ⟨result, after, runs, holds⟩
  rw [StateT.run_bind, runs]
  exact rest result holds first after

theorem newLoc (span : Span) :
    Agree (Pass.newLoc span) (Pass.newLoc span) fun loc other =>
      loc.span = span ∧ other.span = span :=
  fun _ _ => ⟨rfl, rfl⟩

end Agree

end Pass

/-! ### Literals -/

/-- An object of arithmetic type, or an array of such objects. -/
def CType.IsArithmeticObject : CType → Prop
  | .array size element => 0 ≤ size ∧ element.IsArithmeticObject
  | type => type.isArithmetic

theorem CType.IsArithmeticObject.byteCount_nonneg : ∀ {type : CType}, type.IsArithmeticObject →
    0 ≤ type.byteCount
  | .array _ _, isObject => Int.mul_nonneg isObject.1 isObject.2.byteCount_nonneg
  | .integer kind, _ => by cases kind <;> decide
  | .double, _ => by decide
  | .void, isObject | .pointer _, isObject | .function _ _, isObject => by cases isObject

/-- The zero of a type has no bit set. -/
theorem Const.bytes_zero? {type : CType} {value : Const} (arithmetic : type.isArithmetic)
    (isZero : zero? type = some value) :
    value.HasType type ∧ value.bytes = List.replicate type.byteCount.toNat 0 := by
  have hasType := hasType_of_ofInt64? isZero
  refine ⟨hasType, ?_⟩
  have noBits : value.isZero ∧ value.isNegativeZero = false := by
    cases type with
    | integer kind =>
        cases isZero
        cases kind <;> exact ⟨by decide, by decide⟩
    | double =>
        cases isZero
        exact ⟨by decide, by decide⟩
    | _ => cases arithmetic
  have sizes : value.type.size = type.byteCount := by
    rw [hasType.size_eq arithmetic]
    cases type <;> first | rfl | cases arithmetic
  rw [bytes_of_isZero noBits.1 noBits.2, sizes]

/-- A constant or a string. -/
def Expr.IsLiteral : Expr → Prop
  | .constant _ _ | .string _ _ => True
  | _ => False

namespace Initializer

mutual

/-- All expressions of the initializer are literals. -/
def IsLiteral : Initializer → Prop
  | .single _ value => value.IsLiteral
  | .compound _ items => AreLiterals items

def AreLiterals : List Initializer → Prop
  | [] => True
  | item :: items => item.IsLiteral ∧ AreLiterals items

end

end Initializer

namespace Expr

/-- A typed literal leaves bytes in an object of a type that it initializes. -/
inductive Leaves : CType → Expr → Text → Prop where
  | constant {type : CType} {note : Note} {value : Const} (arithmetic : type.isArithmetic)
      (hasType : value.HasType type) : Leaves type (.constant note value) value.bytes
  | converted {type : CType} {note inner : Note} {value converted : Const}
      (arithmetic : type.isArithmetic) (converts : value.convert? type = some converted) :
      Leaves type (.cast note type (.constant (inner.typed value.type false) value) true)
        converted.bytes
  /-- A string, and zeros in the rest of the array. -/
  | string {size : Int} {element : CType} {note : Note} {bytes : Text}
      (character : element.isCharacter) (enough : bytes.length ≤ size) :
      Leaves (.array size element) (.string note bytes)
        (bytes ++ List.replicate (size - bytes.length).toNat 0)

theorem checkValue_constant (note : Note) (value : Const) :
    (Expr.constant note value).checkValue =
      pure (.constant (note.typed value.type false) value) := by
  unfold checkValue check
  rw [pure_bind]
  cases value <;> rfl

/-- The pointer to a string. -/
def stringPointer (note : Note) (bytes : Text) (loc : Loc) : Expr :=
  .decay ⟨loc, some (.pointer .char), false⟩
    (.string (note.typed (.array (bytes.length + 1) .char) true) bytes)

theorem checkValue_string (note : Note) (bytes : Text) :
    (Expr.string note bytes).checkValue =
      Pass.newLoc note.loc.span >>= fun loc => pure (stringPointer note bytes loc) := by
  unfold checkValue check
  rw [pure_bind]
  rfl

/-- A literal is typed in the same way wherever this is done. -/
theorem checkInitial_agrees {type : CType} (isObject : type.IsArithmeticObject) (span : Span)
    {expr : Expr} (literal : expr.IsLiteral) :
    Pass.Agree (expr.checkInitial type span) (expr.checkInitial type span) fun value other =>
      ∃ image, Leaves type value image ∧ Leaves type other image := by
  unfold checkInitial
  split
  · split
    · refine .ite (fun _ => .throw) fun character => .ite (fun _ => .throw) fun enough => ?_
      have character := by simpa using character
      unfold check
      exact .pure ⟨_, .string character (by omega), .string character (by omega)⟩
    · exact .throw
  · rename_i noArray
    have arithmetic : type.isArithmetic := by
      cases type with
      | array size element => exact absurd rfl (noArray size element)
      | _ => exact isObject
    cases expr with
    | constant note value =>
        have assignable : isAssignableTo type (.constant (note.typed value.type false) value) := by
          have := value.isArithmetic_type
          simp_all [isAssignableTo, Expr.type, Expr.note, Note.typed, Note.knownType]
        rw [checkValue_constant, pure_bind, assignTo, if_pos assignable]
        refine .ite (fun same => ?_) fun _ => ?_
        · have same : value.type = type := same
          have hasType : value.HasType type := same ▸ value.hasType_type
          exact .pure ⟨_, .constant arithmetic hasType, .constant arithmetic hasType⟩
        · rcases value.exists_convert? arithmetic with ⟨converted, converts⟩
          refine (Pass.Agree.newLoc _).bind fun _ _ _ => .pure ⟨converted.bytes, ?_, ?_⟩
          · exact .converted arithmetic converts
          · exact .converted arithmetic converts
    | string note bytes =>
        rw [checkValue_string, bind_assoc]
        refine (Pass.Agree.newLoc _).bind ?_
        rintro loc other ⟨locSpan, otherSpan⟩
        have refused : ∀ loc, (stringPointer note bytes loc).isAssignableTo type = false := by
          intro loc
          cases type with
          | integer | double => rfl
          | void | pointer | array | function => cases arithmetic
        have error : ∀ loc : Loc, loc.span = (Expr.string note bytes).span →
            (stringPointer note bytes loc).assignTo type =
              Pass.typeError (Expr.string note bytes).span
                (.cannotConvert (.pointer .char) type) := by
          intro loc sameSpan
          rw [assignTo, refused, ← sameSpan]
          rfl
        rw [pure_bind, pure_bind, error loc locSpan, error other otherSpan]
        exact .throw
    | _ => exact literal.elim

theorem Leaves.length_eq {type : CType} {value : Expr} {image : Text}
    (leaves : Leaves type value image) : (image.length : Int) = type.byteCount := by
  cases leaves with
  | constant arithmetic hasType =>
      rw [Const.length_bytes, hasType.size_eq arithmetic]
      cases type <;> first | rfl | cases arithmetic
  | converted arithmetic converts =>
      rw [Const.length_bytes, (Const.hasType_of_convert? converts).size_eq arithmetic]
      cases type <;> first | rfl | cases arithmetic
  | string character enough =>
      rw [CType.byteCount_of_isCharacter character, List.length_append, List.length_replicate]
      omega

end Expr

/-! ### What typed initializers leave -/

namespace Initializer

mutual

/-- The typed initializer leaves bytes in an object of a type. -/
def Leaves (type : CType) (image : Text) : Initializer → Prop
  | .single _ value => value.Leaves type image
  | .compound _ items =>
    ∃ size element, type = .array size element ∧ (items.length : Int) = size ∧
      LeavesList element image items

/-- The typed initializers leave bytes in objects of a type, one after the other. -/
def LeavesList (element : CType) (image : Text) : List Initializer → Prop
  | [] => image = []
  | item :: items =>
    ∃ first rest, image = first ++ rest ∧ item.Leaves element first ∧ LeavesList element rest items

end

mutual

theorem Leaves.length_eq {type : CType} {image : Text} :
    ∀ {init : Initializer}, init.Leaves type image → (image.length : Int) = type.byteCount
  | .single _ _, leaves => Expr.Leaves.length_eq leaves
  | .compound _ items, leaves => by
      rcases leaves with ⟨size, element, rfl, count, leaves⟩
      rw [leavesList_length leaves, count]
      rfl

theorem leavesList_length {element : CType} : ∀ {items : List Initializer} {image : Text},
    LeavesList element image items → (image.length : Int) = items.length * element.byteCount
  | [], image, leaves => by
      have empty : image = [] := leaves
      simp [empty]
  | item :: items, image, leaves => by
      rcases leaves with ⟨first, rest, rfl, head, tail⟩
      rw [List.length_append, List.length_cons]
      push_cast
      rw [head.length_eq, leavesList_length tail]
      ring

end

theorem LeavesList.append {element : CType} {first second : List Initializer} {left right : Text}
    (leavesFirst : LeavesList element left first) (leavesSecond : LeavesList element right second) :
    LeavesList element (left ++ right) (first ++ second) := by
  induction first generalizing left with
  | nil =>
      have empty : left = [] := leavesFirst
      rw [empty]
      exact leavesSecond
  | cons item items ih =>
      rcases leavesFirst with ⟨head, tail, rfl, isHead, isTail⟩
      exact ⟨head, tail ++ right, List.append_assoc _ _ _, isHead, ih isTail⟩

theorem times_leaves {element : CType} {image : Text} {action : Pass Initializer}
    (leaves : ∀ context, Ensures action context (fun _ => False) fun init _ =>
      init.Leaves element image) : ∀ (count : Nat) (context : Context),
    Ensures (action.times count) context (fun _ => False) fun items _ =>
      items.length = count ∧ LeavesList element (List.replicate count image).flatten items
  | 0, _ => Ensures.pure ⟨rfl, rfl⟩
  | count + 1, context => by
      rw [Pass.times]
      refine (leaves context).bind fun init after isInit => ?_
      refine (times_leaves leaves count after).bind ?_
      rintro items last ⟨length, areItems⟩
      have flattens : (List.replicate (count + 1) image).flatten =
          image ++ (List.replicate count image).flatten := by simp [List.replicate_succ]
      exact Ensures.pure ⟨by simp [length], image, _, flattens, isInit, areItems⟩

/-- Zeros written out for an object. -/
theorem zero_leaves (span : Span) : ∀ {type : CType}, type.IsArithmeticObject →
    ∀ context, Ensures (zero span type) context (fun _ => False) fun init _ =>
      init.Leaves type (List.replicate type.byteCount.toNat 0)
  | .array size element, isObject, context => by
      rcases isObject with ⟨nonneg, isObject⟩
      have count : (size.toNat : Int) = size := Int.toNat_of_nonneg nonneg
      have bytes : (CType.array size element).byteCount.toNat =
          size.toNat * element.byteCount.toNat :=
        Int.toNat_mul nonneg isObject.byteCount_nonneg
      unfold zero
      refine Ensures.bind_ok (Pass.run_newLoc _ _) ?_
      refine (times_leaves (zero_leaves span isObject) size.toNat _).bind ?_
      rintro items after ⟨length, leaves⟩
      rw [List.flatten_replicate_replicate, ← bytes] at leaves
      exact Ensures.pure ⟨size, element, rfl, by rw [length, count], leaves⟩
  | .integer kind, _, context => by
      have zeros : (Const.ofInt64 0 kind).HasType (.integer kind) ∧ (Const.ofInt64 0 kind).bytes =
          List.replicate (CType.integer kind).byteCount.toNat 0 := Const.bytes_zero? rfl rfl
      unfold zero
      rw [← zeros.2]
      exact Expr.Leaves.constant rfl zeros.1
  | .double, _, context => by
      have zeros : (Const.double (.ofInt 0)).HasType .double ∧ (Const.double (.ofInt 0)).bytes =
          List.replicate CType.double.byteCount.toNat 0 := Const.bytes_zero? rfl rfl
      unfold zero
      rw [← zeros.2]
      exact Expr.Leaves.constant rfl zeros.1
  | .void, isObject, _ | .pointer _, isObject, _ | .function _ _, isObject, _ => by cases isObject

end Initializer

/-! ### Static objects -/

/-- A run of zero bytes, whether it is one of its own or makes the last one longer. -/
theorem StaticItem.image?_appendZero {items : List StaticItem} {image : Text} {total size : Int}
    (laid : LaidOut items total) (room : total + size < 9223372036854775808)
    (isImage : image? items = some image) :
    image? (appendZero items size) = some (image ++ List.replicate size.toNat 0) := by
  unfold appendZero
  split
  · have empty : size.toNat = 0 := by unfold Size at *; omega
    simpa [empty] using isImage
  · rename_i positive
    have positive : 0 < size := by unfold Size at *; omega
    split
    · rename_i last isLast
      rcases List.getLast?_eq_some_iff.1 isLast with ⟨front, rfl⟩
      rcases laid.add_last (Int.le_of_lt positive) room with ⟨lastPositive, whole⟩
      rcases image?_concat.1 isImage with ⟨left, _, isLeft, ⟨⟩, rfl⟩
      refine image?_concat.2 ⟨left, List.replicate (last + size).toNat 0, ?_, ?_, ?_⟩
      · simpa using isLeft
      · rw [whole]
        rfl
      · unfold Size at *
        rw [List.append_assoc, List.replicate_append_replicate, Int.toNat_add (by omega) (by omega)]
    · exact image?_concat.2 ⟨image, _, isImage, rfl, rfl⟩

/-- A string and the zeros behind it, of which the first one may belong to the string. -/
theorem StaticItem.image?_string {items : List StaticItem} {before bytes : Text} {total size : Int}
    (laid : LaidOut items total) (room : total + size < 9223372036854775808)
    (isBefore : image? items = some before) (enough : bytes.length ≤ size) :
    image? (appendZero (items ++ [StaticItem.string bytes (bytes.length < size)])
        (size - bytes.length - 1)) =
      some (before ++ (bytes ++ List.replicate (size - bytes.length).toNat 0)) := by
  have longer := laid.concat_string bytes (bytes.length < size)
  by_cases terminated : bytes.length < size
  · have isString : image? (items ++ [StaticItem.string bytes true]) =
        some (before ++ (bytes ++ [0])) :=
      image?_concat.2 ⟨before, bytes ++ [0], isBefore, rfl, rfl⟩
    have zeros : [0] ++ List.replicate (size - bytes.length - 1).toNat 0 =
        List.replicate (size - bytes.length).toNat (0 : UInt8) := by
      rw [show (size - bytes.length).toNat = (size - bytes.length - 1).toNat + 1 by omega]
      rfl
    simp only [terminated, decide_true, StaticItem.size, if_true] at longer ⊢
    rw [image?_appendZero longer (by omega) isString, ← zeros]
    simp
  · have full : (size - bytes.length).toNat = 0 := by omega
    have isString : image? (items ++ [StaticItem.string bytes false]) =
        some (before ++ (bytes ++ [])) :=
      image?_concat.2 ⟨before, bytes ++ [], isBefore, rfl, rfl⟩
    simp only [terminated, decide_false, full, List.replicate_zero]
    rwa [appendZero, if_pos (by unfold Size; omega)]

namespace Expr

variable {type : CType} {value : Expr} {items : List StaticItem} {total : Int} {before image : Text}

/-- A scalar item for a value of a type. -/
theorem image?_append {constant : Const} (laid : StaticItem.LaidOut items total)
    (room : total + type.byteCount < 9223372036854775808)
    (isBefore : StaticItem.image? items = some before)
    (arithmetic : type.isArithmetic) (hasType : constant.HasType type) :
    StaticItem.image? (StaticItem.append items type.size (.scalar constant)) =
      some (before ++ constant.bytes) := by
  have sizes : constant.type.size = type.size := hasType.size_eq arithmetic
  have bytes : type.size = type.byteCount := by
    cases type <;> first | rfl | cases arithmetic
  simp only [StaticItem.append]
  split
  · rename_i isZero
    have isZero : constant.isZero ∧ constant.isNegativeZero = false := by simpa using isZero
    rw [Const.bytes_of_isZero isZero.1 isZero.2, sizes]
    exact StaticItem.image?_appendZero laid (bytes ▸ room) isBefore
  · exact StaticItem.image?_concat.2 ⟨before, constant.bytes, isBefore, rfl, rfl⟩

/-- A literal is appended to the items as the bytes it leaves. -/
theorem Leaves.appendItems (leaves : Leaves type value image)
    (laid : StaticItem.LaidOut items total)
    (room : total + type.byteCount < 9223372036854775808)
    (isBefore : StaticItem.image? items = some before) (context : Context) :
    Ensures (value.appendItems type items) context (fun _ => False) fun items _ =>
      StaticItem.image? items = some (before ++ image) := by
  have appends : ∀ {expr : Expr} {constant : Const}, type.isArithmetic →
      constant.HasType type → expr.fold? = some constant →
      Ensures (expr.appendValue type items) context (fun _ => False) fun items _ =>
        StaticItem.image? items = some (before ++ constant.bytes) := by
    intro expr constant arithmetic hasType folds
    have noPointer := isPointer_of_isArithmetic arithmetic
    have item : expr.scalarItem type = pure (.scalar constant) := by
      simp only [scalarItem, folds, hasType.convert?_eq arithmetic]
    rw [appendValue_eq, if_neg (by simp [noPointer]), item, pure_bind]
    exact Ensures.pure (image?_append laid room isBefore arithmetic hasType)
  cases leaves with
  | constant arithmetic hasType =>
      unfold Expr.appendItems
      split
      · rename_i same
        cases same
      · exact appends arithmetic hasType rfl
  | converted arithmetic converts =>
      unfold Expr.appendItems
      split
      · rename_i same
        cases same
      · refine appends arithmetic (Const.hasType_of_convert? converts) ?_
        simp [fold?, arithmetic, converts]
  | string character enough =>
      rw [CType.byteCount_of_isCharacter character] at room
      exact Ensures.pure (StaticItem.image?_string laid room isBefore enough)

end Expr

/-! ### Automatic objects -/

/-- Lowering a literal of arithmetic type gives the constant it stands for, and no code. -/
theorem Expr.Leaves.lowerValue {type : CType} {value : Expr} {image : Text}
    (leaves : Leaves type value image) (arithmetic : type.isArithmetic) :
    ∃ constant : Const, constant.bytes = image ∧
      value.lowerValue = pure ([], .constant constant) := by
  cases leaves with
  | constant _ hasType =>
      refine ⟨_, rfl, ?_⟩
      unfold Expr.lowerValue lower
      rfl
  | @converted _ note inner value converted _ converts =>
      have notVoid : type.isVoid = false := by cases type <;> first | rfl | cases arithmetic
      have operand : lower (.constant (inner.typed value.type false) value) =
          pure ([], .value (.constant value)) := by
        unfold lower
        rfl
      have convert : Operand.convert value.type type (.constant value) =
          pure ([], .constant converted) := by
        by_cases same : value.type = type
        · subst same
          cases value.convert?_type.symm.trans converts
          rw [Operand.convert, if_pos rfl]
        · rw [Operand.convert, if_neg same]
          simp only [arithmetic, if_true, Const.convert, converts]
          rfl
      refine ⟨converted, rfl, ?_⟩
      unfold Expr.lowerValue lower
      have sourceType : (Expr.constant (inner.typed value.type false) value).type = value.type :=
        rfl
      rw [notVoid, operand, if_neg Bool.false_ne_true]
      simp only [Place.loaded, Place.load, pure_bind, sourceType, convert, List.append_nil]
  | string => cases arithmetic

namespace Initializer

/-- A failure to get a buffer for a string, which is too large. -/
def LacksBuffer (sizes : List Size) (failure : Failure) : Prop :=
  failure = .fault .allocation ∧ ¬Size.Fit sizes

mutual

/-- The code of a typed initializer writes the bytes it leaves, unless a string needs too large a
buffer. -/
theorem Leaves.lowerAt : ∀ {init : Initializer} {type : CType} {image : Text} {offset : Int},
    init.Leaves type image → type.Fits → 0 ≤ offset →
    offset + image.length < 9223372036854775808 → ∀ (name : Text) (context : Context),
    Ensures (init.lowerAt name type offset) context (LacksBuffer (init.buffers type))
      fun code _ => code.Writes name offset image
  | .single loc value, type, image, offset, leaves, fits, nonneg, room, name, context => by
      have leaves : value.Leaves type image := leaves
      have scalar : type.isArithmetic → Ensures (do
          let (code, operand) ← value.lowerValue
          pure (code ++ [Instruction.copyToOffset operand name offset])) context
            (LacksBuffer (buffers type (.single loc value)))
            fun code _ => code.Writes name offset image := by
        intro arithmetic
        rcases leaves.lowerValue arithmetic with ⟨constant, rfl, lowers⟩
        rw [lowers, pure_bind]
        exact Ensures.pure (Code.Writes.copyToOffset name offset constant)
      unfold Initializer.lowerAt
      cases leaves with
      | constant arithmetic hasType =>
          split
          · rename_i same
            cases same
          · exact scalar arithmetic
      | converted arithmetic converts =>
          split
          · rename_i same
            cases same
          · exact scalar arithmetic
      | @string size element note bytes character enough =>
          have sameSize : (CType.array size element).size = size :=
            fits.size_eq.trans (CType.byteCount_of_isCharacter character)
          dsimp only
          unfold writeString
          rw [sameSize]
          refine Ensures.ite ?_ fun _ => ?_
          · intro tooLarge
            refine Ensures.throw ⟨rfl, fun fit => ?_⟩
            have small := fit size (by simp [buffers])
            unfold Size at *
            omega
          -- What is written is the string with zeros up to the size, none of which is cut off.
          · have padded : (bytes ++ List.replicate (size.toNat - bytes.length) 0).take size.toNat =
                bytes ++ List.replicate (size - bytes.length).toNat (0 : UInt8) := by
              rw [Int.toNat_sub']
              refine List.take_of_length_le ?_
              rw [List.length_append, List.length_replicate]
              omega
            rw [padded]
            exact Ensures.pure (writeBytes_writes name _ nonneg room)
  | .compound loc items, type, image, offset, leaves, fits, nonneg, room, name, context => by
      rcases leaves with ⟨size, element, rfl, count, leaves⟩
      have elementFits : items ≠ [] → element.Fits := by
        intro nonempty
        have := List.length_pos_iff.2 nonempty
        exact fits.element (by omega)
      unfold Initializer.lowerAt
      exact leaves.lowerElements elementFits nonneg room name context

theorem LeavesList.lowerElements : ∀ {items : List Initializer} {element : CType} {image : Text}
    {offset : Int}, LeavesList element image items → (items ≠ [] → element.Fits) → 0 ≤ offset →
    offset + image.length < 9223372036854775808 → ∀ (name : Text) (context : Context),
    Ensures (lowerElements name element offset items) context
      (LacksBuffer (buffersList element items)) fun code _ => code.Writes name offset image
  | [], element, image, offset, leaves, fits, nonneg, room, name, context => by
      have empty : image = [] := leaves
      rw [empty]
      unfold Initializer.lowerElements
      exact Ensures.pure .nil
  | item :: items, element, image, offset, leaves, fits, nonneg, room, name, context => by
      rcases leaves with ⟨first, rest, rfl, isFirst, isRest⟩
      have fits := fits (List.cons_ne_nil _ _)
      have length := isFirst.length_eq
      rw [List.length_append] at room
      have next : Size.add offset element.size = offset + first.length := by
        rw [length, fits.size_eq]
        exact Size.wrap_eq_self (by have := fits.nonneg; omega) (by omega)
      unfold Initializer.lowerElements
      refine ((isFirst.lowerAt fits nonneg (by omega) name context).allow ?_).bind ?_
      · rintro _ ⟨rfl, tooLarge⟩
        exact ⟨rfl, fun fit => tooLarge fit.of_append.1⟩
      · intro code after writes
        rw [next]
        have inside : 0 ≤ offset + first.length := by omega
        have others := isRest.lowerElements (fun _ => fits) inside (by omega) name after
        refine Ensures.bind (others.allow ?_) fun more last writesMore => ?_
        · rintro _ ⟨rfl, tooLarge⟩
          exact ⟨rfl, fun fit => tooLarge fit.of_append.2⟩
        · exact Ensures.pure (writes.append writesMore)

end

end Initializer

/-! ### Agreement -/

namespace Initializer

mutual

/-- The two ways to initialize an object, the static one behind items that end where the object
starts. -/
theorem check_agrees : ∀ (init : Initializer) {type : CType} {items : List StaticItem} {total : Int}
    {before : Text}, init.IsLiteral → type.IsArithmeticObject → type.Fits →
    StaticItem.LaidOut items total → type.alignment ∣ total →
    total + type.byteCount < 9223372036854775808 → StaticItem.image? items = some before →
    Pass.Agree (init.checkAutomatic type) (init.checkStatic type items) fun automatic static =>
      ∃ image, automatic.Leaves type image ∧
        StaticItem.image? static.2 = some (before ++ image)
  | .single loc value, type, items, total, before, literal, isObject, fits, laid, aligned, room,
      isBefore => by
      unfold checkAutomatic checkStatic
      refine (value.checkInitial_agrees isObject loc.span literal).bind ?_
      rintro typed other ⟨image, leaves, otherLeaves⟩
      refine Pass.Agree.bind_right (otherLeaves.appendItems laid room isBefore) ?_
      exact fun after isImage => .pure ⟨image, leaves, isImage⟩
  | .compound loc elements, type, items, total, before, literals, isObject, fits, laid, aligned,
      room, isBefore => by
      unfold checkAutomatic checkStatic
      split
      · rename_i size element
        refine .ite (fun _ => .throw) fun notExcess => ?_
        rcases fits.split_array (Int.natCast_nonneg elements.length) (by omega) with
          ⟨parts, given, missing, wraps⟩
        have aligned : element.alignment ∣ total := aligned
        have elementFits : elements ≠ [] → element.Fits := by
          intro nonempty
          have := List.length_pos_iff.2 nonempty
          exact fits.element (by omega)
        rw [parts] at room
        have inside : total + elements.length * element.byteCount < 9223372036854775808 := by omega
        refine ((checkList_agrees elements literals isObject.2 elementFits laid aligned inside
          isBefore).and_right fun context =>
            checkStaticList_lays elements laid aligned elementFits inside).bind ?_
        rintro automatic ⟨static, items⟩ ⟨⟨count, image, leaves, isImage⟩, laid⟩
        refine Pass.Agree.bind_left (times_leaves (zero_leaves loc.span isObject.2) _) ?_
        rintro zeros ⟨zerosCount, areZeros⟩
        have zeroBytes : (size - elements.length).toNat * element.byteCount.toNat =
            ((size - elements.length) * element.byteCount).toNat :=
          (Int.toNat_mul (by omega) isObject.2.byteCount_nonneg).symm
        rw [List.flatten_replicate_replicate, zeroBytes] at areZeros
        have whole : ((automatic ++ zeros).length : Int) = size := by
          rw [List.length_append, count, zerosCount]
          omega
        refine .pure ⟨_, ⟨size, element, rfl, whole, leaves.append areZeros⟩, ?_⟩
        rw [wraps, ← List.append_assoc]
        exact StaticItem.image?_appendZero laid (by omega) isImage
      · split
        · rename_i inner value
          refine (value.checkInitial_agrees isObject inner.span literals.1).bind ?_
          rintro typed other ⟨image, leaves, otherLeaves⟩
          refine Pass.Agree.bind_right (otherLeaves.appendItems laid room isBefore) ?_
          exact fun after isImage => .pure ⟨image, leaves, isImage⟩
        · exact .throw

theorem checkList_agrees : ∀ (elements : List Initializer) {element : CType}
    {items : List StaticItem} {total : Int} {before : Text}, AreLiterals elements →
    element.IsArithmeticObject → (elements ≠ [] → element.Fits) →
    StaticItem.LaidOut items total → element.alignment ∣ total →
    total + elements.length * element.byteCount < 9223372036854775808 →
    StaticItem.image? items = some before →
    Pass.Agree (checkAutomaticList element elements) (checkStaticList element items elements)
      fun automatic static => automatic.length = elements.length ∧
        ∃ image, LeavesList element image automatic ∧
          StaticItem.image? static.2 = some (before ++ image)
  | [], element, items, total, before, _, _, _, _, _, _, isBefore => by
      unfold checkAutomaticList checkStaticList
      exact .pure ⟨rfl, [], rfl, by simpa using isBefore⟩
  | first :: rest, element, items, total, before, literals, isObject, fits, laid, aligned, room,
      isBefore => by
      have fits := fits (List.cons_ne_nil _ _)
      have nonneg := fits.nonneg
      have restNonneg : 0 ≤ rest.length * element.byteCount := by positivity
      rw [CType.add_length_cons_mul] at room
      have inside : total + element.byteCount < 9223372036854775808 := by omega
      unfold checkAutomaticList checkStaticList
      refine ((first.check_agrees literals.1 isObject fits laid aligned inside isBefore).and_right
        fun context => first.checkStatic_lays laid aligned fits inside).bind ?_
      rintro automatic ⟨_, items⟩ ⟨⟨image, leaves, isImage⟩, laid⟩
      have aligned := dvd_add aligned element.alignment_dvd
      refine (checkList_agrees rest literals.2 isObject (fun _ => fits) laid aligned room
        isImage).bind ?_
      rintro automatics ⟨_, items⟩ ⟨count, others, leavesOthers, isOthers⟩
      refine .pure ⟨by simp [count], image ++ others, ?_, ?_⟩
      · exact ⟨image, others, rfl, leaves, leavesOthers⟩
      · simpa using isOthers

end

end Initializer

/-- The code turns the bytes of an object of a type, whatever they are, into the given ones. -/
def Code.Initializes (name : Text) (type : CType) (image : Text) (code : Code) : Prop :=
  ∀ memory : Text, (memory.length : Int) = type.size → code.overwrite? name memory = some image

/-- A write to the whole object. -/
theorem Code.Writes.initializes {name image : Text} {type : CType} {code : Code}
    (writes : code.Writes name 0 image) (length : (image.length : Int) = type.size) :
    code.Initializes name type image := by
  intro memory size
  have written := writes [] memory [] rfl (by omega)
  simpa using written

/-- The code of an automatic object that is declared with a typed initializer. -/
theorem VarDecl.lower_ensures {type : CType} {image : Text} {init : Initializer}
    (leaves : init.Leaves type image) (isObject : type.IsArithmeticObject) (fits : type.Fits)
    (loc : Loc) (name : Text) (context : Context) :
    Ensures (VarDecl.lower ⟨loc, name, type, none, some init⟩) context
      (Initializer.LacksBuffer (init.buffers type)) fun code _ =>
        code.Initializes name type image := by
  have length : (image.length : Int) = type.size := leaves.length_eq.trans fits.size_eq.symm
  have room := fits.lt
  have array : Ensures (init.lowerAt name type 0) context
      (Initializer.LacksBuffer (init.buffers type)) fun code _ =>
        code.Initializes name type image :=
    (leaves.lowerAt fits (Int.le_refl 0) (by rw [leaves.length_eq]; omega) name context).mono
      fun _ _ writes => writes.initializes length
  unfold VarDecl.lower
  dsimp only
  split
  · exact array
  · rename_i value noArray
    have arithmetic : type.isArithmetic := by
      cases type with
      | array size element => exact absurd rfl (noArray size element)
      | _ => exact isObject
    rcases Expr.Leaves.lowerValue leaves arithmetic with ⟨constant, rfl, lowers⟩
    rw [lowers, pure_bind]
    refine Ensures.pure fun memory size => ?_
    have written : Text.write? ([] ++ memory ++ []) (List.length []) constant.bytes =
        some ([] ++ constant.bytes ++ []) := Text.write?_append (by omega) []
    simpa [Code.overwrite?, Instruction.overwrite?] using written
  · exact array

/-- An automatic and a static object of one type, built from arithmetic types and arrays, with one
initializer, whose expressions are literals. Both initializers are refused with the same error, or
both are accepted. Then the items of the static object and the code of the automatic one leave the
same bytes, one for each byte of the object, unless the code needs a buffer that is too large for
the address space. -/
theorem Initializer.automatic_agrees_static {type : CType} (isObject : type.IsArithmeticObject)
    (fits : type.Fits) {init : Initializer} (literal : init.IsLiteral) :
    Pass.Agree (init.checkAutomatic type) (init.checkStatic type []) fun automatic static =>
      ∃ image, StaticItem.image? static.2 = some image ∧ (image.length : Int) = type.size ∧
        ∀ loc name context, Ensures (VarDecl.lower ⟨loc, name, type, none, some automatic⟩) context
          (LacksBuffer (automatic.buffers type)) fun code _ =>
            code.Initializes name type image := by
  have room : 0 + type.byteCount < 9223372036854775808 := by
    have := fits.lt
    omega
  refine (init.check_agrees literal isObject fits .nil (dvd_zero _) room rfl).mono ?_
  rintro automatic static ⟨image, leaves, isImage⟩
  exact ⟨image, isImage, leaves.length_eq.trans fits.size_eq.symm,
    VarDecl.lower_ensures leaves isObject fits⟩

/-- Two rows of characters: a string with room behind it, and a character with zeros behind it. -/
theorem Initializer.automatic_agrees_static_rows :
    ∃ type init automatic after typed items final code last,
      type = CType.array 2 (.array 9 .char) ∧ type.IsArithmeticObject ∧ type.Fits ∧
        init.IsLiteral ∧
        (checkAutomatic type init).run .empty = .ok (automatic, after) ∧
        (checkStatic type [] init).run .empty = .ok ((typed, items), final) ∧
        items = [.string "ab" true, .zero 6, .scalar (.char 7), .zero 8] ∧
        (VarDecl.lower ⟨⟨0, .none⟩, "rows", type, none, some automatic⟩).run .empty =
          .ok (code, last) ∧
        code.Initializes "rows" type
          [97, 98, 0, 0, 0, 0, 0, 0, 0, 7, 0, 0, 0, 0, 0, 0, 0, 0] := by
  let type : CType := .array 2 (.array 9 .char)
  let loc : Loc := ⟨0, .none⟩
  let init : Initializer := .compound loc [.single loc (.string (.untyped loc) "ab"),
    .compound loc [.single loc (.constant (.untyped loc) (.int 7))]]
  let items : List StaticItem := [.string "ab" true, .zero 6, .scalar (.char 7), .zero 8]
  have isObject : type.IsArithmeticObject := ⟨by decide, by decide, rfl⟩
  have fits : type.Fits := ⟨by decide, by decide⟩
  have literal : init.IsLiteral := by simp [init, IsLiteral, AreLiterals, Expr.IsLiteral]
  have bytes : StaticItem.image? items =
      some [97, 98, 0, 0, 0, 0, 0, 0, 0, 7, 0, 0, 0, 0, 0, 0, 0, 0] := rfl
  have computed : succeedsWith (fun automatic => succeedsWith (fun static =>
        static.1.2 = items && succeedsWith (fun _ => true)
          ((VarDecl.lower ⟨loc, "rows", type, none, some automatic.1⟩).run .empty))
        ((checkStatic type [] init).run .empty)) ((checkAutomatic type init).run .empty) := by
    decide +kernel
  refine ⟨type, init, ?_⟩
  clear_value init
  rcases exists_of_succeedsWith computed with ⟨⟨automatic, after⟩, checks, computed⟩
  rcases exists_of_succeedsWith computed with ⟨⟨⟨typed, made⟩, final⟩, flattens, computed⟩
  rcases Bool.and_eq_true_iff.1 computed with ⟨same, computed⟩
  rcases exists_of_succeedsWith computed with ⟨⟨code, last⟩, lowers, _⟩
  have same : made = items := of_decide_eq_true same
  have agree := automatic_agrees_static isObject fits literal .empty .empty
  simp only [checks, flattens] at agree
  rcases agree with ⟨image, isImage, _, initializes⟩
  cases bytes.symm.trans (same ▸ isImage)
  exact ⟨automatic, after, typed, made, final, code, last, rfl, isObject, fits, literal, checks,
    flattens, same, lowers, (initializes loc "rows" .empty).of_ok lowers⟩

end SubsetC
