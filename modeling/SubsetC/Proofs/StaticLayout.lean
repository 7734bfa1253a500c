import SubsetC.Proofs.Entries
import SubsetC.Proofs.Sizes
import SubsetC.Proofs.TypedCode
import Mathlib.Data.List.Chain
import Mathlib.Tactic.Positivity
import Mathlib.Tactic.Ring

/-!
# Layout of static objects

The items of a static initializer lie one after the other in the memory of their object.
`StaticItem.Covers` says that they do so exactly: they are as long as the object, every scalar among
them is aligned, no run of zero bytes is empty and none is followed by another.

An initializer is computed from left to right, through all nested braces, with the items so far.
The invariant is `StaticItem.LaidOut`, which says of these items that they cover the part of the
object up to some offset in this way; a row of an array that is left out is one more run of zero
bytes, and so is the room behind a string. The main statement is `Program.static_covers`.
-/

namespace SubsetC

namespace StaticItem

/-- The item is a run of zero bytes. -/
def IsRun : StaticItem → Prop
  | .zero _ => True
  | _ => False

/-- The item is a scalar: a constant or an address. -/
def IsScalar : StaticItem → Prop
  | .scalar _ | .pointer _ => True
  | _ => False

/-- The number of bytes of items, without bounds. -/
def byteCount (items : List StaticItem) : Int := (items.map size).sum

/-- The items cover a number of bytes. -/
structure LaidOut (items : List StaticItem) (total : Int) : Prop where
  /-- Their sizes add up. -/
  total : byteCount items = total
  /-- No run is empty. -/
  nonempty : ∀ size : Size, .zero size ∈ items → 0 < size
  /-- No run is followed by another. -/
  merged : items.IsChain fun first second => ¬(first.IsRun ∧ second.IsRun)
  aligned : ∀ front item rest, items = front ++ item :: rest → item.IsScalar →
    item.size ∣ byteCount front

/-- The items cover an object of a type. -/
abbrev Covers (items : List StaticItem) (type : CType) : Prop := LaidOut items type.size

@[simp]
theorem byteCount_append (front rest : List StaticItem) :
    byteCount (front ++ rest) = byteCount front + byteCount rest := by
  simp [byteCount]

@[simp]
theorem byteCount_singleton (item : StaticItem) : byteCount [item] = item.size := by
  simp [byteCount]

theorem size_nonneg {item : StaticItem} (nonempty : ∀ size : Size, item = .zero size → 0 < size) :
    (0 : Int) ≤ item.size := by
  cases item with
  | scalar value => cases value <;> simp [size, Const.type, CType.size, IntType.size]
  | zero count => exact Int.le_of_lt (nonempty count rfl)
  | string bytes terminated => exact Int.add_nonneg (Int.natCast_nonneg _) (by split <;> decide)
  | pointer name => simp [size]

namespace LaidOut

variable {items : List StaticItem} {item : StaticItem} {total : Int}

theorem nil : LaidOut [] 0 := ⟨rfl, by simp, .nil, by simp⟩

theorem nonneg (laid : LaidOut items total) : 0 ≤ total := by
  rw [← laid.total]
  refine List.sum_nonneg ?_
  intro size mem
  rcases List.mem_map.1 mem with ⟨item, itemMem, rfl⟩
  exact size_nonneg fun count same => laid.nonempty count (same ▸ itemMem)

/-- One more item, which starts where the others end. -/
theorem concat (laid : LaidOut items total) (item : StaticItem)
    (nonempty : ∀ size : Size, item = .zero size → 0 < size)
    (merged : item.IsRun → ∀ last ∈ items.getLast?, ¬last.IsRun)
    (aligned : item.IsScalar → item.size ∣ total) :
    LaidOut (items ++ [item]) (total + item.size) := by
  refine ⟨by simp [laid.total], ?_, ?_, ?_⟩
  · intro size mem
    rcases List.mem_append.1 mem with mem | mem
    · exact laid.nonempty size mem
    · exact nonempty size (List.mem_singleton.1 mem).symm
  · refine List.isChain_append.2 ⟨laid.merged, .singleton item, ?_⟩
    rintro last lastMem next nextMem ⟨lastRun, nextRun⟩
    cases (show item = next by simpa using nextMem)
    exact merged nextRun last lastMem lastRun
  · intro front found rest split isScalar
    rcases List.eq_nil_or_concat rest with rfl | ⟨rest, last, rfl⟩
    · rcases List.append_inj' split rfl with ⟨rfl, same⟩
      cases (show item = found by simpa using same)
      exact laid.total ▸ aligned isScalar
    · have split : items ++ [item] = (front ++ found :: rest) ++ [last] := by simpa using split
      exact laid.aligned front found rest (List.append_inj' split rfl).1 isScalar

/-- The items before the last one. -/
theorem front (laid : LaidOut (items ++ [item]) total) : LaidOut items (total - item.size) := by
  refine ⟨?_, ?_, (List.isChain_append.1 laid.merged).1, ?_⟩
  · simp [← laid.total]
  · exact fun size mem => laid.nonempty size (List.mem_append_left _ mem)
  · intro front found rest split
    exact laid.aligned front found (rest ++ [item]) (by simp [split])

theorem concat_string (laid : LaidOut items total) (bytes : Text) (isTerminated : Bool) :
    LaidOut (items ++ [StaticItem.string bytes isTerminated])
      (total + (StaticItem.string bytes isTerminated).size) :=
  laid.concat _ (by rintro _ ⟨⟩) (False.elim ·) (False.elim ·)

/-- A last run of zeros can be made longer as long as there is room. -/
theorem add_last {last size : Int} (laid : LaidOut (items ++ [StaticItem.zero last]) total)
    (nonneg : 0 ≤ size) (room : total + size < 9223372036854775808) :
    0 < last ∧ Size.add last size = last + size := by
  have positive : 0 < last := laid.nonempty last (by simp)
  have before := laid.front.nonneg
  have sizes : (StaticItem.zero last).size = last := rfl
  unfold Size at *
  exact ⟨positive, Size.wrap_eq_self (by omega) (by omega)⟩

theorem appendZero {size : Int} (laid : LaidOut items total) (nonneg : 0 ≤ size)
    (room : total + size < 9223372036854775808) :
    LaidOut (appendZero items size) (total + size) := by
  unfold StaticItem.appendZero
  split
  · have empty : size = 0 := by unfold Size at *; omega
    simpa [empty] using laid
  · rename_i positive
    have positive : 0 < size := by unfold Size at *; omega
    split
    · rename_i last isLast
      rcases List.getLast?_eq_some_iff.1 isLast with ⟨front, rfl⟩
      have before := laid.front
      rcases laid.add_last nonneg room with ⟨lastPositive, whole⟩
      have apart := (List.isChain_append.1 laid.merged).2.2
      rw [List.dropLast_concat, whole]
      have longer := before.concat (.zero (last + size)) ?_ ?_ nofun
      · rw [show total + size = total - last + (last + size) by omega]
        exact longer
      · rintro _ same
        cases same
        unfold Size at *
        omega
      · exact fun isRun previous mem previousRun =>
          apart previous mem (.zero last) (by simp) ⟨previousRun, trivial⟩
    · rename_i noRun
      refine laid.concat _ ?_ ?_ nofun
      · rintro _ same
        cases same
        exact positive
      · intro _ last isLast lastRun
        cases last with
        | zero count => exact noRun count isLast
        | scalar | string | pointer => exact lastRun

/-- A scalar of a size, at an offset aligned to it. -/
theorem append {size : Int} (laid : LaidOut items total) (isScalar : item.IsScalar)
    (sameSize : item.size = size) (aligned : size ∣ total)
    (room : total + size < 9223372036854775808) :
    LaidOut (StaticItem.append items size item) (total + size) := by
  have placed : LaidOut (items ++ [item]) (total + size) := by
    rw [← sameSize]
    refine laid.concat _ ?_ ?_ fun _ => sameSize ▸ aligned
    · rintro _ rfl
      exact isScalar.elim
    · intro isRun
      cases item with
      | zero => exact isScalar.elim
      | scalar | string | pointer => exact isRun.elim
  have nonneg : 0 ≤ size := by
    rw [← sameSize]
    refine size_nonneg ?_
    rintro _ rfl
    exact isScalar.elim
  unfold StaticItem.append
  split
  · split
    · exact laid.appendZero nonneg room
    · exact placed
  · exact placed

end LaidOut

end StaticItem

/-! ### Values -/

namespace Const

/-- The constants of a type are as large as its objects. Arrays have none. -/
theorem HasType.sizes {constant : Const} {type : CType} (hasType : constant.HasType type) :
    constant.type.size = type.size ∧ type.isArray = false := by
  cases type with
  | void | function | array => cases hasType
  | integer kind =>
      cases kind <;> simp only [HasType, zero?, ofInt64?, ofInt64, Option.map_some,
        Option.some.injEq] at hasType <;> exact ⟨hasType ▸ rfl, rfl⟩
  | double | pointer =>
      simp only [HasType, zero?, ofInt64?, Option.map_some, Option.some.injEq] at hasType
      exact ⟨hasType ▸ rfl, rfl⟩

end Const

theorem CType.alignment_eq {type : CType} (noArray : type.isArray = false) :
    type.alignment = type.size := by
  cases type with
  | array => cases noArray
  | _ => rfl

namespace Expr

variable {context : Context}

/-- The item is a scalar of a type, which is not an array. -/
def IsItemOf (type : CType) (item : StaticItem) : Prop :=
  item.IsScalar ∧ item.size = type.size ∧ type.isArray = false

theorem scalarItem_yields (type : CType) (expr : Expr) :
    Yields (expr.scalarItem type) context fun item _ => IsItemOf type item := by
  unfold scalarItem
  split
  · exact .throw trivial
  · split
    · exact .throw trivial
    · rename_i converts
      have sizes := (Const.hasType_of_convert? converts).sizes
      exact .pure ⟨trivial, sizes.1, sizes.2⟩

theorem pointerItem_yields {type : CType} (pointer : type.isPointer) (expr : Expr) :
    Yields expr.pointerItem context fun item _ => IsItemOf type item := by
  have sizes : type.size = 8 ∧ type.isArray = false := by
    cases type with
    | pointer => exact ⟨rfl, rfl⟩
    | _ => cases pointer
  have null : IsItemOf type (.scalar (.ulong 0)) := ⟨trivial, sizes.1.symm, sizes.2⟩
  have target : ∀ name, IsItemOf type (.pointer name) :=
    fun _ => ⟨trivial, sizes.1.symm, sizes.2⟩
  have address : ∀ name, Yields (staticAddress expr.span name) context
      fun item _ => IsItemOf type item :=
    fun name => Ensures.bind_any fun _ _ =>
      .ite (fun _ => .pure (target name)) fun _ => .throw trivial
  unfold pointerItem
  split
  · split
    · exact .ite (fun _ => .pure null) fun _ => .throw trivial
    · exact .throw trivial
  · exact address _
  · exact address _
  · exact Ensures.bind_any fun name _ => .pure (target name)
  · exact .throw trivial

theorem appendValue_lays {type : CType} {items : List StaticItem} {total : Int}
    (laid : StaticItem.LaidOut items total) (aligned : type.alignment ∣ total)
    (fits : type.Fits) (room : total + type.byteCount < 9223372036854775808) (expr : Expr) :
    Yields (expr.appendValue type items) context fun items _ =>
      StaticItem.LaidOut items (total + type.byteCount) := by
  rw [appendValue_eq]
  have value : Yields (if type.isPointer then expr.pointerItem else expr.scalarItem type) context
      fun item _ => IsItemOf type item :=
    .ite (fun pointer => pointerItem_yields pointer expr) fun _ => scalarItem_yields type expr
  refine value.bind ?_
  rintro item after ⟨isScalar, sameSize, noArray⟩
  rw [CType.alignment_eq noArray] at aligned
  rw [← fits.size_eq] at room ⊢
  exact .pure (laid.append isScalar sameSize aligned room)

/-- A string that initializes an array fits into it. -/
def FitsArray (type : CType) (value : Expr) : Prop :=
  ∀ size element note bytes, type = .array size element → value = .string note bytes →
    element.isCharacter ∧ bytes.length ≤ size

theorem checkInitial_yields (type : CType) (span : Span) (expr : Expr) :
    Yields (expr.checkInitial type span) context fun value _ => value.FitsArray type := by
  unfold checkInitial
  split
  · split
    · refine .ite (fun _ => .throw trivial) fun character => ?_
      refine .ite (fun _ => .throw trivial) fun enough => ?_
      unfold check
      refine .pure ?_
      rintro _ _ _ _ ⟨⟩ ⟨⟩
      exact ⟨by simpa using character, by omega⟩
    · exact .throw trivial
  · rename_i noArray
    exact .of_forall fun _ _ size element _ _ same => absurd same (noArray size element)

theorem appendItems_lays {type : CType} {items : List StaticItem} {total : Int}
    (laid : StaticItem.LaidOut items total) (aligned : type.alignment ∣ total)
    (fits : type.Fits) (room : total + type.byteCount < 9223372036854775808) {value : Expr}
    (fitsArray : value.FitsArray type) :
    Yields (value.appendItems type items) context fun items _ =>
      StaticItem.LaidOut items (total + type.byteCount) := by
  unfold appendItems
  split
  · rename_i size element note bytes
    rcases fitsArray _ _ _ _ rfl rfl with ⟨character, enough⟩
    rw [CType.byteCount_of_isCharacter character] at room ⊢
    have string := laid.concat_string bytes (bytes.length < size)
    refine .pure ?_
    by_cases terminated : bytes.length < size
    · have whole : total + size = total + (bytes.length + 1) + (size - bytes.length - 1) := by omega
      simp only [terminated, decide_true, StaticItem.size, if_true] at string ⊢
      rw [whole]
      exact string.appendZero (by omega) (by omega)
    · have full : size = bytes.length := by omega
      simp only [terminated, decide_false, StaticItem.size, Bool.false_eq_true, if_false,
        Int.add_zero] at string ⊢
      rw [StaticItem.appendZero, if_pos (by unfold Size; omega), full]
      exact string
  · exact appendValue_lays laid aligned fits room value

end Expr

/-! ### Initializers -/

namespace Initializer

mutual

/-- From items that end where an object of a type may start, the items after the object. -/
theorem checkStatic_lays : ∀ (init : Initializer) {type : CType} {items : List StaticItem}
    {total : Int} {context : Context}, StaticItem.LaidOut items total → type.alignment ∣ total →
    type.Fits → total + type.byteCount < 9223372036854775808 →
    Yields (init.checkStatic type items) context fun result _ =>
      StaticItem.LaidOut result.2 (total + type.byteCount)
  | .single loc value, type, items, total, context, laid, aligned, fits, room => by
      unfold checkStatic
      refine (Expr.checkInitial_yields type loc.span value).bind fun value _ fitsArray => ?_
      exact (Expr.appendItems_lays laid aligned fits room fitsArray).bind fun _ _ laid => .pure laid
  | .compound loc elements, type, items, total, context, laid, aligned, fits, room => by
      unfold checkStatic
      split
      · rename_i size element
        refine .ite (fun _ => .throw trivial) fun notExcess => ?_
        rcases fits.split_array (Int.natCast_nonneg elements.length) (by omega) with
          ⟨parts, given, missing, wraps⟩
        have aligned : element.alignment ∣ total := aligned
        have elementFits : elements ≠ [] → element.Fits := by
          intro nonempty
          have := List.length_pos_iff.2 nonempty
          exact fits.element (by omega)
        rw [parts] at room ⊢
        refine (checkStaticList_lays elements laid aligned elementFits (by omega)).bind ?_
        rintro ⟨typed, items⟩ after laid
        rw [wraps, ← Int.add_assoc]
        exact .pure (laid.appendZero missing (by omega))
      · split
        · refine (Expr.checkInitial_yields _ _ _).bind fun value _ fitsArray => ?_
          exact (Expr.appendItems_lays laid aligned fits room fitsArray).bind
            fun _ _ laid => .pure laid
        · exact .throw trivial

/-- The same for as many objects as there are elements. -/
theorem checkStaticList_lays : ∀ (elements : List Initializer) {element : CType}
    {items : List StaticItem} {total : Int} {context : Context},
    StaticItem.LaidOut items total → element.alignment ∣ total → (elements ≠ [] → element.Fits) →
    total + elements.length * element.byteCount < 9223372036854775808 →
    Yields (checkStaticList element items elements) context fun result _ =>
      StaticItem.LaidOut result.2 (total + elements.length * element.byteCount)
  | [], element, items, total, context, laid, _, _, _ => by
      unfold checkStaticList
      exact .pure (by simpa using laid)
  | first :: rest, element, items, total, context, laid, aligned, fits, room => by
      have fits := fits (List.cons_ne_nil _ _)
      have nonneg := fits.nonneg
      have restNonneg : 0 ≤ rest.length * element.byteCount := by positivity
      rw [CType.add_length_cons_mul] at room ⊢
      unfold checkStaticList
      refine (checkStatic_lays first laid aligned fits (by omega)).bind fun _ _ laid => ?_
      have aligned := dvd_add aligned element.alignment_dvd
      exact (checkStaticList_lays rest laid aligned (fun _ => fits) room).bind
        fun _ _ laid => .pure laid

end

end Initializer

/-! ### Compilation units -/

namespace Symbol

/-- What the symbol holds at first covers it, if its size does not wrap around. -/
def IsCovered (symbol : Symbol) : Prop :=
  match symbol.storage with
  | .static (.initial items) _ => symbol.type.Fits → StaticItem.Covers items symbol.type
  | .constant item => symbol.type.Fits → StaticItem.Covers [item] symbol.type
  | _ => True

theorem covers_zeros {type : CType} (fits : type.Fits) :
    StaticItem.Covers (StaticItem.appendZero [] type.size) type := by
  have zeros := StaticItem.LaidOut.nil.appendZero fits.nonneg (by have := fits.lt; omega)
  rw [Int.zero_add] at zeros
  rwa [StaticItem.Covers, fits.size_eq]

theorem IsCovered.object {symbol : Symbol} {object : StaticObject} (isCovered : symbol.IsCovered)
    (isObject : symbol.staticObject? = some object) (fits : object.type.Fits) :
    StaticItem.Covers object.items object.type := by
  rcases symbol with ⟨name, type, storage⟩
  cases storage with
  | static init isGlobal =>
      cases init with
      | tentative =>
          cases isObject
          exact covers_zeros fits
      | initial items =>
          cases isObject
          exact isCovered fits
      | absent => cases isObject
  | function | constant | automatic => cases isObject

theorem IsCovered.constant {symbol : Symbol} {constant : StaticConstant}
    (isCovered : symbol.IsCovered) (isConstant : symbol.staticConstant? = some constant)
    (fits : constant.type.Fits) : StaticItem.Covers [constant.item] constant.type := by
  rcases symbol with ⟨name, type, storage⟩
  cases storage with
  | constant item =>
      cases isConstant
      exact isCovered fits
  | function | static | automatic => cases isConstant

theorem permits_isCovered : Permits IsCovered where
  automatic _ _ := trivial
  function _ _ _ _ := trivial
  uninitialized name type init isGlobal noItems := by
    cases init with
    | initial items => exact absurd rfl (noItems items)
    | tentative | absent => trivial
  zeros _ _ _ := covers_zeros
  computed name type isGlobal context after init typed items runs fits := by
    have fits : type.Fits := fits
    have lays : Yields (init.checkStatic type []) context fun result _ =>
        StaticItem.LaidOut result.2 (0 + type.byteCount) :=
      init.checkStatic_lays .nil (dvd_zero _) fits (by have := fits.lt; omega)
    rw [StaticItem.Covers, fits.size_eq]
    simpa using lays.of_ok runs
  string name bytes fits := by
    have string := StaticItem.LaidOut.nil.concat_string bytes true
    rw [StaticItem.Covers, fits.size_eq, CType.byteCount_of_isCharacter rfl]
    simpa [StaticItem.size] using string

end Symbol

namespace Program

/-- The static objects and read-only constants of a compilation unit are covered by their items,
wherever the size of their type does not wrap around. -/
theorem static_covers {source : Text} {program analysed : Program} {lastId : Nat}
    {context final : Context} {linear : LinearProgram}
    (parses : Program.parse source = .ok (program, lastId))
    (accepts : program.analyze.run (parsedContext lastId) = .ok (analysed, context))
    (lowers : analysed.lower.run context = .ok (linear, final)) :
    (∀ object, .object object ∈ linear → object.type.Fits →
      StaticItem.Covers object.items object.type) ∧
    ∀ constant, .constant constant ∈ linear → constant.type.Fits →
      StaticItem.Covers [constant.item] constant.type := by
  have covered :=
    symbols_valid Symbol.permits_isCovered (isSource_of_parse parses) rfl accepts lowers
  rcases exists_symbol_of_lower lowers with ⟨_, objects, constants⟩
  refine ⟨fun object mem fits => ?_, fun constant mem fits => ?_⟩
  · rcases objects object mem with ⟨symbol, symbolMem, isObject⟩
    exact (covered symbol symbolMem).object isObject fits
  · rcases constants constant mem with ⟨symbol, symbolMem, isConstant⟩
    exact (covered symbol symbolMem).constant isConstant fits

/-- An array of rows, of which one is left out and another ends early, and a pointer to a string. -/
theorem static_covers_rows :
    ∃ program lastId analysed context linear final,
      Program.parse "char rows[3][4] = \x7b\"ab\", \x7b0, 1\x7d\x7d; char *name = \"rows\";" =
          .ok (program, lastId) ∧
        program.analyze.run (parsedContext lastId) = .ok (analysed, context) ∧
        analysed.lower.run context = .ok (linear, final) ∧
        (.object ⟨"rows", true, 1, .array 3 (.array 4 .char),
            [.string "ab" true, .zero 2, .scalar (.char 1), .zero 6]⟩ ∈ linear ∧
          (CType.array 3 (.array 4 .char)).Fits ∧
          StaticItem.Covers [.string "ab" true, .zero 2, .scalar (.char 1), .zero 6]
            (.array 3 (.array 4 .char))) ∧
        (.constant ⟨"string.0", 1, .array 5 .char, .string "rows" true⟩ ∈ linear ∧
          (CType.array 5 .char).Fits ∧
          StaticItem.Covers [.string "rows" true] (.array 5 .char)) := by
  have computed : succeedsWith (fun parsed => succeedsWith (fun analysed =>
        succeedsWith (fun linear : LinearProgram × Context =>
          linear.1.contains (.object ⟨"rows", true, 1, .array 3 (.array 4 .char),
            [.string "ab" true, .zero 2, .scalar (.char 1), .zero 6]⟩) &&
          linear.1.contains (.constant ⟨"string.0", 1, .array 5 .char, .string "rows" true⟩))
          (analysed.1.lower.run analysed.2)) (parsed.1.analyze.run (parsedContext parsed.2)))
      (Program.parse
        "char rows[3][4] = \x7b\"ab\", \x7b0, 1\x7d\x7d; char *name = \"rows\";") := by
    decide +kernel
  rcases exists_of_succeedsWith computed with ⟨⟨program, lastId⟩, parses, computed⟩
  rcases exists_of_succeedsWith computed with ⟨⟨analysed, context⟩, accepts, computed⟩
  rcases exists_of_succeedsWith computed with ⟨⟨linear, final⟩, lowers, computed⟩
  have members := Bool.and_eq_true_iff.1 computed
  have object := List.contains_iff_mem.1 members.1
  have constant := List.contains_iff_mem.1 members.2
  have objectFits : (CType.array 3 (.array 4 .char)).Fits := ⟨by decide, by decide⟩
  have constantFits : (CType.array 5 .char).Fits := ⟨by decide, by decide⟩
  have covers := static_covers parses accepts lowers
  exact ⟨program, lastId, analysed, context, linear, final, parses, accepts, lowers,
    ⟨object, objectFits, covers.1 _ object objectFits⟩,
    constant, constantFits, covers.2 _ constant constantFits⟩

end Program

end SubsetC
