import SubsetC.Proofs.AddedNodes
import SubsetC.Proofs.ByteImage
import SubsetC.Proofs.CodeParts
import SubsetC.Proofs.ObjectPieces

/-!
# Tilings of automatic arrays

An automatic array with an initializer is written piece by piece, in rows of any depth, strings in
words as wide as possible, and zeros where the initializer ends early. The main statement is
`Program.arrays_tiled`: the pieces lie side by side from the first byte of the array to its last, so
that each byte is written exactly once.
-/

namespace SubsetC

/-! ### Tilings -/

/-- Pieces cover the bytes from a start to an end side by side, each behind the one before. -/
def Tiles : Int → List (Int × Int) → Int → Prop
  | start, [], stop => start = stop
  | start, (offset, width) :: pieces, stop =>
      offset = start ∧ 0 < width ∧ Tiles (start + width) pieces stop

/-- Whether a byte lies in a piece. -/
def covers (byte : Int) (piece : Int × Int) : Bool :=
  piece.1 ≤ byte && byte < piece.1 + piece.2

namespace Tiles

variable {start middle stop : Int} {pieces more : List (Int × Int)}

theorem single {width : Int} (positive : 0 < width) :
    Tiles start [(start, width)] (start + width) :=
  ⟨rfl, positive, rfl⟩

theorem append : ∀ {start : Int} {pieces : List (Int × Int)}, Tiles start pieces middle →
    Tiles middle more stop → Tiles start (pieces ++ more) stop
  | _, [], same, tiles => Eq.symm same ▸ tiles
  | _, _ :: _, ⟨isStart, positive, rest⟩, tiles => ⟨isStart, positive, rest.append tiles⟩

theorem le : ∀ {start : Int} {pieces : List (Int × Int)}, Tiles start pieces stop → start ≤ stop
  | _, [], same => Int.le_of_eq same
  | _, (_, width) :: _, ⟨_, positive, rest⟩ => by
      have := rest.le
      omega

/-- Each byte between start and end lies in exactly one piece, and no other byte lies in any. -/
theorem countP_covers (byte : Int) : ∀ {start : Int} {pieces : List (Int × Int)},
    Tiles start pieces stop →
      pieces.countP (covers byte) = if start ≤ byte ∧ byte < stop then 1 else 0
  | start, [], same => by
      have same : start = stop := same
      rw [List.countP_nil, if_neg (by omega)]
  | start, (offset, width) :: pieces, tiles => by
      rcases tiles with ⟨rfl, positive, rest⟩
      have le := rest.le
      rw [List.countP_cons, countP_covers byte rest]
      simp only [covers, Bool.and_eq_true, decide_eq_true_eq]
      split <;> split <;> split <;> omega

end Tiles

/-! ### Strings -/

/-- A word of memory is as wide as its constant. -/
theorem Const.size_ofWord {bytes : Text}
    (isWord : bytes.length = 8 ∨ bytes.length = 4 ∨ bytes.length = 1) :
    (Const.ofWord bytes).type.size = bytes.length := by
  rcases isWord with length | length | length <;> simp [Const.ofWord, length] <;> rfl

/-- The words of a string lie side by side. -/
theorem writeBytes_tiles (table : SymbolTable) (name : Text) {offset : Int} {bytes : Text}
    (nonneg : 0 ≤ offset) (room : offset + bytes.length < 9223372036854775808) :
    Tiles offset (Code.pieces table name (writeBytes name offset bytes)) (offset + bytes.length) := by
  fun_induction writeBytes name offset bytes with
  | case1 offset => exact (Int.add_zero offset).symm
  | case2 offset bytes nonempty width ih =>
      have spec : width ≤ bytes.length ∧ 0 < width ∧ (width = 8 ∨ width = 4 ∨ width = 1) :=
        wordSize_spec (List.length_pos_iff.2 nonempty)
      clear_value width
      rcases spec with ⟨le, positive, isWord⟩
      have taken : (bytes.take width).length = width := List.length_take_of_le le
      have next : Size.add offset width = offset + width := Size.wrap_eq_self (by omega) (by omega)
      rw [next] at ih ⊢
      have dropped : (bytes.drop width).length = bytes.length - width := List.length_drop
      have rest := ih (by omega) (by omega)
      have size : (Const.ofWord (bytes.take width)).type.size = width := by
        rw [Const.size_ofWord (by rwa [taken]), taken]
      have isPiece : Code.pieces table name (.copyToOffset (.constant (.ofWord (bytes.take width)))
          name offset :: writeBytes name (offset + width) (bytes.drop width)) =
          (offset, (width : Int)) ::
            Code.pieces table name (writeBytes name (offset + width) (bytes.drop width)) := by
        simp [Code.pieces, Instruction.piece?, Operand.width, size]
      have total : width + (bytes.drop width).length = bytes.length := by omega
      rw [isPiece, ← total, Int.natCast_add, ← Int.add_assoc]
      exact ⟨rfl, by omega, rest⟩

/-- A string that fits into an array of characters covers the array, filled up with zeros. -/
theorem writeString_tiles (name : Text) {offset size : Int} {bytes : Text} {context : Context}
    (enough : bytes.length ≤ size) (nonneg : 0 ≤ offset)
    (room : offset + size < 9223372036854775808) :
    Yields (writeString name offset size bytes) context fun code after =>
      after = context ∧ ∀ table, Tiles offset (Code.pieces table name code) (offset + size) := by
  unfold writeString
  refine Ensures.ite (fun _ => Ensures.throw trivial) fun _ => Ensures.pure ⟨rfl, fun table => ?_⟩
  have length : (((bytes ++ List.replicate (size.toNat - bytes.length) 0).take
      size.toNat).length : Int) = size := by
    rw [List.length_take, List.length_append, List.length_replicate]
    omega
  have tiles := writeBytes_tiles table name nonneg
    (lt_of_eq_of_lt (congrArg (offset + ·) length) room)
  rwa [length] at tiles

/-! ### Scalars -/

namespace CType

variable {type : CType}

/-- A scalar has some bytes, and as many as are counted. -/
theorem byteCount_of_isScalar (scalar : type.isScalar) :
    type.size = type.byteCount ∧ 0 < type.byteCount := by
  cases type with
  | integer kind => cases kind <;> decide
  | double | pointer => exact ⟨rfl, (by decide : (0 : Int) < 8)⟩
  | void | array | function => cases scalar

end CType

/-- A constant is as wide as the scalars whose constants are built as it is. -/
theorem Const.HasType.size_of_isScalar {constant : Const} {type : CType}
    (hasType : constant.HasType type) (scalar : type.isScalar) :
    constant.type.size = type.size := by
  cases type with
  | pointer target =>
      rw [← Option.some.inj hasType]
      rfl
  | integer | double => exact hasType.size_eq rfl
  | void | array | function => cases scalar

/-- An operand is as wide as the objects of its type. -/
theorem Operand.HasType.width_eq {table : SymbolTable} {type : CType} {operand : Operand}
    (hasType : operand.HasType table type) (scalar : type.isScalar) :
    operand.width table = type.size := by
  cases operand with
  | constant value => exact Const.HasType.size_of_isScalar hasType scalar
  | var name =>
      rcases hasType with ⟨symbol, found, same⟩
      rw [Operand.width, found, Option.elim_some, same]
  | absent => exact hasType.elim

/-- The value of an element is written to all of the element. -/
theorem Expr.Initializes.lowerValue_tiles {expr : Expr} {type : CType} {context : Context}
    (initializes : expr.Initializes context.symbols type) (tidy : context.Tidy)
    (notArray : type.isArray = false) (name : Text) (offset : Int) :
    Yields (do
      let (code, operand) ← expr.lowerValue
      pure (code ++ [Instruction.copyToOffset operand name offset])) context fun code after =>
      context.Grows [] after ∧ ∀ table : SymbolTable, table.Extends after.symbols →
        Tiles offset (Code.pieces table name code) (offset + type.byteCount) := by
  refine ((initializes.lowerValue_yields type tidy notArray).and expr.lowerValue_whole).bind ?_
  rintro ⟨code, operand⟩ after ⟨⟨⟨emits, hasType⟩, scalar⟩, isWhole⟩
  refine Ensures.pure ⟨emits.grows, fun table extension => ?_⟩
  rcases CType.byteCount_of_isScalar scalar with ⟨sameSize, positive⟩
  have width : operand.width table = type.byteCount :=
    ((hasType.extend extension).width_eq scalar).trans sameSize
  have isPiece : Code.pieces table name (code ++ [Instruction.copyToOffset operand name offset]) =
      [(offset, type.byteCount)] := by
    have isWhole := isWhole table name
    simp [Code.pieces, Instruction.piece?, width] at isWhole ⊢
    exact isWhole
  rw [isPiece]
  exact .single positive

/-! ### Initializers -/

namespace Initializer

mutual

/-- The code of an initializer for a part of an array covers the part. -/
theorem lowerAt_tiles (name : Text) : ∀ (init : Initializer) {type : CType} {offset : Int}
    {context : Context}, context.Tidy → init.Explicit context.symbols false type → type.Fits →
    type.HasPositiveDimensions → 0 ≤ offset → offset + type.byteCount < 9223372036854775808 →
    Yields (init.lowerAt name type offset) context fun code after =>
      context.Grows [] after ∧ ∀ table : SymbolTable, table.Extends after.symbols →
        Tiles offset (Code.pieces table name code) (offset + type.byteCount)
  | .single loc value, type, offset, context, tidy, explicit, fits, _, nonneg, room => by
      have initializes : value.Initializes context.symbols type := explicit
      unfold lowerAt
      split
      · rename_i size element note bytes _
        cases initializes with
        | value _ _ scalar => cases scalar
        | string _ isArray characters enough =>
            cases isArray
            have sameCount : (CType.array size element).byteCount = size :=
              CType.byteCount_of_isCharacter characters
            rw [fits.size_eq, sameCount]
            rw [sameCount] at room
            refine (writeString_tiles name enough nonneg room).mono ?_
            rintro code _ ⟨rfl, tiles⟩
            exact ⟨.refl _ _, fun table _ => tiles table⟩
      · rename_i noString
        exact initializes.lowerValue_tiles tidy (initializes.notArray noString) name offset
  | .compound loc items, type, offset, context, tidy, explicit, fits, dimensions, nonneg, room => by
      rw [lowerAt]
      rcases explicit with ⟨size, element, rfl, _, full, explicit⟩ | ⟨isStatic, _⟩
      · rcases dimensions with ⟨positive, dimensions⟩
        have length : (items.length : Int) = size := by
          rw [full rfl, Int.toNat_of_nonneg (Int.le_of_lt positive)]
        rw [CType.byteCount, ← length] at room ⊢
        exact lowerElements_tiles name items tidy explicit (fits.element positive) dimensions nonneg
          room
      · cases isStatic

/-- Elements lie side by side. -/
theorem lowerElements_tiles (name : Text) : ∀ (items : List Initializer) {element : CType}
    {offset : Int} {context : Context}, context.Tidy →
    ExplicitList context.symbols false element items → element.Fits →
    element.HasPositiveDimensions → 0 ≤ offset →
    offset + items.length * element.byteCount < 9223372036854775808 →
    Yields (lowerElements name element offset items) context fun code after =>
      context.Grows [] after ∧ ∀ table : SymbolTable, table.Extends after.symbols →
        Tiles offset (Code.pieces table name code) (offset + items.length * element.byteCount)
  | [], element, offset, context, _, _, _, _, _, _ => by
      rw [lowerElements]
      refine Ensures.pure ⟨.refl _ _, fun table _ => ?_⟩
      rw [List.length_nil, Int.natCast_zero, Int.zero_mul, Int.add_zero]
      exact (rfl : offset = offset)
  | item :: items, element, offset, context, tidy, explicit, fits, dimensions, nonneg, room => by
      have count := fits.nonneg
      have others : 0 ≤ items.length * element.byteCount := Int.mul_nonneg (Int.natCast_nonneg _) count
      rw [CType.add_length_cons_mul] at room ⊢
      have next : Size.add offset element.size = offset + element.byteCount := by
        rw [fits.size_eq]
        exact Size.wrap_eq_self (by omega) (by omega)
      rw [lowerElements, next]
      refine (lowerAt_tiles name item tidy explicit.1 fits dimensions nonneg (by omega)).bind ?_
      rintro code between ⟨grows, tiles⟩
      refine (lowerElements_tiles name items (grows.tidy tidy (by simp))
        (ExplicitList.extend grows.extends_ element items explicit.2) fits dimensions (by omega)
        room).bind ?_
      rintro rest after ⟨restGrows, restTiles⟩
      refine Ensures.pure ⟨grows.append restGrows, fun table extension => ?_⟩
      rw [Code.pieces_append]
      exact (tiles table (extension.trans restGrows.extends_)).append (restTiles table extension)

end

end Initializer

/-! ### Declarations -/

/-- The pieces of an automatic array with an initializer cover the array. -/
theorem VarDecl.lower_tiles {decl : VarDecl} {context : Context} (tidy : context.Tidy)
    (explicit : decl.Explicit context.symbols false) (isAutomatic : decl.storageClass = none)
    {init : Initializer} (isInit : decl.init = some init) (isArray : decl.type.isArray)
    (fits : decl.type.Fits) (dimensions : decl.type.HasPositiveDimensions) :
    Yields decl.lower context fun code after => ∀ table : SymbolTable,
      table.Extends after.symbols →
        Tiles 0 (Code.pieces table decl.name code) decl.type.byteCount := by
  rcases decl with ⟨loc, name, type, storageClass, _⟩
  cases isAutomatic
  cases isInit
  have initExplicit : init.Explicit context.symbols false type := explicit.2 init rfl
  have tiles := Initializer.lowerAt_tiles name init tidy initExplicit fits dimensions (Int.le_refl 0)
    (by rw [Int.zero_add]; exact fits.lt)
  rw [Int.zero_add] at tiles
  cases type with
  | array size element => exact tiles.mono fun _ _ emits => emits.2
  | void | integer | double | pointer | function => cases isArray

/-- No object is declared with a dimension that is zero or negative. -/
def TreePredicate.dimensioned : TreePredicate where
  loc _ := True
  expr _ := True
  object _ decl := decl.type.HasPositiveDimensions
  function _ := True
  label _ := True
  cases _ := True

namespace Program

/-- Changes that keep the types of objects keep their dimensions. -/
theorem dimensioned_mapParts {program : Program} {change : TreeMap}
    (sameType : ∀ isFile decl, (change.object isFile decl).type = decl.type) :
    (program.mapParts change).Forall .dimensioned ↔ program.Forall .dimensioned := by
  have there : (TreePredicate.dimensioned.comap change).Implies .dimensioned :=
    ⟨fun _ => id, fun _ _ => trivial, fun isFile decl => (sameType isFile decl).subst,
      fun _ _ => trivial, fun _ _ => trivial, fun _ _ => trivial⟩
  have back : TreePredicate.dimensioned.Implies (TreePredicate.dimensioned.comap change) :=
    ⟨fun _ => id, fun _ _ => trivial, fun isFile decl => (sameType isFile decl).symm.subst,
      fun _ _ => trivial, fun _ _ => trivial, fun _ _ => trivial⟩
  rw [forall_mapParts]
  exact ⟨Forall.mono there, Forall.mono back⟩

/-- The parser refuses dimensions that are not positive, and analysis changes no type of an
object. -/
theorem dimensioned_of_analyze {source : Text} {program analysed : Program} {lastId : Nat}
    {context : Context} (parses : parse source = .ok (program, lastId))
    (accepts : program.analyze.run (parsedContext lastId) = .ok (analysed, context)) :
    analysed.Forall .dimensioned := by
  rcases plain_of_parse parses with ⟨isWritten, numbered⟩
  have declared : Origin.plain.parts.Implies .dimensioned :=
    ⟨fun _ _ => trivial, fun _ _ => trivial, fun _ _ isDeclared => isDeclared.dimensions,
      fun _ _ => trivial, fun _ _ => trivial, fun _ _ => trivial⟩
  have restored := ((analyze_restores isWritten numbered _ (Nat.le_refl lastId)).of_ok accepts).2
  have adjusted : (program.mapParts .adjusted).Forall .dimensioned := by
    refine (dimensioned_mapParts fun isFile decl => ?_).2 (isWritten.mono declared)
    unfold TreeMap.adjusted VarDecl.adjusted
    dsimp only
    split <;> rfl
  rw [← restored, dimensioned_mapParts fun _ _ => rfl, dimensioned_mapParts fun _ _ => rfl]
    at adjusted
  exact adjusted

/-- The pieces in which the functions of an accepted source initialize an automatic array lie side
by side, from its first byte to its last, as long as the array has a size that is in the range of
sizes. So each byte is written by exactly one instruction, whatever the initializer is made of. -/
theorem arrays_tiled {source : Text} {program analysed : Program} {lastId : Nat}
    {context final : Context} {linear : LinearProgram}
    (parses : parse source = .ok (program, lastId))
    (accepts : program.analyze.run (parsedContext lastId) = .ok (analysed, context))
    (lowers : analysed.lower.run context = .ok (linear, final)) :
    List.Forall₂ (fun definition function => ∀ decl,
      .object decl ∈ Item.partsList definition.2 → decl.storageClass = none → decl.init.isSome →
      decl.type.isArray → decl.type.Fits →
      ∃ front own back first second, function.body = front ++ own ++ back ∧
        decl.lower.run first = .ok (own, second) ∧
        Tiles 0 (Code.pieces final.symbols decl.name own) decl.type.size ∧
        ∀ byte : Int, 0 ≤ byte → byte < decl.type.size →
          (Code.pieces final.symbols decl.name own).countP (covers byte) = 1)
      analysed.definitions linear.functions := by
  have parts := parts_of_lower parses accepts lowers
  have dimensioned := dimensioned_of_analyze parses accepts
  rw [List.forall₂_iff_zip] at parts ⊢
  refine ⟨parts.1, ?_⟩
  intro definition function mem decl isPart isAutomatic hasInit isArray fits
  rcases Option.isSome_iff_exists.1 hasInit with ⟨init, isInit⟩
  have dimensions : decl.type.HasPositiveDimensions :=
    dimensioned.parts (List.of_mem_zip mem).1 _ isPart
  rcases ((parts.2 mem).2 _ isPart).holds with
    ⟨front, own, back, first, second, same, _, tidy, explicit, runs, grows⟩
  have tiles := (VarDecl.lower_tiles tidy explicit isAutomatic isInit isArray fits
    dimensions).of_ok runs final.symbols grows.extends_
  rw [← fits.size_eq] at tiles
  refine ⟨front, own, back, first, second, same, runs, tiles, fun byte nonneg less => ?_⟩
  rw [tiles.countP_covers byte, if_pos ⟨nonneg, less⟩]

/-- A row that a string fills up to its null, and one with a computed character and zeros. -/
theorem arrays_tiled_rows :
    ∃ program lastId analysed context linear final,
      parse "int f(int x) \x7b char s[2][6] = \x7b\"hello\", \x7b'a', x\x7d\x7d; return x; \x7d" =
          .ok (program, lastId) ∧
        program.analyze.run (parsedContext lastId) = .ok (analysed, context) ∧
        analysed.lower.run context = .ok (linear, final) ∧
        ∃ function own name, linear.functions = [function] ∧ own <:+: function.body ∧
          Tiles 0 (Code.pieces final.symbols name own) 12 := by
  have computed : succeedsWith (fun parsed => succeedsWith (fun analysed => succeedsWith
        (fun _ => analysed.1.definitions.length = 1 ∧ ∀ definition ∈ analysed.1.definitions,
          (Item.partsList definition.2).any fun part => part.object?.any fun decl =>
            decl.storageClass = none ∧ decl.init.isSome ∧ decl.type = .array 2 (.array 6 .char))
        (analysed.1.lower.run analysed.2)) (parsed.1.analyze.run (parsedContext parsed.2)))
      (parse "int f(int x) \x7b char s[2][6] = \x7b\"hello\", \x7b'a', x\x7d\x7d; return x; \x7d") := by
    decide +kernel
  rcases exists_of_succeedsWith computed with ⟨⟨program, lastId⟩, parses, computed⟩
  rcases exists_of_succeedsWith computed with ⟨⟨analysed, context⟩, accepts, computed⟩
  rcases exists_of_succeedsWith computed with ⟨⟨linear, final⟩, lowers, computed⟩
  rcases of_decide_eq_true computed with ⟨single, hasArray⟩
  rcases List.length_eq_one_iff.1 single with ⟨definition, single⟩
  rcases List.any_eq_true.1 (hasArray definition (by simp [single])) with ⟨part, mem, isArray⟩
  rcases (Option.any_eq_true _ _).1 isArray with ⟨decl, isObject, isArray⟩
  cases Part.eq_of_object? isObject
  rcases of_decide_eq_true isArray with ⟨isAutomatic, hasInit, sameType⟩
  have fits : decl.type.Fits := by
    rw [sameType]
    exact ⟨by decide, by decide⟩
  have tiled := arrays_tiled parses accepts lowers
  rw [single, List.forall₂_cons_left_iff] at tiled
  rcases tiled with ⟨function, others, tiled, none, functions⟩
  cases none
  rcases tiled decl mem isAutomatic hasInit (by rw [sameType]; rfl) fits with
    ⟨front, own, back, _, _, same, _, tiles, _⟩
  rw [sameType] at tiles
  exact ⟨program, lastId, analysed, context, linear, final, parses, accepts, lowers, function, own,
    decl.name, functions, ⟨front, back, same.symm⟩, tiles⟩

end Program

end SubsetC
