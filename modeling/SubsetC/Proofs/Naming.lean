import SubsetC.Context
import Mathlib.Data.List.Basic

/-!
# Internal names and the growth of the symbol table

Internal names come in two sorts that never meet. Names with linkage keep the spelling of the
source and hold no dot; every other object, temporary and string has a name that ends in a dot and
a number drawn from the counter of the compilation unit. A number is drawn once, so two names made
at different times differ.

From this it follows how the symbol table changes: `Context.Grows` says that a pass keeps the type
and the kind of every symbol there is, and which names it may enter.
-/

namespace SubsetC

namespace Text

/-! ### Decimal digits -/

theorem toNat_ofAscii_of_isDigit {digit : Char} (isDigit : digit.isDigit) :
    (ofAscii digit).toNat = digit.toNat ∧ 48 ≤ digit.toNat ∧ digit.toNat ≤ 57 := by
  simp only [Char.isDigit, Bool.and_eq_true, decide_eq_true_eq, ge_iff_le, UInt32.le_iff_toNat_le]
    at isDigit
  have lower : 48 ≤ digit.val.toNat := isDigit.1
  have upper : digit.val.toNat ≤ 57 := isDigit.2
  refine ⟨?_, lower, upper⟩
  simp only [ofAscii, Char.toUInt8, UInt32.toNat_toUInt8, Char.toNat]
  omega

theorem isDigit_of_mem_ofNat {number : Nat} {byte : UInt8} (mem : byte ∈ ofNat number) :
    48 ≤ byte.toNat ∧ byte.toNat ≤ 57 := by
  rcases List.mem_map.1 mem with ⟨digit, digitMem, rfl⟩
  have isDigit := Nat.isDigit_of_mem_toDigits (by decide) (by decide) digitMem
  have facts := toNat_ofAscii_of_isDigit isDigit
  omega

theorem map_char_ofNat (number : Nat) :
    (ofNat number).map (fun byte => Char.ofNat byte.toNat) = Nat.toDigits 10 number := by
  rw [ofNat, List.map_map]
  conv_rhs => rw [← List.map_id (Nat.toDigits 10 number)]
  refine List.map_congr_left ?_
  intro digit digitMem
  have isDigit := Nat.isDigit_of_mem_toDigits (by decide) (by decide) digitMem
  simp [(toNat_ofAscii_of_isDigit isDigit).1]

theorem ofNat_injective {left right : Nat} (same : ofNat left = ofNat right) : left = right := by
  have digits : Nat.toDigits 10 left = Nat.toDigits 10 right := by
    rw [← map_char_ofNat, same, map_char_ofNat]
  rw [← Nat.ofDigitChars_ten_toDigits (n := left), digits, Nat.ofDigitChars_ten_toDigits]

/-! ### A stem, a mark and a number -/

/-- Two texts without the bytes that stand behind them. -/
theorem append_inj_of_boundary (isMark : UInt8 → Prop) {left right rest otherRest : Text}
    (leftInside : ∀ byte ∈ left, ¬isMark byte) (rightInside : ∀ byte ∈ right, ¬isMark byte)
    (boundary : ∀ byte ∈ rest.head?, isMark byte)
    (otherBoundary : ∀ byte ∈ otherRest.head?, isMark byte)
    (same : left ++ rest = right ++ otherRest) : left = right ∧ rest = otherRest := by
  rcases List.append_eq_append_iff.1 same with ⟨more, rfl, rfl⟩ | ⟨more, rfl, rfl⟩
  · cases more with
    | nil => simp
    | cons byte more => exact absurd (boundary byte (by simp)) (rightInside byte (by simp))
  · cases more with
    | nil => simp
    | cons byte more => exact absurd (otherBoundary byte (by simp)) (leftInside byte (by simp))

/-- A byte that is no decimal digit. -/
def IsMark (byte : UInt8) : Prop := byte.toNat < 48 ∨ 57 < byte.toNat

instance (byte : UInt8) : Decidable (IsMark byte) := inferInstanceAs (Decidable (_ ∨ _))

/-- A text that ends in a mark and a number determines what stands before the mark, the mark, and
the number. -/
theorem mark_number_inj {mark otherMark : UInt8} (isMark : IsMark mark)
    (isOtherMark : IsMark otherMark) {left right : Text} {first second : Nat}
    (same : left ++ mark :: ofNat first = right ++ otherMark :: ofNat second) :
    left = right ∧ mark = otherMark ∧ first = second := by
  have inside : ∀ number, ∀ byte ∈ (ofNat number).reverse, ¬IsMark byte := by
    intro number byte mem isMark
    have isDigit := isDigit_of_mem_ofNat (List.mem_reverse.1 mem)
    rcases isMark with low | high <;> omega
  have reversed := congrArg List.reverse same
  simp only [List.reverse_append, List.reverse_cons, List.append_assoc, List.singleton_append]
    at reversed
  have parts := append_inj_of_boundary IsMark (inside first) (inside second)
    (by simpa using isMark) (by simpa using isOtherMark) reversed
  rcases List.cons.inj parts.2 with ⟨sameMark, stems⟩
  exact ⟨List.reverse_injective stems, sameMark, ofNat_injective (List.reverse_injective parts.1)⟩

theorem ofString_dot : ofString "." = [ofAscii '.'] := rfl

theorem ofString_underscore : ofString "_" = [ofAscii '_'] := rfl

/-! ### Sorts of names -/

/-- A base, a dot and a number. -/
def numbered (base : Text) (number : Nat) : Text := base ++ "." ++ ofNat number

/-- A name without a dot, as identifiers of a source are. -/
def IsPlain (name : Text) : Prop := ofAscii '.' ∉ name

/-- A name that ends in a dot and a number between two bounds. -/
def IsNumbered (low high : Nat) (name : Text) : Prop :=
  ∃ base number, low ≤ number ∧ number < high ∧ name = numbered base number

theorem numbered_inj {left right : Text} {first second : Nat}
    (same : numbered left first = numbered right second) : left = right ∧ first = second := by
  simp only [numbered, ofString_dot, List.append_assoc, List.singleton_append] at same
  exact (mark_number_inj (by decide) (by decide) same).imp_right And.right

theorem IsNumbered.not_plain {low high : Nat} {name : Text} (isNumbered : IsNumbered low high name) :
    ¬IsPlain name := by
  rcases isNumbered with ⟨base, number, _, _, rfl⟩
  simp [IsPlain, numbered, ofString_dot]

theorem IsNumbered.widen {low high low' high' : Nat} {name : Text}
    (isNumbered : IsNumbered low high name) (lower : low' ≤ low) (upper : high ≤ high') :
    IsNumbered low' high' name := by
  rcases isNumbered with ⟨base, number, isLow, isHigh, rfl⟩
  exact ⟨base, number, by omega, by omega, rfl⟩

/-- Names whose numbers are drawn from intervals that do not overlap differ. -/
theorem IsNumbered.ne {low middle middle' high : Nat} {left right : Text}
    (isLeft : IsNumbered low middle left) (isRight : IsNumbered middle' high right)
    (apart : middle ≤ middle') : left ≠ right := by
  rcases isLeft with ⟨leftBase, leftNumber, _, below, rfl⟩
  rcases isRight with ⟨rightBase, rightNumber, above, _, rfl⟩
  intro same
  have := (numbered_inj same).2
  omega

theorem isNumbered_numbered (base : Text) (number : Nat) :
    IsNumbered number (number + 1) (numbered base number) :=
  ⟨base, number, Nat.le_refl _, Nat.lt_succ_self _, rfl⟩

/-! ### Names drawn one after the other -/

/-- Different names whose numbers lie between two bounds. -/
structure Drawn (low high : Nat) (names : List Text) : Prop where
  le : low ≤ high
  /-- No name is drawn twice. -/
  nodup : names.Nodup
  /-- Every name has its number. -/
  isNumbered : ∀ name ∈ names, IsNumbered low high name

namespace Drawn

theorem nil (number : Nat) : Drawn number number [] :=
  ⟨Nat.le_refl _, List.nodup_nil, by simp⟩

theorem single (base : Text) (number : Nat) : Drawn number (number + 1) [numbered base number] :=
  ⟨Nat.le_succ _, by simp, by simpa using isNumbered_numbered base number⟩

theorem append {low middle high : Nat} {first second : List Text} (left : Drawn low middle first)
    (right : Drawn middle high second) : Drawn low high (first ++ second) := by
  refine ⟨Nat.le_trans left.le right.le, ?_, ?_⟩
  · refine List.nodup_append.2 ⟨left.nodup, right.nodup, ?_⟩
    intro name nameMem other otherMem
    exact (left.isNumbered name nameMem).ne (right.isNumbered other otherMem) (Nat.le_refl _)
  · intro name nameMem
    rcases List.mem_append.1 nameMem with leftMem | rightMem
    · exact (left.isNumbered name leftMem).widen (Nat.le_refl _) right.le
    · exact (right.isNumbered name rightMem).widen left.le (Nat.le_refl _)

theorem widen {low high high' : Nat} {names : List Text} (drawn : Drawn low high names)
    (upper : high ≤ high') : Drawn low high' names :=
  ⟨Nat.le_trans drawn.le upper, drawn.nodup,
    fun name mem => (drawn.isNumbered name mem).widen (Nat.le_refl _) upper⟩

end Drawn

end Text

/-! ### Symbols by name -/

namespace SymbolTable

theorem find?_put (symbol : Symbol) (rows : List Symbol) (name : Text) :
    (put symbol rows).find? (fun row => row.name = name) =
      if symbol.name = name then some symbol else rows.find? (fun row => row.name = name) := by
  induction rows with
  | nil => by_cases same : symbol.name = name <;> simp [put, same]
  | cons row rows ih =>
      simp only [put]
      by_cases replaced : row.name = symbol.name
      · by_cases same : symbol.name = name <;> simp [replaced, same]
      · by_cases same : symbol.name = name
        · have : row.name ≠ name := fun equal => replaced (equal.trans same.symm)
          simp [ih, same, this]
        · rw [if_neg replaced]
          by_cases found : row.name = name <;> simp [ih, same, found]

theorem find?_set (table : SymbolTable) (name other : Text) (type : CType) (storage : Storage) :
    (table.set name type storage).find? other =
      if name = other then some ⟨name, type, storage⟩ else table.find? other :=
  find?_put ⟨name, type, storage⟩ table.symbols other

@[simp]
theorem find?_empty (name : Text) : empty.find? name = none := rfl

end SymbolTable

/-- The kinds of storage, without what a later declaration may add to them. -/
inductive StorageKind where
  | function
  | static
  | constant
  | automatic
  deriving DecidableEq

def Storage.kind : Storage → StorageKind
  | .function _ _ => .function
  | .static _ _ => .static
  | .constant _ => .constant
  | .automatic => .automatic

/-- A later table has all symbols of an earlier one, with the same types and kinds. -/
def SymbolTable.Extends (later earlier : SymbolTable) : Prop :=
  ∀ name symbol, earlier.find? name = some symbol →
    ∃ kept, later.find? name = some kept ∧ kept.type = symbol.type ∧
      kept.storage.kind = symbol.storage.kind

namespace SymbolTable.Extends

theorem refl (table : SymbolTable) : table.Extends table :=
  fun _ symbol found => ⟨symbol, found, rfl, rfl⟩

theorem trans {first second third : SymbolTable} (later : third.Extends second)
    (earlier : second.Extends first) : third.Extends first := by
  intro name symbol found
  rcases earlier name symbol found with ⟨kept, keptFound, sameType, sameKind⟩
  rcases later name kept keptFound with ⟨last, lastFound, lastType, lastKind⟩
  exact ⟨last, lastFound, lastType.trans sameType, lastKind.trans sameKind⟩

theorem isSome {later earlier : SymbolTable} (extension : later.Extends earlier) {name : Text}
    (known : (earlier.find? name).isSome) : (later.find? name).isSome := by
  rcases Option.isSome_iff_exists.1 known with ⟨symbol, found⟩
  rcases extension name symbol found with ⟨kept, keptFound, _⟩
  simp [keptFound]

end SymbolTable.Extends

/-- What a pass that declares the given names does to the shared state. The counter does not go
back, the symbols there are keep their types and kinds, and every new symbol has one of the given
names or a name numbered on the way. -/
structure Context.Grows (names : List Text) (before after : Context) : Prop where
  le : before.nextName ≤ after.nextName
  /-- Symbols stay as they are. -/
  extends_ : after.symbols.Extends before.symbols
  /-- Where new symbols get their names from. -/
  adds : ∀ name, before.symbols.find? name = none → (after.symbols.find? name).isSome →
    name ∈ names ∨ name.IsNumbered before.nextName after.nextName

namespace Context.Grows

variable {names more : List Text} {first second third : Context}

theorem refl (names : List Text) (context : Context) : context.Grows names context :=
  ⟨Nat.le_refl _, .refl _, fun name absent present => by simp [absent] at present⟩

theorem mono (grows : first.Grows names second) (subset : names ⊆ more) :
    first.Grows more second := by
  refine ⟨grows.le, grows.extends_, ?_⟩
  intro name absent present
  rcases grows.adds name absent present with mem | other
  · exact .inl (subset mem)
  · exact .inr other

theorem trans (earlier : first.Grows names second) (later : second.Grows names third) :
    first.Grows names third := by
  refine ⟨Nat.le_trans earlier.le later.le, later.extends_.trans earlier.extends_, ?_⟩
  intro name absent present
  cases middle : second.symbols.find? name with
  | none =>
      rcases later.adds name middle present with mem | isNumbered
      · exact .inl mem
      · exact .inr (isNumbered.widen earlier.le (Nat.le_refl _))
  | some symbol =>
      rcases earlier.adds name absent (by simp [middle]) with mem | isNumbered
      · exact .inl mem
      · exact .inr (isNumbered.widen (Nat.le_refl _) later.le)

theorem append (earlier : first.Grows names second) (later : second.Grows more third) :
    first.Grows (names ++ more) third :=
  (earlier.mono (List.subset_append_left _ _)).trans (later.mono (List.subset_append_right _ _))

/-- Entering a symbol under a name that has none. -/
theorem set_of_absent {context : Context} {name : Text} (absent : context.symbols.find? name = none)
    (type : CType) (storage : Storage) (mem : name ∈ names) :
    context.Grows names { context with symbols := context.symbols.set name type storage } := by
  refine ⟨Nat.le_refl _, ?_, ?_⟩
  · intro other symbol found
    have differ : name ≠ other := by
      rintro rfl
      simp [absent] at found
    exact ⟨symbol, by simpa [SymbolTable.find?_set, differ] using found, rfl, rfl⟩
  · intro other otherAbsent present
    by_cases same : name = other
    · exact .inl (same ▸ mem)
    · simp [SymbolTable.find?_set, same, otherAbsent] at present

/-- Replacing a symbol by one of the same type and kind. -/
theorem set_of_found {context : Context} {name : Text} {symbol : Symbol}
    (found : context.symbols.find? name = some symbol) {storage : Storage}
    (sameKind : storage.kind = symbol.storage.kind) :
    context.Grows names
      { context with symbols := context.symbols.set name symbol.type storage } := by
  refine ⟨Nat.le_refl _, ?_, ?_⟩
  · intro other previous previousFound
    by_cases same : name = other
    · subst same
      obtain rfl : symbol = previous := Option.some.inj (found.symm.trans previousFound)
      exact ⟨⟨name, symbol.type, storage⟩, by simp [SymbolTable.find?_set], rfl, sameKind⟩
    · exact ⟨previous, by simpa [SymbolTable.find?_set, same] using previousFound, rfl, rfl⟩
  · intro other otherAbsent present
    by_cases same : name = other
    · subst same
      simp [found] at otherAbsent
    · simp [SymbolTable.find?_set, same, otherAbsent] at present

end Context.Grows

namespace Context

/-- All names of the symbol table are plain or have numbers that are already drawn. -/
def Tidy (context : Context) : Prop :=
  ∀ name, (context.symbols.find? name).isSome →
    name.IsPlain ∨ name.IsNumbered 0 context.nextName

variable {context after : Context} {names more : List Text}

theorem Grows.tidy (grows : context.Grows names after) (tidy : context.Tidy)
    (drawn : ∀ name ∈ names, name.IsPlain ∨ name.IsNumbered 0 context.nextName) : after.Tidy := by
  have earlier : ∀ name : Text, name.IsPlain ∨ name.IsNumbered 0 context.nextName →
      name.IsPlain ∨ name.IsNumbered 0 after.nextName := by
    intro name sort
    exact sort.imp_right fun isNumbered => isNumbered.widen (Nat.le_refl _) grows.le
  intro name present
  cases found : context.symbols.find? name with
  | none =>
      rcases grows.adds name found present with mem | isNumbered
      · exact earlier name (drawn name mem)
      · exact .inr (isNumbered.widen (Nat.zero_le _) (Nat.le_refl _))
  | some symbol => exact earlier name (tidy name (by simp [found]))

end Context

/-! ### Entering symbols -/

/-- Whether the type is that of a function with parameters that have sizes, and with a scalar result
or none. -/
def CType.isSignature : CType → Bool
  | .function parameters result => parameters.all isComplete && (result.isVoid || result.isScalar)
  | _ => false

theorem CType.isFunction_of_isSignature {type : CType} (isSignature : type.isSignature) :
    type.isFunction := by
  cases type with
  | function parameters result => rfl
  | _ => cases isSignature

theorem CType.isSignature_function {parameters : List CType} {result : CType}
    (complete : ∀ type ∈ parameters, type.isComplete) (notArray : result.isArray = false)
    (notFunction : result.isFunction = false) : (function parameters result).isSignature := by
  have hasValue : result.isVoid || result.isScalar := by
    cases result with
    | array => cases notArray
    | function => cases notFunction
    | void | integer | double | pointer => rfl
  simp only [isSignature, Bool.and_eq_true, List.all_eq_true]
  exact ⟨complete, hasValue⟩

/-- Symbols of a kind can have the type: a function has a signature, and an object a size. -/
def StorageKind.CanHave (kind : StorageKind) (type : CType) : Prop :=
  type.isComplete ∨ type.isSignature ∧ kind = .function

/-- Every symbol is a function or an object that has a size. -/
def SymbolTable.Sound (table : SymbolTable) : Prop :=
  ∀ name symbol, table.find? name = some symbol → symbol.storage.kind.CanHave symbol.type

theorem SymbolTable.Sound.set {table : SymbolTable} (sound : table.Sound) (name : Text)
    {type : CType} (storage : Storage) (declarable : storage.kind.CanHave type) :
    (table.set name type storage).Sound := by
  intro other symbol found
  rw [find?_set] at found
  split at found
  · cases found
    exact declarable
  · exact sound other symbol found

namespace Context

/-- The shared state of passes after resolution: names are in order, and objects have sizes. -/
structure Valid (context : Context) : Prop where
  /-- Names are plain or drawn. -/
  tidy : context.Tidy
  /-- Symbols are functions or have a size. -/
  sound : context.symbols.Sound

variable {context : Context} {name : Text} {type : CType}

theorem Valid.enter (valid : context.Valid) (absent : context.symbols.find? name = none)
    (sort : name.IsPlain ∨ name.IsNumbered 0 context.nextName) (storage : Storage)
    (declarable : storage.kind.CanHave type) :
    context.Grows [name] { context with symbols := context.symbols.set name type storage } ∧
      ({ context with symbols := context.symbols.set name type storage } : Context).Valid := by
  have grows := Grows.set_of_absent absent type storage (List.mem_singleton_self name)
  exact ⟨grows, grows.tidy valid.tidy (by simpa using sort), valid.sound.set name storage declarable⟩

/-- Declaring a name again leaves a symbol of the same type and kind. -/
theorem Valid.replace (valid : context.Valid) {symbol : Symbol}
    (found : context.symbols.find? name = some symbol) {storage : Storage}
    (sameKind : storage.kind = symbol.storage.kind) (names : List Text) :
    context.Grows names
        { context with symbols := context.symbols.set name symbol.type storage } ∧
      ({ context with symbols := context.symbols.set name symbol.type storage } : Context).Valid := by
  have grows : context.Grows [] _ := Grows.set_of_found found sameKind
  refine ⟨grows.mono (List.nil_subset _), grows.tidy valid.tidy (by simp), ?_⟩
  exact valid.sound.set name storage (sameKind ▸ valid.sound name symbol found)

theorem Tidy.find?_fresh (tidy : context.Tidy) (base : Text) :
    context.symbols.find? (Text.numbered base context.nextName) = none := by
  have isNumbered := Text.isNumbered_numbered base context.nextName
  by_contra present
  rcases tidy _ (Option.isSome_iff_ne_none.2 present) with plain | earlier
  · exact isNumbered.not_plain plain
  · exact earlier.ne isNumbered (Nat.le_refl _) rfl

/-- Entering a symbol under a name that is drawn for it. -/
theorem Tidy.enterFresh (tidy : context.Tidy) (base : Text) (type : CType) (storage : Storage) :
    context.Grows [] ⟨context.lastId, context.nextName + 1,
      context.symbols.set (Text.numbered base context.nextName) type storage⟩ := by
  have isNumbered := Text.isNumbered_numbered base context.nextName
  have entered := Grows.set_of_absent (tidy.find?_fresh base) type storage
    (List.mem_singleton_self _)
  refine ⟨Nat.le_succ _, entered.extends_, ?_⟩
  intro other absent present
  rcases entered.adds other absent present with mem | drawn
  · exact .inr (List.mem_singleton.1 mem ▸ isNumbered)
  · exact .inr (drawn.widen (Nat.le_refl _) (Nat.le_succ _))

end Context

end SubsetC
