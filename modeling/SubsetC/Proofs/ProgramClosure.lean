import SubsetC.Proofs.LocalObjects

/-!
# Lowered compilation units are complete

A lowered compilation unit has the functions that the source defines, the static objects that it
defines and the strings that it needs, each under a name of its own. Whatever its code or its
initializers mention is among them, is an automatic object of one function, or is an object that
another compilation unit has to provide.
-/

namespace SubsetC

/-! ### Completeness -/

/-- Whether a storage is that of a static object that this compilation unit defines. -/
def Storage.isDefinedObject : Storage → Bool
  | .static .tentative _ | .static (.initial _) _ => true
  | .static .absent _ | .function _ _ | .constant _ | .automatic => false

/-- Whether a storage is that of a read-only object. -/
def Storage.isConstant : Storage → Bool
  | .constant _ => true
  | .function _ _ | .static _ _ | .automatic => false

/-- The name is that of an automatic object. -/
def SymbolTable.IsAutomatic (table : SymbolTable) (name : Text) : Prop :=
  ∃ symbol, table.find? name = some symbol ∧ symbol.storage = .automatic

/-- The name is that of an object that another compilation unit has to provide. -/
def SymbolTable.IsExternal (table : SymbolTable) (name : Text) : Prop :=
  ∃ symbol, table.find? name = some symbol ∧ symbol.storage = .static .absent true

/-- What an object holds at first. -/
def TopLevel.items : TopLevel → List StaticItem
  | .function _ => []
  | .object item => item.items
  | .constant item => [item.item]

namespace LinearProgram

/-- The name is that of an object that the compilation unit has, or that another one provides. -/
def Provides (linear : LinearProgram) (table : SymbolTable) (name : Text) : Prop :=
  (∃ item ∈ linear, item.function? = none ∧ item.name = name) ∨ table.IsExternal name

/-- The compilation unit has the given functions, and all that they need. -/
structure Complete (definitions : List Text) (table : SymbolTable) (linear : LinearProgram) :
    Prop where
  /-- No two items have the same name. -/
  distinct : (linear.map TopLevel.name).Nodup
  /-- The functions come first, then the static objects that are defined here and then the read-only
  objects, both in the order of the table. -/
  parts : ∃ (functions : List Function) (objects : List StaticObject)
    (constants : List StaticConstant),
    linear = functions.map .function ++ objects.map .object ++ constants.map .constant ∧
      functions.map Function.name = definitions ∧
      objects.map StaticObject.name =
        (table.symbols.filter fun symbol => symbol.storage.isDefinedObject).map Symbol.name ∧
      constants.map StaticConstant.name =
        (table.symbols.filter fun symbol => symbol.storage.isConstant).map Symbol.name
  /-- Code mentions automatic objects and what is provided. -/
  operands : ∀ function ∈ linear.functions, ∀ name ∈ Code.names function.body,
    table.IsAutomatic name ∨ linear.Provides table name
  /-- Addresses in initializers are those of what is provided. -/
  addresses : ∀ item ∈ linear, ∀ name, .pointer name ∈ item.items → linear.Provides table name
  /-- Code calls functions. -/
  callees : ∀ function ∈ linear.functions, ∀ name ∈ Code.callees function.body,
    ∃ parameters result, table.HasFunction name parameters result
  /-- Automatic objects belong to one function. -/
  apart : linear.functions.Pairwise fun first second => ∀ name, table.IsAutomatic name →
    name ∈ first.names → name ∉ second.names

end LinearProgram

/-! ### Objects of the symbol table -/

namespace Symbol

theorem names_staticObject? (rows : List Symbol) :
    (rows.filterMap staticObject?).map StaticObject.name =
      (rows.filter fun row => row.storage.isDefinedObject).map Symbol.name := by
  induction rows with
  | nil => rfl
  | cons row rows ih =>
      rcases row with ⟨name, type, storage⟩
      cases storage with
      | static init isGlobal =>
          cases init with
          | absent => exact ih
          | tentative | initial => exact congrArg (name :: ·) ih
      | function | constant | automatic => exact ih

theorem names_staticConstant? (rows : List Symbol) :
    (rows.filterMap staticConstant?).map StaticConstant.name =
      (rows.filter fun row => row.storage.isConstant).map Symbol.name := by
  induction rows with
  | nil => rfl
  | cons row rows ih =>
      rcases row with ⟨name, type, storage⟩
      cases storage with
      | constant item => exact congrArg (name :: ·) ih
      | function | static | automatic => exact ih

/-- An address in a static object is one in the row of its symbol. -/
theorem pointer_mem_of_staticObject? {symbol : Symbol} {object : StaticObject} {name : Text}
    (isObject : symbol.staticObject? = some object) (mem : .pointer name ∈ object.items) :
    .pointer name ∈ symbol.storage.items := by
  rcases symbol with ⟨own, type, storage⟩
  cases storage with
  | static init isGlobal =>
      cases init with
      | absent => cases isObject
      | tentative =>
          cases isObject
          exact absurd (StaticItem.pointer_mem_of_appendZero mem) List.not_mem_nil
      | initial items =>
          cases isObject
          exact mem
  | function | constant | automatic => cases isObject

end Symbol

namespace LinearProgram

/-- The items of a lowered compilation unit, made from a table. -/
structure Lists (table : SymbolTable) (linear : LinearProgram) : Prop where
  /-- Functions come first. -/
  parts : linear = linear.functions.map .function ++
    (table.symbols.filterMap Symbol.staticObject?).map .object ++
    (table.symbols.filterMap Symbol.staticConstant?).map .constant
  /-- The rows of the table are linked. -/
  linked : ∀ symbol ∈ table.symbols, symbol.Linked table
  nodup : (table.symbols.map Symbol.name).Nodup

namespace Lists

variable {table : SymbolTable} {linear : LinearProgram}

/-- Every row is that of a function, of an automatic object, or of an object that is provided. -/
theorem provides (lists : linear.Lists table) {symbol : Symbol} (mem : symbol ∈ table.symbols)
    (isObject : symbol.storage.kind ≠ .function) :
    symbol.storage = .automatic ∨ linear.Provides table symbol.name := by
  have found : table.find? symbol.name = some symbol :=
    (SymbolTable.find?_eq_some_iff lists.nodup).2 ⟨mem, rfl⟩
  have hasObject : ∀ object, symbol.staticObject? = some object → .object object ∈ linear := by
    intro object isSome
    rw [lists.parts]
    refine List.mem_append_left _ (List.mem_append_right _ (List.mem_map_of_mem ?_))
    exact List.mem_filterMap.2 ⟨symbol, mem, isSome⟩
  have hasConstant : ∀ constant, symbol.staticConstant? = some constant →
      .constant constant ∈ linear := by
    intro constant isSome
    rw [lists.parts]
    refine List.mem_append_right _ (List.mem_map_of_mem ?_)
    exact List.mem_filterMap.2 ⟨symbol, mem, isSome⟩
  have isLinked := lists.linked symbol mem
  rcases symbol with ⟨name, type, storage⟩
  cases storage with
  | function => exact absurd rfl isObject
  | automatic => exact .inl rfl
  | constant item => exact .inr (.inl ⟨_, hasConstant _ rfl, rfl, rfl⟩)
  | static init isGlobal =>
      cases init with
      | tentative | initial => exact .inr (.inl ⟨_, hasObject _ rfl, rfl, rfl⟩)
      | absent =>
          have global : isGlobal = true := isLinked.absent isGlobal rfl
          exact .inr (.inr ⟨_, found, by rw [global]⟩)

/-- What is known as a static object or a string is provided. -/
theorem provides_of_isStatic (lists : linear.Lists table) {name : Text}
    (isStatic : table.isStatic name) : linear.Provides table name := by
  rcases SymbolTable.isStatic_iff.1 isStatic with ⟨symbol, found, kind⟩
  rcases (SymbolTable.find?_eq_some_iff lists.nodup).1 found with ⟨mem, rfl⟩
  have noFunction : symbol.storage.kind ≠ .function := by
    rcases kind with same | same <;> simp [same]
  refine (lists.provides mem noFunction).resolve_left fun isAutomatic => ?_
  rcases kind with same | same <;> simp [isAutomatic, Storage.kind] at same

theorem addresses (lists : linear.Lists table) : ∀ item ∈ linear, ∀ name,
    .pointer name ∈ item.items → linear.Provides table name := by
  have resolved : ∀ symbol ∈ table.symbols, ∀ name, .pointer name ∈ symbol.storage.items →
      linear.Provides table name := fun symbol mem name isPointer =>
    lists.provides_of_isStatic ((lists.linked symbol mem).resolves name isPointer)
  intro item mem name isPointer
  rw [lists.parts] at mem
  rcases List.mem_append.1 mem with mem | mem
  · rcases List.mem_append.1 mem with mem | mem
    · rcases List.mem_map.1 mem with ⟨function, _, rfl⟩
      cases isPointer
    · rcases List.mem_map.1 mem with ⟨object, objectMem, rfl⟩
      rcases List.mem_filterMap.1 objectMem with ⟨symbol, symbolMem, isObject⟩
      exact resolved symbol symbolMem name (Symbol.pointer_mem_of_staticObject? isObject isPointer)
  · rcases List.mem_map.1 mem with ⟨constant, constantMem, rfl⟩
    rcases List.mem_filterMap.1 constantMem with ⟨⟨own, type, storage⟩, symbolMem, isConstant⟩
    cases storage with
    | constant own =>
        cases isConstant
        exact resolved _ symbolMem name isPointer
    | function | static | automatic => cases isConstant

/-- The names of all items, by the rows of the table they come from. -/
theorem names (lists : linear.Lists table) : linear.map TopLevel.name =
    linear.functions.map Function.name ++
      (table.symbols.filter fun symbol => symbol.storage.isDefinedObject).map Symbol.name ++
      (table.symbols.filter fun symbol => symbol.storage.isConstant).map Symbol.name := by
  rw [← Symbol.names_staticObject?, ← Symbol.names_staticConstant?]
  conv_lhs => rw [lists.parts]
  simp only [List.map_append, List.map_map]
  rfl

/-- If the functions have different names, so have all items. -/
theorem distinct (lists : linear.Lists table)
    (distinct : (linear.functions.map Function.name).Nodup)
    (isFunction : ∀ function ∈ linear.functions, ∃ parameters result,
      table.HasFunction function.name parameters result) :
    (linear.map TopLevel.name).Nodup := by
  have same_of_name : ∀ {first second : Symbol}, first ∈ table.symbols → second ∈ table.symbols →
      first.name = second.name → first = second := fun isFirst isSecond same =>
    Option.some.inj (((SymbolTable.find?_eq_some_iff lists.nodup).2 ⟨isFirst, same⟩).symm.trans
      ((SymbolTable.find?_eq_some_iff lists.nodup).2 ⟨isSecond, rfl⟩))
  have rows : ∀ select : Symbol → Bool, ((table.symbols.filter select).map Symbol.name).Nodup :=
    fun select => lists.nodup.sublist (List.filter_sublist.map _)
  -- A row of the name of a function is the symbol of that function, as names are entered once.
  have noFunction : ∀ select : Symbol → Bool,
      (∀ symbol, select symbol → symbol.storage.kind ≠ .function) →
      List.Disjoint (linear.functions.map Function.name)
        ((table.symbols.filter select).map Symbol.name) := by
    intro select selects name isFunctionName isRowName
    rcases List.mem_map.1 isFunctionName with ⟨function, functionMem, rfl⟩
    rcases List.mem_map.1 isRowName with ⟨row, rowMem, same⟩
    rcases List.mem_filter.1 rowMem with ⟨isRow, isSelected⟩
    rcases isFunction function functionMem with ⟨_, _, symbol, found, _, kind⟩
    rcases (SymbolTable.find?_eq_some_iff lists.nodup).1 found with ⟨isSymbol, sameName⟩
    rw [← same_of_name isRow isSymbol (same.trans sameName.symm)] at kind
    exact selects row isSelected kind
  have isObject : ∀ symbol : Symbol, symbol.storage.isDefinedObject →
      symbol.storage.kind ≠ .function := by
    rintro ⟨_, _, storage⟩ selected
    cases storage with
    | static => exact nofun
    | function | constant | automatic => cases selected
  have isConstant : ∀ symbol : Symbol, symbol.storage.isConstant →
      symbol.storage.kind ≠ .function := by
    rintro ⟨_, _, storage⟩ selected
    cases storage with
    | constant => exact nofun
    | function | static | automatic => cases selected
  rw [lists.names]
  refine List.nodup_append'.2 ⟨List.nodup_append'.2 ⟨distinct, rows _, noFunction _ isObject⟩,
    rows _, List.disjoint_append_left.2 ⟨noFunction _ isConstant, ?_⟩⟩
  intro name isObjectName isConstantName
  rcases List.mem_map.1 isObjectName with ⟨object, objectMem, rfl⟩
  rcases List.mem_map.1 isConstantName with ⟨constant, constantMem, same⟩
  rcases List.mem_filter.1 objectMem with ⟨isRow, isDefined⟩
  rcases List.mem_filter.1 constantMem with ⟨isOther, isRead⟩
  rw [same_of_name isOther isRow same] at isRead
  rcases object with ⟨_, _, storage⟩
  cases storage with
  | constant => cases isDefined
  | function | static | automatic => cases isRead

end Lists

end LinearProgram

/-! ### Lowered sources -/

namespace Program

theorem lower_parts (program : Program) {context : Context} :
    Yields program.lower context fun linear after =>
      linear = linear.functions.map .function ++
        (after.symbols.symbols.filterMap Symbol.staticObject?).map .object ++
        (after.symbols.symbols.filterMap Symbol.staticConstant?).map .constant := by
  unfold lower
  refine Ensures.bind_any fun functions after => Ensures.bind_ok (Pass.run_get _) (Ensures.pure ?_)
  rw [LinearProgram.functions_parts]

namespace Lowered

variable {program analysed : Program} {context final : Context} {linear : LinearProgram}

theorem names_analysed (lowered : program.Lowered analysed context linear final) :
    linear.functions.map Function.name =
      analysed.definitions.map fun definition => definition.1.name := by
  simpa [Function.comp_def] using congrArg (List.map Prod.fst) lowered.delivers.calls

/-- The functions have the names of the definitions in the source. -/
theorem names (lowered : program.Lowered analysed context linear final) :
    linear.functions.map Function.name =
      program.definitions.map fun definition => definition.1.name := by
  rw [lowered.names_analysed]
  exact map_eq_of_forall₂ lowered.resolved fun _ _ => FunDecl.Resolved.name

theorem nodup (lowered : program.Lowered analysed context linear final) :
    (linear.functions.map Function.name).Nodup := by
  rcases lowered.settled with ⟨labelled, settled⟩
  rw [lowered.names_analysed, map_eq_of_forall₂ settled.alike fun _ _ => FunDecl.Alike.name]
  exact settled.nodup

/-- What code mentions has a row of the table, which is not that of a function: what a definition
uses has another type, and what is made for it has no plain name. -/
theorem mentions (lowered : program.Lowered analysed context linear final) {function : Function}
    (mem : function ∈ linear.functions) {name : Text}
    (isMentioned : name ∈ Code.names function.body) :
    ∃ symbol ∈ final.symbols.symbols, symbol.name = name ∧ symbol.storage.kind ≠ .function := by
  have hasRow := (lowered.wellTyped function mem).known name (List.mem_append_right _ isMentioned)
  rcases hasRow with ⟨symbol, found⟩
  rcases (SymbolTable.find?_eq_some_iff lowered.linked.nodup).1 found with ⟨isRow, rfl⟩
  refine ⟨symbol, isRow, rfl, fun kind => ?_⟩
  rcases (lowered.linked.rows symbol isRow).function kind with ⟨isFunction, plain⟩
  rcases lowered.delivers.exists_of_mem mem with ⟨definition, isDefinition, _, _, _, delivers, _⟩
  rcases delivers.body.names symbol.name (List.mem_append_left _ isMentioned) with
    isUsed | isNumbered
  · rcases lowered.isAnalysed.explicit.uses definition isDefinition symbol.name isUsed with
      ⟨_, ⟨earlier, foundEarlier, rfl⟩, noFunction⟩
    have kept := lowered.delivers.appends.find?_of_some lowered.isAnalysed.valid.tidy foundEarlier
    cases found.symm.trans kept
    rw [isFunction] at noFunction
    cases noFunction
  · exact isNumbered.not_plain plain

/-- Automatic objects belong to one function, since their names are not plain. -/
theorem apart (lowered : program.Lowered analysed context linear final) :
    linear.functions.Pairwise fun first second => ∀ name, final.symbols.IsAutomatic name →
      name ∈ first.names → name ∉ second.names := by
  rcases lowered.settled with ⟨labelled, settled⟩
  have drawn : ∀ definition ∈ analysed.definitions, ∀ name ∈ FunDecl.objects definition,
      name.IsPlain ∨ name.IsNumbered 0 context.nextName := fun definition mem name isObject =>
    settled.linked.tidy name (lowered.isAnalysed.explicit.objects definition mem name isObject)
  refine (lowered.delivers.apart (Nat.le_refl _) drawn settled.apart).imp ?_
  rintro first second apart name ⟨symbol, found, isAutomatic⟩ isFirst isSecond
  rcases (SymbolTable.find?_eq_some_iff lowered.linked.nodup).1 found with ⟨isRow, rfl⟩
  exact (lowered.linked.rows symbol isRow).automatic isAutomatic (apart _ isFirst isSecond)

end Lowered

/-- A parsed and accepted source is lowered to a compilation unit that has exactly the functions
that the source defines and what the symbol table says is defined here, and nothing is missing. -/
theorem complete_of_lower {source : Text} {program analysed : Program} {lastId : Nat}
    {context final : Context} {linear : LinearProgram}
    (parses : Program.parse source = .ok (program, lastId))
    (accepts : program.analyze.run (parsedContext lastId) = .ok (analysed, context))
    (lowers : analysed.lower.run context = .ok (linear, final)) :
    linear.Complete (program.definitions.map fun definition => definition.1.name)
      final.symbols := by
  have lowered := lowered_of_parse parses accepts lowers
  have lists : linear.Lists final.symbols :=
    ⟨analysed.lower_parts.of_ok lowers, lowered.linked.rows, lowered.linked.nodup⟩
  constructor
  case distinct =>
    refine lists.distinct lowered.nodup fun function mem => ?_
    rcases lowered.wellTyped function mem with ⟨parameters, result, hasFunction, _⟩
    exact ⟨parameters, result, hasFunction⟩
  case parts =>
    exact ⟨_, _, _, lists.parts, lowered.names, Symbol.names_staticObject? _,
      Symbol.names_staticConstant? _⟩
  case operands =>
    intro function mem name isMentioned
    rcases lowered.mentions mem isMentioned with ⟨symbol, isRow, rfl, noFunction⟩
    refine (lists.provides isRow noFunction).imp_left fun isAutomatic => ?_
    exact ⟨symbol, (SymbolTable.find?_eq_some_iff lists.nodup).2 ⟨isRow, rfl⟩, isAutomatic⟩
  case addresses => exact lists.addresses
  case callees => exact fun function mem name => lowered.callees mem
  case apart => exact lowered.apart

/-- Objects with and without an initializer, one of another compilation unit, one of a function, and
strings from an initializer and from code. -/
theorem complete_of_lower_strings :
    ∃ program lastId analysed context linear final,
      Program.parse
          "extern int e; int t; char *p = \"a\"; int f(int a) \x7b static int s = 2; return s + e; \x7d
          int main(void) \x7b return f(*p) + *\"b\" + t; \x7d" =
          .ok (program, lastId) ∧
        program.analyze.run (parsedContext lastId) = .ok (analysed, context) ∧
        analysed.lower.run context = .ok (linear, final) ∧
        linear.map TopLevel.name =
          (["f", "main", "t", "p", "s.1", "string.2", "string.7"] : List Text) ∧
        linear.Complete (program.definitions.map fun definition => definition.1.name)
          final.symbols := by
  have computed : succeedsWith (fun parsed => succeedsWith (fun analysed => succeedsWith
        (fun lowered => lowered.1.map TopLevel.name =
          (["f", "main", "t", "p", "s.1", "string.2", "string.7"] : List Text))
        (analysed.1.lower.run analysed.2)) (parsed.1.analyze.run (parsedContext parsed.2)))
      (Program.parse
        "extern int e; int t; char *p = \"a\"; int f(int a) \x7b static int s = 2; return s + e; \x7d
          int main(void) \x7b return f(*p) + *\"b\" + t; \x7d") := by
    decide +kernel
  rcases exists_of_succeedsWith computed with ⟨⟨program, lastId⟩, parses, computed⟩
  rcases exists_of_succeedsWith computed with ⟨⟨analysed, context⟩, accepts, computed⟩
  rcases exists_of_succeedsWith computed with ⟨⟨linear, final⟩, lowers, computed⟩
  exact ⟨program, lastId, analysed, context, linear, final, parses, accepts, lowers,
    of_decide_eq_true computed, complete_of_lower parses accepts lowers⟩

end Program

end SubsetC
