import SubsetC.Proofs.CheckSteps

/-!
# The symbol table of an analysed compilation unit

No name has two rows, and each row is as the declarations of the name leave it. Functions have plain
names and automatic objects do not; an object that is only declared is one of another compilation
unit; and an address in an initializer is that of a static object or a string of this table. All of
this is an invariant of the steps of the check, and of the entries that lowering makes afterwards.

A function is defined at most once.
-/

namespace SubsetC

/-! ### Rows -/

/-- The items that a storage holds at first. -/
def Storage.items : Storage → List StaticItem
  | .static init _ => init.items
  | .constant item => [item]
  | .function _ _ | .automatic => []

/-- A row of a symbol table is as the declarations of its name leave it. -/
structure Symbol.Linked (table : SymbolTable) (symbol : Symbol) : Prop where
  function : symbol.storage.kind = .function → symbol.type.isFunction ∧ symbol.name.IsPlain
  /-- An object that is only declared belongs to another compilation unit. -/
  absent : ∀ isGlobal, symbol.storage = .static .absent isGlobal → isGlobal
  /-- An automatic object has an internal name. -/
  automatic : symbol.storage = .automatic → ¬symbol.name.IsPlain
  /-- Addresses are those of static objects and strings. -/
  resolves : table.Resolves symbol.storage.items

namespace SymbolTable

theorem isStatic_iff {table : SymbolTable} {name : Text} :
    table.isStatic name ↔ ∃ symbol, table.find? name = some symbol ∧
      (symbol.storage.kind = .static ∨ symbol.storage.kind = .constant) := by
  unfold isStatic
  cases table.find? name with
  | none => simp
  | some symbol =>
      rcases symbol with ⟨_, _, storage⟩
      cases storage <;> simp [Storage.kind]

theorem Extends.isStatic {later earlier : SymbolTable} (extension : later.Extends earlier)
    {name : Text} (known : earlier.isStatic name) : later.isStatic name := by
  rcases isStatic_iff.1 known with ⟨symbol, found, isStatic⟩
  rcases extension name symbol found with ⟨kept, keptFound, _, sameKind⟩
  exact isStatic_iff.2 ⟨kept, keptFound, sameKind ▸ isStatic⟩

theorem Extends.resolves {later earlier : SymbolTable} {items : List StaticItem}
    (extension : later.Extends earlier) (resolves : earlier.Resolves items) :
    later.Resolves items :=
  fun name mem => extension.isStatic (resolves name mem)

theorem Extends.linked {later earlier : SymbolTable} {symbol : Symbol}
    (extension : later.Extends earlier) (linked : symbol.Linked earlier) : symbol.Linked later :=
  ⟨linked.function, linked.absent, linked.automatic, extension.resolves linked.resolves⟩

theorem names_put_subset (symbol : Symbol) (rows : List Symbol) :
    (put symbol rows).map Symbol.name ⊆ symbol.name :: rows.map Symbol.name := by
  intro name mem
  rcases List.mem_map.1 mem with ⟨row, rowMem, rfl⟩
  rcases mem_put rowMem with rfl | isOld
  · exact List.mem_cons_self
  · exact List.mem_cons_of_mem _ (List.mem_map_of_mem isOld)

theorem nodup_put (symbol : Symbol) {rows : List Symbol} (nodup : (rows.map Symbol.name).Nodup) :
    ((put symbol rows).map Symbol.name).Nodup := by
  induction rows with
  | nil => exact List.nodup_singleton _
  | cons row rows ih =>
      rw [List.map_cons, List.nodup_cons] at nodup
      rw [put]
      split
      · rename_i same
        rw [List.map_cons, List.nodup_cons, ← same]
        exact nodup
      · rename_i differ
        rw [List.map_cons, List.nodup_cons]
        refine ⟨fun mem => ?_, ih nodup.2⟩
        rcases List.mem_cons.1 (names_put_subset symbol rows mem) with same | mem
        · exact differ same
        · exact nodup.1 mem

/-- The symbol of a name is the row with the name. -/
theorem find?_eq_some_iff {table : SymbolTable} (nodup : (table.symbols.map Symbol.name).Nodup)
    {name : Text} {symbol : Symbol} :
    table.find? name = some symbol ↔ symbol ∈ table.symbols ∧ symbol.name = name := by
  rcases table with ⟨rows⟩
  constructor
  · intro found
    exact ⟨List.mem_of_find?_eq_some found, by simpa using List.find?_some found⟩
  · rintro ⟨mem, rfl⟩
    dsimp only [find?] at *
    induction rows with
    | nil => cases mem
    | cons row rows ih =>
        rw [List.map_cons, List.nodup_cons] at nodup
        rcases List.mem_cons.1 mem with rfl | mem
        · simp
        · have differ : row.name ≠ symbol.name :=
            fun same => nodup.1 (same ▸ List.mem_map_of_mem mem)
          simpa [differ] using ih nodup.2 mem

end SymbolTable

/-- The symbol table is in order: names are plain or drawn, none is entered twice, and every row is
linked. -/
structure Context.Linked (context : Context) : Prop where
  /-- Names are plain or drawn. -/
  tidy : context.Tidy
  nodup : (context.symbols.symbols.map Symbol.name).Nodup
  /-- Every row is linked. -/
  rows : ∀ symbol ∈ context.symbols.symbols, symbol.Linked context.symbols

/-! ### What a declaration enters -/

theorem InitialValue.merge?_eq_some {previous next init : InitialValue}
    (merged : previous.merge? next = some init) :
    (init.items = [] ∨ init.items = previous.items ∨ init.items = next.items) ∧
      (init = .absent → previous = .absent) := by
  cases previous <;> cases next <;> cases merged <;> simp [items]

namespace SymbolTable.Declares

variable {table : SymbolTable} {name : Text} {hasLinkage : Bool} {type : CType} {storage : Storage}

/-- A name is entered for the first time, or keeps its type and kind. -/
theorem keeps (declares : table.Declares name hasLinkage type storage)
    (fresh : hasLinkage = false → table.find? name = none) :
    table.find? name = none ∨ ∃ symbol, table.find? name = some symbol ∧ symbol.type = type ∧
      storage.kind = symbol.storage.kind := by
  cases declares with
  | automatic | block => exact .inl (fresh rfl)
  | function _ _ _ absent | object _ _ _ absent => exact .inl absent
  | functionAgain _ found | objectAgain _ found _ => exact .inr ⟨_, found, rfl, rfl⟩

theorem grows {context : Context} {names : List Text}
    (declares : context.symbols.Declares name hasLinkage type storage)
    (fresh : hasLinkage = false → context.symbols.find? name = none) (mem : name ∈ names) :
    context.Grows names { context with symbols := context.symbols.set name type storage } := by
  rcases declares.keeps fresh with absent | ⟨symbol, found, rfl, sameKind⟩
  · exact .set_of_absent absent type storage mem
  · exact .set_of_found found sameKind

/-- The new row is linked in every table that goes on with this one. -/
theorem linked {later : SymbolTable} (declares : table.Declares name hasLinkage type storage)
    (extension : later.Extends table) (rows : ∀ symbol ∈ table.symbols, symbol.Linked table)
    (plain : hasLinkage → name.IsPlain) (notPlain : hasLinkage = false → ¬name.IsPlain) :
    Symbol.Linked later ⟨name, type, storage⟩ := by
  cases declares with
  | automatic => exact ⟨nofun, nofun, fun _ => notPlain rfl, nofun⟩
  | block _ resolves starts =>
      refine ⟨nofun, fun isGlobal same => ?_, nofun, extension.resolves resolves⟩
      cases same
      exact absurd rfl starts
  | function _ _ isFunction _ => exact ⟨fun _ => ⟨isFunction, plain rfl⟩, nofun, nofun, nofun⟩
  | functionAgain _ found =>
      have known := rows _ (List.mem_of_find?_eq_some found)
      exact ⟨fun _ => ⟨(known.function rfl).1, plain rfl⟩, nofun, nofun, nofun⟩
  | object _ resolves starts _ =>
      refine ⟨nofun, fun isGlobal same => ?_, nofun, extension.resolves resolves⟩
      cases same
      exact starts rfl
  | @objectAgain other _ previous next init isGlobal resolves found merged =>
      have known := rows _ (List.mem_of_find?_eq_some found)
      rcases InitialValue.merge?_eq_some merged with ⟨items, isAbsent⟩
      have addresses : table.Resolves init.items := by
        rcases items with same | same | same <;> rw [same]
        · exact nofun
        · exact known.resolves
        · exact resolves
      refine ⟨nofun, fun isGlobal same => ?_, nofun, extension.resolves addresses⟩
      cases same
      exact known.absent _ (by rw [isAbsent rfl])

end SymbolTable.Declares

/-! ### Runs of steps -/

namespace Context

/-- Entering a symbol keeps the table in order if the new row is linked. -/
theorem Linked.set {context : Context} (linked : context.Linked) {name : Text} {type : CType}
    {storage : Storage} {nextName : Nat}
    (tidy : Tidy ⟨context.lastId, nextName, context.symbols.set name type storage⟩)
    (extension : (context.symbols.set name type storage).Extends context.symbols)
    (entered : Symbol.Linked (context.symbols.set name type storage) ⟨name, type, storage⟩) :
    Linked ⟨context.lastId, nextName, context.symbols.set name type storage⟩ := by
  refine ⟨tidy, SymbolTable.nodup_put _ linked.nodup, fun row mem => ?_⟩
  rcases SymbolTable.mem_put mem with rfl | isOld
  · exact entered
  · exact extension.linked (linked.rows row isOld)

namespace Steps

variable {first after : Context} {locals : List Local} {defined : List Text}

/-- The symbols there are keep their types and kinds, and new ones have the names of the
declarations or drawn names. -/
theorem grows (steps : first.Steps locals defined after) :
    first.Tidy → first.Awaits locals → first.Grows (locals.map Local.name) after ∧ after.Tidy := by
  induction steps with
  | number renumbered =>
      intro tidy _
      rcases renumbered with ⟨lastId, rfl⟩
      exact ⟨⟨Nat.le_refl _, .refl _, fun name absent present => by simp [absent] at present⟩, tidy⟩
  | string context bytes =>
      intro tidy _
      have grows := tidy.enterFresh "string" (.array (bytes.length + 1) .char)
        (.constant (.string bytes true))
      exact ⟨grows, grows.tidy tidy nofun⟩
  | again context => exact fun tidy _ => ⟨.refl _ _, tidy⟩
  | @declare context decl type storage defined declares once =>
      intro tidy awaits
      have mem := List.mem_singleton_self decl
      have grows := declares.grows (awaits.absent decl mem) (List.mem_singleton_self decl.name)
      refine ⟨grows, grows.tidy tidy fun name isName => ?_⟩
      rw [List.mem_singleton.1 isName]
      cases linkage : decl.hasLinkage with
      | false => exact .inr (awaits.isNumbered decl mem linkage)
      | true => exact .inl (awaits.plain decl mem linkage)
  | append _ _ ihEarlier ihLater =>
      intro tidy awaits
      rcases ihEarlier tidy awaits.left with ⟨grows, tidyBetween⟩
      rcases ihLater tidyBetween (awaits.right grows) with ⟨more, tidyAfter⟩
      exact ⟨by rw [List.map_append]; exact grows.append more, tidyAfter⟩

/-- The table stays in order. -/
theorem linked (steps : first.Steps locals defined after) :
    first.Linked → first.Awaits locals → after.Linked := by
  induction steps with
  | number renumbered =>
      intro linked _
      rcases renumbered with ⟨lastId, rfl⟩
      exact ⟨linked.tidy, linked.nodup, linked.rows⟩
  | string context bytes =>
      intro linked awaits
      rcases (Steps.string context bytes).grows linked.tidy awaits with ⟨grows, tidy⟩
      refine linked.set tidy grows.extends_ ⟨nofun, nofun, nofun, fun name mem => ?_⟩
      simp [Storage.items] at mem
  | again context => exact fun linked _ => linked
  | @declare context decl type storage defined declares once =>
      intro linked awaits
      rcases (Steps.declare context decl declares once).grows linked.tidy awaits with ⟨grows, tidy⟩
      have mem := List.mem_singleton_self decl
      refine linked.set tidy grows.extends_ ?_
      exact declares.linked grows.extends_ linked.rows (awaits.plain decl mem)
        fun noLinkage => (awaits.isNumbered decl mem noLinkage).not_plain
  | append earlier _ ihEarlier ihLater =>
      intro linked awaits
      exact ihLater (ihEarlier linked awaits.left)
        (awaits.right (earlier.grows linked.tidy awaits.left).1)

end Steps

end Context

/-! ### Definitions of functions -/

theorem SymbolTable.isDefined_set (table : SymbolTable) (name other : Text) (type : CType)
    (storage : Storage) : (table.set name type storage).isDefined other =
      if name = other then storage.isDefinition else table.isDefined other := by
  by_cases same : name = other <;> simp [isDefined, find?_set, same]

/-- A function that is defined stays defined. -/
theorem SymbolTable.Declares.isDefined {table : SymbolTable} {name : Text} {hasLinkage : Bool}
    {type : CType} {storage : Storage} (declares : table.Declares name hasLinkage type storage)
    (fresh : hasLinkage = false → table.find? name = none) (defined : table.isDefined name) :
    storage.isDefinition := by
  cases declares with
  | automatic | block => simp [SymbolTable.isDefined, fresh rfl] at defined
  | function _ _ _ absent | object _ _ _ absent => simp [SymbolTable.isDefined, absent] at defined
  | @functionAgain other type before isGlobal isDefinition found =>
      have wasDefined : before = true := by
        simpa [SymbolTable.isDefined, found, Storage.isDefinition] using defined
      simp [Storage.isDefinition, wasDefined]
  | objectAgain _ found _ =>
      simp [SymbolTable.isDefined, found, Storage.isDefinition] at defined

/-- Functions that are defined by the steps have not been defined before, differ from one another,
and are defined then. -/
structure Context.DefinesOnce (context : Context) (defined : List Text) (after : Context) :
    Prop where
  /-- No function is defined twice. -/
  nodup : defined.Nodup
  /-- None has been defined before. -/
  new : ∀ name ∈ defined, context.symbols.isDefined name = false
  isDefined : ∀ name ∈ defined, after.symbols.isDefined name
  /-- What has been defined before stays so. -/
  keeps : ∀ name, context.symbols.isDefined name → after.symbols.isDefined name

namespace Context

variable {first second third : Context} {locals : List Local} {defined more : List Text}

theorem DefinesOnce.refl (context : Context) : context.DefinesOnce [] context :=
  ⟨List.nodup_nil, nofun, nofun, fun _ => id⟩

theorem DefinesOnce.append (earlier : first.DefinesOnce defined second)
    (later : second.DefinesOnce more third) : first.DefinesOnce (defined ++ more) third := by
  refine ⟨List.nodup_append'.2 ⟨earlier.nodup, later.nodup, ?_⟩, ?_, ?_, ?_⟩
  · intro name isEarlier isLater
    have known := earlier.isDefined name isEarlier
    rw [later.new name isLater] at known
    cases known
  · refine List.forall_mem_append.2 ⟨earlier.new, fun name mem => ?_⟩
    by_contra isDefined
    have known := earlier.keeps name (by simpa using isDefined)
    rw [later.new name mem] at known
    cases known
  · exact List.forall_mem_append.2
      ⟨fun name mem => later.keeps name (earlier.isDefined name mem), later.isDefined⟩
  · exact fun name known => later.keeps name (earlier.keeps name known)

theorem Steps.definesOnce (steps : first.Steps locals defined second) :
    first.Tidy → first.Awaits locals → first.DefinesOnce defined second := by
  induction steps with
  | number renumbered =>
      intro _ _
      rcases renumbered with ⟨lastId, rfl⟩
      exact ⟨List.nodup_nil, nofun, nofun, fun _ => id⟩
  | string context bytes =>
      intro tidy _
      refine ⟨List.nodup_nil, nofun, nofun, fun name isDefined => ?_⟩
      rw [SymbolTable.isDefined_set, if_neg]
      · exact isDefined
      · rintro rfl
        simp [SymbolTable.isDefined, tidy.find?_fresh "string"] at isDefined
  | again context => exact fun _ _ => .refl context
  | @declare context decl type storage defined declares once =>
      intro _ awaits
      have fresh := awaits.absent decl (List.mem_singleton_self decl)
      have keeps : ∀ name, context.symbols.isDefined name →
          (context.symbols.set decl.name type storage).isDefined name := by
        intro name isDefined
        rw [SymbolTable.isDefined_set]
        split
        · rename_i same
          exact declares.isDefined fresh (same ▸ isDefined)
        · exact isDefined
      rcases once with rfl | ⟨rfl, isDefinition, isNew⟩
      · exact ⟨List.nodup_nil, nofun, nofun, keeps⟩
      · refine ⟨List.nodup_singleton _, by simpa using isNew, ?_, keeps⟩
        simpa [SymbolTable.isDefined_set] using isDefinition
  | append earlier _ ihEarlier ihLater =>
      intro tidy awaits
      rcases earlier.grows tidy awaits.left with ⟨grows, tidyBetween⟩
      exact (ihEarlier tidy awaits.left).append (ihLater tidyBetween (awaits.right grows))

end Context

/-! ### Symbols that lowering adds -/

namespace Context.Appends

variable {context after : Context}

theorem find?_of_some (appends : context.Appends after) (tidy : context.Tidy) {name : Text}
    {symbol : Symbol} (found : context.symbols.find? name = some symbol) :
    after.symbols.find? name = some symbol := by
  rcases appends.rows tidy with ⟨rows, same, _, _⟩
  unfold SymbolTable.find? at *
  rw [same, List.find?_append, found]
  rfl

theorem extends_ (appends : context.Appends after) (tidy : context.Tidy) :
    after.symbols.Extends context.symbols :=
  fun _ symbol found => ⟨symbol, appends.find?_of_some tidy found, rfl, rfl⟩

/-- Lowering leaves the table in order. -/
theorem linked (appends : context.Appends after) (linked : context.Linked) : after.Linked := by
  have extension := appends.extends_ linked.tidy
  have tidy := appends.tidy linked.tidy
  rcases appends.rows linked.tidy with ⟨rows, same, drawn, auxiliary⟩
  refine ⟨tidy, ?_, ?_⟩
  · rw [same, List.map_append]
    refine List.nodup_append'.2 ⟨linked.nodup, drawn.nodup, fun name isOld isNew => ?_⟩
    rcases List.mem_map.1 isOld with ⟨symbol, mem, rfl⟩
    have present : (context.symbols.find? symbol.name).isSome :=
      Option.isSome_iff_exists.2
        ⟨symbol, (SymbolTable.find?_eq_some_iff linked.nodup).2 ⟨mem, rfl⟩⟩
    have isNumbered := drawn.isNumbered _ isNew
    rcases linked.tidy _ present with plain | earlier
    · exact isNumbered.not_plain plain
    · exact earlier.ne isNumbered (Nat.le_refl _) rfl
  · rw [same]
    refine List.forall_mem_append.2
      ⟨fun symbol mem => extension.linked (linked.rows symbol mem), ?_⟩
    intro symbol mem
    have isNumbered := drawn.isNumbered _ (List.mem_map_of_mem mem)
    have isAuxiliary := auxiliary symbol mem
    rcases symbol with ⟨name, type, storage⟩
    cases storage with
    | function | static => cases isAuxiliary
    | automatic => exact ⟨nofun, nofun, fun _ => isNumbered.not_plain, nofun⟩
    | constant item =>
        cases item with
        | scalar | zero | pointer => cases isAuxiliary
        | string bytes terminated =>
            exact ⟨nofun, nofun, nofun, fun name mem => by simp [Storage.items] at mem⟩

end Context.Appends

/-! ### Parsed sources -/

namespace Program

/-- What the check of types makes of the declarations and definitions of a source. -/
structure Settled (program : Program) (context : Context) (labelled analysed : Program) : Prop where
  /-- The tree that is checked comes from the source. -/
  prepared : ∃ before, program.Prepared labelled before
  /-- The declarations of the tree that is checked are in the table. -/
  linked : context.Linked
  /-- Functions are defined once. -/
  nodup : (labelled.definitions.map fun definition => definition.1.name).Nodup
  /-- Bodies make the same calls and use the same objects as before. -/
  alike : List.Forall₂ FunDecl.Alike labelled.definitions analysed.definitions
  /-- No function is defined in another. -/
  areFlat : ∀ definition ∈ labelled.definitions, Item.areFlat definition.2

theorem analyze_settles {program : Program} {context : Context} (isSource : program.IsSource)
    (fresh : context.symbols = .empty) :
    Yields program.analyze context fun analysed after => ∃ labelled middle,
      (program.resolve >>= label).run context = .ok (labelled, middle) ∧
        program.Settled after labelled analysed := by
  rw [analyze_eq]
  refine Ensures.bind ((((prepare_ensures isSource fresh).allow fun _ _ => trivial).and
    (prepare_symbols isSource fresh)).with_run fun labelled middle runs holds =>
      And.intro runs holds) ?_
  rintro labelled middle ⟨runs, prepared, empty⟩
  refine (check_steps labelled).mono ?_
  rintro analysed after ⟨steps, alike, areFlat⟩
  have linked : middle.Linked := by
    refine ⟨prepared.follows.valid.tidy, ?_, ?_⟩ <;> simp [empty, SymbolTable.empty]
  exact ⟨labelled, middle, runs, ⟨middle, prepared⟩, steps.linked linked prepared.awaits,
    (steps.definesOnce linked.tidy prepared.awaits).nodup, alike, areFlat⟩

end Program

end SubsetC
