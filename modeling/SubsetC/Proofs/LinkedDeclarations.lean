import SubsetC.Proofs.AddedNodes

/-!
# Declarations of names with linkage

Functions, objects at file scope and external objects of blocks may be declared any number of times.
The symbol of such a name follows from its declarations in source order (`Symbol.Sums`): the first
one fixes the linkage, at most one is the definition of a function or has an initializer, and all
have the type of the symbol.

The check of types visits one declaration after the other. What one visit does (`Visit.Declares`)
depends on the state in which the check comes to the declaration: an initializer is computed there,
and a symbol that is known there is merged. Between the visits, symbols of plain names stay as they
are. So both the closed form and the order in which symbols rise are proved by induction on a passage
from visit to visit (`Context.Passes`).
-/

namespace SubsetC

/-- A declaration of a name with linkage. -/
inductive LinkedDecl where
  /-- A function, declared or defined. -/
  | function (decl : FunDecl) (isDefinition : Bool)
  /-- An object at file scope. -/
  | object (decl : VarDecl)
  /-- An external object of a block. -/
  | external (decl : VarDecl)

namespace LinkedDecl

def name : LinkedDecl → Text
  | .function decl _ => decl.name
  | .object decl | .external decl => decl.name

/-- The declared type, with adjusted parameters. -/
def type : LinkedDecl → CType
  | .function decl _ => decl.adjusted.type
  | .object decl | .external decl => decl.type

/-- Whether the declaration is marked as static. -/
def isStatic : LinkedDecl → Bool
  | .function decl _ => decl.storageClass = some .static
  | .object decl | .external decl => decl.storageClass = some .static

def isFunction : LinkedDecl → Bool
  | .function _ _ => true
  | .object _ | .external _ => false

/-- Whether the declaration has a body. -/
def isDefinition : LinkedDecl → Bool
  | .function _ isDefinition => isDefinition
  | .object _ | .external _ => false

/-- The initializer of an object at file scope. -/
def init? : LinkedDecl → Option Initializer
  | .object decl => decl.init
  | .function _ _ | .external _ => none

/-- Whether the declaration makes an object even without an initializer: it stands at file scope and
is not marked as external. -/
def isTentative : LinkedDecl → Bool
  | .object decl => decl.storageClass ≠ some .external
  | .function _ _ | .external _ => false

/-- The declaration as it stands in the source, where names have no numbers. -/
def original : LinkedDecl → LinkedDecl
  | .function decl isDefinition => .function (decl.rename Text.stem) isDefinition
  | .object decl => .object (decl.rename Text.stem)
  | .external decl => .external (decl.rename Text.stem)

theorem name_original (decl : LinkedDecl) : decl.original.name = decl.name.stem := by
  cases decl <;> rfl

theorem type_original (decl : LinkedDecl) : decl.original.type = decl.type := by
  cases decl with
  | function decl isDefinition =>
      simp [original, type, FunDecl.type, FunDecl.adjusted, FunDecl.rename, Param.adjusted,
        Param.rename, Function.comp_def]
  | object | external => rfl

theorem isStatic_original (decl : LinkedDecl) : decl.original.isStatic = decl.isStatic := by
  cases decl <;> rfl

theorem isDefinition_original (decl : LinkedDecl) :
    decl.original.isDefinition = decl.isDefinition := by
  cases decl <;> rfl

theorem init?_original (decl : LinkedDecl) :
    decl.original.init? = decl.init?.map (Initializer.rename Text.stem) := by
  cases decl <;> rfl

/-- Symbols cannot tell the declaration from another one. -/
structure Matches (decl other : LinkedDecl) : Prop where
  name : decl.name = other.name
  type : decl.type = other.type
  isStatic : decl.isStatic = other.isStatic
  isFunction : decl.isFunction = other.isFunction
  isDefinition : decl.isDefinition = other.isDefinition
  isTentative : decl.isTentative = other.isTentative
  init? : decl.init? = other.init?

/-- A declaration matches the one in the source if its name and its initializer are as there. -/
theorem matches_original {decl : LinkedDecl} (isPlain : decl.name.IsPlain)
    (init : decl.original.init? = decl.init?) : decl.Matches decl.original where
  name := by rw [name_original, Text.stem_of_isPlain isPlain]
  type := decl.type_original.symm
  isStatic := decl.isStatic_original.symm
  isFunction := by cases decl <;> rfl
  isDefinition := decl.isDefinition_original.symm
  isTentative := by cases decl <;> rfl
  init? := init.symm

end LinkedDecl

/-! ### Source order -/

/-- The linked declaration that an object of a block makes, if it is external. -/
def VarDecl.linkedDecls (decl : VarDecl) : List LinkedDecl :=
  if decl.storageClass = some .external then [.external decl] else []

/-- The linked declarations in the first clause of a for statement. -/
def ForInit.linkedDecls : ForInit → List LinkedDecl
  | .declarations _ decls => decls.flatMap VarDecl.linkedDecls
  | .expression _ _ => []

mutual

/-- The linked declarations in a statement, in source order. -/
def Stmt.linkedDecls : Stmt → List LinkedDecl
  | .ifThen _ _ body | .whileLoop _ _ _ body | .doWhile _ _ body _ | .switch _ _ _ body _
  | .case _ _ _ body | .default _ _ body => body.linkedDecls
  | .ifElse _ _ thenBranch elseBranch => thenBranch.linkedDecls ++ elseBranch.linkedDecls
  | .block _ items => Item.linkedDecls items
  | .forLoop _ _ init _ _ body => init.linkedDecls ++ body.linkedDecls
  | .ret _ _ | .expr _ _ | .break _ _ | .continue _ _ | .null _ => []

/-- The linked declarations in a declaration, in source order. A function is declared before its
body. -/
def Decl.linkedDecls (isFile : Bool) : Decl → List LinkedDecl
  | .object decl => if isFile then [.object decl] else decl.linkedDecls
  | .function decl => [.function decl false]
  | .definition decl _ body => .function decl true :: Item.linkedDecls body

/-- The linked declarations in the items of a block, in source order. -/
def Item.linkedDecls : List Item → List LinkedDecl
  | [] => []
  | .stmt stmt :: items => stmt.linkedDecls ++ Item.linkedDecls items
  | .decl decl :: items => decl.linkedDecls false ++ Item.linkedDecls items

end

/-- The linked declarations of a compilation unit, in source order. -/
def Program.linkedDecls (program : Program) : List LinkedDecl :=
  program.flatMap (Decl.linkedDecls true)

def LinkedDecl.declaring (name : Text) (decls : List LinkedDecl) : List LinkedDecl :=
  decls.filter fun decl => decl.name = name

/-! ### Visits -/

/-- The check of a linked declaration. That of a function does not include its body. -/
def LinkedDecl.check : LinkedDecl → Pass Unit
  | .function decl isDefinition => do
    let _ ← decl.check isDefinition
  | .object decl => do
    let _ ← decl.checkFile
  | .external decl => do
    let _ ← decl.checkLocal

/-- A visit of the check of types to a linked declaration. -/
structure Visit where
  decl : LinkedDecl
  /-- The shared state in which the check comes to the declaration. -/
  before : Context
  /-- The state in which it leaves the declaration. -/
  after : Context

namespace Visit

/-- The visits to the declarations of a name. -/
def declaring (name : Text) (visits : List Visit) : List Visit :=
  visits.filter fun visit => visit.decl.name = name

/-- The initializer that is visited gives the items. -/
def Computes (visit : Visit) (items : List StaticItem) : Prop :=
  ∃ init checked between, visit.decl.init? = some init ∧
    (init.checkStatic visit.decl.type []).run visit.before = .ok ((checked, items), between)

end Visit

/-! ### The closed form -/

/-- How an object starts out whose declarations are visited: as its initializer says if one of them
has one, which no other has then; else it is tentative if one of them makes it. -/
def InitialValue.Sums (visits : List Visit) : InitialValue → Prop
  | .initial items => ∃ visit, visits.filter (fun visit => visit.decl.init?.isSome) = [visit] ∧
      visit.Computes items
  | .tentative => (∀ visit ∈ visits, visit.decl.init? = none) ∧
      ∃ visit ∈ visits, visit.decl.isTentative
  | .absent => ∀ visit ∈ visits, visit.decl.init? = none ∧ visit.decl.isTentative = false

/-- How a symbol is stored whose declarations are visited. A function is defined if exactly one of
them has a body, and never more have one. -/
def Storage.Sums (visits : List Visit) : Storage → Prop
  | .function defined _ => (∀ visit ∈ visits, visit.decl.isFunction) ∧
      visits.countP (fun visit => visit.decl.isDefinition) = defined.toNat
  | .static init _ => (∀ visit ∈ visits, visit.decl.isFunction = false) ∧ init.Sums visits
  | .constant _ | .automatic => False

/-- Whether a symbol with linkage is known to other compilation units. -/
def Storage.isGlobal? : Storage → Option Bool
  | .function _ isGlobal | .static _ isGlobal => some isGlobal
  | .constant _ | .automatic => none

/-- The symbol of a name whose declarations are visited in source order. -/
structure Symbol.Sums (visits : List Visit) (symbol : Symbol) : Prop where
  type : ∀ visit ∈ visits, visit.decl.type = symbol.type
  /-- It is global exactly if the first declaration is not static. -/
  linkage : symbol.storage.isGlobal? = visits.head?.map fun visit => !visit.decl.isStatic
  /-- Definitions and initializers are merged. -/
  storage : symbol.storage.Sums visits

/-- The plain names of a table have the symbols that follow from the visits to their
declarations. -/
def SymbolTable.Sums (table : SymbolTable) (visits : List Visit) : Prop :=
  ∀ name : Text, name.IsPlain → match table.find? name with
    | some symbol => symbol.Sums (Visit.declaring name visits)
    | none => Visit.declaring name visits = []

/-! ### Symbols that rise -/

/-- An object goes from no value to a tentative one and from there to an initial one, which stays. -/
def InitialValue.Rises : InitialValue → InitialValue → Prop
  | .absent, _ => True
  | .tentative, next => next ≠ .absent
  | .initial items, next => next = .initial items

/-- A symbol stays a function or an object, with the same linkage. A function that is defined stays
defined, and an object rises. -/
def Storage.Rises : Storage → Storage → Prop
  | .function defined isGlobal, next =>
      ∃ defined', next = .function defined' isGlobal ∧ (defined → defined')
  | .static init isGlobal, next => ∃ init', next = .static init' isGlobal ∧ init.Rises init'
  | .constant _, _ | .automatic, _ => False

/-- A symbol with linkage keeps its type, and its storage rises. -/
structure Symbol.Rises (before after : Symbol) : Prop where
  type : after.type = before.type
  storage : before.storage.Rises after.storage

/-- The symbols of plain names rise, and none is lost. -/
def SymbolTable.Rises (table later : SymbolTable) : Prop :=
  ∀ (name : Text) (symbol : Symbol), name.IsPlain → table.find? name = some symbol →
    ∃ symbol', later.find? name = some symbol' ∧ symbol.Rises symbol'

/-! ### What a visit does -/

/-- Two declarations of one symbol, if they can stand together. The first one fixes the linkage. -/
def Storage.merge? : Storage → Storage → Option Storage
  | .function defined isGlobal, .function isDefinition _ =>
      if defined && isDefinition then none else some (.function (defined || isDefinition) isGlobal)
  | .static init isGlobal, .static next _ => (init.merge? next).map (.static · isGlobal)
  | _, _ => none

/-- How a symbol is stored that has this one declaration. -/
def LinkedDecl.storage (decl : LinkedDecl) (value : InitialValue) : Storage :=
  match decl with
  | .function decl isDefinition => .function isDefinition (decl.storageClass != some .static)
  | .object decl | .external decl => .static value (decl.storageClass != some .static)

/-- How an object starts out that has the declaration visited and no other. -/
def Visit.Starts (visit : Visit) (value : InitialValue) : Prop :=
  match visit.decl.init? with
  | some _ => ∃ items, value = .initial items ∧ visit.Computes items
  | none => value = if visit.decl.isTentative then .tentative else .absent

/-- One step of the check of types: a linked declaration is checked. -/
structure Visit.Declares (visit : Visit) : Prop where
  /-- The check of the declaration takes one state to the other. -/
  checks : visit.decl.check.run visit.before = .ok ((), visit.after)
  isPlain : visit.decl.name.IsPlain
  /-- The initializer is that of the source. -/
  init : visit.decl.original.init? = visit.decl.init?
  /-- A symbol is entered for the name, or merged with the one that the name has. -/
  enters : ∃ value symbol, visit.Starts value ∧
    visit.after.symbols.find? visit.decl.name = some symbol ∧ symbol.type = visit.decl.type ∧
    match visit.before.symbols.find? visit.decl.name with
    | none => symbol.storage = visit.decl.storage value
    | some previous => previous.type = visit.decl.type ∧
        previous.storage.merge? (visit.decl.storage value) = some symbol.storage
  /-- Other plain names keep their symbols. -/
  others : ∀ name : Text, name.IsPlain → name ≠ visit.decl.name →
    visit.after.symbols.find? name = visit.before.symbols.find? name

/-- Between two visits, nodes are numbered and symbols without linkage are entered. -/
inductive Context.Idles : Context → Context → Prop where
  | number {context after : Context} (renumbered : context.Renumbered after) : Idles context after
  | enter (context : Context) {name : Text} (notPlain : ¬name.IsPlain) (type : CType)
      (storage : Storage) {nextName : Nat} (later : context.nextName ≤ nextName) :
      Idles context ⟨context.lastId, nextName, context.symbols.set name type storage⟩
  | trans {first second third : Context} (earlier : Idles first second)
      (later : Idles second third) : Idles first third

/-- From one state to another, the check of types makes visits. -/
inductive Context.Passes : Context → List Visit → Context → Prop where
  | done {context after : Context} (idles : context.Idles after) : Passes context [] after
  | visit {context after : Context} {visit : Visit} {visits : List Visit}
      (idles : context.Idles visit.before) (declares : visit.Declares)
      (rest : Passes visit.after visits after) : Passes context (visit :: visits) after

/-! ### Declarations are merged -/

namespace InitialValue

variable {visit : Visit} {visits : List Visit} {value previous init : InitialValue}

theorem starts_of_init {initializer : Initializer} (isInit : visit.decl.init? = some initializer)
    (starts : visit.Starts value) : ∃ items, value = .initial items ∧ visit.Computes items := by
  rwa [Visit.Starts, isInit] at starts

theorem starts_of_none (noInit : visit.decl.init? = none) (starts : visit.Starts value) :
    value = if visit.decl.isTentative then .tentative else .absent := by
  rwa [Visit.Starts, noInit] at starts

/-- A single declaration says how its object starts out. -/
theorem sums_of_starts (starts : visit.Starts value) : value.Sums [visit] := by
  cases isInit : visit.decl.init? with
  | some initializer =>
      rcases starts_of_init isInit starts with ⟨items, rfl, computes⟩
      exact ⟨visit, by simp [isInit], computes⟩
  | none =>
      rw [starts_of_none isInit starts]
      split
      · rename_i isTentative
        exact ⟨List.forall_mem_singleton.2 isInit, visit, List.mem_singleton.2 rfl, isTentative⟩
      · rename_i notTentative
        exact List.forall_mem_singleton.2 ⟨isInit, by simpa using notTentative⟩

/-- One more declaration is merged into those before. -/
theorem sums_snoc (sums : previous.Sums visits) (starts : visit.Starts value)
    (merged : previous.merge? value = some init) : init.Sums (visits ++ [visit]) := by
  cases isInit : visit.decl.init? with
  | some initializer =>
      rcases starts_of_init isInit starts with ⟨items, rfl, computes⟩
      have none : ∀ visit ∈ visits, visit.decl.init? = none := by
        cases previous with
        | initial _ => cases merged
        | tentative => exact sums.1
        | absent => exact fun visit mem => (sums visit mem).1
      obtain rfl : .initial items = init := by
        cases previous <;> cases merged
        all_goals rfl
      refine ⟨visit, ?_, computes⟩
      rw [List.filter_append, List.filter_eq_nil_iff.2 fun visit mem => by simp [none visit mem]]
      simp [isInit]
  | none =>
      have notInitial := starts_of_none isInit starts
      cases previous with
      | initial items =>
          obtain rfl : .initial items = init := by
            rw [notInitial] at merged
            split at merged <;> cases merged <;> rfl
          rcases sums with ⟨other, only, computes⟩
          exact ⟨other, by simp [List.filter_append, only, isInit], computes⟩
      | tentative =>
          obtain rfl : .tentative = init := by
            rw [notInitial] at merged
            split at merged <;> cases merged <;> rfl
          rcases sums with ⟨none, other, mem, isTentative⟩
          exact ⟨List.forall_mem_append.2 ⟨none, List.forall_mem_singleton.2 isInit⟩, other,
            List.mem_append_left _ mem, isTentative⟩
      | absent =>
          obtain rfl : value = init := by
            rw [notInitial] at merged ⊢
            split at merged <;> cases merged <;> simp_all
          rw [notInitial]
          split
          · rename_i isTentative
            exact ⟨List.forall_mem_append.2 ⟨fun visit mem => (sums visit mem).1,
              List.forall_mem_singleton.2 isInit⟩, visit, by simp, isTentative⟩
          · rename_i notTentative
            exact List.forall_mem_append.2
              ⟨sums, List.forall_mem_singleton.2 ⟨isInit, by simpa using notTentative⟩⟩

theorem rises_of_merge? (merged : previous.merge? value = some init) : previous.Rises init := by
  cases previous <;> cases value <;> cases merged <;> simp [Rises]

theorem Rises.refl (value : InitialValue) : value.Rises value := by
  cases value <;> simp [Rises]

theorem Rises.trans {first second third : InitialValue} (earlier : first.Rises second)
    (later : second.Rises third) : first.Rises third := by
  cases first with
  | absent => trivial
  | tentative => cases second <;> simp_all [Rises]
  | initial items =>
      obtain rfl := earlier
      exact later

end InitialValue

namespace Storage

variable {visit : Visit} {visits : List Visit} {value : InitialValue} {previous storage : Storage}

theorem sums_of_starts (starts : visit.Starts value) : (visit.decl.storage value).Sums [visit] := by
  have initial := InitialValue.sums_of_starts starts
  rcases visit with ⟨decl, before, after⟩
  cases decl with
  | function decl isDefinition =>
      refine ⟨List.forall_mem_singleton.2 rfl, ?_⟩
      cases isDefinition <;> rfl
  | object | external => exact ⟨List.forall_mem_singleton.2 rfl, initial⟩

theorem isGlobal?_storage (decl : LinkedDecl) (value : InitialValue) :
    (decl.storage value).isGlobal? = some !decl.isStatic := by
  cases decl <;> simp [LinkedDecl.storage, isGlobal?, LinkedDecl.isStatic, bne, beq_eq_decide]

/-- The first declaration fixes the linkage. -/
theorem isGlobal?_merge? {next : Storage} (merged : previous.merge? next = some storage) :
    storage.isGlobal? = previous.isGlobal? := by
  cases previous <;> cases next <;> simp only [merge?, reduceCtorEq] at merged
  · split at merged <;> cases merged
    rfl
  · rcases Option.map_eq_some_iff.1 merged with ⟨_, _, rfl⟩
    rfl

/-- One more declaration is merged into those before. -/
theorem sums_snoc (sums : previous.Sums visits) (starts : visit.Starts value)
    (merged : previous.merge? (visit.decl.storage value) = some storage) :
    storage.Sums (visits ++ [visit]) := by
  cases previous with
  | function defined isGlobal =>
      cases same : visit.decl with
      | function decl isDefinition =>
          rw [same, LinkedDecl.storage, merge?] at merged
          split at merged <;> cases merged
          rename_i once
          refine ⟨List.forall_mem_append.2 ⟨sums.1, List.forall_mem_singleton.2 ?_⟩, ?_⟩
          · rw [same]
            rfl
          rw [List.countP_append, sums.2, List.countP_singleton, same, LinkedDecl.isDefinition]
          cases defined <;> cases isDefinition <;> simp_all
      | object | external =>
          rw [same] at merged
          cases merged
  | static init isGlobal =>
      cases same : visit.decl with
      | function decl isDefinition =>
          rw [same] at merged
          cases merged
      | object | external =>
          rw [same] at merged
          rcases Option.map_eq_some_iff.1 merged with ⟨init, isMerged, rfl⟩
          exact ⟨List.forall_mem_append.2 ⟨sums.1, List.forall_mem_singleton.2 (by rw [same]; rfl)⟩,
            InitialValue.sums_snoc sums.2 starts isMerged⟩
  | constant | automatic => exact sums.elim

theorem rises_of_merge? {next : Storage} (merged : previous.merge? next = some storage) :
    previous.Rises storage := by
  cases previous <;> cases next <;> simp only [merge?, reduceCtorEq] at merged
  · split at merged <;> cases merged
    exact ⟨_, rfl, by simp +contextual⟩
  · rcases Option.map_eq_some_iff.1 merged with ⟨init, isMerged, rfl⟩
    exact ⟨init, rfl, InitialValue.rises_of_merge? isMerged⟩

theorem Rises.trans {first second third : Storage} (earlier : first.Rises second)
    (later : second.Rises third) : first.Rises third := by
  cases first with
  | function =>
      rcases earlier with ⟨_, rfl, isDefined⟩
      rcases later with ⟨_, rfl, isDefined'⟩
      exact ⟨_, rfl, isDefined' ∘ isDefined⟩
  | static =>
      rcases earlier with ⟨_, rfl, rises⟩
      rcases later with ⟨_, rfl, rises'⟩
      exact ⟨_, rfl, rises.trans rises'⟩
  | constant | automatic => exact earlier.elim

/-- What has declarations has linkage, and rises to itself. -/
theorem Sums.rises_refl (sums : storage.Sums visits) : storage.Rises storage := by
  cases storage with
  | function => exact ⟨_, rfl, id⟩
  | static => exact ⟨_, rfl, .refl _⟩
  | constant | automatic => exact sums.elim

end Storage

namespace Symbol

variable {visit : Visit} {visits : List Visit} {value : InitialValue} {symbol previous : Symbol}

theorem sums_first (starts : visit.Starts value) (sameType : symbol.type = visit.decl.type)
    (stored : symbol.storage = visit.decl.storage value) : symbol.Sums [visit] where
  type := List.forall_mem_singleton.2 sameType.symm
  linkage := by
    rw [stored]
    exact Storage.isGlobal?_storage visit.decl value
  storage := by
    rw [stored]
    exact Storage.sums_of_starts starts

theorem sums_again (sums : previous.Sums visits) (starts : visit.Starts value)
    (sameType : symbol.type = visit.decl.type) (wasType : previous.type = visit.decl.type)
    (merged : previous.storage.merge? (visit.decl.storage value) = some symbol.storage) :
    symbol.Sums (visits ++ [visit]) where
  type := by
    refine List.forall_mem_append.2 ⟨fun earlier mem => ?_,
      List.forall_mem_singleton.2 sameType.symm⟩
    rw [sums.type earlier mem, wasType, sameType]
  linkage := by
    have linkage := (Storage.isGlobal?_merge? merged).trans sums.linkage
    cases visits with
    | nil =>
        -- A symbol without declarations has no linkage, but this one is merged.
        have unlinked := sums.linkage
        rcases previous with ⟨_, _, storage⟩
        cases storage <;> cases unlinked <;> cases merged
    | cons => exact linkage
  storage := Storage.sums_snoc sums.storage starts merged

theorem Rises.trans {first second third : Symbol} (earlier : first.Rises second)
    (later : second.Rises third) : first.Rises third :=
  ⟨later.type.trans earlier.type, earlier.storage.trans later.storage⟩

end Symbol

/-! ### What holds along a passage -/

theorem SymbolTable.Rises.trans {first second third : SymbolTable} (earlier : first.Rises second)
    (later : second.Rises third) : first.Rises third := by
  intro name symbol isPlain found
  rcases earlier name symbol isPlain found with ⟨between, known, rises⟩
  rcases later name between isPlain known with ⟨symbol', isLater, rises'⟩
  exact ⟨symbol', isLater, rises.trans rises'⟩

/-- Symbols that follow from declarations have linkage, and rise to themselves. -/
theorem SymbolTable.Sums.rises_refl {table : SymbolTable} {visits : List Visit}
    (sums : table.Sums visits) {name : Text} {symbol : Symbol} (isPlain : name.IsPlain)
    (found : table.find? name = some symbol) : symbol.Rises symbol := by
  have linked := sums name isPlain
  rw [found] at linked
  exact ⟨rfl, linked.storage.rises_refl⟩

namespace Visit

variable {visit : Visit} {visits : List Visit}

theorem declaring_snoc_of_ne {name : Text} (other : visit.decl.name ≠ name) :
    declaring name (visits ++ [visit]) = declaring name visits := by
  simp [declaring, other]

theorem declaring_snoc (visit : Visit) (visits : List Visit) :
    declaring visit.decl.name (visits ++ [visit]) = declaring visit.decl.name visits ++ [visit] := by
  simp [declaring]

/-- A visit merges one more declaration into the symbols. -/
theorem Declares.sums (declares : visit.Declares) (sums : visit.before.symbols.Sums visits) :
    visit.after.symbols.Sums (visits ++ [visit]) := by
  intro name isPlain
  by_cases same : visit.decl.name = name
  · subst same
    rcases declares.enters with ⟨value, symbol, starts, found, sameType, stored⟩
    have before := sums visit.decl.name isPlain
    rw [found, declaring_snoc]
    cases known : visit.before.symbols.find? visit.decl.name with
    | none =>
        rw [known] at before stored
        rw [before]
        exact Symbol.sums_first starts sameType stored
    | some previous =>
        rw [known] at before stored
        exact Symbol.sums_again before starts sameType stored.1 stored.2
  · rw [declares.others name isPlain (Ne.symm same), declaring_snoc_of_ne same]
    exact sums name isPlain

/-- At a visit, symbols rise that follow from declarations. -/
theorem Declares.rises (declares : visit.Declares) (sums : visit.before.symbols.Sums visits) :
    visit.before.symbols.Rises visit.after.symbols := by
  intro name symbol isPlain found
  by_cases same : visit.decl.name = name
  · subst same
    rcases declares.enters with ⟨value, later, -, isLater, sameType, stored⟩
    rw [found] at stored
    exact ⟨later, isLater, sameType.trans stored.1.symm, Storage.rises_of_merge? stored.2⟩
  · exact ⟨symbol, (declares.others name isPlain (Ne.symm same)).trans found,
      sums.rises_refl isPlain found⟩

end Visit

namespace Context

variable {context start middle final : Context} {visit : Visit} {visits more : List Visit}

/-- Plain names keep their symbols between visits. -/
theorem Idles.find?_eq {after : Context} (idles : context.Idles after) {name : Text}
    (isPlain : name.IsPlain) : after.symbols.find? name = context.symbols.find? name := by
  induction idles with
  | number renumbered => rw [renumbered.symbols]
  | @enter context entered notPlain =>
      have other : entered ≠ name := fun same => notPlain (same ▸ isPlain)
      rw [SymbolTable.find?_set, if_neg other]
  | trans _ _ earlier later => exact later.trans earlier

theorem Idles.sums (idles : start.Idles final) (sums : start.symbols.Sums visits) :
    final.symbols.Sums visits := by
  intro name isPlain
  rw [idles.find?_eq isPlain]
  exact sums name isPlain

theorem Idles.rises (idles : start.Idles final) (sums : start.symbols.Sums visits) :
    start.symbols.Rises final.symbols :=
  fun _ symbol isPlain found =>
    ⟨symbol, (idles.find?_eq isPlain).trans found, sums.rises_refl isPlain found⟩

namespace Passes

/-- The check idles before. -/
theorem after (idles : start.Idles middle) (passes : middle.Passes visits final) :
    start.Passes visits final := by
  cases passes with
  | done later => exact .done (idles.trans later)
  | visit later declares rest => exact .visit (idles.trans later) declares rest

theorem append (earlier : start.Passes visits middle) (later : middle.Passes more final) :
    start.Passes (visits ++ more) final := by
  induction earlier with
  | done idles => exact after idles later
  | visit idles declares _ ih => exact .visit idles declares (ih later)

/-- A passage is divided at each of its visits. -/
theorem split {front back : List Visit} (passes : start.Passes (front ++ visit :: back) final) :
    start.Passes front visit.before ∧ visit.Declares ∧ visit.after.Passes back final := by
  induction front generalizing start with
  | nil =>
      cases passes with
      | visit idles declares rest => exact ⟨.done idles, declares, rest⟩
  | cons first front ih =>
      cases passes with
      | visit idles declares rest =>
          rcases ih rest with ⟨earlier, here, later⟩
          exact ⟨.visit idles declares earlier, here, later⟩

theorem declares (passes : start.Passes visits final) : ∀ visit ∈ visits, visit.Declares := by
  induction passes with
  | done => exact fun _ mem => absurd mem List.not_mem_nil
  | visit _ declares _ ih => exact List.forall_mem_cons.2 ⟨declares, ih⟩

/-- Behind a passage, the plain names have the symbols that follow from the visits so far. -/
theorem sums (passes : start.Passes visits final) {seen : List Visit}
    (sums : start.symbols.Sums seen) : final.symbols.Sums (seen ++ visits) := by
  induction passes generalizing seen with
  | done idles =>
      rw [List.append_nil]
      exact idles.sums sums
  | visit idles declares _ ih =>
      rw [List.append_cons]
      exact ih (declares.sums (idles.sums sums))

/-- Where a passage comes to a declaration, the symbols follow from those before it. -/
theorem sums_before {front back : List Visit} (passes : start.Passes (front ++ visit :: back) final)
    (nothing : start.symbols.Sums []) : visit.before.symbols.Sums front :=
  passes.split.1.sums nothing

/-- Where it leaves one, they follow from that one too. -/
theorem sums_after {front back : List Visit} (passes : start.Passes (front ++ visit :: back) final)
    (nothing : start.symbols.Sums []) : visit.after.symbols.Sums (front ++ [visit]) :=
  passes.split.2.1.sums (passes.sums_before nothing)

/-- Along a passage, symbols rise that follow from declarations. -/
theorem rises (passes : start.Passes visits final) {seen : List Visit}
    (sums : start.symbols.Sums seen) : start.symbols.Rises final.symbols := by
  induction passes generalizing seen with
  | done idles => exact idles.rises sums
  | visit idles declares _ ih =>
      have here := idles.sums sums
      exact ((idles.rises sums).trans (declares.rises here)).trans (ih (declares.sums here))

end Passes

end Context

end SubsetC
