import SubsetC.Proofs.Entries
import SubsetC.Proofs.Erasure
import SubsetC.Proofs.StmtDelivery

/-!
# How the check of types changes the symbol table

The check of types enters the symbol of each declaration as it comes to it, and strings whose
addresses initialize static objects. `Context.Steps` lists these steps together with the
declarations they are made for, so that what holds of the symbol table is proved by induction on the
steps and not on trees. In between the check numbers nodes, and that is all it does to the shared state.

The tree that comes out makes the same calls and uses the same objects, in the same order.
-/

namespace SubsetC

/-! ### Steps -/

/-- The addresses among items are those of static objects and strings. -/
def SymbolTable.Resolves (table : SymbolTable) (items : List StaticItem) : Prop :=
  ∀ name, .pointer name ∈ items → table.isStatic name

/-- The items that an object with an initializer starts out with. -/
def InitialValue.items : InitialValue → List StaticItem
  | .initial items => items
  | .tentative | .absent => []

/-- Whether a storage is that of a function with a definition. -/
def Storage.isDefinition : Storage → Bool
  | .function defined _ => defined
  | _ => false

/-- Whether a function of the name is defined. -/
def SymbolTable.isDefined (table : SymbolTable) (name : Text) : Bool :=
  (table.find? name).any fun symbol => symbol.storage.isDefinition

/-- What a declaration of a name, with linkage or without, enters into a table. -/
inductive SymbolTable.Declares (table : SymbolTable) (name : Text) :
    Bool → CType → Storage → Prop where
  /-- An automatic object. -/
  | automatic (type : CType) : table.Declares name false type .automatic
  /-- A static object of a block. -/
  | block (type : CType) {init : InitialValue} (resolves : table.Resolves init.items)
      (starts : init ≠ .absent) : table.Declares name false type (.static init false)
  /-- A function that has not been declared before. -/
  | function {type : CType} (isDefinition isGlobal : Bool) (isFunction : type.isFunction)
      (absent : table.find? name = none) :
      table.Declares name true type (.function isDefinition isGlobal)
  /-- A function that has been declared before. -/
  | functionAgain {other : Text} {type : CType} {defined isGlobal : Bool} (isDefinition : Bool)
      (found : table.find? name = some ⟨other, type, .function defined isGlobal⟩) :
      table.Declares name true type (.function (defined || isDefinition) isGlobal)
  /-- A static object that has not been declared before. -/
  | object (type : CType) {init : InitialValue} {isGlobal : Bool}
      (resolves : table.Resolves init.items) (starts : init = .absent → isGlobal)
      (absent : table.find? name = none) :
      table.Declares name true type (.static init isGlobal)
  /-- A static object that has been declared before. -/
  | objectAgain {other : Text} {type : CType} {previous next init : InitialValue} {isGlobal : Bool}
      (resolves : table.Resolves next.items)
      (found : table.find? name = some ⟨other, type, .static previous isGlobal⟩)
      (merged : previous.merge? next = some init) :
      table.Declares name true type (.static init isGlobal)

/-- How the check of a part of a tree changes the shared state, with the declarations in the part
and the names of the functions it defines. -/
inductive Context.Steps : Context → List Local → List Text → Context → Prop where
  /-- Nodes are numbered. -/
  | number {context after : Context} (renumbered : context.Renumbered after) :
      Steps context [] [] after
  /-- A string is entered. -/
  | string (context : Context) (bytes : Text) :
      Steps context [] [] ⟨context.lastId, context.nextName + 1,
        context.symbols.set (Text.numbered "string" context.nextName)
          (.array (bytes.length + 1) .char) (.constant (.string bytes true))⟩
  /-- An object is declared again, and keeps its symbol. -/
  | again (context : Context) {decl : Local} (linked : decl.hasLinkage)
      (isStatic : context.symbols.isStatic decl.name) : Steps context [decl] [] context
  /-- A declaration is made. If it is a definition of a function, it is the first one. -/
  | declare (context : Context) (decl : Local) {type : CType} {storage : Storage}
      {defined : List Text}
      (declares : context.symbols.Declares decl.name decl.hasLinkage type storage)
      (once : defined = [] ∨ defined = [decl.name] ∧ storage.isDefinition ∧
        context.symbols.isDefined decl.name = false) :
      Steps context [decl] defined
        { context with symbols := context.symbols.set decl.name type storage }
  /-- One part comes after the other. -/
  | append {first second third : Context} {locals more : List Local} {defined others : List Text}
      (earlier : Steps first locals defined second) (later : Steps second more others third) :
      Steps first (locals ++ more) (defined ++ others) third

namespace Context.Steps

variable {first second third : Context} {locals more : List Local} {defined : List Text}

theorem refl (context : Context) : context.Steps [] [] context := .number (.refl context)

/-- Nodes are numbered before. -/
theorem renumber (renumbered : first.Renumbered second)
    (steps : second.Steps locals defined third) : first.Steps locals defined third :=
  .append (.number renumbered) steps

/-- The part that comes later defines nothing. -/
theorem before (earlier : first.Steps locals defined second) (later : second.Steps more [] third) :
    first.Steps (locals ++ more) defined third := by
  have all := earlier.append later
  rwa [List.append_nil] at all

/-- Nodes are numbered behind. -/
theorem behind (steps : first.Steps locals defined second) (renumbered : second.Renumbered third) :
    first.Steps locals defined third := by
  have all := steps.before (.number renumbered)
  rwa [List.append_nil] at all

end Context.Steps

/-- Strings have been entered. -/
structure Context.Quotes (context after : Context) : Prop where
  /-- Nothing is declared. -/
  steps : context.Steps [] [] after
  /-- Static objects are still known as such. -/
  isStatic : ∀ name, context.symbols.isStatic name → after.symbols.isStatic name

namespace Context.Quotes

variable {first second third : Context}

theorem of_renumbered (renumbered : first.Renumbered second) : first.Quotes second :=
  ⟨.number renumbered, fun _ known => by rwa [renumbered.symbols]⟩

theorem refl (context : Context) : context.Quotes context := of_renumbered (.refl context)

theorem trans (earlier : first.Quotes second) (later : second.Quotes third) : first.Quotes third :=
  ⟨earlier.steps.append later.steps,
    fun name known => later.isStatic name (earlier.isStatic name known)⟩

theorem resolves {items : List StaticItem} (quotes : first.Quotes second)
    (resolves : first.symbols.Resolves items) : second.symbols.Resolves items :=
  fun name mem => quotes.isStatic name (resolves name mem)

end Context.Quotes

/-! ### Items of static objects -/

theorem SymbolTable.isStatic_set_string (table : SymbolTable) (name : Text) (type : CType)
    (item : StaticItem) {other : Text} (known : name = other ∨ table.isStatic other) :
    (table.set name type (.constant item)).isStatic other := by
  by_cases same : name = other
  · simp [isStatic, find?_set, same]
  · simpa [isStatic, find?_set, same] using known.resolve_left same

theorem Pass.newString_quotes (bytes : Text) {context : Context} :
    Yields (Pass.newString bytes) context fun name after =>
      context.Quotes after ∧ after.symbols.isStatic name := by
  refine Ensures.bind_ok (Pass.run_uniqueName _ _) ?_
  refine Ensures.bind_ok (Pass.run_setSymbol _ _ _ _) ?_
  refine Ensures.pure ⟨⟨.string context bytes, ?_⟩, ?_⟩
  · exact fun name known => SymbolTable.isStatic_set_string _ _ _ _ (.inr known)
  · exact SymbolTable.isStatic_set_string _ _ _ _ (.inl rfl)

namespace StaticItem

theorem pointer_mem_of_appendZero {items : List StaticItem} {size : Size} {name : Text}
    (mem : .pointer name ∈ appendZero items size) : .pointer name ∈ items := by
  unfold appendZero at mem
  split at mem
  · exact mem
  · split at mem
    · simp only [List.mem_append, List.mem_singleton, reduceCtorEq, or_false] at mem
      exact List.dropLast_subset _ mem
    · simpa using mem

theorem pointer_mem_of_append {items : List StaticItem} {size : Size} {item : StaticItem}
    {name : Text} (mem : .pointer name ∈ StaticItem.append items size item) :
    .pointer name ∈ items ∨ item = .pointer name := by
  cases item with
  | scalar value =>
      rw [StaticItem.append] at mem
      split at mem
      · exact .inl (pointer_mem_of_appendZero mem)
      · simpa using mem
  | zero | string | pointer => simpa [StaticItem.append, eq_comm] using mem

end StaticItem

namespace Expr

variable {context : Context}

theorem checkInitial_erases (type : CType) (span : Span) (expr : Expr) :
    Yields (expr.checkInitial type span) context (context.Erases expr.erased) := by
  unfold checkInitial
  split
  · split
    · refine Ensures.ite (fun _ => Ensures.throw trivial) fun _ => ?_
      exact Ensures.ite (fun _ => Ensures.throw trivial) fun _ => check_erases _
    · exact Ensures.throw trivial
  · exact bind_erases (checkValue_erases expr) (assignTo_erases type)

/-- An address in an initializer is that of a static object, or of a string that is entered for
it. -/
theorem pointerItem_quotes (expr : Expr) :
    Yields expr.pointerItem context fun item after =>
      context.Quotes after ∧ ∀ name, item = .pointer name → after.symbols.isStatic name := by
  have address : ∀ name, Yields (staticAddress expr.span name) context fun item after =>
      context.Quotes after ∧ ∀ other, item = .pointer other → after.symbols.isStatic other := by
    intro name
    refine Ensures.bind_ok (Pass.run_get context) ?_
    refine Ensures.ite (fun known => Ensures.pure ⟨.refl _, ?_⟩) fun _ => Ensures.throw trivial
    rintro other same
    cases same
    exact known
  unfold pointerItem
  split
  · split
    · exact Ensures.ite (fun _ => Ensures.pure ⟨.refl _, nofun⟩) fun _ => Ensures.throw trivial
    · exact Ensures.throw trivial
  · exact address _
  · exact address _
  · refine (Pass.newString_quotes _).bind ?_
    rintro name after ⟨quotes, isStatic⟩
    refine Ensures.pure ⟨quotes, ?_⟩
    rintro other same
    cases same
    exact isStatic
  · exact Ensures.throw trivial

theorem scalarItem_quotes (type : CType) (expr : Expr) :
    Yields (expr.scalarItem type) context fun item after =>
      context.Quotes after ∧ ∀ name, item = .pointer name → after.symbols.isStatic name := by
  unfold scalarItem
  split
  · exact Ensures.throw trivial
  · split
    · exact Ensures.throw trivial
    · exact Ensures.pure ⟨.refl _, nofun⟩

/-- Items are appended, and the addresses among them are resolved. -/
theorem appendItems_quotes (type : CType) (items : List StaticItem) (expr : Expr) :
    Yields (expr.appendItems type items) context fun more after =>
      context.Quotes after ∧ (context.symbols.Resolves items → after.symbols.Resolves more) := by
  unfold appendItems
  split
  · refine Ensures.pure ⟨.refl _, fun resolves name mem => resolves name ?_⟩
    simpa using StaticItem.pointer_mem_of_appendZero mem
  · rw [appendValue_eq]
    refine Ensures.bind (Ensures.ite (fun _ => pointerItem_quotes expr) fun _ =>
      scalarItem_quotes type expr) ?_
    rintro item after ⟨quotes, isStatic⟩
    refine Ensures.pure ⟨quotes, fun resolves name mem => ?_⟩
    rcases StaticItem.pointer_mem_of_append mem with mem | isPointer
    · exact quotes.resolves resolves name mem
    · exact isStatic name isPointer

end Expr

namespace Initializer

variable {context : Context}

mutual

/-- The items of a static object hold no addresses but those of static objects and strings. -/
theorem checkStatic_quotes (type : CType) (items : List StaticItem) : ∀ (init : Initializer)
    {context : Context}, Yields (init.checkStatic type items) context fun result after =>
      context.Quotes after ∧ (context.symbols.Resolves items → after.symbols.Resolves result.2)
  | .single _ value, context => by
      rw [checkStatic]
      refine (value.checkInitial_erases type _).bind ?_
      rintro value' between ⟨renumbered, _⟩
      refine (value'.appendItems_quotes type items).bind ?_
      rintro more after ⟨quotes, resolves⟩
      have numbered := Context.Quotes.of_renumbered renumbered
      exact Ensures.pure ⟨numbered.trans quotes, fun known => resolves (numbered.resolves known)⟩
  | .compound _ elements, context => by
      unfold checkStatic
      split
      · refine Ensures.ite (fun _ => Ensures.throw trivial) fun _ => ?_
        refine (checkStaticList_quotes _ items elements).bind ?_
        rintro ⟨given, more⟩ after ⟨quotes, resolves⟩
        refine Ensures.pure ⟨quotes, fun known name mem => resolves known name ?_⟩
        exact StaticItem.pointer_mem_of_appendZero mem
      · split
        · rename_i value
          refine (value.checkInitial_erases type _).bind ?_
          rintro value' between ⟨renumbered, _⟩
          refine (value'.appendItems_quotes type items).bind ?_
          rintro more after ⟨quotes, resolves⟩
          have numbered := Context.Quotes.of_renumbered renumbered
          exact Ensures.pure
            ⟨numbered.trans quotes, fun known => resolves (numbered.resolves known)⟩
        · exact Ensures.throw trivial

theorem checkStaticList_quotes (element : CType) (items : List StaticItem) :
    ∀ (elements : List Initializer) {context : Context},
    Yields (checkStaticList element items elements) context fun result after =>
      context.Quotes after ∧ (context.symbols.Resolves items → after.symbols.Resolves result.2)
  | [], context => Ensures.pure ⟨.refl _, id⟩
  | first :: rest, context => by
      unfold checkStaticList
      refine (checkStatic_quotes element items first).bind ?_
      rintro ⟨first', more⟩ between ⟨quotes, resolves⟩
      refine (checkStaticList_quotes element more rest).bind ?_
      rintro ⟨rest', all⟩ after ⟨later, resolvesAll⟩
      exact Ensures.pure ⟨quotes.trans later, fun known => resolvesAll (resolves known)⟩

end

/-! ### Initializers of automatic objects -/

/-- An initializer makes the same calls and uses the same objects as another. -/
structure Alike (init other : Initializer) : Prop where
  calls : other.calls = init.calls
  objects : other.objects = init.objects

theorem calls_append (first second : List Initializer) :
    callsList (first ++ second) = callsList first ++ callsList second := by
  induction first with
  | nil => rfl
  | cons item items ih => simp only [List.cons_append, callsList, ih, List.append_assoc]

theorem objects_append (first second : List Initializer) :
    objectsList (first ++ second) = objectsList first ++ objectsList second := by
  induction first with
  | nil => rfl
  | cons item items ih => simp only [List.cons_append, objectsList, ih, List.append_assoc]

/-- Zeros call nothing and use nothing. -/
theorem silent_of_forall {items : List Initializer}
    (silent : ∀ item ∈ items, item.calls = [] ∧ item.objects = []) :
    callsList items = [] ∧ objectsList items = [] := by
  induction items with
  | nil => exact ⟨rfl, rfl⟩
  | cons item items ih =>
      rcases List.forall_mem_cons.1 silent with ⟨⟨noCalls, noObjects⟩, silent⟩
      simp only [callsList, objectsList, noCalls, noObjects, ih silent, List.nil_append, and_self]

theorem zero_silent (span : Span) : ∀ (type : CType) (context : Context),
    Yields (zero span type) context fun init after =>
      context.Renumbered after ∧ init.calls = [] ∧ init.objects = []
  | .array size element, context => by
      rw [zero]
      refine Ensures.bind_ok (Pass.run_newLoc _ _) ?_
      refine (Pass.times_ensures (zero_silent span element) size.toNat _).bind ?_
      rintro items after ⟨renumbered, _, silent⟩
      exact Ensures.pure ⟨(Context.Renumbered.next _).trans renumbered, silent_of_forall silent⟩
  | .integer _, context | .double, context | .pointer _, context => by
      refine Ensures.bind_ok (Pass.run_newLoc _ _) (Ensures.bind_ok (Pass.run_newLoc _ _) ?_)
      exact Ensures.pure ⟨(Context.Renumbered.next _).trans (.next _), rfl, rfl⟩
  | .void, context | .function _ _, context => Ensures.throw trivial

theorem single_alike {type : CType} {span : Span} {loc : Loc} {value : Expr} :
    Yields (do pure (Initializer.single loc (← value.checkInitial type span))) context
      fun init after => context.Renumbered after ∧ Alike (.single loc value) init := by
  refine (value.checkInitial_erases type span).bind ?_
  rintro value' after ⟨renumbered, same⟩
  exact Ensures.pure
    ⟨renumbered, (Expr.same_of_erased same).1, (Expr.same_of_erased same).2⟩

mutual

/-- The initializer of an automatic object is completed by zeros, which call nothing. -/
theorem checkAutomatic_alike : ∀ (init : Initializer) (type : CType) {context : Context},
    Yields (init.checkAutomatic type) context fun checked after =>
      context.Renumbered after ∧ Alike init checked
  | .single _ value, type, context => by
      rw [checkAutomatic]
      exact single_alike
  | .compound _ items, type, context => by
      unfold checkAutomatic
      split
      · refine Ensures.ite (fun _ => Ensures.throw trivial) fun _ => ?_
        refine (checkAutomaticList_alike items _).bind ?_
        rintro given between ⟨renumbered, sameCalls, sameObjects⟩
        refine (Pass.times_ensures (zero_silent _ _) _ between).bind ?_
        rintro zeros after ⟨more, _, silent⟩
        rcases silent_of_forall silent with ⟨noCalls, noObjects⟩
        refine Ensures.pure ⟨renumbered.trans more, ?_, ?_⟩
        · rw [calls, calls_append, noCalls, List.append_nil, sameCalls, calls]
        · rw [objects, objects_append, noObjects, List.append_nil, sameObjects, objects]
      · split
        · refine single_alike.mono ?_
          rintro init after ⟨renumbered, alike⟩
          refine ⟨renumbered, alike.calls.trans ?_, alike.objects.trans ?_⟩
          · exact (List.append_nil _).symm
          · exact (List.append_nil _).symm
        · exact Ensures.throw trivial

theorem checkAutomaticList_alike : ∀ (items : List Initializer) (element : CType)
    {context : Context}, Yields (checkAutomaticList element items) context fun checked after =>
      context.Renumbered after ∧ callsList checked = callsList items ∧
        objectsList checked = objectsList items
  | [], element, context => Ensures.pure ⟨.refl _, rfl, rfl⟩
  | item :: items, element, context => by
      unfold checkAutomaticList
      refine (checkAutomatic_alike item element).bind ?_
      rintro item' between ⟨renumbered, alike⟩
      refine (checkAutomaticList_alike items element).bind ?_
      rintro items' after ⟨more, sameCalls, sameObjects⟩
      refine Ensures.pure ⟨renumbered.trans more, ?_, ?_⟩
      · rw [callsList, alike.calls, sameCalls, callsList]
      · rw [objectsList, alike.objects, sameObjects, objectsList]

end

end Initializer

end SubsetC
