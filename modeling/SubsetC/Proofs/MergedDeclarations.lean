import SubsetC.Proofs.LinkedDeclarations

/-!
# The symbols of names with linkage

The check of types visits the linked declarations of a tree one after the other, in source order, and
touches plain names for nothing else. So at each of its points the symbol of a name follows from the
declarations so far, and behind it from all declarations of the name. The main statement is
`Program.sums_of_analyze`.

The visits of a tree (`Program.visits`) are found by running the check of everything in front of a
declaration, so that each has the state in which the check comes to the declaration.
-/

namespace SubsetC

open LinkedDecl (original)

/-! ### Trees with other names -/

/-- A change of the parts of a tree changes its linked declarations in a given way. -/
structure TreeMap.MapsLinked (change : TreeMap) (adapt : LinkedDecl → LinkedDecl) : Prop where
  object : ∀ decl, .object (change.object true decl) = adapt (.object decl)
  block : ∀ decl, (change.object false decl).linkedDecls = decl.linkedDecls.map adapt
  function : ∀ decl isDefinition,
    .function (change.function decl) isDefinition = adapt (.function decl isDefinition)

-- The recursive calls of a mutual block hide that its theorems use the hypothesis.
set_option linter.unusedSectionVars false

section

variable {change : TreeMap} {adapt : LinkedDecl → LinkedDecl} (maps : change.MapsLinked adapt)

include maps

theorem ForInit.linkedDecls_map : ∀ init : ForInit,
    (init.map change).linkedDecls = init.linkedDecls.map adapt
  | .declarations _ decls => by
      rw [ForInit.map, linkedDecls, linkedDecls, List.flatMap_map, List.map_flatMap]
      exact List.flatMap_congr fun decl _ => maps.block decl
  | .expression _ _ => rfl

mutual

theorem Stmt.linkedDecls_map : ∀ stmt : Stmt,
    (stmt.map change).linkedDecls = stmt.linkedDecls.map adapt
  | .ifThen _ _ body | .whileLoop _ _ _ body | .doWhile _ _ body _ | .switch _ _ _ body _
  | .case _ _ _ body | .default _ _ body => Stmt.linkedDecls_map body
  | .ifElse _ _ thenBranch elseBranch => by
      rw [Stmt.map, Stmt.linkedDecls, Stmt.linkedDecls, Stmt.linkedDecls_map thenBranch,
        Stmt.linkedDecls_map elseBranch, List.map_append]
  | .block _ items => Item.linkedDecls_mapList items
  | .forLoop _ _ init _ _ body => by
      rw [Stmt.map, Stmt.linkedDecls, Stmt.linkedDecls, init.linkedDecls_map maps,
        Stmt.linkedDecls_map body, List.map_append]
  | .ret _ _ | .expr _ _ | .break _ _ | .continue _ _ | .null _ => rfl

theorem Decl.linkedDecls_map : ∀ (isFile : Bool) (decl : Decl),
    (decl.map change isFile).linkedDecls isFile = (decl.linkedDecls isFile).map adapt
  | true, .object decl => congrArg (fun decl => [decl]) (maps.object decl)
  | false, .object decl => maps.block decl
  | _, .function decl => congrArg (fun decl => [decl]) (maps.function decl false)
  | _, .definition decl _ body => by
      rw [Decl.map, Decl.linkedDecls, Decl.linkedDecls, Item.linkedDecls_mapList body,
        maps.function, List.map_cons]

theorem Item.linkedDecls_mapList : ∀ items : List Item,
    Item.linkedDecls (Item.mapList change items) = (Item.linkedDecls items).map adapt
  | [] => rfl
  | .stmt stmt :: items => by
      rw [Item.mapList, Item.linkedDecls, Item.linkedDecls, Stmt.linkedDecls_map stmt,
        Item.linkedDecls_mapList items, List.map_append]
  | .decl decl :: items => by
      rw [Item.mapList, Item.linkedDecls, Item.linkedDecls, Decl.linkedDecls_map false decl,
        Item.linkedDecls_mapList items, List.map_append]

end

theorem Program.linkedDecls_mapParts (program : Program) :
    (program.mapParts change).linkedDecls = program.linkedDecls.map adapt := by
  rw [linkedDecls, linkedDecls, mapParts, List.flatMap_map, List.map_flatMap]
  exact List.flatMap_congr fun decl _ => Decl.linkedDecls_map maps true decl

end

namespace TreeMap

theorem stems_mapsLinked : (renamed Text.stem).MapsLinked original where
  object _ := rfl
  block decl := by
    by_cases isExternal : decl.storageClass = some .external <;>
      simp [renamed, VarDecl.linkedDecls, VarDecl.rename, isExternal, original]
  function _ _ := rfl

theorem unlabelled_mapsLinked : unlabelled.MapsLinked id :=
  ⟨fun _ => rfl, fun _ => (List.map_id _).symm, fun _ _ => rfl⟩

end TreeMap

/-- Resolving and labelling keep the linked declarations of a tree, up to names that are numbered
then. -/
theorem Program.linkedDecls_prepare {program : Program}
    (isWritten : program.Forall Origin.plain.parts) (context : Context) :
    Yields (program.resolve >>= label) context fun labelled _ =>
      labelled.linkedDecls.map original = program.linkedDecls := by
  refine (resolveFrom_restores program .file context (Nat.le_refl _)).bind fun resolved between
    ⟨_, stems⟩ => ?_
  refine (label_restores resolved between (Nat.le_refl _)).mono fun labelled _ ⟨_, same⟩ => ?_
  have unlabelled : labelled.linkedDecls = resolved.linkedDecls := by
    have linked := congrArg linkedDecls same
    rwa [linkedDecls_mapParts TreeMap.unlabelled_mapsLinked,
      linkedDecls_mapParts TreeMap.unlabelled_mapsLinked, List.map_id, List.map_id] at linked
  rw [unlabelled, ← linkedDecls_mapParts TreeMap.stems_mapsLinked, stems,
    mapParts_stem isWritten]

/-! ### Names of initializers -/

section

variable {change : Text → Text}

mutual

theorem Expr.rename_of_mentioned : ∀ expr : Expr,
    (∀ name ∈ expr.mentioned, change name = name) → expr.rename change = expr
  | .constant _ _, _ | .string _ _, _ | .sizeofType _ _, _ => rfl
  | .var _ _, keeps => congrArg _ (keeps _ (List.mem_singleton.2 rfl))
  | .unary _ _ operand, keeps | .cast _ _ operand _, keeps | .addressOf _ operand, keeps
  | .dereference _ operand, keeps | .step _ _ _ operand, keeps | .sizeofExpr _ operand, keeps
  | .decay _ operand, keeps => by
      rw [Expr.rename, Expr.rename_of_mentioned operand keeps]
  | .binary _ _ left right, keeps | .subscript _ left right, keeps
  | .assign _ _ left right _, keeps => by
      rw [Expr.mentioned, List.forall_mem_append] at keeps
      rw [Expr.rename, Expr.rename_of_mentioned left keeps.1,
        Expr.rename_of_mentioned right keeps.2]
  | .conditional _ condition thenBranch elseBranch, keeps => by
      rw [Expr.mentioned, List.forall_mem_append, List.forall_mem_append] at keeps
      rw [Expr.rename, Expr.rename_of_mentioned condition keeps.1,
        Expr.rename_of_mentioned thenBranch keeps.2.1,
        Expr.rename_of_mentioned elseBranch keeps.2.2]
  | .call _ _ arguments, keeps => by
      rw [Expr.mentioned, List.forall_mem_cons] at keeps
      rw [Expr.rename, keeps.1, Expr.renameList_of_mentioned arguments keeps.2]

theorem Expr.renameList_of_mentioned : ∀ exprs : List Expr,
    (∀ name ∈ Expr.mentionedList exprs, change name = name) → Expr.renameList change exprs = exprs
  | [], _ => rfl
  | expr :: exprs, keeps => by
      rw [Expr.mentionedList, List.forall_mem_append] at keeps
      rw [Expr.renameList, Expr.rename_of_mentioned expr keeps.1,
        Expr.renameList_of_mentioned exprs keeps.2]

end

mutual

theorem Initializer.rename_of_mentioned : ∀ init : Initializer,
    (∀ name ∈ init.mentioned, change name = name) → init.rename change = init
  | .single _ value, keeps => congrArg _ (value.rename_of_mentioned keeps)
  | .compound _ items, keeps => congrArg _ (Initializer.renameList_of_mentioned items keeps)

theorem Initializer.renameList_of_mentioned : ∀ items : List Initializer,
    (∀ name ∈ Initializer.mentionedList items, change name = name) →
      Initializer.renameList change items = items
  | [], _ => rfl
  | item :: items, keeps => by
      rw [Initializer.mentionedList, List.forall_mem_append] at keeps
      rw [Initializer.renameList, Initializer.rename_of_mentioned item keeps.1,
        Initializer.renameList_of_mentioned items keeps.2]

end

end

/-- The initializer of an object at file scope mentions plain names only. -/
def Decl.HasPlainInit : Decl → Prop
  | .object decl => ∀ name ∈ decl.mentioned, name.IsPlain
  | .function _ | .definition _ _ _ => True

/-- Only names at file scope are known there, and they are plain. -/
theorem Program.hasPlainInit_of_scoped : ∀ {program : Program} {known : List Text},
    program.Scoped known → (∀ name ∈ known, name.IsPlain) →
      (∀ decl ∈ program, decl.name.IsPlain) → ∀ decl ∈ program, decl.HasPlainInit
  | [], _, _, _, _ => fun _ mem => nomatch mem
  | .object decl :: decls, known, isScoped, plain, arePlain => by
      rw [List.forall_mem_cons] at arePlain ⊢
      have plain' := List.forall_mem_cons.2 ⟨arePlain.1, plain⟩
      exact ⟨fun name mem => plain' name (isScoped.1 mem),
        hasPlainInit_of_scoped isScoped.2 plain' arePlain.2⟩
  | .function decl :: decls, known, isScoped, plain, arePlain => by
      rw [List.forall_mem_cons] at arePlain ⊢
      exact ⟨trivial, hasPlainInit_of_scoped isScoped
        (List.forall_mem_cons.2 ⟨arePlain.1, plain⟩) arePlain.2⟩
  | .definition decl _ _ :: decls, known, isScoped, plain, arePlain => by
      rw [List.forall_mem_cons] at arePlain ⊢
      exact ⟨trivial, hasPlainInit_of_scoped isScoped.2
        (List.forall_mem_cons.2 ⟨arePlain.1, plain⟩) arePlain.2⟩

/-! ### The visits of a tree -/

/-- What is visited behind a pass, in the state that it leaves. -/
def Pass.visitsBehind {α : Type} (pass : Pass α) (more : α → Context → List Visit)
    (context : Context) : List Visit :=
  match pass.run context with
  | .ok (result, after) => more result after
  | .error _ => []

theorem Pass.visitsBehind_of_ok {α : Type} {pass : Pass α} {more : α → Context → List Visit}
    {context after : Context} {result : α} (runs : pass.run context = .ok (result, after)) :
    pass.visitsBehind more context = more result after := by
  rw [visitsBehind, runs]

/-- The visit to a declaration from a state. -/
def LinkedDecl.visits (decl : LinkedDecl) (context : Context) : List Visit :=
  decl.check.visitsBehind (fun _ after => [⟨decl, context, after⟩]) context

/-- The visit to an object of a block, if it is external. -/
def VarDecl.visits (decl : VarDecl) (context : Context) : List Visit :=
  if decl.storageClass = some .external then (LinkedDecl.external decl).visits context else []

def VarDecl.visitsList : List VarDecl → Context → List Visit
  | [], _ => []
  | decl :: decls, context =>
      decl.visits context ++ decl.checkLocal.visitsBehind (fun _ => visitsList decls) context

def ForInit.visits : ForInit → Context → List Visit
  | .declarations _ decls => VarDecl.visitsList decls
  | .expression _ _ => fun _ => []

/-- The visit to a declaration of a block. -/
def Decl.visitsLocal : Decl → Context → List Visit
  | .object decl => decl.visits
  | .function decl => (LinkedDecl.function decl false).visits
  | .definition _ _ _ => fun _ => []

mutual

/-- The visits that the check of a statement makes from a state, in a function with a result type. -/
def Stmt.visits (result : CType) : Stmt → Context → List Visit
  | .ifThen _ condition body, context | .whileLoop _ _ condition body, context =>
      condition.checkConditionValue.visitsBehind (fun _ => body.visits result) context
  | .ifElse _ condition thenBranch elseBranch, context =>
      condition.checkConditionValue.visitsBehind (fun _ second =>
        thenBranch.visits result second ++
          (thenBranch.check result).visitsBehind (fun _ => elseBranch.visits result) second) context
  | .block _ items, context => Item.visits result items context
  | .doWhile _ _ body _, context | .default _ _ body, context => body.visits result context
  | .forLoop _ _ init condition post body, context =>
      init.visits context ++ init.check.visitsBehind (fun _ =>
        (Expr.checkOption Expr.checkConditionValue condition).visitsBehind fun _ =>
          (Expr.checkOption Expr.checkValue post).visitsBehind fun _ => body.visits result) context
  | .switch _ _ value body cases, context =>
      value.checkSwitch.visitsBehind (fun value =>
        (SwitchCase.checkList value.type [] cases).visitsBehind fun _ =>
          body.visits result) context
  | .case _ _ value body, context =>
      value.checkValue.visitsBehind (fun _ => body.visits result) context
  | .ret _ _, _ | .expr _ _, _ | .break _ _, _ | .continue _ _, _ | .null _, _ => []

/-- The visits that the check of the items of a block makes. -/
def Item.visits (result : CType) : List Item → Context → List Visit
  | [], _ => []
  | .stmt stmt :: items, context =>
      stmt.visits result context ++
        (stmt.check result).visitsBehind (fun _ => Item.visits result items) context
  | .decl decl :: items, context =>
      decl.visitsLocal context ++
        decl.checkLocal.visitsBehind (fun _ => Item.visits result items) context

end

/-- The visits that the check of a declaration at file scope makes. A function is visited before its
body. -/
def Decl.visits : Decl → Context → List Visit
  | .object decl, context => (LinkedDecl.object decl).visits context
  | .function decl, context => (LinkedDecl.function decl false).visits context
  | .definition decl _ body, context =>
      (LinkedDecl.function decl true).visits context ++ (decl.check true).visitsBehind (fun decl =>
        (Param.declareList decl.params).visitsBehind fun _ => Item.visits decl.result body) context

/-- The visits that the check of a compilation unit makes. -/
def Program.visits : Program → Context → List Visit
  | [], _ => []
  | decl :: decls, context =>
      decl.visits context ++ decl.checkFile.visitsBehind (fun _ => visits decls) context

/-! ### What is visited -/

/-- A name is plain exactly if it has linkage. -/
def Local.IsApart (decl : Local) : Prop := decl.hasLinkage ↔ decl.name.IsPlain

theorem Context.Awaits.isApart {context : Context} {locals : List Local}
    (awaits : context.Awaits locals) : ∀ decl ∈ locals, decl.IsApart := by
  intro decl mem
  cases linkage : decl.hasLinkage with
  | true => exact iff_of_true linkage (awaits.plain decl mem linkage)
  | false =>
      exact iff_of_false (by simp [linkage]) (awaits.isNumbered decl mem linkage).not_plain

/-- A symbol that is entered again as it is leaves the table as it is. -/
theorem SymbolTable.set_of_find? {table : SymbolTable} {name other : Text} {type : CType}
    {storage : Storage} (found : table.find? name = some ⟨other, type, storage⟩) :
    table.set name type storage = table := by
  rcases table with ⟨rows⟩
  refine congrArg SymbolTable.mk ?_
  dsimp only [find?] at found
  induction rows with
  | nil => cases found
  | cons row rows ih =>
      rw [put]
      by_cases same : row.name = name
      · rw [List.find?_cons_of_pos (by simpa using same)] at found
        cases found
        exact (if_pos same).trans
          (congrArg (fun name => Symbol.mk name type storage :: rows) same.symm)
      · rw [List.find?_cons_of_neg (by simpa using same)] at found
        rw [if_neg same, ih found]

namespace Context

/-- From one state to another, the check of types visits given declarations and no others. -/
structure VisitsAll (context : Context) (decls : List LinkedDecl) (visits : List Visit)
    (after : Context) : Prop where
  passes : context.Passes visits after
  decls : visits.map Visit.decl = decls

variable {first second third : Context} {decls more : List LinkedDecl}
  {visits moreVisits : List Visit}

theorem Idles.visitsAll (idles : first.Idles second) : first.VisitsAll [] [] second :=
  ⟨.done idles, rfl⟩

theorem Renumbered.visitsAll (renumbered : first.Renumbered second) :
    first.VisitsAll [] [] second :=
  (Idles.number renumbered).visitsAll

theorem VisitsAll.append (earlier : first.VisitsAll decls visits second)
    (later : second.VisitsAll more moreVisits third) :
    first.VisitsAll (decls ++ more) (visits ++ moreVisits) third :=
  ⟨earlier.passes.append later.passes, by rw [List.map_append, earlier.decls, later.decls]⟩

/-- Nothing is visited behind. -/
theorem VisitsAll.before (earlier : first.VisitsAll decls visits second)
    (later : second.VisitsAll [] [] third) : first.VisitsAll decls visits third := by
  have all := earlier.append later
  rwa [List.append_nil, List.append_nil] at all

section Rules

variable {α β : Type} {pass : Pass α} {next : α → Pass β} {nextVisits : α → Context → List Visit}

/-- What comes behind a pass is visited behind what the pass visits. -/
theorem VisitsAll.bind_of_run
    (earlier : Yields pass first fun _ second => first.VisitsAll decls visits second)
    (later : ∀ result second, pass.run first = .ok (result, second) →
      Yields (next result) second fun _ third =>
        second.VisitsAll more (nextVisits result second) third) :
    Yields (pass >>= next) first fun _ third =>
      first.VisitsAll (decls ++ more) (visits ++ pass.visitsBehind nextVisits first) third := by
  refine (earlier.and (Ensures.runs pass first)).bind ?_
  rintro result second ⟨all, runs⟩
  rw [Pass.visitsBehind_of_ok runs]
  exact (later result second runs).mono fun _ _ more => all.append more

theorem VisitsAll.bind
    (earlier : Yields pass first fun _ second => first.VisitsAll decls visits second)
    (later : ∀ result second, Yields (next result) second fun _ third =>
      second.VisitsAll more (nextVisits result second) third) :
    Yields (pass >>= next) first fun _ third =>
      first.VisitsAll (decls ++ more) (visits ++ pass.visitsBehind nextVisits first) third :=
  VisitsAll.bind_of_run earlier fun result second _ => later result second

/-- Nothing is visited before. -/
theorem VisitsAll.bind_idle
    (earlier : Yields pass first fun _ second => first.VisitsAll [] [] second)
    (later : ∀ result second, Yields (next result) second fun _ third =>
      second.VisitsAll more (nextVisits result second) third) :
    Yields (pass >>= next) first fun _ third =>
      first.VisitsAll more (pass.visitsBehind nextVisits first) third :=
  VisitsAll.bind earlier later

/-- A single visit takes the state to that behind it. -/
theorem visitsAll_singleton {decl : LinkedDecl} (checks : decl.check.run first = .ok ((), second))
    (declares : Visit.Declares ⟨decl, first, second⟩) :
    first.VisitsAll [decl] (decl.visits first) second := by
  have visits : decl.visits first = [⟨decl, first, second⟩] := Pass.visitsBehind_of_ok checks
  rw [visits]
  exact ⟨.visit (.number (.refl first)) declares (.done (.number (.refl second))), rfl⟩

end Rules

/-- The entry of strings visits nothing. -/
theorem Steps.idles {locals : List Local} {defined : List Text}
    (steps : first.Steps locals defined second) (nothing : locals = []) : first.Idles second := by
  induction steps with
  | number renumbered => exact .number renumbered
  | string context bytes =>
      exact .enter context (Text.isNumbered_numbered "string" context.nextName).not_plain
        _ _ (Nat.le_succ _)
  | again | declare => cases nothing
  | append _ _ ihEarlier ihLater =>
      rcases List.append_eq_nil_iff.1 nothing with ⟨none, noMore⟩
      exact (ihEarlier none).trans (ihLater noMore)

end Context

/-! ### Declarations -/

/-- The storage that a declaration of a type leads to is its own if it is the first one of its name,
and else what those before and its own are merged to. -/
inductive SymbolTable.Enters (table : SymbolTable) (name : Text) (type : CType) (own : Storage) :
    Storage → Prop where
  | first (absent : table.find? name = none) : Enters table name type own own
  | again {other : Text} {previous storage : Storage}
      (found : table.find? name = some ⟨other, type, previous⟩)
      (merged : previous.merge? own = some storage) : Enters table name type own storage

/-- A declaration gets a symbol for its name, or merges one into the symbol there is. -/
theorem Visit.declares_set {visit : Visit} {between : Context} {value : InitialValue}
    {storage : Storage} (checks : visit.decl.check.run visit.before = .ok ((), visit.after))
    (isPlain : visit.decl.name.IsPlain) (init : visit.decl.original.init? = visit.decl.init?)
    (idles : visit.before.Idles between) (starts : visit.Starts value)
    (enters : between.symbols.Enters visit.decl.name visit.decl.type (visit.decl.storage value)
      storage)
    (sets : visit.after.symbols = between.symbols.set visit.decl.name visit.decl.type storage) :
    visit.Declares where
  checks := checks
  isPlain := isPlain
  init := init
  enters := by
    refine ⟨value, ⟨visit.decl.name, visit.decl.type, storage⟩, starts, ?_, rfl, ?_⟩
    · rw [sets, SymbolTable.find?_set, if_pos rfl]
    · rw [← idles.find?_eq isPlain]
      cases enters with
      | first absent => rw [absent]
      | again found merged =>
          rw [found]
          exact ⟨rfl, merged⟩
  others name isPlain' other := by
    rw [sets, SymbolTable.find?_set, if_neg (Ne.symm other), idles.find?_eq isPlain']

section

variable {context : Context}

namespace FunDecl

theorem checkList_adjusts (params : List Param) :
    Yields (Param.checkList params) context fun checked after =>
      context = after ∧ checked = params.map Param.adjusted :=
  ((Param.checkList_names params).and
    (Param.checkList_restores params context (Nat.le_refl _))).mono
      fun _ _ holds => ⟨holds.1.1, holds.2.2⟩

theorem mergeStorage_merges (decl : FunDecl) (isDefinition : Bool) :
    Yields (decl.mergeStorage isDefinition) context fun storage after => context = after ∧
      context.symbols.Enters decl.name decl.type
        (.function isDefinition (decl.storageClass != some .static)) storage := by
  unfold mergeStorage
  refine Ensures.bind_ok (Pass.run_findSymbol? _ _) ?_
  split
  · exact Ensures.pure ⟨rfl, .first ‹_›⟩
  · rename_i other type defined isGlobal found
    refine Ensures.ite (fun _ => Ensures.throw trivial) fun sameType => ?_
    refine Ensures.ite (fun _ => Ensures.throw trivial) fun once => ?_
    refine Ensures.ite (fun _ => Ensures.throw trivial) fun _ => ?_
    obtain rfl : type = decl.type := by simpa using sameType
    exact Ensures.pure ⟨rfl, .again found (by rw [Storage.merge?, if_neg once])⟩
  · exact Ensures.throw trivial

/-- A function is declared, before its body if it has one. -/
theorem check_visits {decl : FunDecl} (isPlain : decl.name.IsPlain) (isDefinition : Bool) :
    Yields (decl.check isDefinition) context fun checked after =>
      context.VisitsAll [.function decl isDefinition]
        ((LinkedDecl.function decl isDefinition).visits context) after ∧
          checked = decl.adjusted := by
  have merges : Yields (decl.check isDefinition) context fun checked after =>
      checked = decl.adjusted ∧ ∃ storage,
        after.symbols = context.symbols.set decl.name decl.adjusted.type storage ∧
          context.symbols.Enters decl.name decl.adjusted.type
            (.function isDefinition (decl.storageClass != some .static)) storage := by
    unfold check
    refine (CType.checkElements_ensures (fun _ _ => trivial) decl.result).bind ?_
    rintro _ _ ⟨rfl, _⟩
    refine (checkList_adjusts decl.params).bind ?_
    rintro _ _ ⟨rfl, rfl⟩
    refine (mergeStorage_merges decl.adjusted isDefinition).bind ?_
    rintro storage _ ⟨rfl, enters⟩
    exact Ensures.bind_ok (Pass.run_setSymbol _ _ _ _) (Ensures.pure ⟨rfl, storage, rfl, enters⟩)
  refine merges.with_run ?_
  rintro checked after runs ⟨rfl, storage, sets, enters⟩
  have checks : (LinkedDecl.function decl isDefinition).check.run context = .ok ((), after) :=
    Ensures.run_bind_of_ok runs
  have starts : Visit.Starts ⟨.function decl isDefinition, context, after⟩ .absent := rfl
  exact ⟨Context.visitsAll_singleton checks
    (Visit.declares_set checks isPlain rfl (.number (.refl context)) starts enters sets), rfl⟩

end FunDecl

namespace VarDecl

/-- Computing how a static object starts out visits nothing. -/
theorem initialValue_idles (decl : VarDecl) (ifMissing : InitialValue) :
    Yields (decl.initialValue ifMissing) context fun result after => context.Idles after ∧
      (∃ init, result.1 = { decl with init }) ∧ match decl.init with
        | some init => ∃ items checked, result.2 = .initial items ∧
            (init.checkStatic decl.type []).run context = .ok ((checked, items), after)
        | none => result.2 = ifMissing := by
  unfold initialValue
  split
  · exact Ensures.pure ⟨.number (.refl context), ⟨_, rfl⟩, by simp_all⟩
  · rename_i init isInit
    refine Ensures.bind ((init.checkStatic_quotes decl.type []).with_run
      fun result after runs quotes => And.intro runs quotes) ?_
    rintro ⟨checked, items⟩ after ⟨runs, quotes, _⟩
    refine Ensures.pure ⟨quotes.steps.idles rfl, ⟨_, rfl⟩, ?_⟩
    rw [isInit]
    exact ⟨items, checked, rfl, runs⟩

theorem mergeStorage_merges (decl : VarDecl) (next : InitialValue) :
    Yields (decl.mergeStorage next) context fun storage after => context = after ∧
      context.symbols.Enters decl.name decl.type
        (.static next (decl.storageClass != some .static)) storage := by
  unfold mergeStorage
  refine Ensures.bind_ok (Pass.run_findSymbol? _ _) ?_
  split
  · exact Ensures.pure ⟨rfl, .first ‹_›⟩
  · rename_i other type previous wasGlobal found
    refine Ensures.ite (fun _ => Ensures.throw trivial) fun sameType => ?_
    refine Ensures.ite (fun _ => Ensures.throw trivial) fun _ => ?_
    obtain rfl : type = decl.type := by simpa using sameType
    split
    · exact Ensures.throw trivial
    · rename_i init merged
      refine Ensures.pure ⟨rfl, .again found ?_⟩
      rw [Storage.merge?, merged]
      rfl
  · exact Ensures.throw trivial

/-- The check of an object at file scope computes its initializer and merges the symbol. -/
theorem checkFile_enters (decl : VarDecl) : Yields decl.checkFile context fun _ after =>
    ∃ between value storage, context.Idles between ∧
      Visit.Starts ⟨.object decl, context, after⟩ value ∧
      after.symbols = between.symbols.set decl.name decl.type storage ∧
        between.symbols.Enters decl.name decl.type
          (.static value (decl.storageClass != some .static)) storage := by
  unfold checkFile
  refine (CType.checkObject_ensures (fun _ _ => trivial) decl.type).bind ?_
  rintro _ _ ⟨rfl, _⟩
  refine (decl.initialValue_idles _).bind ?_
  rintro ⟨_, value⟩ between ⟨idles, ⟨init, rfl⟩, computed⟩
  refine (mergeStorage_merges { decl with init } value).bind ?_
  rintro storage _ ⟨rfl, enters⟩
  refine Ensures.bind_ok (Pass.run_setSymbol _ _ _ _)
    (Ensures.pure ⟨_, value, storage, idles, ?_, rfl, enters⟩)
  rw [Visit.Starts, LinkedDecl.init?]
  cases isInit : decl.init with
  | some init =>
      rw [isInit] at computed
      rcases computed with ⟨items, checked, same, runs⟩
      exact ⟨items, same, init, checked, _, isInit, runs⟩
  | none =>
      rw [isInit] at computed
      simpa [LinkedDecl.isTentative] using computed

theorem init?_original_of_plain {decl : VarDecl} (plainInit : (Decl.object decl).HasPlainInit) :
    (original (.object decl)).init? = (LinkedDecl.object decl).init? := by
  rw [LinkedDecl.init?_original, LinkedDecl.init?]
  cases isInit : decl.init with
  | none => rfl
  | some init =>
      refine congrArg some (init.rename_of_mentioned fun name mem => ?_)
      refine Text.stem_of_isPlain (plainInit name ?_)
      simpa only [VarDecl.mentioned, isInit] using mem

/-- An object at file scope is declared, with its initializer computed where it stands. -/
theorem checkFile_visits {decl : VarDecl} (isPlain : decl.name.IsPlain)
    (plainInit : (Decl.object decl).HasPlainInit) :
    Yields decl.checkFile context fun _ after =>
      context.VisitsAll [.object decl] ((LinkedDecl.object decl).visits context) after := by
  refine decl.checkFile_enters.with_run ?_
  rintro checked after runs ⟨between, value, storage, idles, starts, sets, enters⟩
  have checks : (LinkedDecl.object decl).check.run context = .ok ((), after) :=
    Ensures.run_bind_of_ok runs
  exact Context.visitsAll_singleton checks (Visit.declares_set checks isPlain
    (init?_original_of_plain plainInit) idles starts enters sets)

theorem checkExternal_enters (decl : VarDecl) : Yields decl.checkExternal context fun _ after =>
    ∃ storage, after.symbols = context.symbols.set decl.name decl.type storage ∧
      context.symbols.Enters decl.name decl.type (.static .absent true) storage := by
  unfold checkExternal
  refine Ensures.ite (fun _ => Ensures.throw trivial) fun _ => ?_
  refine Ensures.bind_ok (Pass.run_findSymbol? _ _) ?_
  split
  · exact ⟨_, rfl, .first ‹_›⟩
  · rename_i other type init isGlobal found
    refine Ensures.ite (fun _ => Ensures.throw trivial) fun sameType => Ensures.pure ?_
    obtain rfl : type = decl.type := by simpa using sameType
    refine ⟨.static init isGlobal, (SymbolTable.set_of_find? found).symm, .again found ?_⟩
    cases init <;> rfl
  · exact Ensures.throw trivial

/-- An external object of a block gets a symbol if it has none yet. -/
theorem checkLocal_external {decl : VarDecl} (isPlain : decl.name.IsPlain)
    (isExternal : decl.storageClass = some .external) :
    Yields decl.checkLocal context fun _ after =>
      context.VisitsAll [.external decl] ((LinkedDecl.external decl).visits context) after := by
  have storage : (LinkedDecl.external decl).storage .absent = .static .absent true := by
    simp [LinkedDecl.storage, isExternal]
  have enters : Yields decl.checkLocal context fun _ after => ∃ storage,
      after.symbols = context.symbols.set decl.name decl.type storage ∧
        context.symbols.Enters decl.name decl.type (.static .absent true) storage := by
    unfold checkLocal
    refine (CType.checkObject_ensures (fun _ _ => trivial) decl.type).bind ?_
    rintro _ _ ⟨rfl, _⟩
    rw [isExternal]
    exact decl.checkExternal_enters.bind fun _ _ enters => Ensures.pure enters
  refine enters.with_run ?_
  rintro checked after runs ⟨stored, sets, enters⟩
  have checks : (LinkedDecl.external decl).check.run context = .ok ((), after) :=
    Ensures.run_bind_of_ok runs
  have starts : Visit.Starts ⟨.external decl, context, after⟩ .absent := rfl
  rw [← storage] at enters
  exact Context.visitsAll_singleton checks
    (Visit.declares_set checks isPlain rfl (.number (.refl context)) starts enters sets)

/-- An object of a block is visited if it is external, and else its name is not plain. -/
theorem checkLocal_visits {decl : VarDecl} (isApart : decl.toLocal.IsApart) :
    Yields decl.checkLocal context fun _ after =>
      context.VisitsAll decl.linkedDecls (decl.visits context) after := by
  by_cases isExternal : decl.storageClass = some .external
  · rw [linkedDecls, if_pos isExternal, visits, if_pos isExternal]
    exact checkLocal_external (isApart.1 (by simp [toLocal, isExternal])) isExternal
  have notPlain : ¬decl.name.IsPlain := fun isPlain => by
    simpa [toLocal, isExternal] using isApart.2 isPlain
  have enter (context : Context) (storage : Storage) : context.Idles
      { context with symbols := context.symbols.set decl.name decl.type storage } :=
    .enter context notPlain decl.type storage (Nat.le_refl _)
  rw [linkedDecls, if_neg isExternal, visits, if_neg isExternal]
  suffices idles : Yields decl.checkLocal context fun _ after => context.Idles after from
    idles.mono fun _ _ idles => idles.visitsAll
  unfold checkLocal
  refine (CType.checkObject_ensures (fun _ _ => trivial) decl.type).bind ?_
  rintro _ _ ⟨rfl, _⟩
  split
  · exact absurd ‹_› isExternal
  · refine (decl.initialValue_idles _).bind ?_
    rintro ⟨_, value⟩ between ⟨idles, ⟨init, rfl⟩, -⟩
    exact Ensures.bind_ok (Pass.run_setSymbol _ _ _ _)
      (Ensures.pure (idles.trans (enter between _)))
  · refine Ensures.bind_ok (Pass.run_setSymbol _ _ _ _) ?_
    split
    · exact Ensures.pure (enter context .automatic)
    · rename_i init _
      refine (init.checkAutomatic_alike decl.type).bind ?_
      rintro init' after ⟨renumbered, _⟩
      exact Ensures.pure ((enter context .automatic).trans (.number renumbered))

theorem checkForList_visits : ∀ {decls : List VarDecl} {context : Context},
    (∀ decl ∈ decls.map toLocal, decl.IsApart) →
      Yields (checkForList decls) context fun _ after =>
        context.VisitsAll (decls.flatMap linkedDecls) (visitsList decls context) after
  | [], context, _ => Ensures.pure (Context.Renumbered.refl context).visitsAll
  | decl :: decls, context, areApart => by
      rw [List.map_cons, List.forall_mem_cons] at areApart
      have declares : Yields (do
          let decl ← decl.checkLocal
          pure (decl :: (← checkForList decls))) context fun _ after =>
            context.VisitsAll ((decl :: decls).flatMap linkedDecls)
              (visitsList (decl :: decls) context) after :=
        Context.VisitsAll.bind (checkLocal_visits areApart.1) fun _ _ =>
          (checkForList_visits areApart.2).bind fun _ _ more => Ensures.pure more
      exact Ensures.ite (fun _ => Ensures.throw trivial) fun _ => declares

end VarDecl

theorem Param.declareList_idles : ∀ {params : List Param} {context : Context},
    (∀ param ∈ params, ¬param.name.IsPlain) →
      Yields (Param.declareList params) context fun _ after => context.Idles after
  | [], context, _ => Ensures.pure (.number (.refl context))
  | param :: _, context, notPlain => by
      rw [List.forall_mem_cons] at notPlain
      refine Ensures.bind_ok (Pass.run_setSymbol _ _ _ _) ?_
      refine (Param.declareList_idles notPlain.2).mono fun _ _ idles => ?_
      have enters := Context.Idles.enter context notPlain.1 param.type .automatic (Nat.le_refl _)
      exact enters.trans idles

theorem ForInit.check_visits {init : ForInit} (areApart : ∀ decl ∈ init.locals, decl.IsApart) :
    Yields init.check context fun _ after =>
      context.VisitsAll init.linkedDecls (init.visits context) after := by
  cases init with
  | declarations loc decls =>
      exact (VarDecl.checkForList_visits areApart).bind fun _ _ all => Ensures.pure all
  | expression loc value =>
      refine (Expr.checkOption_erases Expr.checkValue_erases value).bind ?_
      rintro _ _ ⟨renumbered, _⟩
      exact Ensures.pure renumbered.visitsAll

end

/-! ### Statements -/

section

open Context (VisitsAll)

mutual

/-- The check of a statement visits its linked declarations in source order. -/
theorem Stmt.check_visits (result : CType) : ∀ (stmt : Stmt) {context : Context},
    (∀ decl ∈ stmt.locals, decl.IsApart) → Yields (stmt.check result) context fun _ after =>
      context.VisitsAll stmt.linkedDecls (stmt.visits result context) after
  | .ret loc value, _, _ => by
      refine (Expr.checkReturn_erases result loc.span value).bind ?_
      rintro _ _ ⟨renumbered, _⟩
      exact Ensures.pure renumbered.visitsAll
  | .expr _ value, _, _ => value.checkValue_erases.bind fun _ _ erases =>
      Ensures.pure erases.renumbered.visitsAll
  | .ifThen _ condition body, _, areApart | .whileLoop _ _ condition body, _, areApart =>
      VisitsAll.bind_idle
        (condition.checkConditionValue_erases.mono fun _ _ erases => erases.renumbered.visitsAll)
        fun _ _ => (Stmt.check_visits result body areApart).bind fun _ _ all => Ensures.pure all
  | .ifElse _ condition thenBranch elseBranch, _, areApart => by
      rw [Stmt.locals, List.forall_mem_append] at areApart
      exact VisitsAll.bind_idle
        (condition.checkConditionValue_erases.mono fun _ _ erases => erases.renumbered.visitsAll)
        fun _ _ => VisitsAll.bind (Stmt.check_visits result thenBranch areApart.1)
          fun _ _ => (Stmt.check_visits result elseBranch areApart.2).bind
            fun _ _ all => Ensures.pure all
  | .block _ _, _, areApart =>
      (Item.check_visits result areApart).bind fun _ _ all => Ensures.pure all
  | .doWhile _ _ body condition, _, areApart =>
      (Stmt.check_visits result body areApart).bind fun _ _ all =>
        condition.checkConditionValue_erases.bind fun _ _ erases =>
          Ensures.pure (all.before erases.renumbered.visitsAll)
  | .forLoop _ _ _ condition post body, _, areApart => by
      rw [Stmt.locals, List.forall_mem_append] at areApart
      refine VisitsAll.bind (ForInit.check_visits areApart.1) fun _ _ => ?_
      refine VisitsAll.bind_idle
        ((Expr.checkOption_erases Expr.checkConditionValue_erases condition).mono
          fun _ _ erases => erases.1.visitsAll)
        fun _ _ => ?_
      refine VisitsAll.bind_idle
        ((Expr.checkOption_erases Expr.checkValue_erases post).mono
          fun _ _ erases => erases.1.visitsAll)
        fun _ _ => ?_
      exact (Stmt.check_visits result body areApart.2).bind fun _ _ all => Ensures.pure all
  | .switch _ _ value body cases, _, areApart => by
      refine VisitsAll.bind_idle
        (value.checkSwitch_erases.mono fun _ _ erases => erases.renumbered.visitsAll)
        fun value' between => ?_
      have converts : Yields (SwitchCase.checkList value'.type [] cases) between fun _ after =>
          between.VisitsAll [] [] after := by
        refine (SwitchCase.checkList_renumbers value'.type cases []).mono ?_
        rintro _ _ rfl
        exact (Context.Renumbered.refl between).visitsAll
      refine VisitsAll.bind_idle converts fun _ _ => ?_
      exact (Stmt.check_visits result body areApart).bind fun _ _ all => Ensures.pure all
  | .case _ _ value body, _, areApart =>
      VisitsAll.bind_idle
        (value.checkValue_erases.mono fun _ _ erases => erases.renumbered.visitsAll)
        fun _ _ => (Stmt.check_visits result body areApart).bind fun _ _ all => Ensures.pure all
  | .default _ _ body, _, areApart =>
      (Stmt.check_visits result body areApart).bind fun _ _ all => Ensures.pure all
  | .break _ _, context, _ | .continue _ _, context, _ | .null _, context, _ =>
      Ensures.pure (Context.Renumbered.refl context).visitsAll

theorem Item.check_visits (result : CType) : ∀ {items : List Item} {context : Context},
    (∀ decl ∈ Item.localsList items, decl.IsApart) →
      Yields (Item.checkList result items) context fun _ after =>
        context.VisitsAll (Item.linkedDecls items) (Item.visits result items context) after
  | [], context, _ => Ensures.pure (Context.Renumbered.refl context).visitsAll
  | .stmt stmt :: _, _, areApart => by
      rw [Item.localsList, List.forall_mem_append] at areApart
      exact VisitsAll.bind (Stmt.check_visits result stmt areApart.1) fun _ _ =>
        (Item.check_visits result areApart.2).bind fun _ _ all => Ensures.pure all
  | .decl (.object decl) :: items, context, areApart => by
      rw [Item.localsList, List.forall_mem_cons] at areApart
      have object : Yields (Decl.object decl).checkLocal context fun _ after =>
          context.VisitsAll ((Decl.object decl).linkedDecls false)
            ((Decl.object decl).visitsLocal context) after :=
        (VarDecl.checkLocal_visits areApart.1).bind fun _ _ all => Ensures.pure all
      exact VisitsAll.bind object fun _ _ =>
        (Item.check_visits result areApart.2).bind fun _ _ all => Ensures.pure all
  | .decl (.function decl) :: items, context, areApart => by
      rw [Item.localsList, List.forall_mem_cons] at areApart
      have function : Yields (Decl.function decl).checkLocal context fun _ after =>
          context.VisitsAll ((Decl.function decl).linkedDecls false)
            ((Decl.function decl).visitsLocal context) after :=
        Ensures.ite (fun _ => Ensures.throw trivial) fun _ =>
          (FunDecl.check_visits (areApart.1.1 rfl) false).bind fun _ _ all => Ensures.pure all.1
      exact VisitsAll.bind function fun _ _ =>
        (Item.check_visits result areApart.2).bind fun _ _ all => Ensures.pure all
  | .decl (.definition _ _ _) :: _, _, _ => Ensures.throw trivial

end

/-! ### Compilation units -/

theorem Decl.checkFile_visits {decl : Decl} {context : Context}
    (plainInit : decl.HasPlainInit) (areApart : ∀ entry ∈ decl.locals, entry.IsApart) :
    Yields decl.checkFile context fun _ after =>
      context.VisitsAll (decl.linkedDecls true) (decl.visits context) after := by
  cases decl with
  | object decl =>
      have isPlain := (areApart _ (List.mem_singleton.2 rfl)).1 rfl
      exact (VarDecl.checkFile_visits isPlain plainInit).bind fun _ _ all => Ensures.pure all
  | function decl =>
      have isPlain := (areApart _ (List.mem_singleton.2 rfl)).1 rfl
      exact (FunDecl.check_visits isPlain false).bind fun _ _ all => Ensures.pure all.1
  | definition decl bodyLoc body =>
      rw [Decl.locals, List.forall_mem_cons, List.forall_mem_append] at areApart
      rcases areApart with ⟨own, params, inside⟩
      have notPlain : ∀ param ∈ decl.adjusted.params, ¬param.name.IsPlain := by
        intro param mem
        rcases List.mem_map.1 mem with ⟨given, isGiven, rfl⟩
        intro isPlain
        cases (params _ (List.mem_map_of_mem isGiven)).2 isPlain
      have declares : Yields (decl.check true) context fun checked after =>
          context.VisitsAll [.function decl true]
            ((LinkedDecl.function decl true).visits context) after ∧ checked = decl.adjusted :=
        FunDecl.check_visits (own.1 rfl) true
      refine VisitsAll.bind_of_run (declares.mono fun _ _ all => all.1) fun checked _ runs => ?_
      obtain rfl := (declares.of_ok runs).2
      refine VisitsAll.bind_idle
        ((Param.declareList_idles notPlain).mono fun _ _ idles => idles.visitsAll) fun _ _ => ?_
      exact (Item.check_visits _ inside).bind fun _ _ all => Ensures.pure all

namespace Program

theorem check_visits : ∀ {program : Program} {context : Context},
    (∀ decl ∈ program, decl.HasPlainInit) → (∀ decl ∈ program.locals, decl.IsApart) →
      Yields program.check context fun _ after =>
        context.VisitsAll program.linkedDecls (program.visits context) after
  | [], context, _, _ => Ensures.pure (Context.Renumbered.refl context).visitsAll
  | decl :: decls, _, plainInits, areApart => by
      rw [List.forall_mem_cons] at plainInits
      rw [locals_cons, List.forall_mem_append] at areApart
      exact VisitsAll.bind (Decl.checkFile_visits plainInits.1 areApart.1) fun _ _ =>
        (check_visits plainInits.2 areApart.2).bind fun _ _ all => Ensures.pure all

end Program

end

namespace Program

/-- What the check of types makes of the linked declarations of a source, from the state in which it
starts on the resolved and labelled tree. -/
structure Merges (program labelled : Program) (start final : Context) : Prop where
  /-- It visits all of them, in source order. -/
  decls : (labelled.visits start).map (fun visit => visit.decl.original) = program.linkedDecls
  /-- What it finds there is what the source declares. -/
  same : ∀ visit ∈ labelled.visits start, visit.decl.Matches visit.decl.original
  /-- Each is declared where it stands, and nothing else touches a symbol of a plain name. -/
  passes : start.Passes (labelled.visits start) final
  /-- Wherever the check comes to a declaration, and wherever it leaves one, the symbols follow from
  the declarations so far. -/
  sums : ∀ {front back : List Visit} {visit : Visit},
    labelled.visits start = front ++ visit :: back →
    visit.before.symbols.Sums front ∧ visit.after.symbols.Sums (front ++ [visit])
  /-- The symbols rise at a visit, up to any later one, and up to the end. -/
  rises : ∀ {front back : List Visit} {visit : Visit},
    labelled.visits start = front ++ visit :: back →
    visit.before.symbols.Rises visit.after.symbols ∧ visit.after.symbols.Rises final.symbols ∧
      ∀ later ∈ back, visit.after.symbols.Rises later.before.symbols
  /-- In the end they follow from all declarations. -/
  final : ∀ decl ∈ program.linkedDecls, ∃ symbol, final.symbols.find? decl.name = some symbol ∧
    symbol.Sums (Visit.declaring decl.name (labelled.visits start))

/-- Visits that start without symbols merge the declarations that they come to. -/
theorem merges_of_visitsAll {program labelled : Program} {start final : Context}
    (all : start.VisitsAll labelled.linkedDecls (labelled.visits start) final)
    (sameDecls : labelled.linkedDecls.map original = program.linkedDecls)
    (nothing : start.symbols.Sums []) : program.Merges labelled start final where
  decls := by
    rw [← sameDecls, ← all.decls, List.map_map]
    rfl
  same visit mem :=
    have declares := all.passes.declares visit mem
    LinkedDecl.matches_original declares.isPlain declares.init
  passes := all.passes
  sums same := by
    have passes := all.passes
    rw [same] at passes
    exact ⟨passes.sums_before nothing, passes.sums_after nothing⟩
  rises same := by
    have passes := all.passes
    rw [same] at passes
    rcases passes.split with ⟨_, declares, rest⟩
    have after := passes.sums_after nothing
    refine ⟨declares.rises (passes.sums_before nothing), rest.rises after, fun later mem => ?_⟩
    rcases List.append_of_mem mem with ⟨between, _, rfl⟩
    exact rest.split.1.rises after
  final := by
    intro decl mem
    rw [← sameDecls, ← all.decls] at mem
    rcases List.mem_map.1 mem with ⟨_, isLinked, rfl⟩
    rcases List.mem_map.1 isLinked with ⟨visit, isVisit, rfl⟩
    have isPlain := (all.passes.declares visit isVisit).isPlain
    have sums := all.passes.sums nothing visit.decl.name isPlain
    rw [LinkedDecl.name_original, Text.stem_of_isPlain isPlain]
    rw [List.nil_append] at sums
    split at sums
    · rename_i symbol found
      exact ⟨symbol, found, sums⟩
    · exact absurd sums (List.ne_nil_of_mem (List.mem_filter.2 ⟨isVisit, decide_eq_true rfl⟩))

/-- The check of the tree of a source starts without symbols, and visits what the source declares. -/
theorem visitsAll_of_prepare {source : Text} {program labelled analysed : Program} {lastId : Nat}
    {start context : Context} (parses : parse source = .ok (program, lastId))
    (prepares : (program.resolve >>= label).run (parsedContext lastId) = .ok (labelled, start))
    (checks : labelled.check.run start = .ok (analysed, context)) :
    start.VisitsAll labelled.linkedDecls (labelled.visits start) context ∧
      labelled.linkedDecls.map original = program.linkedDecls ∧ start.symbols.Sums [] := by
  have isSource := isSource_of_parse parses
  have prepared := (prepare_ensures isSource rfl).of_ok prepares
  have plainInits := hasPlainInit_of_scoped prepared.isScoped
    (fun _ mem => absurd mem List.not_mem_nil) fun decl mem => (prepared.isSource decl mem).2
  refine ⟨(check_visits plainInits prepared.awaits.isApart).of_ok checks,
    (linkedDecls_prepare (written_of_parse parses).1 (parsedContext lastId)).of_ok prepares, ?_⟩
  intro name _
  rw [(prepare_symbols isSource rfl).of_ok prepares, SymbolTable.find?_empty]
  rfl

/-- The symbols of names with linkage follow from the declarations in the source. The check of types
visits these one after the other, from no symbols at all; wherever it stands, it has merged those so
far, and from there on the symbols only rise. -/
theorem sums_of_analyze {source : Text} {program analysed : Program} {lastId : Nat}
    {context : Context} (parses : parse source = .ok (program, lastId))
    (accepts : program.analyze.run (parsedContext lastId) = .ok (analysed, context)) :
    ∃ labelled start,
      (program.resolve >>= label).run (parsedContext lastId) = .ok (labelled, start) ∧
      labelled.check.run start = .ok (analysed, context) ∧
      program.Merges labelled start context := by
  have runs : Yields ((program.resolve >>= label) >>= check) (parsedContext lastId)
      fun analysed after => ∃ labelled start,
        (program.resolve >>= label).run (parsedContext lastId) = .ok (labelled, start) ∧
          labelled.check.run start = .ok (analysed, after) :=
    (Ensures.runs _ _).bind fun labelled start runs =>
      (Ensures.runs labelled.check start).mono
        fun _ _ checks => ⟨labelled, start, runs, checks⟩
  rw [analyze_eq] at accepts
  rcases runs.of_ok accepts with ⟨labelled, start, prepares, checks⟩
  rcases visitsAll_of_prepare parses prepares checks with ⟨all, sameDecls, nothing⟩
  exact ⟨labelled, start, prepares, checks, merges_of_visitsAll all sameDecls nothing⟩

/-- An object with a declaration in a block and a late initializer, a function with an array for a
parameter, and a static function that is declared again. -/
theorem sums_of_analyze_interleaved :
    ∃ program lastId analysed context,
      parse ("extern int x; static int g(void); int x; int f(int a[3]);" ++
          "int f(int *a) \x7b extern int x; int g(void); return x; \x7d int x = 3; int g(void);") =
        .ok (program, lastId) ∧
      program.analyze.run (parsedContext lastId) = .ok (analysed, context) ∧
      ∃ labelled start,
        (program.resolve >>= label).run (parsedContext lastId) = .ok (labelled, start) ∧
        labelled.check.run start = .ok (analysed, context) ∧
        program.Merges labelled start context := by
  have succeeds : succeedsWith
      (fun parsed => succeedsWith (fun _ => true)
        (parsed.1.analyze.run (parsedContext parsed.2)))
      (parse ("extern int x; static int g(void); int x; int f(int a[3]);" ++
        "int f(int *a) \x7b extern int x; int g(void); return x; \x7d int x = 3; int g(void);")) :=
    by decide +kernel
  rcases exists_of_succeedsWith succeeds with ⟨⟨program, lastId⟩, parses, accepted⟩
  rcases exists_of_succeedsWith accepted with ⟨⟨analysed, context⟩, accepts, -⟩
  exact ⟨program, lastId, analysed, context, parses, accepts, sums_of_analyze parses accepts⟩

end Program

end SubsetC
