import SubsetC.Analysis
import SubsetC.Proofs.Labelling
import SubsetC.Proofs.Parsing
import SubsetC.Proofs.StmtTyping

/-!
# What analysis accepts

The three walks of analysis put together. Analysis of a parsed source fails with a diagnostic, with
one exception: where the first declaration of an object with static storage uses the object in its
own initializer, resolution takes the name for declared while the check of types has not entered it
yet. If analysis succeeds, the tree is explicit.
-/

namespace SubsetC

/-! ### Names with linkage -/

theorem VarDecl.toLocal_plain {decl : VarDecl} (isSource : decl.IsSource) :
    decl.toLocal.hasLinkage → decl.toLocal.name.IsPlain := by
  intro hasLinkage
  exact isSource.1 (by simpa [toLocal] using hasLinkage)

mutual

theorem Stmt.locals_plain : ∀ stmt : Stmt, stmt.IsSource →
    ∀ decl ∈ stmt.locals, decl.hasLinkage → decl.name.IsPlain
  | .ret _ _, _ | .expr _ _, _ | .break _ _, _ | .continue _ _, _ | .null _, _ => by
      simp [Stmt.locals]
  | .ifThen _ _ body, isSource | .whileLoop _ _ _ body, isSource | .doWhile _ _ body _, isSource
  | .switch _ _ _ body _, isSource | .case _ _ _ body, isSource =>
      Stmt.locals_plain body isSource.2
  | .default _ _ body, isSource => Stmt.locals_plain body isSource
  | .ifElse _ _ thenBranch elseBranch, isSource =>
      List.forall_mem_append.2 ⟨Stmt.locals_plain thenBranch isSource.2.1,
        Stmt.locals_plain elseBranch isSource.2.2⟩
  | .block _ items, isSource => Item.localsList_plain items isSource
  | .forLoop _ _ init _ _ body, isSource => by
      refine List.forall_mem_append.2 ⟨?_, Stmt.locals_plain body isSource.2.2.2⟩
      cases init with
      | declarations loc decls =>
          intro decl mem
          rcases List.mem_map.1 mem with ⟨own, ownMem, rfl⟩
          exact VarDecl.toLocal_plain (isSource.1 own ownMem)
      | expression loc value => exact fun decl mem => nomatch mem

theorem Item.localsList_plain : ∀ items : List Item, Item.IsSourceList items →
    ∀ decl ∈ Item.localsList items, decl.hasLinkage → decl.name.IsPlain
  | [], _ => fun _ mem => nomatch mem
  | .stmt stmt :: items, isSource =>
      List.forall_mem_append.2 ⟨Stmt.locals_plain stmt isSource.1,
        Item.localsList_plain items isSource.2⟩
  | .decl (.object _) :: items, isSource =>
      List.forall_mem_cons.2 ⟨VarDecl.toLocal_plain isSource.1,
        Item.localsList_plain items isSource.2⟩
  | .decl (.function _) :: items, isSource =>
      List.forall_mem_cons.2 ⟨fun _ => isSource.1.plain, Item.localsList_plain items isSource.2⟩
  | .decl (.definition _ _ _) :: items, isSource => Item.localsList_plain items isSource.2

end

theorem Program.locals_plain {program : Program} (isSource : program.IsSource) :
    ∀ decl ∈ program.locals, decl.hasLinkage → decl.name.IsPlain := by
  intro decl mem
  rcases List.mem_flatMap.1 mem with ⟨own, ownMem, declMem⟩
  rcases isSource own ownMem with ⟨ownSource, plain⟩
  cases own with
  | object own =>
      obtain rfl := List.mem_singleton.1 declMem
      exact fun _ => plain
  | function own =>
      obtain rfl := List.mem_singleton.1 declMem
      exact fun _ => plain
  | definition own bodyLoc body =>
      rcases List.mem_cons.1 declMem with rfl | inside
      · exact fun _ => plain
      rcases List.mem_append.1 inside with isParam | inBody
      · rcases List.mem_map.1 isParam with ⟨param, _, rfl⟩
        exact fun hasLinkage => nomatch hasLinkage
      · exact Item.localsList_plain body ownSource.2.2 decl inBody

/-! ### Declarations of a file -/

/-- The shared state after the first declarations of a file. Some of the names that are declared
with linkage are visible; a name declared with linkage in a block need not be. -/
structure Context.Follows (declared visible : List Text) (context : Context) : Prop where
  valid : context.Valid
  visible : ∀ name ∈ visible, (context.symbols.find? name).isSome
  /-- The plain names that have symbols are those declared with linkage. -/
  declared : ∀ name : Text, name.IsPlain →
    ((context.symbols.find? name).isSome ↔ name ∈ declared)

/-- One more declaration of the file adds the names it declares with linkage. -/
theorem Context.Follows.step {declared declared' visible : List Text} {locals : List Local}
    {context after : Context} {name : Text} (follows : context.Follows declared visible)
    (awaits : context.Awaits locals) (declares : context.Declares locals after)
    (own : (after.symbols.find? name).isSome)
    (adds : ∀ name, name ∈ declared' ↔ name ∈ Local.linked locals ∨ name ∈ declared) :
    after.Follows declared' (name :: visible) := by
  have extension := declares.extends_
  refine ⟨declares.enters.valid, ?_, ?_⟩
  · exact List.forall_mem_cons.2
      ⟨own, fun name mem => extension.isSome (follows.visible name mem)⟩
  · intro other plain
    rw [adds]
    constructor
    · intro present
      cases before : context.symbols.find? other with
      | some symbol => exact .inr ((follows.declared other plain).1 (by simp [before]))
      | none =>
          rcases declares.enters.grows.adds other before present with mem | isNumbered
          · rcases List.mem_map.1 mem with ⟨decl, declMem, rfl⟩
            cases linkage : decl.hasLinkage with
            | true => exact .inl (List.mem_map.2 ⟨decl, by simp [declMem, linkage], rfl⟩)
            | false => exact absurd plain (awaits.isNumbered decl declMem linkage).not_plain
          · exact absurd plain isNumbered.not_plain
    · rintro (isLinked | isDeclared)
      · rcases List.mem_map.1 isLinked with ⟨decl, declMem, rfl⟩
        exact declares.known decl (List.mem_filter.1 declMem).1
      · exact extension.isSome ((follows.declared other plain).2 isDeclared)

namespace Decl

variable {allowed : Failure → Prop} {declared visible : List Text} {context : Context}
  (diagnostics : ∀ failure, Failure.IsDiagnostic failure → allowed failure)
  (follows : context.Follows declared visible)

include diagnostics follows

/-- A file-scope object that uses itself must have been declared before. -/
theorem checkFile_object_ensures {decl : VarDecl} (isSource : decl.IsSource)
    (plain : decl.name.IsPlain) (isScoped : decl.mentioned ⊆ decl.name :: visible)
    (excused : decl.name ∉ declared → decl.name ∈ decl.mentioned →
      ∀ name, allowed (.internal (.undeclared name))) :
    Ensures (Decl.object decl).checkFile context allowed fun decl' after =>
      context.Declares (Decl.object decl).locals after ∧ decl'.Explicit after.symbols ∧
        (decl.name ∉ declared → decl.name ∉ decl.mentioned) := by
  have admits : Admits allowed context.symbols decl.mentioned := by
    refine ⟨diagnostics, fun name mem absent => ?_⟩
    rcases List.mem_cons.1 (isScoped mem) with rfl | isVisible
    · refine excused ?_ mem decl.name
      intro isDeclared
      have present := (follows.declared decl.name plain).2 isDeclared
      simp [absent] at present
    · have present := follows.visible name isVisible
      simp [absent] at present
  rw [checkFile]
  refine (VarDecl.checkFile_ensures follows.valid isSource plain admits).bind ?_
  rintro decl' after ⟨enters, explicit, present, own⟩
  refine Ensures.pure ⟨⟨enters, by simpa [locals] using present, rfl⟩, explicit, ?_⟩
  exact fun undeclared mem => undeclared ((follows.declared decl.name plain).1 (own mem))

/-- A function is known in its body, together with its parameters. -/
theorem checkFile_definition_ensures {decl : FunDecl} {bodyLoc : Loc} {body : List Item}
    (awaits : context.Awaits (Decl.definition decl bodyLoc body).locals)
    (declSource : decl.IsSource) (isSource : Item.IsSourceList body)
    (isScoped : Item.ScopedList (decl.params.map Param.name ++ decl.name :: visible) body)
    (excused : Local.anyCircular (Item.localsList body) →
      ∀ name, allowed (.internal (.undeclared name))) :
    Ensures (Decl.definition decl bodyLoc body).checkFile context allowed fun decl' after =>
      context.Declares (Decl.definition decl bodyLoc body).locals after ∧
        decl'.Explicit after.symbols := by
  have awaits : context.Awaits ([decl.toLocal] ++
      (decl.params.map Param.toLocal ++ Item.localsList body)) := awaits
  rw [checkFile]
  refine (FunDecl.check_ensures diagnostics follows.valid declSource).bind ?_
  rintro decl' first ⟨ownDeclares, ownExplicit, sameName, sameResult, sameNames, declarable⟩
  have sameLocals : decl'.params.map Param.toLocal = decl.params.map Param.toLocal := by
    have names := congrArg (List.map fun name => (⟨name, false, false⟩ : Local)) sameNames
    rw [List.map_map, List.map_map] at names
    exact names
  have awaits := awaits.right ownDeclares.enters.grows
  refine (Param.declareList_ensures decl'.params ownDeclares.enters.valid
    (sameLocals ▸ awaits.left) declarable).bind ?_
  rintro _ second ⟨paramDeclares, paramTypes⟩
  rw [sameLocals] at paramDeclares
  have declares := ownDeclares.append paramDeclares
  have ready : second.Ready allowed (decl.params.map Param.name ++ decl.name :: visible)
      (Item.localsList body) := by
    refine ⟨paramDeclares.enters.valid, awaits.right paramDeclares.enters.grows, ?_, diagnostics,
      excused⟩
    refine List.forall_mem_append.2 ⟨?_, List.forall_mem_cons.2 ⟨?_, ?_⟩⟩
    · intro name mem
      rcases List.mem_map.1 mem with ⟨param, paramMem, rfl⟩
      exact paramDeclares.known param.toLocal (List.mem_map_of_mem paramMem)
    · exact declares.known decl.toLocal List.mem_cons_self
    · exact fun name mem => declares.extends_.isSome (follows.visible name mem)
  refine (Item.checkList_ensures body ready isSource isScoped).bind ?_
  rintro body' after ⟨bodyDeclares, bodyExplicit⟩
  refine Ensures.pure ⟨?_, ?_, ?_, bodyExplicit⟩
  · exact ownDeclares.append (paramDeclares.append bodyDeclares)
  · exact SymbolTable.HasFunction.extend ownExplicit
      (bodyDeclares.extends_.trans paramDeclares.extends_)
  · exact fun param mem => (paramTypes param mem).extend bodyDeclares.extends_

end Decl

namespace Program

variable {allowed : Failure → Prop}

/-- The checked declarations of a file are explicit, and no object with static storage has used
itself before it was declared. -/
theorem check_ensures (diagnostics : ∀ failure, Failure.IsDiagnostic failure → allowed failure) :
    ∀ (program : Program) {declared visible : List Text} {context : Context},
    context.Follows declared visible → context.Awaits program.locals → program.IsSource →
    program.Scoped visible →
    (program.selfInitializesAfter declared → ∀ name, allowed (.internal (.undeclared name))) →
    Ensures program.check context allowed fun program' after =>
      (context.nextName ≤ after.nextName ∧ after.symbols.Extends context.symbols) ∧
        after.Valid ∧ program'.Explicit after.symbols ∧
        program.selfInitializesAfter declared = false
  | [], declared, visible, context, follows, _, _, _, _ => by
      rw [check]
      exact Ensures.pure ⟨⟨Nat.le_refl _, .refl _⟩, follows.valid, by simp [Explicit], rfl⟩
  | .object decl :: decls, declared, visible, context, follows, awaits, isSource, isScoped,
      excused => by
      rcases List.forall_mem_cons.1 isSource with ⟨⟨declSource, plain⟩, declsSource⟩
      rw [check]
      refine (Decl.checkFile_object_ensures diagnostics follows declSource plain isScoped.1
        ?_).bind ?_
      · intro undeclared own
        exact excused (by simp [selfInitializesAfter, undeclared, own])
      · rintro decl' between ⟨declares, explicit, notOwn⟩
        have present := declares.known ⟨decl.name, true, false⟩ List.mem_cons_self
        have next : between.Follows (decl.name :: declared) (decl.name :: visible) :=
          follows.step awaits.left declares present (by simp [Local.linked, Decl.locals])
        refine (check_ensures diagnostics decls next (awaits.right declares.enters.grows)
          declsSource isScoped.2 ?_).bind ?_
        · exact fun later => excused (by simp [selfInitializesAfter, later])
        · rintro decls' after ⟨⟨le, extension⟩, valid, explicitRest, noneRest⟩
          refine Ensures.pure ⟨⟨Nat.le_trans declares.enters.grows.le le,
            extension.trans declares.extends_⟩, valid, ?_, ?_⟩
          · exact List.forall_mem_cons.2 ⟨explicit.extend extension, explicitRest⟩
          · simpa [selfInitializesAfter, noneRest] using notOwn
  | .function decl :: decls, declared, visible, context, follows, awaits, isSource, isScoped,
      excused => by
      rcases List.forall_mem_cons.1 isSource with ⟨⟨declSource, plain⟩, declsSource⟩
      rw [check, Decl.checkFile]
      simp only [bind_assoc, pure_bind]
      refine (FunDecl.check_ensures diagnostics follows.valid declSource).bind ?_
      rintro decl' between ⟨declares, explicit, _⟩
      have present := declares.known decl.toLocal List.mem_cons_self
      have next : between.Follows (decl.name :: declared) (decl.name :: visible) :=
        follows.step awaits.left declares present (by simp [Local.linked, Decl.locals, FunDecl.toLocal])
      refine (check_ensures diagnostics decls next (awaits.right declares.enters.grows)
        declsSource isScoped excused).bind ?_
      rintro decls' after ⟨⟨le, extension⟩, valid, explicitRest, noneRest⟩
      refine Ensures.pure ⟨⟨Nat.le_trans declares.enters.grows.le le, extension.trans declares.extends_⟩,
        valid, ?_, noneRest⟩
      exact List.forall_mem_cons.2
        ⟨SymbolTable.HasFunction.extend explicit extension, explicitRest⟩
  | .definition decl bodyLoc body :: decls, declared, visible, context, follows, awaits, isSource,
      isScoped, excused => by
      rcases List.forall_mem_cons.1 isSource with ⟨⟨declSource, plain⟩, declsSource⟩
      rw [check]
      refine (Decl.checkFile_definition_ensures diagnostics follows awaits.left declSource.1
        declSource.2.2 isScoped.1 ?_).bind ?_
      · exact fun circular => excused (by simp [selfInitializesAfter, circular])
      · rintro decl' between ⟨declares, explicit⟩
        have present := declares.known decl.toLocal List.mem_cons_self
        have params : Local.linked (decl.params.map Param.toLocal) = [] := by
          simp [Local.linked, Param.toLocal]
        -- Functions and external objects that the body declares belong to the file from here on.
        have linked : Local.linked (Decl.definition decl bodyLoc body).locals =
            decl.name :: Local.linked (Item.localsList body) := by
          simpa [Local.linked, Decl.locals, FunDecl.toLocal] using params
        have next : between.Follows
            (Local.linked (Item.localsList body) ++ decl.name :: declared)
            (decl.name :: visible) := by
          refine follows.step awaits.left declares present ?_
          intro name
          rw [linked]
          simp only [List.mem_append, List.mem_cons]
          tauto
        refine (check_ensures diagnostics decls next (awaits.right declares.enters.grows)
          declsSource isScoped.2 ?_).bind ?_
        · exact fun later => excused (by simp [selfInitializesAfter, later])
        · rintro decls' after ⟨⟨le, extension⟩, valid, explicitRest, noneRest⟩
          refine Ensures.pure ⟨⟨Nat.le_trans declares.enters.grows.le le,
            extension.trans declares.extends_⟩, valid, ?_, ?_⟩
          · exact List.forall_mem_cons.2 ⟨explicit.extend extension, explicitRest⟩
          · have noCircle := declares.noCircle
            simp only [Decl.locals, Local.anyCircular, List.any_cons, List.any_append,
              Bool.or_eq_false_iff] at noCircle
            simp only [selfInitializesAfter, noneRest, Bool.or_false]
            exact noCircle.2.2

/-- The tree of a source with names and jumps bound, as the check of types finds it. -/
structure Prepared (program labelled : Program) (context : Context) : Prop where
  isSource : labelled.IsSource
  /-- Nothing is declared yet. -/
  follows : context.Follows [] []
  /-- All names to be declared are fresh. -/
  awaits : context.Awaits labelled.locals
  /-- Names are mentioned in the scopes of their declarations. -/
  isScoped : labelled.Scoped []
  /-- The same objects use themselves. -/
  selfInitializes : labelled.selfInitializesAfter [] = program.selfInitializes

theorem prepare_ensures {program : Program} {context : Context} (isSource : program.IsSource)
    (fresh : context.symbols = .empty) :
    Ensures (program.resolve >>= label) context Failure.IsDiagnostic (Prepared program) := by
  refine (resolve_ensures isSource).bind ?_
  rintro resolved first ⟨resolution, resolvedSource, isScoped, sameInitializes⟩
  refine (label_ensures resolved).mono ?_
  rintro labelled second ⟨draws, isLabelled⟩
  have labelledSource := isLabelled.isSource resolvedSource
  have absent : ∀ name, second.symbols.find? name = none := by
    intro name
    rw [draws.symbols, resolution.symbols, fresh, SymbolTable.find?_empty]
  refine ⟨labelledSource, ?_, ?_, isLabelled.isScoped [] isScoped,
    (isLabelled.selfInitializes []).trans sameInitializes⟩
  · refine ⟨⟨fun name present => ?_, fun name symbol found => ?_⟩, by simp, ?_⟩
    · simp [absent] at present
    · simp [absent] at found
    · simp [absent]
  · have drawn := resolution.drawn.widen draws.le
    rw [← isLabelled.locals] at drawn
    exact .of_drawn (locals_plain labelledSource) drawn absent

theorem analyze_eq (program : Program) :
    program.analyze = (program.resolve >>= label) >>= check := by
  rw [bind_assoc]
  rfl

/-- The failures of analysis: diagnostics, and a missing name in a compilation unit in which the
first declaration of an object with static storage uses the object. -/
def Fails (program : Program) (failure : Failure) : Prop :=
  failure.IsDiagnostic ∨ program.selfInitializes ∧ ∃ name, failure = .internal (.undeclared name)

theorem Prepared.check_ensures {program labelled : Program} {context : Context}
    (prepared : program.Prepared labelled context) :
    Ensures labelled.check context program.Fails fun program' after =>
      (context.nextName ≤ after.nextName ∧ after.symbols.Extends context.symbols) ∧
        after.Valid ∧ program'.Explicit after.symbols ∧ program.selfInitializes = false := by
  refine (Program.check_ensures (fun _ => .inl) labelled prepared.follows prepared.awaits
    prepared.isSource prepared.isScoped ?_).mono ?_
  · intro circular name
    exact .inr ⟨prepared.selfInitializes ▸ circular, name, rfl⟩
  · rintro program' after ⟨grows, valid, explicit, none⟩
    exact ⟨grows, valid, explicit, prepared.selfInitializes ▸ none⟩

/-- Analysis of a tree of a source, from a state without symbols. -/
theorem analyze_ensures {program : Program} {context : Context} (isSource : program.IsSource)
    (fresh : context.symbols = .empty) :
    Ensures program.analyze context program.Fails fun program' after =>
      after.Valid ∧ program'.Explicit after.symbols ∧ program.selfInitializes = false := by
  rw [analyze_eq]
  refine ((prepare_ensures isSource fresh).allow fun _ => .inl).bind ?_
  intro labelled between prepared
  exact prepared.check_ensures.mono fun program' after checks => checks.2

/-- The shared state once a source has been parsed. -/
def parsedContext (lastId : Nat) : Context := { Context.empty with lastId }

/-- Analysis of a parsed source accepts it, or reports a name, type or control flow error, unless
the first declaration of an object with static storage uses the object in its initializer. Such a
compilation unit is never accepted: analysis reports an error, or it misses the name. -/
theorem analyze_parsed {source : Text} {program : Program} {lastId : Nat}
    (parses : Program.parse source = .ok (program, lastId)) :
    match program.analyze.run (parsedContext lastId) with
    | .ok _ => program.selfInitializes = false
    | .error failure => failure.IsDiagnostic ∨
        program.selfInitializes ∧ ∃ name, failure = .internal (.undeclared name) := by
  have fresh : (parsedContext lastId).symbols = .empty := rfl
  have ensures := analyze_ensures (isSource_of_parse parses) fresh
  split
  · rename_i runs
    exact (ensures.of_ok runs).2.2
  · rename_i runs
    exact ensures.of_error runs

/-- A file-scope object that is initialized with itself: resolution accepts the name, and the check
of types misses it. -/
theorem analyze_parsed_own_value :
    ∃ program lastId, Program.parse "int x = x;" = .ok (program, lastId) ∧
      (program.selfInitializes ∧ ∃ name,
        program.analyze.run (parsedContext lastId) = .error (.internal (.undeclared name))) := by
  have computed : (match Program.parse "int x = x;" with
      | .ok (program, lastId) =>
        match program.analyze.run (parsedContext lastId) with
        | .ok _ => false
        | .error failure => failure.diagnostic.kind = .internal
      | .error _ => false) = true := by decide +kernel
  split at computed
  · rename_i program lastId parses
    have outcome := analyze_parsed parses
    refine ⟨program, lastId, parses, ?_⟩
    split at computed
    · cases computed
    · rename_i failure runs
      simp only [runs] at outcome ⊢
      have isInternal : failure.diagnostic.kind = .internal := by simpa using computed
      rcases outcome with diagnostic | ⟨own, name, rfl⟩
      · simp [Failure.IsDiagnostic, isInternal] at diagnostic
      · exact ⟨own, name, rfl⟩
  · cases computed

/-- The tree of a parsed source that analysis accepts is explicit. -/
theorem explicit_of_analyze {source : Text} {program analysed : Program} {lastId : Nat}
    {context : Context} (parses : Program.parse source = .ok (program, lastId))
    (accepts : program.analyze.run (parsedContext lastId) = .ok (analysed, context)) :
    analysed.Explicit context.symbols := by
  have fresh : (parsedContext lastId).symbols = .empty := rfl
  exact ((analyze_ensures (isSource_of_parse parses) fresh).of_ok accepts).2.1

/-- A function that adds a character, which is promoted, to an integer. -/
theorem explicit_of_analyze_sum :
    ∃ program lastId analysed context,
      Program.parse "int f(int a, char c) { return a + c; }" = .ok (program, lastId) ∧
        program.analyze.run (parsedContext lastId) = .ok (analysed, context) ∧
        analysed.Explicit context.symbols := by
  have computed : (match Program.parse "int f(int a, char c) { return a + c; }" with
      | .ok (program, lastId) => (program.analyze.run (parsedContext lastId)).toBool
      | .error _ => false) = true := by decide +kernel
  split at computed
  · rename_i program lastId parses
    cases accepts : program.analyze.run (parsedContext lastId) with
    | ok result => exact ⟨program, lastId, result.1, result.2, parses, accepts,
        explicit_of_analyze parses accepts⟩
    | error failure => simp [accepts, Except.toBool] at computed
  · cases computed

end Program

end SubsetC
