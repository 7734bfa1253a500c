import SubsetC.Analysis.Declaration
import SubsetC.Proofs.InitTyping
import SubsetC.Proofs.Scoping

/-!
# Checked declarations

Checking a declaration enters its symbol. Where declarations come in the order that resolution has
made sure of, every name they mention has a symbol by then, with one exception: a static object
that occurs in its own initializer is entered only after it. `Context.Ready` collects what the
check of a part of a tree relies on, and `Context.Declares` what it leaves behind; both are cut and
joined along the declarations in the part.
-/

namespace SubsetC

/-! ### What declarations rely on -/

/-- The check of a part of a tree can begin: the names known to it have symbols, and its own
declarations have not been entered. If it has a static object that occurs in its own initializer,
then a name may turn out to be missing. -/
structure Context.Ready (allowed : Failure → Prop) (known : List Text) (locals : List Local)
    (context : Context) : Prop where
  valid : context.Valid
  /-- The declarations are still to be entered. -/
  awaits : context.Awaits locals
  known : ∀ name ∈ known, (context.symbols.find? name).isSome
  diagnostics : ∀ failure, Failure.IsDiagnostic failure → allowed failure
  /-- A missing name may be reported, on account of a circular declaration. -/
  circular : Local.anyCircular locals → ∀ name, allowed (.internal (.undeclared name))

/-- The check of a part of a tree has entered its declarations. -/
structure Context.Declares (locals : List Local) (context after : Context) : Prop where
  enters : context.Enters (locals.map Local.name) after
  known : ∀ decl ∈ locals, (after.symbols.find? decl.name).isSome
  /-- None is circular. -/
  noCircle : Local.anyCircular locals = false

namespace Context.Declares

variable {locals more : List Local} {first second third : Context}

theorem nil {context : Context} (valid : context.Valid) : context.Declares [] context :=
  ⟨.refl _ valid, by simp, rfl⟩

theorem of_renumbered (renumbered : first.Renumbered second) (valid : first.Valid) :
    first.Declares [] second :=
  ⟨.of_renumbered renumbered valid, by simp, rfl⟩

theorem append (earlier : first.Declares locals second) (later : second.Declares more third) :
    first.Declares (locals ++ more) third := by
  refine ⟨?_, ?_, ?_⟩
  · rw [List.map_append]
    exact earlier.enters.append later.enters
  · refine List.forall_mem_append.2 ⟨?_, later.known⟩
    exact fun decl mem => later.enters.grows.extends_.isSome (earlier.known decl mem)
  · simp only [Local.anyCircular, List.any_append, Bool.or_eq_false_iff]
    exact ⟨earlier.noCircle, later.noCircle⟩

theorem extends_ (declares : first.Declares locals second) :
    second.symbols.Extends first.symbols :=
  declares.enters.grows.extends_

/-- Numbering nodes before the declarations does not matter. -/
theorem renumber (renumbered : first.Renumbered second) (declares : second.Declares locals third)
    (valid : first.Valid) : first.Declares locals third :=
  (of_renumbered renumbered valid).append declares

end Context.Declares

namespace Context.Ready

variable {allowed : Failure → Prop} {known : List Text} {locals more : List Local}
  {context after : Context}

theorem left (ready : context.Ready allowed known (locals ++ more)) :
    context.Ready allowed known locals := by
  refine ⟨ready.valid, ready.awaits.left, ready.known, ready.diagnostics, ?_⟩
  intro circular
  refine ready.circular ?_
  simp only [Local.anyCircular, List.any_append, Bool.or_eq_true]
  exact .inl circular

theorem right (ready : context.Ready allowed known (locals ++ more))
    (declares : context.Declares locals after) : after.Ready allowed known more := by
  refine ⟨declares.enters.valid, ready.awaits.right declares.enters.grows, ?_, ready.diagnostics, ?_⟩
  · exact fun name mem => declares.extends_.isSome (ready.known name mem)
  · intro circular
    refine ready.circular ?_
    simp only [Local.anyCircular, List.any_append, Bool.or_eq_true]
    exact .inr circular

theorem know {names : List Text} (ready : context.Ready allowed known locals)
    (present : ∀ name ∈ names, (context.symbols.find? name).isSome) :
    context.Ready allowed (names ++ known) locals :=
  ⟨ready.valid, ready.awaits, List.forall_mem_append.2 ⟨present, ready.known⟩, ready.diagnostics,
    ready.circular⟩

theorem renumber (ready : context.Ready allowed known locals)
    (renumbered : context.Renumbered after) : after.Ready allowed known locals := by
  have all : context.Ready allowed known ([] ++ locals) := ready
  exact all.right (.of_renumbered renumbered ready.valid)

/-- Expressions that mention known names can be checked without fail. -/
theorem admits {names : List Text} (ready : context.Ready allowed known locals)
    (subset : names ⊆ known) : Admits allowed context.symbols names := by
  refine ⟨ready.diagnostics, fun name mem absent => ?_⟩
  have present := ready.known name (subset mem)
  simp [absent] at present

end Context.Ready

/-! ### Entering a name again -/

/-- A name has no symbol yet, or one of a type and kind. -/
def SymbolTable.Agrees (table : SymbolTable) (name : Text) (type : CType) (kind : StorageKind) :
    Prop :=
  ∀ symbol, table.find? name = some symbol → symbol.type = type ∧ symbol.storage.kind = kind

theorem SymbolTable.hasType_set (table : SymbolTable) (name : Text) (type : CType)
    (storage : Storage) : (table.set name type storage).HasType name type :=
  ⟨⟨name, type, storage⟩, by rw [find?_set, if_pos rfl], rfl⟩

theorem SymbolTable.HasType.isSome {table : SymbolTable} {name : Text} {type : CType}
    (hasType : table.HasType name type) : (table.find? name).isSome := by
  rcases hasType with ⟨symbol, found, _⟩
  simp [found]

theorem Context.Valid.declare {context : Context} {name : Text} {type : CType}
    (valid : context.Valid) (storage : Storage) (agrees : context.symbols.Agrees name type storage.kind)
    (sort : name.IsPlain ∨ name.IsNumbered 0 context.nextName)
    (declarable : storage.kind.CanHave type) :
    context.Enters [name] { context with symbols := context.symbols.set name type storage } := by
  cases found : context.symbols.find? name with
  | none =>
      rcases valid.enter found sort storage declarable with ⟨grows, valid⟩
      exact ⟨grows, valid⟩
  | some symbol =>
      rcases agrees symbol found with ⟨rfl, sameKind⟩
      rcases valid.replace found sameKind.symm [name] with ⟨grows, valid⟩
      exact ⟨grows, valid⟩

/-! ### Functions -/

section Functions

variable {context : Context} {allowed : Failure → Prop}
  (diagnostics : ∀ failure, Failure.IsDiagnostic failure → allowed failure)

include diagnostics

theorem CType.checkObject_ensures {span : Span} {ifVoid : TypeError} (type : CType) :
    Ensures (type.checkObject span ifVoid) context allowed fun _ after =>
      context = after ∧ (type.isComplete ∨ type.isFunction) := by
  unfold CType.checkObject
  refine Ensures.ite (fun _ => Ensures.typeError diagnostics) ?_
  intro notVoid
  refine (CType.checkElements_ensures diagnostics type).mono ?_
  rintro _ after ⟨rfl, declarable⟩
  exact ⟨rfl, declarable (by simpa using notVoid)⟩

omit diagnostics in
theorem CType.adjusted_complete {type : CType} (complete : type.isComplete) :
    type.adjusted.isComplete := by
  cases type with
  | array size element => rfl
  | void | integer | double | pointer | function => exact complete

/-- Checked parameters keep their names, and have sizes. -/
theorem Param.checkList_ensures : ∀ params : List Param,
    (∀ type ∈ params.map Param.type, type.isFunction = false) →
    Ensures (Param.checkList params) context allowed fun params' after =>
      context = after ∧ params'.map Param.name = params.map Param.name ∧
        ∀ param ∈ params', param.type.isComplete
  | [], _ => by
      rw [Param.checkList]
      exact Ensures.pure ⟨rfl, rfl, by simp⟩
  | param :: params, notFunctions => by
      rcases List.forall_mem_cons.1 notFunctions with ⟨notFunction, notFunctionsRest⟩
      rw [Param.checkList]
      simp only [Param.check, bind_assoc, pure_bind]
      refine (CType.checkObject_ensures diagnostics param.type).bind ?_
      rintro _ _ ⟨rfl, declarable⟩
      have complete : param.type.isComplete := declarable.resolve_right (by simp [notFunction])
      refine (Param.checkList_ensures params notFunctionsRest).bind ?_
      rintro params' _ ⟨rfl, names, completeRest⟩
      refine Ensures.pure ⟨rfl, by simp [names], ?_⟩
      exact List.forall_mem_cons.2 ⟨CType.adjusted_complete complete, completeRest⟩

namespace FunDecl

/-- Several declarations of a function agree on its type. -/
theorem mergeStorage_ensures {decl : FunDecl} {isDefinition : Bool} :
    Ensures (decl.mergeStorage isDefinition) context allowed fun storage after =>
      context = after ∧ storage.kind = .function ∧
        context.symbols.Agrees decl.name decl.type storage.kind := by
  unfold mergeStorage
  refine Ensures.bind_ok (Pass.run_findSymbol? _ _) ?_
  split
  · rename_i absent
    refine Ensures.pure ⟨rfl, rfl, fun symbol found => ?_⟩
    simp [absent] at found
  · rename_i name type defined isGlobal present
    refine Ensures.ite (fun _ => Ensures.typeError diagnostics) ?_
    intro sameType
    refine Ensures.ite (fun _ => Ensures.typeError diagnostics) (fun _ => ?_)
    refine Ensures.ite (fun _ => Ensures.nameError diagnostics) (fun _ => ?_)
    refine Ensures.pure ⟨rfl, rfl, fun symbol found => ?_⟩
    cases present.symm.trans found
    exact ⟨by simpa using sameType, rfl⟩
  · exact Ensures.typeError diagnostics

/-- A checked declaration of a function enters it with the type it is called with. -/
theorem check_ensures {decl : FunDecl} {isDefinition : Bool} (valid : context.Valid)
    (isSource : decl.IsSource) :
    Ensures (decl.check isDefinition) context allowed fun decl' after =>
      context.Declares [decl.toLocal] after ∧ decl'.Explicit after.symbols ∧
        decl'.name = decl.name ∧ decl'.result = decl.result ∧
        decl'.params.map Param.name = decl.params.map Param.name ∧
        ∀ param ∈ decl'.params, param.type.isComplete := by
  unfold check
  refine (CType.checkElements_ensures diagnostics decl.result).bind ?_
  rintro _ _ ⟨rfl, _⟩
  refine (Param.checkList_ensures diagnostics decl.params isSource.params).bind ?_
  rintro params _ ⟨rfl, names, complete⟩
  refine (mergeStorage_ensures diagnostics).bind ?_
  rintro storage _ ⟨rfl, isFunction, agrees⟩
  refine Ensures.bind_ok (Pass.run_setSymbol _ _ _ _) ?_
  have isSignature : (FunDecl.type { decl with params }).isSignature :=
    CType.isSignature_function (by simpa using complete) isSource.result.1 isSource.result.2
  have enters := valid.declare storage agrees (.inl isSource.plain) (.inr ⟨isSignature, isFunction⟩)
  have hasFunction : (context.symbols.set decl.name (FunDecl.type { decl with params })
      storage).HasFunction decl.name (params.map Param.type) decl.result :=
    ⟨_, SymbolTable.find?_set _ _ _ _ _ |>.trans (if_pos rfl), rfl, isFunction⟩
  refine Ensures.pure ⟨⟨enters, ?_, rfl⟩, hasFunction, rfl, rfl, names, complete⟩
  have present := (SymbolTable.hasType_set context.symbols decl.name
    (FunDecl.type { decl with params }) storage).isSome
  simpa [FunDecl.toLocal] using present

end FunDecl

end Functions

/-- Entering the parameters of a function. -/
theorem Param.declareList_ensures {allowed : Failure → Prop} : ∀ (params : List Param)
    {context : Context}, context.Valid → context.Awaits (params.map Param.toLocal) →
    (∀ param ∈ params, param.type.isComplete) →
    Ensures (Param.declareList params) context allowed fun _ after =>
      context.Declares (params.map Param.toLocal) after ∧
        ∀ param ∈ params, after.symbols.HasType param.name param.type
  | [], context, valid, _, _ => by
      rw [Param.declareList]
      exact Ensures.pure ⟨.nil valid, by simp⟩
  | param :: params, context, valid, awaits, complete => by
      rcases List.forall_mem_cons.1 complete with ⟨head, tail⟩
      have isNumbered : param.name.IsNumbered 0 context.nextName :=
        awaits.isNumbered param.toLocal List.mem_cons_self rfl
      have absent : context.symbols.find? param.name = none :=
        awaits.absent param.toLocal List.mem_cons_self rfl
      rcases valid.enter absent (.inr isNumbered) .automatic (.inl head) with ⟨grows, afterValid⟩
      have enters : context.Enters [param.name]
          { context with symbols := context.symbols.set param.name param.type .automatic } :=
        ⟨grows, afterValid⟩
      have hasType := SymbolTable.hasType_set context.symbols param.name param.type .automatic
      have declares : context.Declares [param.toLocal]
          { context with symbols := context.symbols.set param.name param.type .automatic } :=
        ⟨enters, by simpa [Param.toLocal] using hasType.isSome, rfl⟩
      have rest : context.Awaits ([param.toLocal] ++ params.map Param.toLocal) := awaits
      rw [Param.declareList]
      refine Ensures.bind_ok (Pass.run_setSymbol _ _ _ _) ?_
      refine (Param.declareList_ensures params enters.valid (rest.right enters.grows) tail).mono ?_
      rintro _ after ⟨restDeclares, hasTypes⟩
      refine ⟨declares.append restDeclares, ?_⟩
      exact List.forall_mem_cons.2 ⟨hasType.extend restDeclares.extends_, hasTypes⟩

/-! ### Objects -/

namespace VarDecl

variable {context : Context} {allowed : Failure → Prop}

theorem initialValue_ensures {decl : VarDecl} {ifMissing : InitialValue} (valid : context.Valid)
    (isSource : decl.IsSource) (admits : Admits allowed context.symbols decl.mentioned)
    (declarable : decl.type.isComplete ∨ decl.type.isFunction) :
    Ensures (decl.initialValue ifMissing) context allowed fun result after =>
      context.Enters [] after ∧
        (∀ name ∈ decl.mentioned, (after.symbols.find? name).isSome) ∧
        (∃ init, result.1 = { decl with init }) ∧
        ∀ init ∈ result.1.init, init.Explicit after.symbols true decl.type := by
  rcases decl with ⟨loc, name, type, storageClass, init⟩
  cases init with
  | none => exact Ensures.pure ⟨.refl _ valid, by simp [mentioned], ⟨none, rfl⟩, by simp⟩
  | some init =>
      refine (Initializer.checkStatic_ensures init type valid (isSource.init init rfl) admits
        declarable).bind ?_
      rintro ⟨init', items⟩ after ⟨enters, known, explicit⟩
      exact Ensures.pure ⟨enters, known, ⟨some init', rfl⟩, by simpa using explicit⟩

/-- Several declarations of an object agree on its type. -/
theorem mergeStorage_ensures (diagnostics : ∀ failure, Failure.IsDiagnostic failure → allowed failure)
    {decl : VarDecl} {next : InitialValue} :
    Ensures (decl.mergeStorage next) context allowed fun storage after =>
      context = after ∧ context.symbols.Agrees decl.name decl.type storage.kind := by
  unfold mergeStorage
  refine Ensures.bind_ok (Pass.run_findSymbol? _ _) ?_
  split
  · rename_i absent
    refine Ensures.pure ⟨rfl, fun symbol found => ?_⟩
    simp [absent] at found
  · rename_i name type previous wasGlobal present
    refine Ensures.ite (fun _ => Ensures.typeError diagnostics) ?_
    intro sameType
    refine Ensures.ite (fun _ => Ensures.nameError diagnostics) (fun _ => ?_)
    split
    · exact Ensures.typeError diagnostics
    · refine Ensures.pure ⟨rfl, fun symbol found => ?_⟩
      cases present.symm.trans found
      exact ⟨by simpa using sameType, rfl⟩
  · exact Ensures.typeError diagnostics

/-- A file-scope object is entered after its initializer has been checked, which therefore may use
it only if it is declared before. -/
theorem checkFile_ensures {decl : VarDecl} (valid : context.Valid) (isSource : decl.IsSource)
    (plain : decl.name.IsPlain) (admits : Admits allowed context.symbols decl.mentioned) :
    Ensures decl.checkFile context allowed fun decl' after =>
      context.Enters [decl.name] after ∧ decl'.Explicit after.symbols true ∧
        (after.symbols.find? decl.name).isSome ∧
        (decl.name ∈ decl.mentioned → (context.symbols.find? decl.name).isSome) := by
  unfold checkFile
  refine (CType.checkObject_ensures admits.diagnostics decl.type).bind ?_
  rintro _ _ ⟨rfl, declarable⟩
  have complete : decl.type.isComplete :=
    declarable.resolve_right (by simp [isSource.notFunction])
  refine (initialValue_ensures valid isSource admits declarable).bind ?_
  rintro ⟨decl', next⟩ between ⟨first, known, ⟨init, rfl⟩, explicit⟩
  refine (mergeStorage_ensures admits.diagnostics).bind ?_
  rintro storage _ ⟨rfl, agrees⟩
  refine Ensures.bind_ok (Pass.run_setSymbol _ _ _ _) ?_
  have second := first.valid.declare storage agrees (.inl plain) (.inl complete)
  have hasType := SymbolTable.hasType_set between.symbols decl.name decl.type storage
  refine Ensures.pure ⟨first.append second, ⟨hasType, ?_⟩, hasType.isSome, ?_⟩
  · exact fun init mem =>
      Initializer.Explicit.extend second.grows.extends_ _ init (explicit init mem)
  · intro own
    by_contra absent
    have absent : context.symbols.find? decl.name = none := by simpa using absent
    rcases first.grows.adds decl.name absent (known decl.name own) with mem | isNumbered
    · simp at mem
    · exact isNumbered.not_plain plain

/-- A block-scope object with linkage keeps the symbol it has. -/
theorem checkExternal_ensures
    (diagnostics : ∀ failure, Failure.IsDiagnostic failure → allowed failure) {decl : VarDecl}
    (valid : context.Valid) (plain : decl.name.IsPlain) (complete : decl.type.isComplete) :
    Ensures decl.checkExternal context allowed fun _ after =>
      context.Enters [decl.name] after ∧ after.symbols.HasType decl.name decl.type ∧
        decl.init = none := by
  unfold checkExternal
  refine Ensures.ite (fun _ => Ensures.typeError diagnostics) ?_
  intro noInit
  have noInit : decl.init = none := by simpa using noInit
  refine Ensures.bind_ok (Pass.run_findSymbol? _ _) ?_
  split
  · rename_i absent
    have agrees : context.symbols.Agrees decl.name decl.type .static :=
      fun symbol found => nomatch absent.symm.trans found
    have enters := valid.declare (.static .absent true) agrees (.inl plain) (.inl complete)
    exact ⟨enters, SymbolTable.hasType_set _ _ _ _, noInit⟩
  · rename_i name type init isGlobal present
    refine Ensures.ite (fun _ => Ensures.typeError diagnostics) ?_
    intro sameType
    exact Ensures.pure ⟨.refl _ valid, ⟨_, present, by simpa using sameType⟩, noInit⟩
  · exact Ensures.typeError diagnostics

/-- A block-scope object is entered with its type. Only a static object can fail to find a name
there, and only its own. -/
theorem checkLocal_ensures {known : List Text} {decl : VarDecl}
    (ready : context.Ready allowed known [decl.toLocal]) (isSource : decl.IsSource)
    (isScoped : decl.mentioned ⊆ decl.name :: known) :
    Ensures decl.checkLocal context allowed fun decl' after =>
      context.Declares [decl.toLocal] after ∧ decl'.Explicit after.symbols false := by
  unfold checkLocal
  refine (CType.checkObject_ensures ready.diagnostics decl.type).bind ?_
  rintro _ _ ⟨rfl, declarable⟩
  have complete : decl.type.isComplete :=
    declarable.resolve_right (by simp [isSource.notFunction])
  split
  · rename_i isExternal
    have plain := isSource.plain isExternal
    refine (checkExternal_ensures ready.diagnostics ready.valid plain complete).bind ?_
    rintro _ after ⟨enters, hasType, noInit⟩
    refine Ensures.pure ⟨⟨enters, by simpa [toLocal] using hasType.isSome, ?_⟩, hasType, ?_⟩
    · simp [Local.anyCircular, toLocal, isExternal]
    · simp [noInit]
  · rename_i isStatic
    have awaits : context.Awaits ([] ++ [decl.toLocal]) := ready.awaits
    have isNumbered : decl.name.IsNumbered 0 context.nextName :=
      ready.awaits.isNumbered _ (List.mem_singleton_self _) (by simp [toLocal, isStatic])
    -- A static object is entered only behind its initializer, in which its own name may be missing.
    have admits : Admits allowed context.symbols decl.mentioned := by
      refine ⟨ready.diagnostics, fun name mem absent => ?_⟩
      rcases List.mem_cons.1 (isScoped mem) with rfl | isKnown
      · refine ready.circular ?_ decl.name
        simp [Local.anyCircular, toLocal, isStatic, mem]
      · have present := ready.known name isKnown
        simp [absent] at present
    refine (initialValue_ensures ready.valid isSource admits declarable).bind ?_
    rintro ⟨decl', init⟩ between ⟨first, found, ⟨given, rfl⟩, explicit⟩
    have absent : between.symbols.find? decl.name = none :=
      (awaits.right first.grows).absent _ (List.mem_singleton_self _) (by simp [toLocal, isStatic])
    have agrees : between.symbols.Agrees decl.name decl.type .static :=
      fun symbol found => by cases absent.symm.trans found
    have second := first.valid.declare (.static init false) agrees
      (.inr (isNumbered.widen (Nat.le_refl _) first.grows.le)) (.inl complete)
    have hasType := SymbolTable.hasType_set between.symbols decl.name decl.type (.static init false)
    refine Ensures.bind_ok (Pass.run_setSymbol _ _ _ _) ?_
    refine Ensures.pure ⟨⟨first.append second, by simpa [toLocal] using hasType.isSome, ?_⟩,
      hasType, ?_⟩
    · have notOwn : decl.name ∉ decl.mentioned := by
        intro own
        have present := found decl.name own
        simp [absent] at present
      simp [Local.anyCircular, toLocal, notOwn]
    · intro init mem
      have explicit := explicit init mem
      simp only [isStatic, Option.isSome_some, Bool.or_true]
      exact Initializer.Explicit.extend second.grows.extends_ _ init explicit
  · rename_i isAutomatic
    have noLinkage : decl.toLocal.hasLinkage = false := by simp [toLocal, isAutomatic]
    have isNumbered := ready.awaits.isNumbered _ (List.mem_singleton_self _) noLinkage
    have absent := ready.awaits.absent _ (List.mem_singleton_self _) noLinkage
    have agrees : context.symbols.Agrees decl.name decl.type .automatic :=
      fun symbol found => by cases absent.symm.trans found
    have enters := ready.valid.declare .automatic agrees (.inr isNumbered) (.inl complete)
    have hasType := SymbolTable.hasType_set context.symbols decl.name decl.type .automatic
    have declares : context.Declares [decl.toLocal]
        { context with symbols := context.symbols.set decl.name decl.type .automatic } :=
      ⟨enters, by simpa [toLocal] using hasType.isSome,
        by simp [Local.anyCircular, toLocal, isAutomatic]⟩
    refine Ensures.bind_ok (Pass.run_setSymbol _ _ _ _) ?_
    split
    · rename_i noInit
      exact Ensures.pure ⟨declares, hasType, by simp [noInit]⟩
    · rename_i init hasInit
      have mentions : init.mentioned ⊆ decl.name :: known := by
        simpa [mentioned, hasInit] using isScoped
      -- An automatic object is entered first, so its initializer finds all names.
      have admits : Admits allowed (context.symbols.set decl.name decl.type .automatic)
          init.mentioned := by
        refine ⟨ready.diagnostics, fun name mem absent => ?_⟩
        have present : ((context.symbols.set decl.name decl.type .automatic).find? name).isSome := by
          rcases List.mem_cons.1 (mentions mem) with rfl | isKnown
          · exact hasType.isSome
          · exact enters.grows.extends_.isSome (ready.known name isKnown)
        simp [absent] at present
      refine (Initializer.checkAutomatic_ensures enters.valid.sound init decl.type rfl
        (isSource.init init hasInit) admits declarable).bind ?_
      rintro init' after ⟨checks, explicit⟩
      have renumbered := Context.Declares.of_renumbered checks.renumbered enters.valid
      refine Ensures.pure ⟨declares.append renumbered, ?_, ?_⟩
      · exact hasType.extend renumbered.extends_
      · simp only [isAutomatic, Option.isSome_none, Bool.or_self, Option.mem_def,
          Option.some.injEq, forall_eq']
        exact Initializer.Explicit.extend renumbered.extends_ _ init' explicit

/-- The objects of a for statement are entered in order, each known to those after it. -/
theorem checkForList_ensures : ∀ (decls : List VarDecl) {known : List Text} {context : Context},
    context.Ready allowed known (decls.map toLocal) → (∀ decl ∈ decls, decl.IsSource) →
    ScopedList known decls →
    Ensures (checkForList decls) context allowed fun decls' after =>
      context.Declares (decls.map toLocal) after ∧
        ∀ decl ∈ decls', decl.Explicit after.symbols false
  | [], known, context, ready, _, _ => by
      rw [checkForList]
      exact Ensures.pure ⟨.nil ready.valid, by simp⟩
  | decl :: decls, known, context, ready, isSource, isScoped => by
      rcases List.forall_mem_cons.1 isSource with ⟨declSource, declsSource⟩
      have ready : context.Ready allowed known ([decl.toLocal] ++ decls.map toLocal) := ready
      rw [checkForList]
      refine Ensures.ite (fun _ => Ensures.typeError ready.diagnostics) (fun _ => ?_)
      refine (checkLocal_ensures ready.left declSource isScoped.1).bind ?_
      rintro decl' between ⟨declares, explicit⟩
      have present : ∀ name ∈ [decl.name], (between.symbols.find? name).isSome := by
        simpa [toLocal] using declares.known
      refine (checkForList_ensures decls ((ready.right declares).know present) declsSource
        isScoped.2).bind ?_
      rintro decls' after ⟨restDeclares, explicitRest⟩
      refine Ensures.pure ⟨declares.append restDeclares, ?_⟩
      exact List.forall_mem_cons.2 ⟨explicit.extend restDeclares.extends_, explicitRest⟩

end VarDecl

end SubsetC
