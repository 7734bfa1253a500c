import SubsetC.Proofs.CallOrder
import SubsetC.Proofs.Progress

/-!
# Objects without linkage belong to one function

A scoped tree uses objects that it declares, or that are known around it. Around the body of a
function only names of the file are known, which are plain; so an object without linkage that a
function uses is one of its own declarations, or has been made for it by lowering. The names of both
are drawn for them, and no name is drawn twice.
-/

namespace SubsetC

/-! ### Uses of scoped trees -/

theorem List.append_subset_append {first second more others : List Text} (left : first ⊆ more)
    (right : second ⊆ others) : first ++ second ⊆ more ++ others :=
  List.append_subset.2
    ⟨List.subset_append_of_subset_left _ left, List.subset_append_of_subset_right _ right⟩

namespace Expr

mutual

theorem objects_subset : ∀ expr : Expr, expr.objects ⊆ expr.mentioned
  | .constant _ _ | .string _ _ | .sizeofType _ _ | .var _ _ => List.Subset.refl _
  | .sizeofExpr _ _ => List.nil_subset _
  | .unary _ _ operand | .cast _ _ operand _ | .addressOf _ operand | .dereference _ operand
  | .step _ _ _ operand | .decay _ operand => objects_subset operand
  | .binary _ _ left right | .assign _ _ left right _ | .subscript _ left right =>
      List.append_subset_append (objects_subset left) (objects_subset right)
  | .conditional _ condition thenBranch elseBranch =>
      List.append_subset_append (objects_subset condition)
        (List.append_subset_append (objects_subset thenBranch) (objects_subset elseBranch))
  | .call _ _ arguments => List.subset_cons_of_subset _ (objectsList_subset arguments)

theorem objectsList_subset : ∀ exprs : List Expr, objectsList exprs ⊆ mentionedList exprs
  | [] => List.nil_subset _
  | expr :: exprs => List.append_subset_append (objects_subset expr) (objectsList_subset exprs)

end

theorem objectsOption_subset : ∀ value : Option Expr, objectsOption value ⊆ mentionedOption value
  | none => List.nil_subset _
  | some expr => objects_subset expr

end Expr

namespace Initializer

mutual

theorem objects_subset : ∀ init : Initializer, init.objects ⊆ init.mentioned
  | .single _ value => Expr.objects_subset value
  | .compound _ items => objectsList_subset items

theorem objectsList_subset : ∀ items : List Initializer, objectsList items ⊆ mentionedList items
  | [] => List.nil_subset _
  | item :: items => List.append_subset_append (objects_subset item) (objectsList_subset items)

end

end Initializer

/-- Each of the names is declared among the declarations or known before. -/
def Local.Cover (locals : List Local) (known names : List Text) : Prop :=
  ∀ name ∈ names, name ∈ locals.map Local.name ∨ name ∈ known

namespace Local.Cover

variable {locals more : List Local} {known names others : List Text}

theorem of_subset (subset : names ⊆ known) : Cover locals known names :=
  fun _ mem => .inr (subset mem)

/-- What is declared first is known afterwards. -/
theorem follow (before : List Text) (first : Cover locals known names)
    (second : Cover more (before ++ known) others) (declared : before ⊆ locals.map Local.name) :
    Cover (locals ++ more) known (names ++ others) := by
  rw [Cover, List.map_append]
  refine List.forall_mem_append.2 ⟨fun name mem => ?_, fun name mem => ?_⟩
  · exact (first name mem).imp_left (List.mem_append_left _)
  · rcases second name mem with isLater | isKnown
    · exact .inl (List.mem_append_right _ isLater)
    · exact (List.mem_append.1 isKnown).imp_left fun isBefore =>
        List.mem_append_left _ (declared isBefore)

theorem append (first : Cover locals known names) (second : Cover more known others) :
    Cover (locals ++ more) known (names ++ others) :=
  follow [] first second (List.nil_subset _)

/-- Only names that are known before. -/
theorem prepend (cover : Cover locals known names) (subset : others ⊆ known) :
    Cover locals known (others ++ names) :=
  List.forall_mem_append.2 ⟨fun _ mem => .inr (subset mem), cover⟩

theorem postpone (cover : Cover locals known names) (subset : others ⊆ known) :
    Cover locals known (names ++ others) :=
  List.forall_mem_append.2 ⟨cover, fun _ mem => .inr (subset mem)⟩

end Local.Cover

theorem VarDecl.uses_cover {decl : VarDecl} {known : List Text}
    (isScoped : decl.mentioned ⊆ decl.name :: known) :
    Local.Cover [decl.toLocal] known decl.uses := by
  rcases decl with ⟨loc, name, type, _ | storageClass, _ | init⟩
  case none.some =>
    have isKnown : name :: init.objects ⊆ [name] ++ known :=
      List.cons_subset.2 ⟨List.mem_cons_self,
        List.Subset.trans (Initializer.objects_subset init) isScoped⟩
    exact fun other mem => List.mem_append.1 (isKnown mem)
  all_goals exact nofun

theorem VarDecl.usesList_cover : ∀ {decls : List VarDecl} {known : List Text},
    ScopedList known decls → Local.Cover (decls.map toLocal) known (usesList decls)
  | [], _, _ => nofun
  | decl :: _, _, isScoped =>
      .follow [decl.name] (VarDecl.uses_cover isScoped.1) (usesList_cover isScoped.2)
        (List.Subset.refl _)

theorem ForInit.uses_cover {init : ForInit} {known : List Text} (isScoped : init.Scoped known) :
    Local.Cover init.locals known init.uses := by
  cases init with
  | declarations _ decls => exact VarDecl.usesList_cover isScoped
  | expression _ value =>
      exact .of_subset (List.Subset.trans (Expr.objectsOption_subset value) isScoped)

theorem ForInit.names_subset (init : ForInit) : init.names ⊆ init.locals.map Local.name := by
  cases init with
  | declarations _ decls =>
      intro name mem
      rcases List.mem_map.1 (List.mem_reverse.1 mem) with ⟨decl, declMem, rfl⟩
      exact List.mem_map.2 ⟨decl.toLocal, List.mem_map_of_mem declMem, rfl⟩
  | expression _ _ => exact List.nil_subset _

mutual

/-- A scoped statement uses what it declares, and what is known around it. -/
theorem Stmt.Scoped.uses : ∀ (stmt : Stmt) {known : List Text}, stmt.Scoped known → stmt.isFlat →
    Local.Cover stmt.locals known stmt.uses
  | .ret _ value, _, isScoped, _ =>
      .of_subset (List.Subset.trans (Expr.objectsOption_subset value) isScoped)
  | .expr _ value, _, isScoped, _ => .of_subset (List.Subset.trans value.objects_subset isScoped)
  | .ifThen _ condition body, _, isScoped, isFlat
  | .whileLoop _ _ condition body, _, isScoped, isFlat
  | .switch _ _ condition body _, _, isScoped, isFlat =>
      (Stmt.Scoped.uses body isScoped.2 isFlat).prepend
        (List.Subset.trans condition.objects_subset isScoped.1)
  | .doWhile _ _ body condition, _, isScoped, isFlat =>
      (Stmt.Scoped.uses body isScoped.2 isFlat).postpone
        (List.Subset.trans condition.objects_subset isScoped.1)
  | .ifElse _ condition thenBranch elseBranch, _, isScoped, isFlat => by
      rcases Bool.and_eq_true_iff.1 isFlat with ⟨isFlatThen, isFlatElse⟩
      have branches := (Stmt.Scoped.uses thenBranch isScoped.2.1 isFlatThen).append
        (Stmt.Scoped.uses elseBranch isScoped.2.2 isFlatElse)
      exact branches.prepend (List.Subset.trans condition.objects_subset isScoped.1)
  | .block _ items, _, isScoped, areFlat => Item.ScopedList.uses items isScoped areFlat
  | .forLoop _ _ init condition post body, _, isScoped, isFlat => by
      rcases isScoped with ⟨initScoped, conditionScoped, postScoped, isScoped⟩
      have rest := ((Stmt.Scoped.uses body isScoped isFlat).postpone
        (List.Subset.trans (Expr.objectsOption_subset post) postScoped)).prepend
          (List.Subset.trans (Expr.objectsOption_subset condition) conditionScoped)
      exact .follow init.names (ForInit.uses_cover initScoped) rest init.names_subset
  | .case _ _ _ body, _, isScoped, isFlat => Stmt.Scoped.uses body isScoped.2 isFlat
  | .default _ _ body, _, isScoped, isFlat => Stmt.Scoped.uses body isScoped isFlat
  | .break _ _, _, _, _ | .continue _ _, _, _, _ | .null _, _, _, _ => nofun

theorem Item.ScopedList.uses : ∀ (items : List Item) {known : List Text},
    Item.ScopedList known items → Item.areFlat items →
    Local.Cover (Item.localsList items) known (Item.usesList items)
  | [], _, _, _ => nofun
  | .stmt stmt :: items, _, isScoped, areFlat => by
      rcases Bool.and_eq_true_iff.1 areFlat with ⟨isFlat, areFlat⟩
      exact (Stmt.Scoped.uses stmt isScoped.1 isFlat).append
        (Item.ScopedList.uses items isScoped.2 areFlat)
  | .decl (.object decl) :: items, _, isScoped, areFlat =>
      .follow [decl.name] (VarDecl.uses_cover isScoped.1)
        (Item.ScopedList.uses items isScoped.2 areFlat) (List.Subset.refl _)
  | .decl (.function decl) :: items, known, isScoped, areFlat =>
      have declared : Local.Cover [decl.toLocal] known [] := nofun
      .follow [decl.name] declared
        (Item.ScopedList.uses items isScoped areFlat) (List.Subset.refl _)
  | .decl (.definition _ _ _) :: _, _, _, areFlat => nomatch areFlat

end

/-! ### Objects of definitions -/

/-- The parameters of a definition, and the objects that its body initializes or uses. -/
def FunDecl.objects (definition : FunDecl × List Item) : List Text :=
  definition.1.params.map Param.name ++ Item.usesList definition.2

/-- Only plain names are among both. -/
def Text.Apart (first second : List Text) : Prop := ∀ name ∈ first, name ∈ second → name.IsPlain

theorem FunDecl.Alike.objects {definition other : FunDecl × List Item}
    (alike : Alike definition other) : FunDecl.objects other = FunDecl.objects definition := by
  rw [FunDecl.objects, alike.params, alike.body.uses, FunDecl.objects]

/-- Related lists have the same values if related members do. -/
theorem map_eq_of_forall₂ {α β γ : Type} {relates : α → β → Prop} {ofLeft : α → γ} {ofRight : β → γ}
    {left : List α} {right : List β} (pairs : List.Forall₂ relates left right)
    (same : ∀ a b, relates a b → ofRight b = ofLeft a) : right.map ofRight = left.map ofLeft := by
  induction pairs with
  | nil => rfl
  | cons head _ ih => rw [List.map_cons, List.map_cons, same _ _ head, ih]

namespace Program

/-- A definition uses its own declarations and names of the file, which are plain. -/
theorem Scoped.objects : ∀ (program : Program) {known : List Text}, program.Scoped known →
    (∀ name ∈ known, name.IsPlain) → (∀ decl ∈ program, decl.name.IsPlain) →
    ∀ decl ∈ program, ∀ definition ∈ decl.definition?, Item.areFlat definition.2 →
      ∀ name ∈ FunDecl.objects definition, name ∈ decl.locals.map Local.name ∨ name.IsPlain
  | [], _, _, _, _ => nofun
  | .object decl :: decls, known, isScoped, knownPlain, plain => by
      rcases List.forall_mem_cons.1 plain with ⟨isPlain, plain⟩
      refine List.forall_mem_cons.2 ⟨nofun, ?_⟩
      exact Scoped.objects decls isScoped.2 (List.forall_mem_cons.2 ⟨isPlain, knownPlain⟩) plain
  | .function decl :: decls, known, isScoped, knownPlain, plain => by
      rcases List.forall_mem_cons.1 plain with ⟨isPlain, plain⟩
      refine List.forall_mem_cons.2 ⟨nofun, ?_⟩
      exact Scoped.objects decls isScoped (List.forall_mem_cons.2 ⟨isPlain, knownPlain⟩) plain
  | .definition decl bodyLoc body :: decls, known, isScoped, knownPlain, plain => by
      rcases List.forall_mem_cons.1 plain with ⟨isPlain, plain⟩
      have knownPlain : ∀ name ∈ decl.name :: known, name.IsPlain :=
        List.forall_mem_cons.2 ⟨isPlain, knownPlain⟩
      refine List.forall_mem_cons.2 ⟨?_, Scoped.objects decls isScoped.2 knownPlain plain⟩
      rintro _ ⟨⟩ areFlat
      have isParam : ∀ name ∈ decl.params.map Param.name,
          name ∈ (Decl.definition decl bodyLoc body).locals.map Local.name := by
        intro name mem
        rcases List.mem_map.1 mem with ⟨param, paramMem, rfl⟩
        refine List.mem_map.2 ⟨param.toLocal, List.mem_cons_of_mem _ ?_, rfl⟩
        exact List.mem_append_left _ (List.mem_map_of_mem paramMem)
      refine List.forall_mem_append.2 ⟨fun name mem => .inl (isParam name mem), fun name mem => ?_⟩
      rcases Item.ScopedList.uses body isScoped.1 areFlat name mem with isLocal | isKnown
      · rcases List.mem_map.1 isLocal with ⟨local', localMem, rfl⟩
        refine .inl (List.mem_map.2 ⟨local', List.mem_cons_of_mem _ ?_, rfl⟩)
        exact List.mem_append_right _ localMem
      · exact (List.mem_append.1 isKnown).imp (isParam name) (knownPlain name)

/-- Different definitions use different objects without linkage. -/
theorem Settled.apart {program labelled analysed : Program} {context : Context}
    (settled : program.Settled context labelled analysed) :
    analysed.definitions.Pairwise fun first second =>
      Text.Apart (FunDecl.objects first) (FunDecl.objects second) := by
  rcases settled.prepared with ⟨before, prepared⟩
  have plain : ∀ decl ∈ labelled, decl.name.IsPlain :=
    fun decl mem => (prepared.isSource decl mem).2
  have objects := Scoped.objects labelled prepared.isScoped nofun plain
  have areApart : labelled.definitions.Pairwise fun first second =>
      Text.Apart (FunDecl.objects first) (FunDecl.objects second) := by
    refine List.pairwise_filterMap.2
      ((List.pairwise_flatMap.1 prepared.awaits.apart).2.imp_of_mem ?_)
    intro decl other mem otherMem apart first isFirst second isSecond name isUsed isUsedAgain
    have firstMem : first ∈ labelled.definitions := List.mem_filterMap.2 ⟨decl, mem, isFirst⟩
    have secondMem : second ∈ labelled.definitions :=
      List.mem_filterMap.2 ⟨other, otherMem, isSecond⟩
    by_contra notPlain
    have isOwn := (objects decl mem first isFirst (settled.areFlat first firstMem) name
      isUsed).resolve_right notPlain
    have isOther := (objects other otherMem second isSecond (settled.areFlat second secondMem) name
      isUsedAgain).resolve_right notPlain
    rcases List.mem_map.1 isOwn with ⟨own, ownMem, rfl⟩
    rcases List.mem_map.1 isOther with ⟨again, againMem, same⟩
    refine notPlain (prepared.awaits.plain own (List.mem_flatMap.2 ⟨decl, mem, ownMem⟩) ?_)
    exact apart own ownMem again againMem same.symm
  rw [← List.pairwise_map (f := FunDecl.objects) (R := Text.Apart)] at areApart ⊢
  rwa [map_eq_of_forall₂ settled.alike fun _ _ => FunDecl.Alike.objects]

theorem Explicit.objects {program : Program} {table : SymbolTable}
    (explicit : program.Explicit table) :
    ∀ definition ∈ program.definitions, ∀ name ∈ FunDecl.objects definition,
      (table.find? name).isSome := by
  intro definition mem
  refine List.forall_mem_append.2 ⟨fun name isParam => ?_, fun name isUsed => ?_⟩
  · rcases List.mem_filterMap.1 mem with ⟨decl, declMem, isDefinition⟩
    have declExplicit := explicit decl declMem
    cases decl with
    | object | function => cases isDefinition
    | definition decl bodyLoc body =>
        cases isDefinition
        rcases List.mem_map.1 isParam with ⟨param, paramMem, rfl⟩
        exact (declExplicit.2.1 param paramMem).isSome
  · rcases Explicit.uses explicit definition mem name isUsed with ⟨type, hasType, _⟩
    exact hasType.isSome

end Program

namespace Context

variable {context after : Context}

/-- A function mentions the objects of its definition, and those that are made for it. -/
theorem DeliversFunction.objects {definition : FunDecl × List Item} {function : Function}
    (delivers : context.DeliversFunction definition function after) :
    ∀ name ∈ function.names, name ∈ FunDecl.objects definition ∨
      name.IsNumbered context.nextName after.nextName := by
  refine List.forall_mem_append.2 ⟨fun name isParam => ?_, fun name mem => ?_⟩
  · rw [delivers.params] at isParam
    exact .inl (List.mem_append_left _ isParam)
  · refine (delivers.body.names name (List.mem_append_left _ mem)).imp_left ?_
    exact List.mem_append_right _

/-- Functions that are made from different definitions mention different objects without linkage. -/
theorem DeliversAll.apart {bound : Nat} {definitions : List (FunDecl × List Item)}
    {functions : List Function} (delivers : context.DeliversAll definitions functions after) :
    bound ≤ context.nextName →
    (∀ definition ∈ definitions, ∀ name ∈ FunDecl.objects definition,
      name.IsPlain ∨ name.IsNumbered 0 bound) →
    (definitions.Pairwise fun first second =>
      Text.Apart (FunDecl.objects first) (FunDecl.objects second)) →
    functions.Pairwise fun first second => Text.Apart first.names second.names := by
  induction delivers with
  | nil => exact fun _ _ _ => .nil
  | @cons first second third definition function definitions functions head tail ih =>
      intro le drawn apart
      rcases List.forall_mem_cons.1 drawn with ⟨headDrawn, tailDrawn⟩
      rcases List.pairwise_cons.1 apart with ⟨headApart, tailApart⟩
      have leSecond := Nat.le_trans le head.appends.le
      refine List.pairwise_cons.2 ⟨fun other mem name isMentioned isOther => ?_,
        ih leSecond tailDrawn tailApart⟩
      rcases tail.exists_of_mem mem with ⟨found, isDefinition, low, high, before, delivers, _⟩
      have leLow := Nat.le_trans leSecond before.le
      rcases head.objects name isMentioned with isUsed | isNumbered
      · rcases delivers.objects name isOther with isUsedAgain | isLater
        · exact headApart found isDefinition name isUsed isUsedAgain
        · refine (headDrawn name isUsed).resolve_right fun isEarlier => ?_
          exact isEarlier.ne isLater leLow rfl
      · rcases delivers.objects name isOther with isUsed | isLater
        · refine (tailDrawn found isDefinition name isUsed).resolve_right fun isEarlier => ?_
          exact isEarlier.ne isNumbered le rfl
        · exact absurd rfl (isNumbered.ne isLater before.le)

end Context

end SubsetC
