import SubsetC.Analysis.Scope
import SubsetC.Proofs.Outcome
import SubsetC.Proofs.TreeNames
import Mathlib.Data.List.Forall2

/-!
# Resolved trees

What resolution does to a tree of a source. It fails only with a diagnostic; every name the
resolved tree mentions is declared before; and it keeps the declarations, except that names without
linkage become different numbered names. `Resolution` states the last part, so that the statements
about the parts of a tree can be put together.
-/

namespace SubsetC

/-! ### Declarations that are kept -/

namespace Local

/-- A declaration that is kept up to the choice of a name without linkage. -/
structure Keeps (before after : Local) : Prop where
  hasLinkage : after.hasLinkage = before.hasLinkage
  /-- A static object occurs in its own initializer as before. -/
  isCircular : after.isCircular = before.isCircular
  name : before.hasLinkage → after.name = before.name

theorem linked_eq_of_keeps {before after : List Local} (keeps : List.Forall₂ Keeps before after) :
    linked after = linked before := by
  induction keeps with
  | nil => rfl
  | @cons first second firsts seconds head tail ih =>
      cases linkage : first.hasLinkage with
      | false => simpa [linked, head.hasLinkage, linkage] using ih
      | true => simpa [linked, head.hasLinkage, linkage, head.name linkage] using ih

theorem anyCircular_eq_of_keeps {before after : List Local}
    (keeps : List.Forall₂ Keeps before after) : anyCircular after = anyCircular before := by
  induction keeps with
  | nil => rfl
  | cons head tail ih => simpa [anyCircular, head.isCircular] using congrArg _ ih

@[simp]
theorem unlinked_append (first second : List Local) :
    unlinked (first ++ second) = unlinked first ++ unlinked second := by
  simp [unlinked]

end Local

/-- The declarations are still to be entered. Names with linkage are plain and may be entered again;
the other names have been drawn, differ from all others, and have no symbol. -/
structure Context.Awaits (context : Context) (locals : List Local) : Prop where
  /-- Only names with linkage are entered twice. -/
  apart : locals.Pairwise fun first second => first.name = second.name → first.hasLinkage
  plain : ∀ decl ∈ locals, decl.hasLinkage → decl.name.IsPlain
  /-- The other names are drawn. -/
  isNumbered : ∀ decl ∈ locals, decl.hasLinkage = false →
    decl.name.IsNumbered 0 context.nextName
  absent : ∀ decl ∈ locals, decl.hasLinkage = false → context.symbols.find? decl.name = none

namespace Context.Awaits

variable {context after : Context} {locals more : List Local}

theorem left (awaits : context.Awaits (locals ++ more)) : context.Awaits locals :=
  ⟨(List.pairwise_append.1 awaits.apart).1,
    fun decl mem => awaits.plain decl (List.mem_append_left _ mem),
    fun decl mem => awaits.isNumbered decl (List.mem_append_left _ mem),
    fun decl mem => awaits.absent decl (List.mem_append_left _ mem)⟩

/-- Entering the first of the declarations leaves the others to be entered. -/
theorem right (awaits : context.Awaits (locals ++ more))
    (grows : context.Grows (locals.map Local.name) after) : after.Awaits more := by
  have apart := List.pairwise_append.1 awaits.apart
  refine ⟨apart.2.1, fun decl mem => awaits.plain decl (List.mem_append_right _ mem), ?_, ?_⟩
  · intro decl mem noLinkage
    exact (awaits.isNumbered decl (List.mem_append_right _ mem) noLinkage).widen (Nat.le_refl _)
      grows.le
  · intro decl mem noLinkage
    have isNumbered := awaits.isNumbered decl (List.mem_append_right _ mem) noLinkage
    have absent := awaits.absent decl (List.mem_append_right _ mem) noLinkage
    by_contra present
    rcases grows.adds decl.name absent (Option.isSome_iff_ne_none.2 present) with earlier | later
    · rcases List.mem_map.1 earlier with ⟨other, otherMem, same⟩
      have hasLinkage := apart.2.2 other otherMem decl mem same
      have plain := awaits.plain other (List.mem_append_left _ otherMem) hasLinkage
      exact isNumbered.not_plain (same ▸ plain)
    · exact isNumbered.ne later (Nat.le_refl _) rfl

/-- Declarations whose names have just been drawn can all be entered. -/
theorem of_drawn {low : Nat} (plain : ∀ decl ∈ locals, decl.hasLinkage → decl.name.IsPlain)
    (drawn : Text.Drawn low context.nextName (Local.unlinked locals))
    (absent : ∀ name, context.symbols.find? name = none) : context.Awaits locals := by
  have mem_unlinked : ∀ decl ∈ locals, decl.hasLinkage = false →
      decl.name ∈ Local.unlinked locals := by
    intro decl mem noLinkage
    exact List.mem_map.2 ⟨decl, by simp [mem, noLinkage], rfl⟩
  have isNumbered : ∀ decl ∈ locals, decl.hasLinkage = false →
      decl.name.IsNumbered 0 context.nextName := by
    intro decl mem noLinkage
    exact (drawn.isNumbered _ (mem_unlinked decl mem noLinkage)).widen (Nat.zero_le _)
      (Nat.le_refl _)
  refine ⟨?_, plain, isNumbered, fun decl _ _ => absent decl.name⟩
  have nodup := drawn.nodup
  clear drawn mem_unlinked
  induction locals with
  | nil => exact List.Pairwise.nil
  | cons decl locals ih =>
      have tail := List.forall_mem_cons.1 plain
      have numbered := List.forall_mem_cons.1 isNumbered
      have rest : (Local.unlinked locals).Nodup := by
        cases linkage : decl.hasLinkage with
        | false => exact (List.nodup_cons.1 (by simpa [Local.unlinked, linkage] using nodup)).2
        | true => simpa [Local.unlinked, linkage] using nodup
      refine List.pairwise_cons.2 ⟨?_, ih tail.2 numbered.2 rest⟩
      intro other mem same
      by_contra noLinkage
      have noLinkage : decl.hasLinkage = false := by simpa using noLinkage
      have fresh : decl.name ∉ Local.unlinked locals :=
        (List.nodup_cons.1 (by simpa [Local.unlinked, noLinkage] using nodup)).1
      cases linkage : other.hasLinkage with
      | true => exact (numbered.1 noLinkage).not_plain (same ▸ tail.2 other mem linkage)
      | false => exact fresh (List.mem_map.2 ⟨other, by simp [mem, linkage], same.symm⟩)

end Context.Awaits

/-- What resolution makes of the declarations in a part of a tree: it enters no symbols, draws new
names for declarations without linkage, and keeps the rest. -/
structure Resolution (before after : Context) (locals resolved : List Local) : Prop where
  symbols : after.symbols = before.symbols
  drawn : Text.Drawn before.nextName after.nextName (Local.unlinked resolved)
  /-- Declarations are kept. -/
  keeps : List.Forall₂ Local.Keeps locals resolved

namespace Resolution

variable {first second third : Context} {locals resolved more moreResolved : List Local}

theorem refl (context : Context) : Resolution context context [] [] :=
  ⟨rfl, .nil _, .nil⟩

theorem append (earlier : Resolution first second locals resolved)
    (later : Resolution second third more moreResolved) :
    Resolution first third (locals ++ more) (resolved ++ moreResolved) := by
  refine ⟨later.symbols.trans earlier.symbols, ?_, List.rel_append earlier.keeps later.keeps⟩
  rw [Local.unlinked_append]
  exact earlier.drawn.append later.drawn

end Resolution

/-! ### Scopes -/

namespace Scopes

/-- The internal names that are visible. -/
def names (scopes : Scopes) : List Text :=
  (scopes.inner :: scopes.outer).flatMap fun scope => scope.map fun entry => entry.2.name

/-- The internal name a name stands for; a name that is not declared stands for itself. -/
def rename (scopes : Scopes) (name : Text) : Text :=
  match scopes.find? name with
  | some binding => binding.name
  | none => name

/-- All visible names are plain or have numbers below a bound. -/
def Tidy (scopes : Scopes) (bound : Nat) : Prop :=
  ∀ name ∈ scopes.names, name.IsPlain ∨ name.IsNumbered 0 bound

/-- Every visible name stands for itself, as at file scope. -/
def IsFile (scopes : Scopes) : Prop :=
  ∀ name binding, scopes.find? name = some binding → binding.name = name

variable {scopes : Scopes} {name : Text} {binding : Binding} {bound : Nat}

@[simp]
theorem names_enter (scopes : Scopes) : scopes.enter.names = scopes.names := rfl

@[simp]
theorem names_declare (scopes : Scopes) (name : Text) (binding : Binding) :
    (scopes.declare name binding).names = binding.name :: scopes.names := rfl

theorem find?_declare (scopes : Scopes) (name other : Text) (binding : Binding) :
    (scopes.declare name binding).find? other =
      if other = name then some binding else scopes.find? other := by
  by_cases same : other = name
  · simp [find?, declare, same]
  · have differ : (other == name) = false := beq_eq_false_iff_ne.2 same
    simp only [find?, declare, List.findSome?_cons, List.lookup_cons, differ, same, if_false]

theorem name_mem_of_find? (found : scopes.find? name = some binding) :
    binding.name ∈ scopes.names := by
  rcases List.exists_of_findSome?_eq_some found with ⟨scope, scopeMem, scopeFound⟩
  refine List.mem_flatMap.2 ⟨scope, scopeMem, ?_⟩
  rcases List.lookup_eq_some_iff.1 scopeFound with ⟨before, after, rfl, _⟩
  simp

theorem Tidy.widen {bound' : Nat} (tidy : scopes.Tidy bound) (le : bound ≤ bound') :
    scopes.Tidy bound' :=
  fun name mem => (tidy name mem).imp_right fun isNumbered => isNumbered.widen (Nat.le_refl _) le

theorem Tidy.declare (tidy : scopes.Tidy bound)
    (sort : binding.name.IsPlain ∨ binding.name.IsNumbered 0 bound) :
    (scopes.declare name binding).Tidy bound :=
  List.forall_mem_cons.2 ⟨sort, tidy⟩

theorem IsFile.declare {hasLinkage : Bool} (isFile : scopes.IsFile) (name : Text) :
    (scopes.declare name ⟨name, hasLinkage⟩).IsFile := by
  intro other binding found
  rw [find?_declare] at found
  split at found
  · cases found
    exact Eq.symm ‹_›
  · exact isFile other binding found

theorem IsFile.rename_eq (isFile : scopes.IsFile) (name : Text) : scopes.rename name = name := by
  unfold rename
  split
  · exact isFile name _ ‹_›
  · rfl

/-- A name that is drawn last is what nothing else stands for. -/
theorem rename_declare_eq_iff (tidy : scopes.Tidy bound)
    (fresh : binding.name.IsNumbered bound (bound + 1)) {other : Text}
    (visible : ((scopes.declare name binding).find? other).isSome) :
    (scopes.declare name binding).rename other = binding.name ↔ other = name := by
  unfold rename
  rw [find?_declare] at visible ⊢
  by_cases same : other = name
  · simp [same]
  · rw [if_neg same] at visible ⊢
    rcases Option.isSome_iff_exists.1 visible with ⟨previous, found⟩
    simp only [found, same, iff_false]
    intro equal
    rcases tidy previous.name (name_mem_of_find? found) with plain | isNumbered
    · exact fresh.not_plain (equal ▸ plain)
    · exact isNumbered.ne fresh (Nat.le_refl _) equal

end Scopes

/-! ### Expressions -/

/-- The names that a part of a tree mentions are all visible, and are replaced by those they stand
for. -/
structure Scopes.Renames (scopes : Scopes) (mentioned renamed : List Text) : Prop where
  visible : ∀ name ∈ mentioned, (scopes.find? name).isSome
  /-- Each is replaced. -/
  renamed : renamed = mentioned.map scopes.rename

namespace Scopes.Renames

variable {scopes : Scopes} {first second firstRenamed secondRenamed : List Text}

theorem nil (scopes : Scopes) : scopes.Renames [] [] := ⟨by simp, rfl⟩

theorem append (left : scopes.Renames first firstRenamed)
    (right : scopes.Renames second secondRenamed) :
    scopes.Renames (first ++ second) (firstRenamed ++ secondRenamed) := by
  refine ⟨List.forall_mem_append.2 ⟨left.visible, right.visible⟩, ?_⟩
  rw [List.map_append, left.renamed, right.renamed]

theorem single {name : Text} {binding : Binding} (found : scopes.find? name = some binding) :
    scopes.Renames [name] [binding.name] :=
  ⟨by simp [found], by simp [rename, found]⟩

theorem subset (renames : scopes.Renames first firstRenamed) : firstRenamed ⊆ scopes.names := by
  intro name mem
  rw [renames.renamed] at mem
  rcases List.mem_map.1 mem with ⟨source, sourceMem, rfl⟩
  rcases Option.isSome_iff_exists.1 (renames.visible source sourceMem) with ⟨binding, found⟩
  simpa [rename, found] using name_mem_of_find? found

theorem within {known : List Text} (renames : scopes.Renames first firstRenamed)
    (visible : scopes.names ⊆ known) : firstRenamed ⊆ known :=
  List.Subset.trans renames.subset visible

end Scopes.Renames

namespace Expr

variable {scopes : Scopes} {context : Context}

mutual

/-- A resolved expression mentions what the names of the expression stand for. -/
theorem resolve_ensures : ∀ expr : Expr, expr.IsSource →
    Ensures (expr.resolve scopes) context Failure.IsDiagnostic fun resolved after =>
      context = after ∧ resolved.IsSource ∧ scopes.Renames expr.mentioned resolved.mentioned
  | .constant _ _, isSource | .string _ _, isSource | .sizeofType _ _, isSource => by
      rw [resolve]
      exact Ensures.pure ⟨rfl, isSource, .nil scopes⟩
  | .var _ name, isSource => by
      rw [resolve]
      split
      · exact Ensures.pure ⟨rfl, isSource, .single ‹_›⟩
      · exact Ensures.nameError fun _ => id
  | .unary _ _ operand, isSource | .cast _ _ operand _, isSource | .addressOf _ operand, isSource
  | .dereference _ operand, isSource | .step _ _ _ operand, isSource
  | .sizeofExpr _ operand, isSource => by
      rw [resolve]
      refine (resolve_ensures operand isSource.2).bind ?_
      rintro operand' after ⟨rfl, operandSource, renames⟩
      exact Ensures.pure ⟨rfl, ⟨isSource.1, operandSource⟩, renames⟩
  | .binary _ _ left right, isSource | .assign _ _ left right _, isSource
  | .subscript _ left right, isSource => by
      rw [resolve]
      refine (resolve_ensures left isSource.2.1).bind ?_
      rintro left' after ⟨rfl, leftSource, leftRenames⟩
      refine (resolve_ensures right isSource.2.2).bind ?_
      rintro right' after ⟨rfl, rightSource, rightRenames⟩
      exact Ensures.pure
        ⟨rfl, ⟨isSource.1, leftSource, rightSource⟩, leftRenames.append rightRenames⟩
  | .conditional _ condition thenBranch elseBranch, isSource => by
      rw [resolve]
      refine (resolve_ensures condition isSource.2.1).bind ?_
      rintro condition' after ⟨rfl, conditionSource, conditionRenames⟩
      refine (resolve_ensures thenBranch isSource.2.2.1).bind ?_
      rintro thenBranch' after ⟨rfl, thenSource, thenRenames⟩
      refine (resolve_ensures elseBranch isSource.2.2.2).bind ?_
      rintro elseBranch' after ⟨rfl, elseSource, elseRenames⟩
      exact Ensures.pure ⟨rfl, ⟨isSource.1, conditionSource, thenSource, elseSource⟩,
        conditionRenames.append (thenRenames.append elseRenames)⟩
  | .call _ name arguments, isSource => by
      rw [resolve]
      split
      · refine (resolveList_ensures arguments isSource.2).bind ?_
        rintro arguments' after ⟨rfl, argumentsSource, renames⟩
        exact Ensures.pure
          ⟨rfl, ⟨isSource.1, argumentsSource⟩, (Scopes.Renames.single ‹_›).append renames⟩
      · exact Ensures.nameError fun _ => id
  | .decay _ _, isSource => isSource.elim

theorem resolveList_ensures : ∀ exprs : List Expr, IsSourceList exprs →
    Ensures (resolveList scopes exprs) context Failure.IsDiagnostic fun resolved after =>
      context = after ∧ IsSourceList resolved ∧
        scopes.Renames (mentionedList exprs) (mentionedList resolved)
  | [], _ => by
      rw [resolveList]
      exact Ensures.pure ⟨rfl, trivial, .nil scopes⟩
  | expr :: exprs, areSource => by
      rw [resolveList]
      refine (resolve_ensures expr areSource.1).bind ?_
      rintro expr' after ⟨rfl, isSource, renames⟩
      refine (resolveList_ensures exprs areSource.2).bind ?_
      rintro exprs' after ⟨rfl, restSource, restRenames⟩
      exact Ensures.pure ⟨rfl, ⟨isSource, restSource⟩, renames.append restRenames⟩

end

theorem resolveOption_ensures (value : Option Expr) (isSource : ∀ expr ∈ value, expr.IsSource) :
    Ensures (resolveOption scopes value) context Failure.IsDiagnostic fun resolved after =>
      context = after ∧ (∀ expr ∈ resolved, expr.IsSource) ∧
        scopes.Renames (mentionedOption value) (mentionedOption resolved) := by
  cases value with
  | none => exact Ensures.pure ⟨rfl, by simp, .nil scopes⟩
  | some expr =>
      refine (resolve_ensures expr (isSource expr rfl)).bind ?_
      rintro expr' after ⟨rfl, exprSource, renames⟩
      exact Ensures.pure ⟨rfl, by simpa using exprSource, renames⟩

end Expr

namespace Initializer

variable {scopes : Scopes} {context : Context}

mutual

theorem resolve_ensures : ∀ init : Initializer, init.IsSource →
    Ensures (init.resolve scopes) context Failure.IsDiagnostic fun resolved after =>
      context = after ∧ resolved.IsSource ∧ scopes.Renames init.mentioned resolved.mentioned
  | .single _ value, isSource => by
      rw [resolve]
      refine (Expr.resolve_ensures value isSource).bind ?_
      rintro value' after ⟨rfl, valueSource, renames⟩
      exact Ensures.pure ⟨rfl, valueSource, renames⟩
  | .compound _ items, areSource => by
      rw [resolve]
      refine (resolveList_ensures items areSource).bind ?_
      rintro items' after ⟨rfl, itemsSource, renames⟩
      exact Ensures.pure ⟨rfl, itemsSource, renames⟩

theorem resolveList_ensures : ∀ items : List Initializer, IsSourceList items →
    Ensures (resolveList scopes items) context Failure.IsDiagnostic fun resolved after =>
      context = after ∧ IsSourceList resolved ∧
        scopes.Renames (mentionedList items) (mentionedList resolved)
  | [], _ => by
      rw [resolveList]
      exact Ensures.pure ⟨rfl, trivial, .nil scopes⟩
  | item :: items, areSource => by
      rw [resolveList]
      refine (resolve_ensures item areSource.1).bind ?_
      rintro item' after ⟨rfl, isSource, renames⟩
      refine (resolveList_ensures items areSource.2).bind ?_
      rintro items' after ⟨rfl, restSource, restRenames⟩
      exact Ensures.pure ⟨rfl, ⟨isSource, restSource⟩, renames.append restRenames⟩

end

end Initializer

/-! ### Declarations -/

namespace VarDecl

variable {scopes : Scopes} {context : Context}

theorem resolveInit_ensures {decl : VarDecl} (isSource : ∀ init ∈ decl.init, init.IsSource) :
    Ensures (decl.resolveInit scopes) context Failure.IsDiagnostic fun resolved after =>
      context = after ∧ (∃ init, resolved = { decl with init }) ∧
        (∀ init ∈ resolved.init, init.IsSource) ∧
        scopes.Renames decl.mentioned resolved.mentioned := by
  unfold resolveInit
  cases shape : decl.init with
  | none =>
      refine Ensures.pure ⟨rfl, ⟨none, by rw [← shape]⟩, by simp [shape], ?_⟩
      simpa [mentioned, shape] using Scopes.Renames.nil scopes
  | some init =>
      refine (Initializer.resolve_ensures init (isSource init shape)).bind ?_
      rintro init' after ⟨rfl, initSource, renames⟩
      refine Ensures.pure ⟨rfl, ⟨some init', rfl⟩, by simpa using initSource, ?_⟩
      simpa [mentioned, shape] using renames

theorem checkRedeclaration_ensures (decl : VarDecl) :
    Ensures (decl.checkRedeclaration scopes) context Failure.IsDiagnostic fun _ after =>
      context = after := by
  unfold checkRedeclaration
  repeat' split
  all_goals first
    | exact Ensures.nameError fun _ => id
    | exact Ensures.pure rfl

/-- What the declaration of objects one after the other leads to. -/
structure Resolved (scopes inside : Scopes) (context after : Context)
    (decls resolved : List VarDecl) : Prop where
  /-- The declarations are kept. -/
  resolution : Resolution context after (decls.map toLocal) (resolved.map toLocal)
  isSource : ∀ decl ∈ resolved, decl.IsSource
  /-- The declared objects are visible afterwards. -/
  names : inside.names = (resolved.map VarDecl.name).reverse ++ scopes.names
  tidy : inside.Tidy after.nextName
  /-- Each object is visible in its own initializer. -/
  isScoped : ∀ known, scopes.names ⊆ known → ScopedList known resolved

theorem Resolved.cons {middle inside : Scopes} {between after : Context} {decl decl' : VarDecl}
    {decls decls' : List VarDecl} (head : Resolved scopes middle context between [decl] [decl'])
    (tail : Resolved middle inside between after decls decls') :
    Resolved scopes inside context after (decl :: decls) (decl' :: decls') := by
  refine ⟨head.resolution.append tail.resolution, ?_, ?_, tail.tidy, ?_⟩
  · exact List.forall_mem_cons.2 ⟨head.isSource decl' (by simp), tail.isSource⟩
  · rw [tail.names, head.names]
    simp
  · intro known subset
    refine ⟨(head.isScoped known subset).1, tail.isScoped _ ?_⟩
    rw [head.names]
    exact List.cons_subset_cons _ subset

/-- A declaration whose name has been chosen, in scopes where it is visible. -/
theorem resolved_of_declare {after : Context} {decl decl' : VarDecl} {binding : Binding}
    (tidy : (scopes.declare decl.name binding).Tidy after.nextName)
    (symbols : after.symbols = context.symbols)
    (drawn : Text.Drawn context.nextName after.nextName (Local.unlinked [decl'.toLocal]))
    (isSource : decl'.IsSource) (name : decl'.name = binding.name)
    (keeps : Local.Keeps decl.toLocal decl'.toLocal)
    (renames : (scopes.declare decl.name binding).Renames decl.mentioned decl'.mentioned) :
    Resolved scopes (scopes.declare decl.name binding) context after [decl] [decl'] := by
  refine ⟨⟨symbols, drawn, .cons keeps .nil⟩, by simpa using isSource, by simp [name], tidy, ?_⟩
  intro known subset
  refine ⟨?_, trivial⟩
  rw [name]
  exact renames.within (List.cons_subset_cons _ subset)

theorem resolveLocal_ensures {decl : VarDecl} (isSource : decl.IsSource)
    (tidy : scopes.Tidy context.nextName) :
    Ensures (decl.resolveLocal scopes) context Failure.IsDiagnostic fun result after =>
      Resolved scopes result.2 context after [decl] [result.1] := by
  unfold resolveLocal
  refine (checkRedeclaration_ensures decl).bind ?_
  rintro _ after rfl
  refine Ensures.ite ?_ ?_
  · intro isExternal
    have plain := isSource.plain isExternal
    refine (resolveInit_ensures isSource.init).bind ?_
    rintro decl' after ⟨rfl, ⟨init, rfl⟩, initSource, renames⟩
    refine Ensures.pure (resolved_of_declare (tidy.declare (.inl plain)) rfl ?_
      ⟨isSource.plain, initSource, isSource.notFunction⟩ rfl ⟨rfl, ?_, fun _ => rfl⟩ renames)
    · simpa [Local.unlinked, toLocal, isExternal] using Text.Drawn.nil _
    · simp [toLocal, isExternal]
  · intro notExternal
    refine Ensures.bind_ok (Pass.run_uniqueName context decl.name) ?_
    generalize sameName : decl.name ++ "." ++ Text.ofNat context.nextName = name
    have fresh : name.IsNumbered context.nextName (context.nextName + 1) :=
      sameName ▸ Text.isNumbered_numbered decl.name context.nextName
    have renamedSource : ∀ init ∈ ({ decl with name } : VarDecl).init, init.IsSource :=
      isSource.init
    refine (resolveInit_ensures renamedSource).bind ?_
    rintro decl' after ⟨rfl, ⟨init, rfl⟩, initSource, renames⟩
    refine Ensures.pure (resolved_of_declare ?_ rfl ?_
      ⟨fun isExternal => absurd isExternal notExternal, initSource, isSource.notFunction⟩ rfl
      ⟨rfl, ?_, ?_⟩ renames)
    · refine (tidy.widen (Nat.le_succ _)).declare (.inr ?_)
      exact fresh.widen (Nat.zero_le _) (Nat.le_refl _)
    · simpa [Local.unlinked, toLocal, notExternal, ← sameName, Text.numbered] using
        Text.Drawn.single decl.name context.nextName
    · -- The fresh name occurs in the initializer exactly if the declared name did.
      have occurs : name ∈ mentioned { decl with name, init } ↔ decl.name ∈ decl.mentioned := by
        rw [renames.renamed, List.mem_map]
        constructor
        · rintro ⟨other, otherMem, same⟩
          have visible := renames.visible other otherMem
          rw [Scopes.rename_declare_eq_iff tidy fresh visible] at same
          exact same ▸ otherMem
        · intro mem
          exact ⟨decl.name, mem,
            (Scopes.rename_declare_eq_iff tidy fresh (renames.visible _ mem)).2 rfl⟩
      simp [toLocal, occurs]
    · intro linkage
      simp [toLocal, notExternal] at linkage

theorem resolveLocals_ensures : ∀ {decls : List VarDecl} {scopes : Scopes} {context : Context},
    (∀ decl ∈ decls, decl.IsSource) → scopes.Tidy context.nextName →
    Ensures (resolveLocals scopes decls) context Failure.IsDiagnostic fun result after =>
      Resolved scopes result.2 context after decls result.1
  | [], scopes, context, _, tidy => by
      rw [resolveLocals]
      exact Ensures.pure ⟨.refl _, by simp, by simp, tidy, fun _ _ => trivial⟩
  | decl :: decls, scopes, context, isSource, tidy => by
      rw [resolveLocals]
      refine (resolveLocal_ensures (isSource decl (by simp)) tidy).bind ?_
      rintro ⟨decl', middle⟩ between head
      have restSource : ∀ other ∈ decls, other.IsSource :=
        fun other mem => isSource other (List.mem_cons_of_mem _ mem)
      refine (resolveLocals_ensures restSource head.tidy).bind ?_
      rintro ⟨decls', inside⟩ after tail
      exact Ensures.pure (head.cons tail)

end VarDecl

def Param.named (params : List Param) : List Text :=
  (params.map Param.name).filter fun name => !name.isEmpty

theorem Param.named_eq {params : List Param} (allNamed : ∀ param ∈ params, param.name ≠ []) :
    Param.named params = params.map Param.name := by
  refine List.filter_eq_self.2 ?_
  intro name mem
  rcases List.mem_map.1 mem with ⟨param, paramMem, rfl⟩
  simpa using allNamed param paramMem

/-- What the declaration of parameters leads to. -/
structure Param.Resolved (scopes inside : Scopes) (context after : Context)
    (params resolved : List Param) : Prop where
  symbols : after.symbols = context.symbols
  drawn : Text.Drawn context.nextName after.nextName (Param.named resolved)
  /-- The named parameters are visible afterwards. -/
  names : inside.names = (Param.named resolved).reverse ++ scopes.names
  tidy : inside.Tidy after.nextName
  /-- Parameters are not lost and keep their types. -/
  types : resolved.map Param.type = params.map Param.type
  /-- Nor are their names. -/
  allNamed : (∀ param ∈ params, param.name ≠ []) → ∀ param ∈ resolved, param.name ≠ []

theorem Param.resolveList_ensures : ∀ (params : List Param) {scopes : Scopes} {context : Context},
    scopes.Tidy context.nextName →
    Ensures (Param.resolveList scopes params) context Failure.IsDiagnostic fun result after =>
      Param.Resolved scopes result.2 context after params result.1
  | [], scopes, context, tidy => by
      rw [Param.resolveList]
      exact Ensures.pure ⟨rfl, .nil _, rfl, tidy, rfl, fun _ => by simp⟩
  | param :: params, scopes, context, tidy => by
      rw [Param.resolveList]
      refine Ensures.ite ?_ ?_
      · intro unnamed
        refine (Param.resolveList_ensures params tidy).bind ?_
        rintro ⟨params', inside⟩ after rest
        have same : Param.named (param :: params') = Param.named params' := by
          simp [Param.named, unnamed]
        refine Ensures.pure ⟨rest.symbols, same ▸ rest.drawn, same ▸ rest.names, rest.tidy,
          congrArg (param.type :: ·) rest.types, ?_⟩
        intro allNamed
        exact absurd (by simpa using unnamed) (allNamed param (by simp))
      · intro isNamed
        refine Ensures.ite (fun _ => Ensures.nameError fun _ => id) ?_
        intro _
        refine Ensures.bind_ok (Pass.run_uniqueName context param.name) ?_
        generalize sameName : param.name ++ "." ++ Text.ofNat context.nextName = name
        have fresh : name.IsNumbered context.nextName (context.nextName + 1) :=
          sameName ▸ Text.isNumbered_numbered param.name context.nextName
        have notEmpty : name ≠ [] := by
          rw [← sameName]
          simp [Text.ofString_dot]
        have visible : (scopes.declare param.name ⟨name, false⟩).Tidy (context.nextName + 1) :=
          (tidy.widen (Nat.le_succ _)).declare (.inr (fresh.widen (Nat.zero_le _) (Nat.le_refl _)))
        refine (Param.resolveList_ensures params visible).bind ?_
        rintro ⟨params', inside⟩ after rest
        have split :
            Param.named ({ param with name } :: params') = name :: Param.named params' := by
          simp [Param.named, notEmpty]
        refine Ensures.pure
          ⟨rest.symbols, ?_, ?_, rest.tidy, congrArg (param.type :: ·) rest.types, ?_⟩
        · rw [split]
          have drawn := (Text.Drawn.single param.name context.nextName).append rest.drawn
          rw [Text.numbered, sameName] at drawn
          exact drawn
        · rw [split, rest.names]
          simp
        · intro allNamed
          refine List.forall_mem_cons.2 ⟨notEmpty, rest.allNamed ?_⟩
          exact fun other mem => allNamed other (List.mem_cons_of_mem _ mem)

theorem FunDecl.resolve_ensures {decl : FunDecl} {scopes : Scopes} {context : Context}
    (plain : decl.name.IsPlain) (tidy : scopes.Tidy context.nextName) :
    Ensures (decl.resolve scopes) context Failure.IsDiagnostic fun result after =>
      (∃ params, result.1 = { decl with params }) ∧
        result.2.1 = scopes.declare decl.name ⟨decl.name, true⟩ ∧
        Param.Resolved result.2.1.enter result.2.2 context after decl.params result.1.params := by
  unfold FunDecl.resolve
  refine Ensures.ite (fun _ => Ensures.nameError fun _ => id) ?_
  intro _
  have visible : (scopes.declare decl.name ⟨decl.name, true⟩).enter.Tidy context.nextName :=
    tidy.declare (.inl plain)
  refine (Param.resolveList_ensures decl.params visible).bind ?_
  rintro ⟨params', inside⟩ after resolved
  exact Ensures.pure ⟨⟨params', rfl⟩, rfl, resolved⟩

theorem FunDecl.IsSource.of_resolved {decl : FunDecl} {params : List Param}
    {scopes inside : Scopes} {context after : Context} (isSource : decl.IsSource)
    (resolved : Param.Resolved scopes inside context after decl.params params) :
    ({ decl with params } : FunDecl).IsSource :=
  ⟨isSource.plain, resolved.types ▸ isSource.params, isSource.result⟩

/-- The declaration of a function in a block, which has no body there. -/
theorem FunDecl.resolution_of_resolved {decl : FunDecl} {params : List Param}
    {scopes inside : Scopes} {context after : Context}
    (resolved : Param.Resolved scopes inside context after decl.params params) :
    Resolution context after [decl.toLocal] [({ decl with params } : FunDecl).toLocal] := by
  refine ⟨resolved.symbols, ⟨resolved.drawn.le, ?_, ?_⟩, .cons ⟨rfl, rfl, fun _ => rfl⟩ .nil⟩
  · simp [Local.unlinked, FunDecl.toLocal]
  · simp [Local.unlinked, FunDecl.toLocal]

/-! ### Statements -/

theorem ForInit.resolve_ensures {init : ForInit} {scopes : Scopes} {context : Context}
    (isSource : init.IsSource) (tidy : scopes.Tidy context.nextName) :
    Ensures (init.resolve scopes) context Failure.IsDiagnostic fun result after =>
      Resolution context after init.locals result.1.locals ∧ result.1.IsSource ∧
        result.2.names = result.1.names ++ scopes.names ∧ result.2.Tidy after.nextName ∧
        ∀ known, scopes.names ⊆ known → result.1.Scoped known := by
  cases init with
  | declarations loc decls =>
      rw [ForInit.resolve]
      refine (VarDecl.resolveLocals_ensures isSource tidy).bind ?_
      rintro ⟨decls', inside⟩ after resolved
      exact Ensures.pure ⟨resolved.resolution, resolved.isSource, resolved.names, resolved.tidy,
        resolved.isScoped⟩
  | expression loc value =>
      rw [ForInit.resolve]
      refine (Expr.resolveOption_ensures value isSource).bind ?_
      rintro value' after ⟨rfl, valueSource, renames⟩
      exact Ensures.pure ⟨.refl _, valueSource, rfl, tidy,
        fun known subset => renames.within subset⟩

mutual

/-- A resolved statement mentions only visible names and those it declares. -/
theorem Stmt.resolve_ensures : ∀ (stmt : Stmt) {scopes : Scopes} {context : Context},
    stmt.IsSource → scopes.Tidy context.nextName →
    Ensures (stmt.resolve scopes) context Failure.IsDiagnostic fun resolved after =>
      Resolution context after stmt.locals resolved.locals ∧ resolved.IsSource ∧
        ∀ known, scopes.names ⊆ known → resolved.Scoped known
  | .ret _ value, scopes, context, isSource, tidy => by
      rw [Stmt.resolve]
      refine (Expr.resolveOption_ensures value isSource).bind ?_
      rintro value' after ⟨rfl, valueSource, renames⟩
      exact Ensures.pure ⟨.refl _, valueSource, fun known subset => renames.within subset⟩
  | .expr _ value, scopes, context, isSource, tidy => by
      rw [Stmt.resolve]
      refine (Expr.resolve_ensures value isSource).bind ?_
      rintro value' after ⟨rfl, valueSource, renames⟩
      exact Ensures.pure ⟨.refl _, valueSource, fun known subset => renames.within subset⟩
  | .ifThen _ condition body, scopes, context, isSource, tidy
  | .whileLoop _ _ condition body, scopes, context, isSource, tidy
  | .switch _ _ condition body _, scopes, context, isSource, tidy
  | .case _ _ condition body, scopes, context, isSource, tidy => by
      rw [Stmt.resolve]
      refine (Expr.resolve_ensures condition isSource.1).bind ?_
      rintro condition' after ⟨rfl, conditionSource, renames⟩
      refine (Stmt.resolve_ensures body isSource.2 tidy).bind ?_
      rintro body' after ⟨resolution, bodySource, scoped'⟩
      exact Ensures.pure ⟨resolution, ⟨conditionSource, bodySource⟩,
        fun known subset => ⟨renames.within subset, scoped' known subset⟩⟩
  | .ifElse _ condition thenBranch elseBranch, scopes, context, isSource, tidy => by
      rw [Stmt.resolve]
      refine (Expr.resolve_ensures condition isSource.1).bind ?_
      rintro condition' after ⟨rfl, conditionSource, renames⟩
      refine (Stmt.resolve_ensures thenBranch isSource.2.1 tidy).bind ?_
      rintro thenBranch' between ⟨thenResolution, thenSource, thenScoped⟩
      have later := tidy.widen thenResolution.drawn.le
      refine (Stmt.resolve_ensures elseBranch isSource.2.2 later).bind ?_
      rintro elseBranch' after ⟨elseResolution, elseSource, elseScoped⟩
      exact Ensures.pure ⟨thenResolution.append elseResolution,
        ⟨conditionSource, thenSource, elseSource⟩, fun known subset =>
          ⟨renames.within subset, thenScoped known subset, elseScoped known subset⟩⟩
  | .block _ items, scopes, context, isSource, tidy => by
      rw [Stmt.resolve]
      have inside : scopes.enter.Tidy context.nextName := tidy
      refine (Item.resolveList_ensures items isSource inside).bind ?_
      rintro items' after ⟨resolution, itemsSource, scoped'⟩
      exact Ensures.pure ⟨resolution, itemsSource, scoped'⟩
  | .doWhile _ _ body condition, scopes, context, isSource, tidy => by
      rw [Stmt.resolve]
      refine (Stmt.resolve_ensures body isSource.2 tidy).bind ?_
      rintro body' between ⟨resolution, bodySource, scoped'⟩
      refine (Expr.resolve_ensures condition isSource.1).bind ?_
      rintro condition' after ⟨rfl, conditionSource, renames⟩
      exact Ensures.pure ⟨resolution, ⟨conditionSource, bodySource⟩,
        fun known subset => ⟨renames.within subset, scoped' known subset⟩⟩
  | .forLoop _ _ init condition post body, scopes, context, isSource, tidy => by
      rw [Stmt.resolve]
      have entered : scopes.enter.Tidy context.nextName := tidy
      refine (ForInit.resolve_ensures isSource.1 entered).bind ?_
      rintro ⟨init', inside⟩ between ⟨initResolution, initSource, names, insideTidy, initScoped⟩
      refine (Expr.resolveOption_ensures condition isSource.2.1).bind ?_
      rintro condition' after ⟨rfl, conditionSource, conditionRenames⟩
      refine (Expr.resolveOption_ensures post isSource.2.2.1).bind ?_
      rintro post' after ⟨rfl, postSource, postRenames⟩
      refine (Stmt.resolve_ensures body isSource.2.2.2 insideTidy).bind ?_
      rintro body' after ⟨bodyResolution, bodySource, bodyScoped⟩
      refine Ensures.pure ⟨initResolution.append bodyResolution,
        ⟨initSource, conditionSource, postSource, bodySource⟩, ?_⟩
      intro known subset
      -- The first clause declares names for the other parts of the loop.
      have insideSubset : inside.names ⊆ init'.names ++ known := by
        rw [names]
        exact List.append_subset.2
          ⟨List.subset_append_left _ _, List.Subset.trans subset (List.subset_append_right _ _)⟩
      exact ⟨initScoped known subset, conditionRenames.within insideSubset,
        postRenames.within insideSubset, bodyScoped _ insideSubset⟩
  | .default _ _ body, scopes, context, isSource, tidy => by
      rw [Stmt.resolve]
      refine (Stmt.resolve_ensures body isSource tidy).bind ?_
      rintro body' after ⟨resolution, bodySource, scoped'⟩
      exact Ensures.pure ⟨resolution, bodySource, scoped'⟩
  | .break _ _, scopes, context, isSource, tidy
  | .continue _ _, scopes, context, isSource, tidy
  | .null _, scopes, context, isSource, tidy => by
      rw [Stmt.resolve]
      exact Ensures.pure ⟨.refl _, trivial, fun _ _ => trivial⟩

theorem Item.resolveList_ensures : ∀ (items : List Item) {scopes : Scopes} {context : Context},
    Item.IsSourceList items → scopes.Tidy context.nextName →
    Ensures (Item.resolveList scopes items) context Failure.IsDiagnostic fun resolved after =>
      Resolution context after (Item.localsList items) (Item.localsList resolved) ∧
        Item.IsSourceList resolved ∧
        ∀ known, scopes.names ⊆ known → Item.ScopedList known resolved
  | [], scopes, context, _, _ => by
      rw [Item.resolveList]
      exact Ensures.pure ⟨.refl _, trivial, fun _ _ => trivial⟩
  | .stmt stmt :: items, scopes, context, isSource, tidy => by
      rw [Item.resolveList]
      refine (Stmt.resolve_ensures stmt isSource.1 tidy).bind ?_
      rintro stmt' between ⟨stmtResolution, stmtSource, stmtScoped⟩
      have later := tidy.widen stmtResolution.drawn.le
      refine (Item.resolveList_ensures items isSource.2 later).bind ?_
      rintro items' after ⟨resolution, itemsSource, scoped'⟩
      exact Ensures.pure ⟨stmtResolution.append resolution, ⟨stmtSource, itemsSource⟩,
        fun known subset => ⟨stmtScoped known subset, scoped' known subset⟩⟩
  | .decl (.object decl) :: items, scopes, context, isSource, tidy => by
      rw [Item.resolveList]
      simp only [Decl.resolve, Bool.false_eq_true, if_false, bind_assoc, pure_bind]
      refine (VarDecl.resolveLocal_ensures isSource.1 tidy).bind ?_
      rintro ⟨decl', inside⟩ between resolved
      refine (Item.resolveList_ensures items isSource.2 resolved.tidy).bind ?_
      rintro items' after ⟨resolution, itemsSource, scoped'⟩
      refine Ensures.pure ⟨resolved.resolution.append resolution,
        ⟨resolved.isSource decl' (by simp), itemsSource⟩, ?_⟩
      intro known subset
      refine ⟨(resolved.isScoped known subset).1, scoped' _ ?_⟩
      rw [resolved.names]
      exact List.cons_subset_cons _ subset
  | .decl (.function decl) :: items, scopes, context, isSource, tidy => by
      rw [Item.resolveList]
      simp only [Decl.resolve, bind_assoc, pure_bind]
      refine (FunDecl.resolve_ensures isSource.1.plain tidy).bind ?_
      rintro ⟨decl', middle, inside⟩ between ⟨⟨params, rfl⟩, rfl, resolved⟩
      have visible : (scopes.declare decl.name ⟨decl.name, true⟩).Tidy between.nextName :=
        (tidy.widen resolved.drawn.le).declare (.inl isSource.1.plain)
      refine (Item.resolveList_ensures items isSource.2 visible).bind ?_
      rintro items' after ⟨resolution, itemsSource, scoped'⟩
      refine Ensures.pure ⟨(FunDecl.resolution_of_resolved resolved).append resolution,
        ⟨FunDecl.IsSource.of_resolved isSource.1 resolved, itemsSource⟩, ?_⟩
      exact fun known subset => scoped' _ (List.cons_subset_cons _ subset)
  | .decl (.definition decl bodyLoc body) :: items, scopes, context, isSource, tidy => by
      rw [Item.resolveList]
      simp only [Decl.resolve, bind_assoc, pure_bind]
      refine (FunDecl.resolve_ensures isSource.1.1.plain tidy).bind ?_
      rintro ⟨decl', middle, inside⟩ between ⟨⟨params, rfl⟩, rfl, resolved⟩
      refine (Item.resolveList_ensures body isSource.1.2.2 resolved.tidy).bind ?_
      rintro body' later ⟨bodyResolution, bodySource, _⟩
      have visible : (scopes.declare decl.name ⟨decl.name, true⟩).Tidy later.nextName :=
        (tidy.widen (Nat.le_trans resolved.drawn.le bodyResolution.drawn.le)).declare
          (.inl isSource.1.1.plain)
      refine (Item.resolveList_ensures items isSource.2 visible).bind ?_
      rintro items' after ⟨resolution, itemsSource, scoped'⟩
      refine Ensures.pure ⟨⟨?_, ⟨?_, resolution.drawn.nodup, ?_⟩, resolution.keeps⟩,
        ⟨⟨isSource.1.1.of_resolved resolved, resolved.allNamed isSource.1.2.1, bodySource⟩,
          itemsSource⟩, fun _ _ => trivial⟩
      · rw [resolution.symbols, bodyResolution.symbols, resolved.symbols]
      · exact Nat.le_trans resolved.drawn.le
          (Nat.le_trans bodyResolution.drawn.le resolution.drawn.le)
      · intro name mem
        exact (resolution.drawn.isNumbered name mem).widen
          (Nat.le_trans resolved.drawn.le bodyResolution.drawn.le) (Nat.le_refl _)

end

/-! ### Compilation units -/

theorem Param.keeps_of_length : ∀ {params resolved : List Param}, resolved.length = params.length →
    List.Forall₂ Local.Keeps (params.map Param.toLocal) (resolved.map Param.toLocal)
  | [], [], _ => .nil
  | _ :: _, _ :: _, same =>
      .cons ⟨rfl, rfl, fun linkage => nomatch linkage⟩ (Param.keeps_of_length (Nat.succ.inj same))
  | [], _ :: _, same | _ :: _, [], same => nomatch same

/-- The parameters of a definition, all of which are named. -/
theorem Param.Resolved.resolution {scopes inside : Scopes} {context after : Context}
    {params resolved : List Param}
    (drawn : Param.Resolved scopes inside context after params resolved)
    (allNamed : ∀ param ∈ params, param.name ≠ []) :
    Resolution context after (params.map Param.toLocal) (resolved.map Param.toLocal) := by
  have sameLength : resolved.length = params.length := by
    simpa using congrArg List.length drawn.types
  refine ⟨drawn.symbols, ?_, Param.keeps_of_length sameLength⟩
  have names : Local.unlinked (resolved.map Param.toLocal) = Param.named resolved := by
    rw [Param.named_eq (drawn.allNamed allNamed)]
    have all : (resolved.map Param.toLocal).filter (fun decl => !decl.hasLinkage) =
        resolved.map Param.toLocal := by
      refine List.filter_eq_self.2 ?_
      intro decl mem
      rcases List.mem_map.1 mem with ⟨param, _, rfl⟩
      rfl
    simp only [Local.unlinked, all, List.map_map]
    rfl
  rw [names]
  exact drawn.drawn

/-- A declaration with linkage at file scope. -/
theorem Resolution.linked {context after : Context} {locals resolved : List Local}
    (rest : Resolution context after locals resolved) (decl : Local)
    (hasLinkage : decl.hasLinkage = true) :
    Resolution context after (decl :: locals) (decl :: resolved) := by
  refine ⟨rest.symbols, ?_, .cons ⟨rfl, rfl, fun _ => rfl⟩ rest.keeps⟩
  simpa [Local.unlinked, hasLinkage] using rest.drawn

namespace Program

/-- A resolved compilation unit mentions only names that are declared before, declares what the
source declares, and initializes an object with itself exactly if the source does. -/
theorem resolveFrom_ensures : ∀ (program : Program) {scopes : Scopes} {context : Context},
    program.IsSource → scopes.IsFile → scopes.Tidy context.nextName →
    Ensures (resolveFrom scopes program) context Failure.IsDiagnostic fun resolved after =>
      Resolution context after program.locals resolved.locals ∧ resolved.IsSource ∧
        ∀ known, (scopes.names ⊆ known → resolved.Scoped known) ∧
          resolved.selfInitializesAfter known = program.selfInitializesAfter known
  | [], scopes, context, _, _, _ => by
      rw [resolveFrom]
      exact Ensures.pure ⟨.refl _, by simp [IsSource], fun _ => ⟨fun _ => trivial, rfl⟩⟩
  | .object decl :: decls, scopes, context, isSource, isFile, tidy => by
      rcases List.forall_mem_cons.1 isSource with ⟨⟨declSource, plain⟩, declsSource⟩
      rw [resolveFrom]
      simp only [Decl.resolve, if_true, VarDecl.resolveFile, bind_assoc, pure_bind]
      refine (VarDecl.resolveInit_ensures declSource.init).bind ?_
      rintro decl' between ⟨rfl, ⟨init, rfl⟩, initSource, renames⟩
      -- At file scope all names have linkage, so resolving the initializer changes none.
      have same : VarDecl.mentioned { decl with init } = decl.mentioned := by
        rw [renames.renamed, List.map_congr_left fun name _ => (isFile.declare _).rename_eq name]
        exact List.map_id _
      refine (resolveFrom_ensures decls declsSource (isFile.declare _)
        (tidy.declare (.inl plain))).bind ?_
      rintro decls' after ⟨resolution, restSource, rest⟩
      refine Ensures.pure ⟨resolution.linked _ rfl, ?_, ?_⟩
      · exact List.forall_mem_cons.2
          ⟨⟨⟨fun _ => plain, initSource, declSource.notFunction⟩, plain⟩, restSource⟩
      · intro known
        refine ⟨?_, ?_⟩
        · intro subset
          exact ⟨renames.within (List.cons_subset_cons _ subset),
            (rest _).1 (List.cons_subset_cons _ subset)⟩
        · simp only [selfInitializesAfter, same, (rest _).2]
  | .function decl :: decls, scopes, context, isSource, isFile, tidy => by
      rcases List.forall_mem_cons.1 isSource with ⟨⟨declSource, plain⟩, declsSource⟩
      rw [resolveFrom]
      simp only [Decl.resolve, bind_assoc, pure_bind]
      refine (FunDecl.resolve_ensures plain tidy).bind ?_
      rintro ⟨decl', middle, inside⟩ between ⟨⟨params, rfl⟩, rfl, resolved⟩
      have visible : (scopes.declare decl.name ⟨decl.name, true⟩).Tidy between.nextName :=
        (tidy.widen resolved.drawn.le).declare (.inl plain)
      refine (resolveFrom_ensures decls declsSource (isFile.declare _) visible).bind ?_
      rintro decls' after ⟨resolution, restSource, rest⟩
      refine Ensures.pure ⟨(FunDecl.resolution_of_resolved resolved).append resolution,
        List.forall_mem_cons.2
          ⟨⟨FunDecl.IsSource.of_resolved declSource resolved, plain⟩, restSource⟩, ?_⟩
      intro known
      refine ⟨fun subset => (rest _).1 (List.cons_subset_cons _ subset), ?_⟩
      simp only [selfInitializesAfter, (rest _).2]
  | .definition decl bodyLoc body :: decls, scopes, context, isSource, isFile, tidy => by
      rcases List.forall_mem_cons.1 isSource with ⟨⟨declSource, plain⟩, declsSource⟩
      rw [resolveFrom]
      simp only [Decl.resolve, bind_assoc, pure_bind]
      refine (FunDecl.resolve_ensures plain tidy).bind ?_
      rintro ⟨decl', middle, inside⟩ between ⟨⟨params, rfl⟩, rfl, resolved⟩
      refine (Item.resolveList_ensures body declSource.2.2 resolved.tidy).bind ?_
      rintro body' later ⟨bodyResolution, bodySource, bodyScoped⟩
      have visible : (scopes.declare decl.name ⟨decl.name, true⟩).Tidy later.nextName :=
        (tidy.widen (Nat.le_trans resolved.drawn.le bodyResolution.drawn.le)).declare (.inl plain)
      refine (resolveFrom_ensures decls declsSource (isFile.declare _) visible).bind ?_
      rintro decls' after ⟨resolution, restSource, rest⟩
      have allNamed := resolved.allNamed declSource.2.1
      have inner := (resolved.resolution declSource.2.1).append bodyResolution
      have own := inner.linked decl.toLocal rfl
      refine Ensures.pure ⟨own.append resolution, ?_, ?_⟩
      · exact List.forall_mem_cons.2
          ⟨⟨⟨declSource.1.of_resolved resolved, allNamed, bodySource⟩, plain⟩, restSource⟩
      · intro known
        refine ⟨?_, ?_⟩
        · intro subset
          refine ⟨bodyScoped _ ?_, (rest _).1 (List.cons_subset_cons _ subset)⟩
          rw [resolved.names, Param.named_eq allNamed]
          refine List.append_subset.2 ⟨?_, ?_⟩
          · exact List.Subset.trans (List.reverse_subset.2 (List.Subset.refl _))
              (List.subset_append_left _ _)
          · exact List.Subset.trans (List.cons_subset_cons _ subset)
              (List.subset_append_right _ _)
        · simp only [selfInitializesAfter, (rest _).2,
            Local.anyCircular_eq_of_keeps bodyResolution.keeps,
            Local.linked_eq_of_keeps bodyResolution.keeps]

theorem resolve_ensures {program : Program} {context : Context} (isSource : program.IsSource) :
    Ensures program.resolve context Failure.IsDiagnostic fun resolved after =>
      Resolution context after program.locals resolved.locals ∧ resolved.IsSource ∧
        resolved.Scoped [] ∧ resolved.selfInitializes = program.selfInitializes := by
  have isFile : Scopes.file.IsFile := fun name binding found => nomatch found
  have tidy : Scopes.file.Tidy context.nextName := fun name mem => nomatch mem
  refine (resolveFrom_ensures program isSource isFile tidy).mono ?_
  rintro resolved after ⟨resolution, resolvedSource, rest⟩
  exact ⟨resolution, resolvedSource, (rest []).1 (List.nil_subset _), (rest []).2⟩

end Program

end SubsetC
