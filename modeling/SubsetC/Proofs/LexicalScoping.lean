import SubsetC.Proofs.Visibility
import SubsetC.Proofs.Parsing

/-!
# Lexical scoping

Resolution obeys the scoping rules of blocks. The events of a tree say where it opens and closes
scopes, declares names and uses them: the parameters of a function and its body are one scope, a
for statement opens one around its header and its body, and an object is declared before its
initializer. `Program.resolve_lexically` says that a parsed source is resolved exactly if its events
are well scoped, and that the events of the resolved tree are those of the source with internal
names.

The proof follows the recursion of trees. `Pass.Follows` says of a pass that it fails where a walk
through the events of a tree stops, and otherwise draws the same numbers and leaves a tree with the
events that the walk writes.
-/

namespace SubsetC

/-! ### Events of trees -/

namespace Event

/-- The names are used one after the other. -/
def uses (names : List Text) : List Event := names.map Event.use

@[simp]
theorem uses_cons (name : Text) (names : List Text) :
    uses (name :: names) = .use name :: uses names := rfl

@[simp]
theorem uses_append (first second : List Text) :
    uses (first ++ second) = uses first ++ uses second := List.map_append

end Event

/-- An object is declared, and then visible in its own initializer. -/
def VarDecl.events (hasLinkage : Bool) (decl : VarDecl) : List Event :=
  .declare decl.name hasLinkage :: Event.uses decl.mentioned

/-- The events of an object in a block, which has linkage if it is external. -/
def VarDecl.localEvents (decl : VarDecl) : List Event :=
  decl.events (decl.storageClass = some .external)

/-- The parameters that have a name are declared. -/
def Param.events (params : List Param) : List Event :=
  (Param.named params).map fun name => .declare name false

/-- A function is declared, and its parameters in a scope that lasts until the end of its body. -/
def FunDecl.events (decl : FunDecl) (body : List Event) : List Event :=
  .declare decl.name true :: .enter :: (Param.events decl.params ++ (body ++ [.leave]))

/-- The events of the first clause of a for statement. -/
def ForInit.events : ForInit → List Event
  | .declarations _ decls => decls.flatMap VarDecl.localEvents
  | .expression _ value => Event.uses (Expr.mentionedOption value)

mutual

/-- The events of a statement. -/
def Stmt.events : Stmt → List Event
  | .ret _ value => Event.uses (Expr.mentionedOption value)
  | .expr _ value => Event.uses value.mentioned
  | .ifThen _ condition body | .whileLoop _ _ condition body | .switch _ _ condition body _
  | .case _ _ condition body => Event.uses condition.mentioned ++ body.events
  | .ifElse _ condition thenBranch elseBranch =>
      Event.uses condition.mentioned ++ (thenBranch.events ++ elseBranch.events)
  | .block _ items => .enter :: (Item.eventsList items ++ [.leave])
  | .doWhile _ _ body condition => body.events ++ Event.uses condition.mentioned
  | .forLoop _ _ init condition post body =>
      .enter :: (init.events ++ (Event.uses (Expr.mentionedOption condition) ++
        (Event.uses (Expr.mentionedOption post) ++ (body.events ++ [.leave]))))
  | .default _ _ body => body.events
  | .break _ _ | .continue _ _ | .null _ => []

/-- The events of a declaration. At file scope all names have linkage. -/
def Decl.events (isFile : Bool) : Decl → List Event
  | .object decl => if isFile then decl.events true else decl.localEvents
  | .function decl => decl.events []
  | .definition decl _ body => decl.events (Item.eventsList body)

def Item.eventsList : List Item → List Event
  | [] => []
  | .stmt stmt :: items => stmt.events ++ Item.eventsList items
  | .decl decl :: items => decl.events false ++ Item.eventsList items

end

/-- The events of a compilation unit. -/
def Program.events (program : Program) : List Event := program.flatMap (Decl.events true)

/-! ### Passes along events -/

/-- The shared state while a walk is on its way. -/
def Walk.context (base : Context) (walk : Walk) : Context := { base with nextName := walk.next }

namespace Pass

variable {α β : Type}

/-- A pass fails if a walk through the events stops, and otherwise has a result as wanted, where the
walk ends. -/
def Follows (action : Pass α) (base : Context) (walk : Walk) (events : List Event)
    (wanted : α → Walk → Prop) : Prop :=
  match walk.run? events with
  | none => ∃ failure, action.run (walk.context base) = .error failure
  | some final => ∃ result, action.run (walk.context base) = .ok (result, final.context base) ∧
      wanted result final

namespace Follows

variable {action : Pass α} {next : α → Pass β} {base : Context} {walk : Walk}
  {events first second : List Event} {event : Event} {wanted middle : α → Walk → Prop}
  {final : β → Walk → Prop}

theorem pure {result : α} (holds : wanted result walk) :
    Follows (Pure.pure result) base walk [] wanted := ⟨result, rfl, holds⟩

theorem mono {wanted' : α → Walk → Prop} (follows : Follows action base walk events wanted)
    (weaken : ∀ result later, wanted result later → wanted' result later) :
    Follows action base walk events wanted' := by
  unfold Follows at follows ⊢
  split at follows
  · exact follows
  · rcases follows with ⟨result, succeeds, holds⟩
    exact ⟨result, succeeds, weaken result _ holds⟩

theorem bind (head : Follows action base walk first middle)
    (rest : ∀ result later, middle result later → Follows (next result) base later second final) :
    Follows (action >>= next) base walk (first ++ second) final := by
  unfold Follows at head ⊢
  rw [Walk.run?_append]
  cases runs : walk.run? first with
  | none =>
      simp only [runs] at head
      rcases head with ⟨failure, fails⟩
      exact ⟨failure, by rw [StateT.run_bind, fails]; rfl⟩
  | some later =>
      simp only [runs] at head
      rcases head with ⟨result, succeeds, holds⟩
      rw [StateT.run_bind, succeeds]
      exact rest result later holds

/-- The last action of a pass meets no event of its own. -/
theorem bind_pure {finish : α → β} (follows : Follows action base walk events middle)
    (finishes : ∀ result later, middle result later → final (finish result) later) :
    Follows (action >>= fun result => Pure.pure (finish result)) base walk events final := by
  rw [← List.append_nil events]
  exact follows.bind fun result later holds => .pure (finishes result later holds)

/-- A walk that stops at an event is followed by a pass that fails. -/
theorem of_none (stops : walk.step? event = none)
    (fails : ∃ failure, action.run (walk.context base) = .error failure) :
    Follows action base walk (event :: events) wanted := by
  unfold Follows
  rw [Walk.run?, List.foldlM_cons, stops]
  exact fails

/-- A walk that goes on is followed by a pass that does so. -/
theorem of_some {later : Walk} {rest : Pass α} (steps : walk.step? event = some later)
    (follows : Follows rest base later events wanted)
    (same : action.run (walk.context base) = rest.run (later.context base)) :
    Follows action base walk (event :: events) wanted := by
  unfold Follows at follows ⊢
  rw [Walk.run?, List.foldlM_cons, steps, same]
  exact follows

theorem enter (follows : Follows action base (walk.add walk.scopes.enter .enter) events wanted) :
    Follows action base walk (.enter :: events) wanted :=
  of_some rfl follows rfl

theorem leave (follows : Follows action base (walk.add walk.scopes.leave .leave) events wanted) :
    Follows action base walk (.leave :: events) wanted :=
  of_some rfl follows rfl

theorem refuse {name : Text} {hasLinkage : Bool} (refuses : walk.admits name hasLinkage = false)
    (fails : ∃ failure, action.run (walk.context base) = .error failure) :
    Follows action base walk (.declare name hasLinkage :: events) wanted :=
  of_none (by simp [Walk.step?, refuses]) fails

theorem link {name : Text} (admits : walk.admits name true)
    (follows : Follows action base (walk.declare name true) events wanted) :
    Follows action base walk (.declare name true :: events) wanted :=
  of_some (by simp [Walk.step?, admits]) follows rfl

/-- A fresh name is drawn where a name without linkage is declared. -/
theorem draw {name : Text} {next : Text → Pass α} (admits : walk.admits name false)
    (follows : Follows (next (name.numbered walk.next)) base (walk.declare name false) events
      wanted) :
    Follows (Pass.uniqueName name >>= next) base walk (.declare name false :: events) wanted :=
  of_some (by simp [Walk.step?, admits]) follows rfl

end Follows

end Pass

/-- A walk has written the events and is in the scopes. -/
structure Walk.Writes (walk : Walk) (scopes : Scopes) (events : List Event) (later : Walk) :
    Prop where
  /-- The scopes that are reached. -/
  scopes : later.scopes = scopes
  /-- The events with internal names. -/
  resolved : later.resolved = walk.resolved ++ events

namespace Walk.Writes

variable {walk middle later : Walk} {scopes inside : Scopes} {first second : List Event}

theorem nil (same : walk.scopes = scopes) : walk.Writes scopes [] walk := ⟨same, by simp⟩

theorem append (head : walk.Writes scopes first middle) (tail : middle.Writes inside second later) :
    walk.Writes inside (first ++ second) later :=
  ⟨tail.scopes, by rw [tail.resolved, head.resolved, List.append_assoc]⟩

end Walk.Writes

/-! ### Expressions -/

namespace Expr

variable {base : Context}

theorem follows_of_find? {α : Type} {scopes : Scopes} {walk : Walk} (inside : walk.scopes = scopes)
    {name : Text} {events : List Event} {wanted : α → Walk → Prop} {error : Pass α}
    {next : Binding → Pass α} (fails : ∀ context, ∃ failure, error.run context = .error failure)
    (follows : ∀ binding, Pass.Follows (next binding) base
      (walk.add scopes (.use binding.name)) events wanted) :
    Pass.Follows
      (match scopes.find? name with
        | some binding => next binding
        | none => error) base walk (.use name :: events) wanted := by
  subst inside
  cases found : walk.scopes.find? name with
  | none => exact .of_none (by simp [Walk.step?, found]) (fails _)
  | some binding => exact .of_some (by simp [Walk.step?, found]) (follows binding) rfl

mutual

theorem resolve_follows : ∀ (expr : Expr) {scopes : Scopes} {walk : Walk}, expr.IsSource →
    walk.scopes = scopes →
    Pass.Follows (expr.resolve scopes) base walk (Event.uses expr.mentioned) fun resolved later =>
      walk.Writes scopes (Event.uses resolved.mentioned) later
  | .constant _ _, scopes, walk, _, inside | .string _ _, scopes, walk, _, inside
  | .sizeofType _ _, scopes, walk, _, inside => by
      rw [resolve]
      exact .pure (.nil inside)
  | .var _ name, scopes, walk, isSource, inside => by
      rw [resolve]
      refine follows_of_find? inside (fun context => ⟨_, rfl⟩) fun binding => .pure ⟨rfl, rfl⟩
  | .unary _ _ operand, scopes, walk, isSource, inside
  | .cast _ _ operand _, scopes, walk, isSource, inside
  | .addressOf _ operand, scopes, walk, isSource, inside
  | .dereference _ operand, scopes, walk, isSource, inside
  | .step _ _ _ operand, scopes, walk, isSource, inside
  | .sizeofExpr _ operand, scopes, walk, isSource, inside => by
      rw [resolve]
      exact (resolve_follows operand isSource.2 inside).bind_pure fun _ _ writes => writes
  | .binary _ _ left right, scopes, walk, isSource, inside
  | .assign _ _ left right _, scopes, walk, isSource, inside
  | .subscript _ left right, scopes, walk, isSource, inside => by
      rw [resolve, mentioned, Event.uses_append]
      refine (resolve_follows left isSource.2.1 inside).bind ?_
      intro left' middle leftWrites
      refine (resolve_follows right isSource.2.2 leftWrites.scopes).bind_pure ?_
      intro right' later rightWrites
      rw [mentioned, Event.uses_append]
      exact leftWrites.append rightWrites
  | .conditional _ condition thenBranch elseBranch, scopes, walk, isSource, inside => by
      rw [resolve, mentioned, Event.uses_append, Event.uses_append]
      refine (resolve_follows condition isSource.2.1 inside).bind ?_
      intro condition' first conditionWrites
      refine (resolve_follows thenBranch isSource.2.2.1 conditionWrites.scopes).bind ?_
      intro thenBranch' second thenWrites
      refine (resolve_follows elseBranch isSource.2.2.2 thenWrites.scopes).bind_pure ?_
      intro elseBranch' later elseWrites
      rw [mentioned, Event.uses_append, Event.uses_append]
      exact conditionWrites.append (thenWrites.append elseWrites)
  | .call _ name arguments, scopes, walk, isSource, inside => by
      rw [resolve]
      refine follows_of_find? inside (fun context => ⟨_, rfl⟩) fun binding => ?_
      refine (resolveList_follows arguments isSource.2 rfl).bind_pure ?_
      intro arguments' later writes
      exact ⟨writes.scopes, by simpa [mentioned, Walk.add] using writes.resolved⟩
  | .decay _ _, scopes, walk, isSource, inside => isSource.elim

theorem resolveList_follows : ∀ (exprs : List Expr) {scopes : Scopes} {walk : Walk},
    IsSourceList exprs → walk.scopes = scopes →
    Pass.Follows (resolveList scopes exprs) base walk (Event.uses (mentionedList exprs))
      fun resolved later => walk.Writes scopes (Event.uses (mentionedList resolved)) later
  | [], scopes, walk, _, inside => by
      rw [resolveList]
      exact .pure (.nil inside)
  | expr :: exprs, scopes, walk, areSource, inside => by
      rw [resolveList, mentionedList, Event.uses_append]
      refine (resolve_follows expr areSource.1 inside).bind ?_
      intro expr' middle writes
      refine (resolveList_follows exprs areSource.2 writes.scopes).bind_pure ?_
      intro exprs' later restWrites
      rw [mentionedList, Event.uses_append]
      exact writes.append restWrites

end

theorem resolveOption_follows (value : Option Expr) {scopes : Scopes} {walk : Walk}
    (isSource : ∀ expr ∈ value, expr.IsSource) (inside : walk.scopes = scopes) :
    Pass.Follows (resolveOption scopes value) base walk (Event.uses (mentionedOption value))
      fun resolved later => walk.Writes scopes (Event.uses (mentionedOption resolved)) later := by
  cases value with
  | none => exact .pure (.nil inside)
  | some expr => exact (resolve_follows expr (isSource expr rfl) inside).bind_pure fun _ _ => id

end Expr

namespace Initializer

variable {base : Context}

mutual

theorem resolve_follows : ∀ (init : Initializer) {scopes : Scopes} {walk : Walk}, init.IsSource →
    walk.scopes = scopes →
    Pass.Follows (init.resolve scopes) base walk (Event.uses init.mentioned) fun resolved later =>
      walk.Writes scopes (Event.uses resolved.mentioned) later
  | .single _ value, scopes, walk, isSource, inside => by
      rw [resolve]
      exact (Expr.resolve_follows value isSource inside).bind_pure fun _ _ => id
  | .compound _ items, scopes, walk, areSource, inside => by
      rw [resolve]
      exact (resolveList_follows items areSource inside).bind_pure fun _ _ => id

theorem resolveList_follows : ∀ (items : List Initializer) {scopes : Scopes} {walk : Walk},
    IsSourceList items → walk.scopes = scopes →
    Pass.Follows (resolveList scopes items) base walk (Event.uses (mentionedList items))
      fun resolved later => walk.Writes scopes (Event.uses (mentionedList resolved)) later
  | [], scopes, walk, _, inside => by
      rw [resolveList]
      exact .pure (.nil inside)
  | item :: items, scopes, walk, areSource, inside => by
      rw [resolveList, mentionedList, Event.uses_append]
      refine (resolve_follows item areSource.1 inside).bind ?_
      intro item' middle writes
      refine (resolveList_follows items areSource.2 writes.scopes).bind_pure ?_
      intro items' later restWrites
      rw [mentionedList, Event.uses_append]
      exact writes.append restWrites

end

end Initializer

/-! ### Declarations -/

namespace Scopes

/-- All names of the innermost scope have linkage, as at file scope. -/
def AllLinked (scopes : Scopes) : Prop :=
  ∀ name binding, scopes.local? name = some binding → binding.hasLinkage

theorem AllLinked.declare {scopes : Scopes} (linked : scopes.AllLinked) (name internal : Text) :
    (scopes.declare name ⟨internal, true⟩).AllLinked := by
  intro other binding found
  rw [local?_declare] at found
  split at found
  · cases found
    rfl
  · exact linked other binding found

theorem AllLinked.admits {walk : Walk} (linked : walk.scopes.AllLinked) (name : Text) :
    walk.admits name true := by
  simpa [Walk.admits, Option.all_eq_true] using linked name

end Scopes

namespace VarDecl

variable {base : Context} {scopes : Scopes} {walk : Walk}

theorem resolveInit_follows {decl : VarDecl} (isSource : ∀ init ∈ decl.init, init.IsSource)
    (inside : walk.scopes = scopes) :
    Pass.Follows (decl.resolveInit scopes) base walk (Event.uses decl.mentioned)
      fun resolved later => (∃ init, resolved = { decl with init }) ∧
        walk.Writes scopes (Event.uses resolved.mentioned) later := by
  unfold resolveInit
  cases shape : decl.init with
  | none =>
      rw [mentioned, shape]
      refine .pure ⟨⟨none, by rw [← shape]⟩, ?_⟩
      rw [mentioned, shape]
      exact .nil inside
  | some init =>
      rw [mentioned, shape]
      refine (Initializer.resolve_follows init (isSource init shape) inside).bind_pure ?_
      intro init' later writes
      exact ⟨⟨some init', rfl⟩, writes⟩

theorem checkRedeclaration_of_admits {decl : VarDecl}
    (admits : walk.admits decl.name (decl.storageClass = some .external)) :
    decl.checkRedeclaration walk.scopes = pure () := by
  unfold checkRedeclaration
  cases found : walk.scopes.local? decl.name with
  | none => rfl
  | some previous =>
      simp only [Walk.admits, found, Option.all_some, Bool.and_eq_true] at admits
      simp [admits.1, admits.2]

theorem checkRedeclaration_fails {decl : VarDecl}
    (admits : walk.admits decl.name (decl.storageClass = some .external) = false)
    (context : Context) :
    ∃ failure, (decl.checkRedeclaration walk.scopes).run context = .error failure := by
  unfold checkRedeclaration
  cases found : walk.scopes.local? decl.name with
  | none => simp [Walk.admits, found] at admits
  | some previous =>
      simp only [Walk.admits, found, Option.all_some] at admits
      dsimp only
      split
      · exact ⟨_, rfl⟩
      · split
        · exact ⟨_, rfl⟩
        · simp_all

/-- What is left to do once the name of an object is bound: its initializer, in which it is
visible. -/
theorem resolveInit_follows_declare {decl : VarDecl} {internal : Text} {hasLinkage : Bool}
    {binding : Binding} {later : Walk} (isSource : ∀ init ∈ decl.init, init.IsSource)
    (declares : walk.Writes (walk.scopes.declare decl.name binding) [.declare internal hasLinkage]
      later) :
    Pass.Follows
      (do
        let resolved ← ({ decl with name := internal } : VarDecl).resolveInit
          (walk.scopes.declare decl.name binding)
        pure (resolved, walk.scopes.declare decl.name binding))
      base later (Event.uses decl.mentioned) fun result final =>
        result.2 = walk.scopes.declare decl.name binding ∧
          result.1.storageClass = decl.storageClass ∧
          walk.Writes result.2 (result.1.events hasLinkage) final := by
  have renamed : ∀ init ∈ ({ decl with name := internal } : VarDecl).init, init.IsSource := isSource
  refine (resolveInit_follows renamed declares.scopes).bind_pure ?_
  rintro _ final ⟨⟨init, rfl⟩, writes⟩
  exact ⟨rfl, rfl, declares.append writes⟩

theorem resolveLocal_follows {decl : VarDecl} (isSource : decl.IsSource)
    (inside : walk.scopes = scopes) :
    Pass.Follows (decl.resolveLocal scopes) base walk decl.localEvents fun result later =>
      result.2.outer = scopes.outer ∧ walk.Writes result.2 result.1.localEvents later := by
  subst inside
  rw [resolveLocal, localEvents, events]
  cases admits : walk.admits decl.name (decl.storageClass = some .external) with
  | false =>
      rcases checkRedeclaration_fails admits (walk.context base) with ⟨failure, fails⟩
      refine .refuse admits ⟨failure, ?_⟩
      rw [StateT.run_bind, fails]
      rfl
  | true =>
      rw [checkRedeclaration_of_admits admits, pure_bind]
      by_cases isExternal : decl.storageClass = some .external
      · have linkage := decide_eq_true isExternal
        rw [linkage] at admits ⊢
        rw [if_pos isExternal]
        refine .link admits ((resolveInit_follows_declare isSource.init ⟨rfl, rfl⟩).mono ?_)
        rintro ⟨decl', within⟩ later ⟨rfl, storageClass, writes⟩
        exact ⟨rfl, by rwa [localEvents, storageClass, linkage]⟩
      · have linkage := decide_eq_false isExternal
        rw [linkage] at admits ⊢
        rw [if_neg isExternal]
        refine .draw admits ((resolveInit_follows_declare isSource.init ⟨rfl, rfl⟩).mono ?_)
        rintro ⟨decl', within⟩ later ⟨rfl, storageClass, writes⟩
        exact ⟨rfl, by rwa [localEvents, storageClass, linkage]⟩

theorem resolveLocals_follows : ∀ {decls : List VarDecl} {scopes : Scopes} {walk : Walk},
    (∀ decl ∈ decls, decl.IsSource) → walk.scopes = scopes →
    Pass.Follows (resolveLocals scopes decls) base walk (decls.flatMap localEvents)
      fun result later => result.2.outer = scopes.outer ∧
        walk.Writes result.2 (result.1.flatMap localEvents) later
  | [], scopes, walk, _, inside => by
      rw [resolveLocals]
      exact .pure ⟨rfl, .nil inside⟩
  | decl :: decls, scopes, walk, areSource, inside => by
      rcases List.forall_mem_cons.1 areSource with ⟨isSource, restSource⟩
      rw [resolveLocals, List.flatMap_cons]
      refine (resolveLocal_follows isSource inside).bind ?_
      rintro ⟨decl', within⟩ middle ⟨outer, writes⟩
      refine (resolveLocals_follows restSource writes.scopes).bind_pure ?_
      rintro ⟨decls', after⟩ later ⟨restOuter, restWrites⟩
      rw [List.flatMap_cons]
      exact ⟨restOuter.trans outer, writes.append restWrites⟩

/-- An object at file scope may be declared again, since all names there have linkage. -/
theorem resolveFile_follows {decl : VarDecl} (isSource : decl.IsSource)
    (inside : walk.scopes = scopes) (linked : scopes.AllLinked) :
    Pass.Follows (decl.resolveFile scopes) base walk (decl.events true) fun result later =>
      result.2 = scopes.declare decl.name ⟨decl.name, true⟩ ∧
        walk.Writes result.2 (result.1.events true) later := by
  subst inside
  refine .link (linked.admits decl.name)
    ((resolveInit_follows_declare isSource.init ⟨rfl, rfl⟩).mono ?_)
  rintro result later ⟨declared, _, writes⟩
  exact ⟨declared, writes⟩

end VarDecl

theorem Param.events_cons_unnamed {param : Param} (unnamed : param.name.isEmpty)
    (params : List Param) : Param.events (param :: params) = Param.events params := by
  simp [Param.events, Param.named, unnamed]

theorem Param.events_cons_named {param : Param} (isNamed : ¬param.name.isEmpty)
    (params : List Param) :
    Param.events (param :: params) = .declare param.name false :: Param.events params := by
  simp [Param.events, Param.named, isNamed]

theorem Param.resolveList_follows {base : Context} : ∀ (params : List Param) {scopes : Scopes}
    {walk : Walk}, walk.scopes = scopes →
    Pass.Follows (Param.resolveList scopes params) base walk (Param.events params)
      fun result later => result.2.outer = scopes.outer ∧
        walk.Writes result.2 (Param.events result.1) later
  | [], scopes, walk, inside => by
      rw [Param.resolveList]
      exact .pure ⟨rfl, .nil inside⟩
  | param :: params, _, walk, rfl => by
      rw [Param.resolveList]
      by_cases isNamed : param.name.isEmpty
      · rw [if_pos isNamed, Param.events_cons_unnamed isNamed]
        refine (Param.resolveList_follows params rfl).bind_pure ?_
        rintro ⟨params', within⟩ later ⟨outer, writes⟩
        exact ⟨outer, by rwa [Param.events_cons_unnamed isNamed]⟩
      · rw [if_neg isNamed, Param.events_cons_named isNamed]
        by_cases repeated : (walk.scopes.local? param.name).isSome
        · rw [if_pos repeated]
          refine .refuse ?_ ⟨_, rfl⟩
          simpa [Walk.admits_unlinked] using repeated
        · rw [if_neg repeated]
          have admits : walk.admits param.name false := by
            simpa [Walk.admits_unlinked] using repeated
          have notEmpty : ¬(param.name.numbered walk.next).isEmpty := by
            simp [Text.numbered, Text.ofString_dot]
          have declares : walk.Writes
              (walk.scopes.declare param.name ⟨param.name.numbered walk.next, false⟩)
              [.declare (param.name.numbered walk.next) false] (walk.declare param.name false) :=
            ⟨rfl, rfl⟩
          refine .draw admits ((Param.resolveList_follows params declares.scopes).bind_pure ?_)
          rintro ⟨params', within⟩ later ⟨outer, writes⟩
          refine ⟨outer, ?_⟩
          rw [Param.events_cons_named notEmpty]
          exact declares.append writes

/-- The scopes inside a function stand within those after its declaration. -/
theorem FunDecl.resolve_follows {base : Context} (decl : FunDecl) {scopes : Scopes} {walk : Walk}
    (inside : walk.scopes = scopes) :
    Pass.Follows (decl.resolve scopes) base walk
      (.declare decl.name true :: .enter :: Param.events decl.params) fun result later =>
        (∃ params, result.1 = { decl with params }) ∧
          result.2.1 = scopes.declare decl.name ⟨decl.name, true⟩ ∧
          result.2.2.outer = result.2.1.inner :: result.2.1.outer ∧
          walk.Writes result.2.2
            (.declare decl.name true :: .enter :: Param.events result.1.params) later := by
  subst inside
  rw [FunDecl.resolve]
  by_cases conflict : (walk.scopes.local? decl.name).any (!·.hasLinkage)
  · rw [if_pos conflict]
    refine .refuse ?_ ⟨_, rfl⟩
    simpa [Walk.admits_linked] using conflict
  · rw [if_neg conflict]
    have admits : walk.admits decl.name true := by
      simpa [Walk.admits_linked] using conflict
    refine .link admits (.enter ?_)
    refine (Param.resolveList_follows decl.params rfl).bind_pure ?_
    rintro ⟨params, within⟩ later ⟨outer, writes⟩
    have enters : walk.Writes _ [.declare decl.name true, .enter]
        ((walk.declare decl.name true).add (walk.declare decl.name true).scopes.enter .enter) :=
      ⟨rfl, by simp [Walk.declare, Walk.add]⟩
    exact ⟨⟨params, rfl⟩, rfl, outer, enters.append writes⟩

/-! ### Statements -/

theorem ForInit.resolve_follows {base : Context} (init : ForInit) {scopes : Scopes} {walk : Walk}
    (isSource : init.IsSource) (inside : walk.scopes = scopes) :
    Pass.Follows (init.resolve scopes) base walk init.events fun result later =>
      result.2.outer = scopes.outer ∧ walk.Writes result.2 result.1.events later := by
  cases init with
  | declarations loc decls =>
      exact (VarDecl.resolveLocals_follows isSource inside).bind_pure fun _ _ => id
  | expression loc value =>
      refine (Expr.resolveOption_follows value isSource inside).bind_pure ?_
      intro value' later writes
      exact ⟨rfl, writes⟩

/-- Leaving the scope that was entered leads back. -/
theorem Walk.Writes.leave {walk later : Walk} {scopes within : Scopes} {events : List Event}
    (writes : walk.Writes within events later)
    (outer : within.outer = scopes.inner :: scopes.outer) :
    walk.Writes scopes (events ++ [Event.leave]) (later.add later.scopes.leave .leave) := by
  refine ⟨?_, by simp [Walk.add, writes.resolved]⟩
  simp [Walk.add, writes.scopes, Scopes.leave, outer]

theorem Walk.writes_enter (walk : Walk) :
    walk.Writes walk.scopes.enter [.enter] (walk.add walk.scopes.enter .enter) := ⟨rfl, rfl⟩

mutual

theorem Stmt.resolve_follows {base : Context} : ∀ (stmt : Stmt) {scopes : Scopes} {walk : Walk},
    stmt.IsSource → walk.scopes = scopes →
    Pass.Follows (stmt.resolve scopes) base walk stmt.events fun resolved later =>
      walk.Writes scopes resolved.events later
  | .ret _ value, scopes, walk, isSource, inside => by
      rw [Stmt.resolve, Stmt.events]
      exact (Expr.resolveOption_follows value isSource inside).bind_pure fun _ _ => id
  | .expr _ value, scopes, walk, isSource, inside => by
      rw [Stmt.resolve, Stmt.events]
      exact (Expr.resolve_follows value isSource inside).bind_pure fun _ _ => id
  | .ifThen _ condition body, scopes, walk, isSource, inside
  | .whileLoop _ _ condition body, scopes, walk, isSource, inside
  | .switch _ _ condition body _, scopes, walk, isSource, inside
  | .case _ _ condition body, scopes, walk, isSource, inside => by
      rw [Stmt.resolve, Stmt.events]
      refine (Expr.resolve_follows condition isSource.1 inside).bind ?_
      intro condition' middle conditionWrites
      refine (Stmt.resolve_follows body isSource.2 conditionWrites.scopes).bind_pure ?_
      intro body' later bodyWrites
      exact conditionWrites.append bodyWrites
  | .ifElse _ condition thenBranch elseBranch, scopes, walk, isSource, inside => by
      rw [Stmt.resolve, Stmt.events]
      refine (Expr.resolve_follows condition isSource.1 inside).bind ?_
      intro condition' first conditionWrites
      refine (Stmt.resolve_follows thenBranch isSource.2.1 conditionWrites.scopes).bind ?_
      intro thenBranch' second thenWrites
      refine (Stmt.resolve_follows elseBranch isSource.2.2 thenWrites.scopes).bind_pure ?_
      intro elseBranch' later elseWrites
      exact conditionWrites.append (thenWrites.append elseWrites)
  | .block _ items, _, walk, isSource, rfl => by
      rw [Stmt.resolve, Stmt.events]
      refine .enter ((Item.resolveList_follows items isSource rfl).bind ?_)
      rintro items' later ⟨within, outer, writes⟩
      exact .leave (.pure ((walk.writes_enter.append writes).leave outer))
  | .doWhile _ _ body condition, scopes, walk, isSource, inside => by
      rw [Stmt.resolve, Stmt.events]
      refine (Stmt.resolve_follows body isSource.2 inside).bind ?_
      intro body' middle bodyWrites
      refine (Expr.resolve_follows condition isSource.1 bodyWrites.scopes).bind_pure ?_
      intro condition' later conditionWrites
      exact bodyWrites.append conditionWrites
  | .forLoop _ _ init condition post body, _, walk, isSource, rfl => by
      rw [Stmt.resolve, Stmt.events]
      refine .enter ((ForInit.resolve_follows init isSource.1 rfl).bind ?_)
      rintro ⟨init', within⟩ first ⟨outer, initWrites⟩
      refine (Expr.resolveOption_follows condition isSource.2.1 initWrites.scopes).bind ?_
      intro condition' second conditionWrites
      refine (Expr.resolveOption_follows post isSource.2.2.1 conditionWrites.scopes).bind ?_
      intro post' third postWrites
      refine (Stmt.resolve_follows body isSource.2.2.2 postWrites.scopes).bind ?_
      intro body' later bodyWrites
      -- The first clause only adds to the scope that was entered, so leaving it leads back.
      have writes := walk.writes_enter.append
        (initWrites.append (conditionWrites.append (postWrites.append bodyWrites)))
      refine .leave (.pure ?_)
      simpa [Stmt.events] using writes.leave outer
  | .default _ _ body, scopes, walk, isSource, inside => by
      rw [Stmt.resolve, Stmt.events]
      exact (Stmt.resolve_follows body isSource inside).bind_pure fun _ _ => id
  | .break _ _, scopes, walk, isSource, inside | .continue _ _, scopes, walk, isSource, inside
  | .null _, scopes, walk, isSource, inside => by
      rw [Stmt.resolve, Stmt.events]
      exact .pure (.nil inside)

/-- A declaration at file scope leaves one more name, which has linkage. -/
theorem Decl.resolve_follows {base : Context} (isFile : Bool) : ∀ (decl : Decl) {scopes : Scopes}
    {walk : Walk}, decl.IsSource → walk.scopes = scopes → (isFile → scopes.AllLinked) →
    Pass.Follows (decl.resolve isFile scopes) base walk (decl.events isFile) fun result later =>
      result.2.outer = scopes.outer ∧ (isFile → result.2.AllLinked) ∧
        walk.Writes result.2 (result.1.events isFile) later
  | .object decl, scopes, walk, isSource, inside, linked => by
      rw [Decl.resolve, Decl.events]
      cases isFile with
      | true =>
          refine (VarDecl.resolveFile_follows isSource inside (linked rfl)).bind_pure ?_
          rintro ⟨decl', within⟩ later ⟨rfl, writes⟩
          exact ⟨rfl, fun _ => (linked rfl).declare _ _, writes⟩
      | false =>
          refine (VarDecl.resolveLocal_follows isSource inside).bind_pure ?_
          rintro ⟨decl', within⟩ later ⟨outer, writes⟩
          exact ⟨outer, nofun, writes⟩
  | .function decl, scopes, walk, isSource, inside, linked => by
      rw [Decl.resolve, Decl.events]
      refine (FunDecl.resolve_follows decl inside).bind ?_
      rintro ⟨_, after, within⟩ later ⟨⟨params, rfl⟩, rfl, outer, writes⟩
      refine .leave (.pure ⟨rfl, fun isFile => (linked isFile).declare _ _, ?_⟩)
      exact writes.leave outer
  | .definition decl _ body, scopes, walk, isSource, inside, linked => by
      rw [Decl.resolve, Decl.events]
      refine (FunDecl.resolve_follows decl inside).bind ?_
      rintro ⟨_, after, within⟩ middle ⟨⟨params, rfl⟩, rfl, outer, writes⟩
      refine (Item.resolveList_follows body isSource.2.2 writes.scopes).bind ?_
      rintro body' later ⟨inner, sameOuter, bodyWrites⟩
      refine .leave (.pure ⟨rfl, fun isFile => (linked isFile).declare _ _, ?_⟩)
      simpa [Decl.events, FunDecl.events] using
        (writes.append bodyWrites).leave (sameOuter.trans outer)

theorem Item.resolveList_follows {base : Context} : ∀ (items : List Item) {scopes : Scopes}
    {walk : Walk}, Item.IsSourceList items → walk.scopes = scopes →
    Pass.Follows (Item.resolveList scopes items) base walk (Item.eventsList items)
      fun resolved later => ∃ within, within.outer = scopes.outer ∧
        walk.Writes within (Item.eventsList resolved) later
  | [], scopes, walk, _, inside => by
      rw [Item.resolveList, Item.eventsList]
      exact .pure ⟨scopes, rfl, .nil inside⟩
  | .stmt stmt :: items, scopes, walk, areSource, inside => by
      rw [Item.resolveList, Item.eventsList]
      refine (Stmt.resolve_follows stmt areSource.1 inside).bind ?_
      intro stmt' middle writes
      refine (Item.resolveList_follows items areSource.2 writes.scopes).bind_pure ?_
      rintro items' later ⟨within, outer, restWrites⟩
      exact ⟨within, outer, writes.append restWrites⟩
  | .decl decl :: items, scopes, walk, areSource, inside => by
      rw [Item.resolveList, Item.eventsList]
      refine (Decl.resolve_follows false decl areSource.1 inside nofun).bind ?_
      rintro ⟨decl', after⟩ middle ⟨outer, _, writes⟩
      refine (Item.resolveList_follows items areSource.2 writes.scopes).bind_pure ?_
      rintro items' later ⟨within, restOuter, restWrites⟩
      exact ⟨within, restOuter.trans outer, writes.append restWrites⟩

end

/-! ### Names with linkage -/

namespace Event

/-- The names that events declare with linkage hold no dot. -/
def AllPlain (events : List Event) : Prop :=
  ∀ name, .declare name true ∈ events → name.IsPlain

@[simp]
theorem allPlain_nil : AllPlain [] := by simp [AllPlain]

@[simp]
theorem allPlain_append {first second : List Event} :
    AllPlain (first ++ second) ↔ AllPlain first ∧ AllPlain second := by
  simp only [AllPlain, List.mem_append, or_imp, forall_and]

@[simp]
theorem allPlain_cons {event : Event} {events : List Event} :
    AllPlain (event :: events) ↔
      (∀ name, event = .declare name true → name.IsPlain) ∧ AllPlain events := by
  simp only [AllPlain, List.mem_cons, or_imp, forall_and, eq_comm]

@[simp]
theorem allPlain_uses (names : List Text) : AllPlain (uses names) := by
  simp [AllPlain, uses]

end Event

theorem VarDecl.allPlain_localEvents {decl : VarDecl} (isSource : decl.IsSource) :
    Event.AllPlain decl.localEvents := by
  rw [localEvents, events, Event.allPlain_cons]
  refine ⟨?_, Event.allPlain_uses _⟩
  intro name declares
  obtain ⟨rfl, isExternal⟩ := Event.declare.inj declares
  exact isSource.plain (of_decide_eq_true isExternal)

theorem FunDecl.allPlain_events {decl : FunDecl} (isSource : decl.IsSource) {body : List Event}
    (plain : Event.AllPlain body) : Event.AllPlain (decl.events body) := by
  have params : Event.AllPlain (Param.events decl.params) := by
    simp [Event.AllPlain, Param.events]
  simp [events, isSource.plain, params, plain]

theorem ForInit.allPlain_events {init : ForInit} (isSource : init.IsSource) :
    Event.AllPlain init.events := by
  cases init with
  | declarations loc decls =>
      intro name declares
      rcases List.mem_flatMap.1 declares with ⟨decl, mem, declares⟩
      exact VarDecl.allPlain_localEvents (isSource decl mem) name declares
  | expression loc value => exact Event.allPlain_uses _

mutual

theorem Stmt.allPlain_events : ∀ stmt : Stmt, stmt.IsSource → Event.AllPlain stmt.events
  | .ret _ _, _ | .expr _ _, _ => Event.allPlain_uses _
  | .ifThen _ _ body, isSource | .whileLoop _ _ _ body, isSource | .switch _ _ _ body _, isSource
  | .case _ _ _ body, isSource | .doWhile _ _ body _, isSource => by
      simp [Stmt.events, body.allPlain_events isSource.2]
  | .ifElse _ _ thenBranch elseBranch, isSource => by
      simp [Stmt.events, thenBranch.allPlain_events isSource.2.1,
        elseBranch.allPlain_events isSource.2.2]
  | .block _ items, isSource => by simp [Stmt.events, Item.allPlain_eventsList items isSource]
  | .forLoop _ _ _ _ _ body, isSource => by
      simp [Stmt.events, ForInit.allPlain_events isSource.1,
        body.allPlain_events isSource.2.2.2]
  | .default _ _ body, isSource => body.allPlain_events isSource
  | .break _ _, _ | .continue _ _, _ | .null _, _ => Event.allPlain_nil

theorem Decl.allPlain_events {isFile : Bool} : ∀ decl : Decl, decl.IsSource →
    (isFile → decl.name.IsPlain) → Event.AllPlain (decl.events isFile)
  | .object decl, isSource, plain => by
      cases isFile with
      | true => simpa [Decl.events, VarDecl.events, Decl.name] using plain rfl
      | false => exact VarDecl.allPlain_localEvents isSource
  | .function _, isSource, _ => FunDecl.allPlain_events isSource Event.allPlain_nil
  | .definition _ _ body, isSource, _ =>
      FunDecl.allPlain_events isSource.1 (Item.allPlain_eventsList body isSource.2.2)

theorem Item.allPlain_eventsList : ∀ items : List Item, Item.IsSourceList items →
    Event.AllPlain (Item.eventsList items)
  | [], _ => Event.allPlain_nil
  | .stmt stmt :: items, areSource => by
      rw [Item.eventsList, Event.allPlain_append]
      exact ⟨stmt.allPlain_events areSource.1, Item.allPlain_eventsList items areSource.2⟩
  | .decl decl :: items, areSource => by
      rw [Item.eventsList, Event.allPlain_append]
      exact ⟨decl.allPlain_events areSource.1 nofun, Item.allPlain_eventsList items areSource.2⟩

end

theorem Program.allPlain_events {program : Program} (isSource : program.IsSource) :
    Event.AllPlain program.events := by
  intro name declares
  rcases List.mem_flatMap.1 declares with ⟨decl, mem, declares⟩
  rcases isSource decl mem with ⟨declSource, plain⟩
  exact decl.allPlain_events declSource (fun _ => plain) name declares

/-! ### Compilation units -/

namespace Program

theorem resolveFrom_follows {base : Context} : ∀ (program : Program) {scopes : Scopes}
    {walk : Walk}, program.IsSource → walk.scopes = scopes → scopes.AllLinked →
    Pass.Follows (resolveFrom scopes program) base walk program.events fun resolved later =>
      later.resolved = walk.resolved ++ resolved.events
  | [], scopes, walk, _, inside, _ => by
      rw [resolveFrom]
      exact .pure (by simp [events])
  | decl :: decls, scopes, walk, areSource, inside, linked => by
      rcases List.forall_mem_cons.1 areSource with ⟨⟨isSource, _⟩, restSource⟩
      rw [resolveFrom, events, List.flatMap_cons]
      refine (Decl.resolve_follows true decl isSource inside fun _ => linked).bind ?_
      rintro ⟨decl', within⟩ middle ⟨_, nowLinked, writes⟩
      refine (resolveFrom_follows decls restSource writes.scopes (nowLinked rfl)).bind_pure ?_
      intro decls' later rest
      rw [rest, writes.resolved, List.append_assoc]
      rfl

/-- Resolution fails where a walk through the events of the source stops, and otherwise leaves a
tree with the events that the walk writes. -/
theorem resolve_follows {program : Program} (isSource : program.IsSource) (context : Context) :
    Pass.Follows program.resolve context (.start context.nextName) program.events
      fun resolved later => later.resolved = resolved.events :=
  resolveFrom_follows program isSource rfl nofun

/-- Resolution implements the scoping rules of blocks. A parsed source is resolved exactly if every
name it mentions is declared in a scope around and no scope declares a name twice unless both
declarations have linkage; in particular, no list of parameters repeats a name. The resolved tree
then has the events of the source, with names that have linkage kept, a different internal name for
each other declaration, and for each use the internal name of the declaration in the innermost
scope that has one by then. -/
theorem resolve_lexically {source : Text} {program : Program} {lastId : Nat}
    (parses : Program.parse source = .ok (program, lastId)) (context : Context) :
    ((∃ resolved after, program.resolve.run context = .ok (resolved, after)) ↔
        Event.WellScoped program.events) ∧
      ∀ resolved after, program.resolve.run context = .ok (resolved, after) →
        Event.Resolves program.events resolved.events := by
  have isSource := isSource_of_parse parses
  have follows := resolve_follows isSource context
  have plain : ∀ name ∈ Event.declared true program.events, name.IsPlain :=
    fun name mem => allPlain_events isSource name (Event.mem_declared.1 mem)
  have resolves := Walk.run?_resolves context.nextName plain
  have same : Walk.context context (.start context.nextName) = context := rfl
  unfold Pass.Follows at follows
  rw [same] at follows
  cases runs : (Walk.start context.nextName).run? program.events with
  | none =>
      simp only [runs] at follows resolves
      rcases follows with ⟨failure, fails⟩
      refine ⟨⟨?_, fun wellScoped => absurd wellScoped resolves⟩, ?_⟩
      · rintro ⟨resolved, after, succeeds⟩
        cases fails.symm.trans succeeds
      · intro resolved after succeeds
        cases fails.symm.trans succeeds
  | some walk =>
      simp only [runs] at follows resolves
      rcases follows with ⟨result, succeeds, writes⟩
      refine ⟨⟨fun _ => resolves.1, fun _ => ⟨result, _, succeeds⟩⟩, ?_⟩
      intro resolved after succeeds'
      cases succeeds.symm.trans succeeds'
      exact writes ▸ resolves.2

/-- A parameter hides an object, an external declaration in a block inside shows it again, and a
loop variable that is initialized with itself hides it once more. -/
theorem resolve_lexically_shadowing :
    ∃ program lastId resolved after,
      Program.parse
        "int x; int f(int x) \x7b \x7b extern int x; x; for (int x = x;;) x; \x7d return f(x); \x7d"
          = .ok (program, lastId) ∧
      program.resolve.run .empty = .ok (resolved, after) ∧
      resolved.events =
        [.declare "x" true, .declare "f" true, .enter, .declare "x.0" false,
          .enter, .declare "x" true, .use "x",
          .enter, .declare "x.1" false, .use "x.1", .use "x.1", .leave,
          .leave, .use "f", .use "x.0", .leave] ∧
      Event.WellScoped program.events ∧ Event.Resolves program.events resolved.events := by
  have computed : succeedsWith (fun parsed => succeedsWith (fun resolution =>
        resolution.1.events =
          [.declare "x" true, .declare "f" true, .enter, .declare "x.0" false,
            .enter, .declare "x" true, .use "x",
            .enter, .declare "x.1" false, .use "x.1", .use "x.1", .leave,
            .leave, .use "f", .use "x.0", .leave]) (parsed.1.resolve.run .empty))
      (Program.parse
       "int x; int f(int x) \x7b \x7b extern int x; x; for (int x = x;;) x; \x7d return f(x); \x7d")
      := by
    decide +kernel
  rcases exists_of_succeedsWith computed with ⟨⟨program, lastId⟩, parses, computed⟩
  rcases exists_of_succeedsWith computed with ⟨⟨resolved, after⟩, succeeds, computed⟩
  have lexically := resolve_lexically parses .empty
  exact ⟨program, lastId, resolved, after, parses, succeeds, of_decide_eq_true computed,
    lexically.1.1 ⟨resolved, after, succeeds⟩, lexically.2 resolved after succeeds⟩

end Program

end SubsetC
