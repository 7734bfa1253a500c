import SubsetC.Proofs.Refinement
import SubsetC.Proofs.TreeParts

/-!
# Code of the parts of a function

Statements stand inside each other, and declarations of objects stand in blocks and in the first
clause of loops. The code of each of these parts stands in the code of the function, just as it has
been made when it was the turn of the part.
-/

namespace SubsetC

/-! ### Parts -/

/-- A part of a function body that has code of its own. -/
inductive Part where
  | statement (stmt : Stmt)
  | object (decl : VarDecl)

namespace Part

def lower : Part → Pass Code
  | .statement stmt => stmt.lower
  | .object decl => decl.lower

/-- The part is explicit, in a function with a result type. -/
def Explicit (table : SymbolTable) (result : CType) : Part → Prop
  | .statement stmt => stmt.Explicit table result
  | .object decl => decl.Explicit table false

/-- The jumps of the part are bound, at some place. -/
def Bound (describes : CType → SwitchCase → CaseNode → Prop) : Part → Prop
  | .statement stmt => ∃ targets, stmt.Bound describes targets
  | .object _ => True

/-- The part is a statement that has been checked, or a declaration. -/
def IsChecked (result : CType) : Part → Prop
  | .statement stmt => ∃ source first second, (Stmt.check result source).run first = .ok (stmt, second)
  | .object _ => True

/-- All that the part is made of has a property. -/
def Forall (holds : TreePredicate) : Part → Prop
  | .statement stmt => stmt.Forall holds
  | .object decl => holds.object false decl

def object? : Part → Option VarDecl
  | .object decl => some decl
  | .statement _ => none

def switchCases? : Part → Option (List SwitchCase)
  | .statement (.switch _ _ _ _ cases) => some cases
  | .statement (.ret _ _) | .statement (.expr _ _) | .statement (.ifThen _ _ _)
  | .statement (.ifElse _ _ _ _) | .statement (.block _ _) | .statement (.whileLoop _ _ _ _)
  | .statement (.doWhile _ _ _ _) | .statement (.forLoop _ _ _ _ _ _)
  | .statement (.case _ _ _ _) | .statement (.default _ _ _) | .statement (.break _ _)
  | .statement (.continue _ _) | .statement (.null _) | .object _ => none

theorem eq_of_object? {part : Part} {decl : VarDecl} (isObject : part.object? = some decl) :
    part = .object decl := by
  cases part with
  | object own =>
      cases isObject
      rfl
  | statement stmt => cases isObject

theorem exists_of_switchCases? {part : Part} {cases : List SwitchCase}
    (isSwitch : part.switchCases? = some cases) :
    ∃ loc label value body, part = .statement (.switch loc label value body cases) := by
  cases part with
  | object decl => cases isSwitch
  | statement stmt =>
      cases stmt with
      | switch loc label value body own =>
          cases isSwitch
          exact ⟨loc, label, value, body, rfl⟩
      | _ => cases isSwitch

end Part

/-- The parts of the first clause of a for statement. -/
def ForInit.parts : ForInit → List Part
  | .declarations _ decls => decls.map .object
  | .expression _ _ => []

mutual

/-- The parts inside a statement. -/
def Stmt.parts : Stmt → List Part
  | .ifThen _ _ body | .whileLoop _ _ _ body | .doWhile _ _ body _ | .switch _ _ _ body _
  | .case _ _ _ body | .default _ _ body => .statement body :: body.parts
  | .ifElse _ _ thenBranch elseBranch =>
      (.statement thenBranch :: thenBranch.parts) ++ (.statement elseBranch :: elseBranch.parts)
  | .block _ items => Item.partsList items
  | .forLoop _ _ init _ _ body => init.parts ++ (.statement body :: body.parts)
  | .ret _ _ | .expr _ _ | .break _ _ | .continue _ _ | .null _ => []

def Item.partsList : List Item → List Part
  | [] => []
  | .stmt stmt :: items => (.statement stmt :: stmt.parts) ++ Item.partsList items
  | .decl (.object decl) :: items => .object decl :: Item.partsList items
  | .decl _ :: items => Item.partsList items

end

/-! ### Properties of all parts -/

section

variable {describes : CType → SwitchCase → CaseNode → Prop}

mutual

theorem Stmt.Bound.parts : ∀ (stmt : Stmt) {targets : Targets}, stmt.Bound describes targets →
    ∀ part ∈ stmt.parts, part.Bound describes
  | .ifThen _ _ body, _, bound | .case _ _ _ body, _, bound | .default _ _ body, _, bound =>
      List.forall_mem_cons.2 ⟨⟨_, bound⟩, Stmt.Bound.parts body bound⟩
  | .whileLoop _ _ _ body, _, ⟨_, _, bound⟩ | .doWhile _ _ body _, _, ⟨_, _, bound⟩
  | .switch _ _ _ body _, _, ⟨_, _, bound, _⟩ =>
      List.forall_mem_cons.2 ⟨⟨_, bound⟩, Stmt.Bound.parts body bound⟩
  | .ifElse _ _ thenBranch elseBranch, _, ⟨thenBound, elseBound⟩ =>
      List.forall_mem_append.2
        ⟨List.forall_mem_cons.2 ⟨⟨_, thenBound⟩, Stmt.Bound.parts thenBranch thenBound⟩,
          List.forall_mem_cons.2 ⟨⟨_, elseBound⟩, Stmt.Bound.parts elseBranch elseBound⟩⟩
  | .block _ items, _, bound => Item.BoundList.parts items bound
  | .forLoop _ _ init _ _ body, _, ⟨_, _, bound⟩ => by
      refine List.forall_mem_append.2
        ⟨?_, List.forall_mem_cons.2 ⟨⟨_, bound⟩, Stmt.Bound.parts body bound⟩⟩
      cases init with
      | declarations loc decls => exact List.forall_mem_map.2 fun _ _ => True.intro
      | expression loc value => exact List.forall_mem_nil _
  | .ret _ _, _, _ | .expr _ _, _, _ | .break _ _, _, _ | .continue _ _, _, _
  | .null _, _, _ => List.forall_mem_nil _

theorem Item.BoundList.parts : ∀ (items : List Item) {targets : Targets},
    Item.BoundList describes targets items → ∀ part ∈ Item.partsList items, part.Bound describes
  | [], _, _ => List.forall_mem_nil _
  | .stmt stmt :: items, _, bound =>
      List.forall_mem_append.2
        ⟨List.forall_mem_cons.2 ⟨⟨_, bound.1⟩, Stmt.Bound.parts stmt bound.1⟩,
          Item.BoundList.parts items bound.2⟩
  | .decl (.object _) :: items, _, bound =>
      List.forall_mem_cons.2 ⟨True.intro, Item.BoundList.parts items bound⟩
  | .decl (.function _) :: items, _, bound | .decl (.definition _ _ _) :: items, _, bound =>
      Item.BoundList.parts items bound

end

end

section

variable {holds : TreePredicate}

theorem ForInit.Forall.parts {init : ForInit} (all : init.Forall holds) :
    ∀ part ∈ init.parts, part.Forall holds := by
  cases init with
  | declarations loc decls => exact List.forall_mem_map.2 all.2
  | expression loc value => exact List.forall_mem_nil _

mutual

theorem Stmt.Forall.parts : ∀ (stmt : Stmt), stmt.Forall holds →
    ∀ part ∈ stmt.parts, part.Forall holds
  | .ifThen _ _ body, ⟨_, _, all⟩ | .default _ _ body, ⟨_, _, all⟩
  | .whileLoop _ _ _ body, ⟨_, _, _, all⟩ | .doWhile _ _ body _, ⟨_, _, _, all⟩
  | .case _ _ _ body, ⟨_, _, _, all⟩ | .switch _ _ _ body _, ⟨_, _, _, all, _⟩ =>
      List.forall_mem_cons.2 ⟨all, Stmt.Forall.parts body all⟩
  | .ifElse _ _ thenBranch elseBranch, ⟨_, _, thenAll, elseAll⟩ =>
      List.forall_mem_append.2
        ⟨List.forall_mem_cons.2 ⟨thenAll, Stmt.Forall.parts thenBranch thenAll⟩,
          List.forall_mem_cons.2 ⟨elseAll, Stmt.Forall.parts elseBranch elseAll⟩⟩
  | .block _ items, ⟨_, all⟩ => Item.ForallList.parts items all
  | .forLoop _ _ _ _ _ body, ⟨_, _, initAll, _, _, all⟩ =>
      List.forall_mem_append.2
        ⟨ForInit.Forall.parts initAll,
          List.forall_mem_cons.2 ⟨all, Stmt.Forall.parts body all⟩⟩
  | .ret _ _, _ | .expr _ _, _ | .break _ _, _ | .continue _ _, _ | .null _, _ => List.forall_mem_nil _

theorem Item.ForallList.parts : ∀ (items : List Item), Item.ForallList holds items →
    ∀ part ∈ Item.partsList items, part.Forall holds
  | [], _ => List.forall_mem_nil _
  | .stmt stmt :: items, ⟨head, tail⟩ =>
      List.forall_mem_append.2
        ⟨List.forall_mem_cons.2 ⟨head, Stmt.Forall.parts stmt head⟩,
          Item.ForallList.parts items tail⟩
  | .decl (.object _) :: items, ⟨head, tail⟩ =>
      List.forall_mem_cons.2 ⟨head, Item.ForallList.parts items tail⟩
  | .decl (.function _) :: items, ⟨_, tail⟩ | .decl (.definition _ _ _) :: items, ⟨_, tail⟩ =>
      Item.ForallList.parts items tail

end

end

section

variable {result : CType}

/-- A checked statement is a checked part, together with those inside it. -/
theorem Stmt.parts_isChecked {stmt checked : Stmt} {context after : Context}
    (runs : (stmt.check result).run context = .ok (checked, after))
    (inside : ∀ part ∈ checked.parts, part.IsChecked result) :
    ∀ part ∈ .statement checked :: checked.parts, part.IsChecked result :=
  List.forall_mem_cons.2 ⟨⟨stmt, context, after, runs⟩, inside⟩

theorem ForInit.parts_isChecked (init : ForInit) : ∀ part ∈ init.parts, part.IsChecked result := by
  cases init with
  | declarations loc decls => exact List.forall_mem_map.2 fun _ _ => True.intro
  | expression loc value => exact List.forall_mem_nil _

mutual

/-- The statements inside a checked statement have been checked. -/
theorem Stmt.check_parts : ∀ (stmt : Stmt) {context : Context},
    Yields (stmt.check result) context fun checked _ =>
      ∀ part ∈ checked.parts, part.IsChecked result
  | .ret _ _, context | .expr _ _, context => by
      rw [Stmt.check]
      exact Ensures.bind_any fun _ _ => Ensures.pure (List.forall_mem_nil _)
  | .ifThen _ _ body, context | .whileLoop _ _ _ body, context | .case _ _ _ body, context => by
      rw [Stmt.check]
      refine Ensures.bind_any fun _ _ => ?_
      refine ((Stmt.check_parts body).with_run fun _ _ => Stmt.parts_isChecked).bind ?_
      exact fun _ _ inside => Ensures.pure inside
  | .ifElse _ _ thenBranch elseBranch, context => by
      rw [Stmt.check]
      refine Ensures.bind_any fun _ _ => ?_
      refine ((Stmt.check_parts thenBranch).with_run fun _ _ => Stmt.parts_isChecked).bind ?_
      intro _ _ thenInside
      refine ((Stmt.check_parts elseBranch).with_run fun _ _ => Stmt.parts_isChecked).bind ?_
      exact fun _ _ elseInside => Ensures.pure (List.forall_mem_append.2 ⟨thenInside, elseInside⟩)
  | .block _ items, context => by
      rw [Stmt.check]
      exact (Item.checkList_parts items).bind fun _ _ inside => Ensures.pure inside
  | .doWhile _ _ body _, context => by
      rw [Stmt.check]
      refine ((Stmt.check_parts body).with_run fun _ _ => Stmt.parts_isChecked).bind ?_
      exact fun _ _ inside => Ensures.bind_any fun _ _ => Ensures.pure inside
  | .forLoop _ _ init _ _ body, context => by
      rw [Stmt.check]
      refine Ensures.bind_any fun init' _ => Ensures.bind_any fun _ _ => Ensures.bind_any
        fun _ _ => ?_
      refine ((Stmt.check_parts body).with_run fun _ _ => Stmt.parts_isChecked).bind ?_
      exact fun _ _ inside =>
        Ensures.pure (List.forall_mem_append.2 ⟨init'.parts_isChecked, inside⟩)
  | .switch _ _ _ body _, context => by
      rw [Stmt.check]
      refine Ensures.bind_any fun _ _ => Ensures.bind_any fun _ _ => ?_
      refine ((Stmt.check_parts body).with_run fun _ _ => Stmt.parts_isChecked).bind ?_
      exact fun _ _ inside => Ensures.pure inside
  | .default _ _ body, context => by
      rw [Stmt.check]
      refine ((Stmt.check_parts body).with_run fun _ _ => Stmt.parts_isChecked).bind ?_
      exact fun _ _ inside => Ensures.pure inside
  | .break _ _, context | .continue _ _, context | .null _, context => by
      rw [Stmt.check]
      exact Ensures.pure (List.forall_mem_nil _)

theorem Item.checkList_parts : ∀ (items : List Item) {context : Context},
    Yields (Item.checkList result items) context fun checked _ =>
      ∀ part ∈ Item.partsList checked, part.IsChecked result
  | [], context => by
      rw [Item.checkList]
      exact Ensures.pure (List.forall_mem_nil _)
  | .stmt stmt :: items, context => by
      rw [Item.checkList]
      refine ((Stmt.check_parts stmt).with_run fun _ _ => Stmt.parts_isChecked).bind ?_
      intro _ _ inside
      refine (Item.checkList_parts items).bind ?_
      exact fun _ _ rest => Ensures.pure (List.forall_mem_append.2 ⟨inside, rest⟩)
  | .decl decl :: items, context => by
      rw [Item.checkList]
      refine Ensures.bind_any fun decl' _ => ?_
      refine (Item.checkList_parts items).bind ?_
      intro _ _ rest
      cases decl' with
      | object decl => exact Ensures.pure (List.forall_mem_cons.2 ⟨True.intro, rest⟩)
      | function decl | definition decl bodyLoc body => exact Ensures.pure rest

end

end

/-! ### Code of parts -/

/-- The code of a part stands in code that has been made on the way from one context to another. -/
def Context.Holds (result : CType) (context : Context) (code : Code) (after : Context)
    (part : Part) : Prop :=
  ∃ front own back first second, code = front ++ own ++ back ∧ context.Grows [] first ∧
    first.Tidy ∧ part.Explicit first.symbols result ∧ part.lower.run first = .ok (own, second) ∧
    second.Grows [] after

theorem Context.Holds.widen {result : CType} {first second third fourth : Context} {code : Code}
    {part : Part} (start : first.Grows [] second) (holds : second.Holds result code third part)
    (rest : third.Grows [] fourth) : first.Holds result code fourth part := by
  rcases holds with ⟨front, own, back, before, behind, same, earlier, tidy, explicit, runs, later⟩
  exact ⟨front, own, back, before, behind, same, start.append earlier, tidy, explicit, runs,
    later.append rest⟩

/-- A part of lowering has made code in which the code of each of some parts stands. -/
structure Context.Contains (result : CType) (parts : List Part) (context : Context) (code : Code)
    (after : Context) : Prop where
  grows : context.Grows [] after
  holds : ∀ part ∈ parts, context.Holds result code after part

namespace Context.Contains

variable {result : CType} {parts others : List Part} {first second third : Context}
  {code more : Code}

theorem of_grows (grows : first.Grows [] second) : first.Contains result [] code second :=
  ⟨grows, nofun⟩

/-- Code in front. -/
theorem precede (grows : first.Grows [] second)
    (contains : second.Contains result parts code third) (more : Code) :
    first.Contains result parts (more ++ code) third := by
  refine ⟨grows.append contains.grows, ?_⟩
  intro part mem
  rcases contains.holds part mem with
    ⟨front, own, back, before, behind, rfl, start, tidy, explicit, runs, rest⟩
  exact ⟨more ++ front, own, back, before, behind, by simp only [List.append_assoc],
    grows.append start, tidy, explicit, runs, rest⟩

/-- Code behind. -/
theorem follow (contains : first.Contains result parts code second) (grows : second.Grows [] third)
    (more : Code) : first.Contains result parts (code ++ more) third := by
  refine ⟨contains.grows.append grows, ?_⟩
  intro part mem
  rcases contains.holds part mem with
    ⟨front, own, back, before, behind, rfl, start, tidy, explicit, runs, rest⟩
  exact ⟨front, own, back ++ more, before, behind, by simp only [List.append_assoc],
    start, tidy, explicit, runs, rest.append grows⟩

theorem append (earlier : first.Contains result parts code second)
    (later : second.Contains result others more third) :
    first.Contains result (parts ++ others) (code ++ more) third :=
  ⟨earlier.grows.append later.grows, List.forall_mem_append.2
    ⟨(earlier.follow later.grows more).holds, (later.precede earlier.grows code).holds⟩⟩

/-- All of the code, as that of one more part. -/
theorem cons {part : Part} (tidy : first.Tidy) (explicit : part.Explicit first.symbols result)
    (runs : part.lower.run first = .ok (code, second))
    (contains : first.Contains result parts code second) :
    first.Contains result (part :: parts) code second :=
  ⟨contains.grows, List.forall_mem_cons.2 ⟨⟨[], code, [], first, second, by simp, .refl _ _, tidy,
    explicit, runs, .refl _ _⟩, contains.holds⟩⟩

end Context.Contains

section

variable (result : CType)

theorem VarDecl.lower_contains {decl : VarDecl} {context : Context} (tidy : context.Tidy)
    (explicit : decl.Explicit context.symbols false) :
    Yields decl.lower context (context.Contains result [.object decl]) :=
  (VarDecl.lower_yields result tidy explicit).with_run fun _ _ runs emits =>
    Context.Contains.cons tidy explicit runs (.of_grows emits.grows)

theorem VarDecl.lowerList_contains : ∀ (decls : List VarDecl) {context : Context}, context.Tidy →
    (∀ decl ∈ decls, decl.Explicit context.symbols false) →
    Yields (VarDecl.lowerList decls) context (context.Contains result (decls.map .object))
  | [], context, tidy, _ => by
      rw [VarDecl.lowerList]
      exact Ensures.pure (.of_grows (.refl _ _))
  | decl :: decls, context, tidy, explicit => by
      rcases List.forall_mem_cons.1 explicit with ⟨head, tail⟩
      rw [VarDecl.lowerList]
      refine (VarDecl.lower_contains result tidy head).bind ?_
      intro code between contains
      refine (lowerList_contains decls (contains.grows.tidy tidy (by simp))
        fun decl mem => (tail decl mem).extend contains.grows.extends_).bind ?_
      exact fun _ _ rest => Ensures.pure (contains.append rest)

theorem ForInit.lower_contains {context : Context} {init : ForInit} (tidy : context.Tidy)
    (explicit : init.Explicit context.symbols) :
    Yields init.lower context (context.Contains result init.parts) := by
  cases init with
  | declarations loc decls => exact VarDecl.lowerList_contains result decls tidy explicit
  | expression loc value =>
      exact (Expr.lowerEffectOption_yields result tidy explicit).mono
        fun _ _ emits => .of_grows emits.grows

/-- The code of a statement contains itself, besides the parts inside. -/
theorem Stmt.lower_contains_self {stmt : Stmt} {context : Context}
    (inside : context.Tidy → stmt.Explicit context.symbols result →
      Yields stmt.lower context (context.Contains result stmt.parts))
    (tidy : context.Tidy) (explicit : stmt.Explicit context.symbols result) :
    Yields stmt.lower context (context.Contains result (.statement stmt :: stmt.parts)) :=
  have whole : (Part.statement stmt).Explicit context.symbols result := explicit
  (inside tidy explicit).with_run fun _ _ => Context.Contains.cons tidy whole

mutual

/-- The code of a statement contains that of the parts inside. -/
theorem Stmt.lower_contains : ∀ (stmt : Stmt) {context : Context}, context.Tidy →
    stmt.Explicit context.symbols result →
    Yields stmt.lower context (context.Contains result stmt.parts)
  | .ret loc value, context, tidy, explicit =>
      (Stmt.lower_yields result (.ret loc value) tidy explicit).mono
        fun _ _ emits => .of_grows emits.grows
  | .expr loc value, context, tidy, explicit =>
      (Stmt.lower_yields result (.expr loc value) tidy explicit).mono
        fun _ _ emits => .of_grows emits.grows
  | .ifThen loc condition thenBranch, context, tidy, explicit => by
      rcases explicit with ⟨⟨conditionExplicit, _⟩, thenExplicit⟩
      rw [Stmt.lower]
      refine Ensures.bind_ok (Pass.run_newLabelPair _ _ _) ?_
      have drawn := Context.Grows.draw context
      have tidy := drawn.tidy tidy (by simp)
      refine (Expr.lowerValue_yields result tidy
        (Expr.Explicit.extend drawn.extends_ _ conditionExplicit)).bind ?_
      rintro ⟨conditionCode, value⟩ first ⟨conditionEmits, _⟩
      have start := drawn.append conditionEmits.grows
      refine (Stmt.lower_contains_self result (Stmt.lower_contains thenBranch)
        (conditionEmits.tidy tidy) (Stmt.Explicit.extend start.extends_ _ thenExplicit)).bind ?_
      exact fun _ _ contains =>
        Ensures.pure ((contains.precede start _).follow (.refl _ _) _)
  | .ifElse loc condition thenBranch elseBranch, context, tidy, explicit => by
      rcases explicit with ⟨⟨conditionExplicit, _⟩, thenExplicit, elseExplicit⟩
      rw [Stmt.lower]
      refine Ensures.bind_ok (Pass.run_newLabelPair _ _ _) ?_
      have drawn := Context.Grows.draw context
      have tidy := drawn.tidy tidy (by simp)
      refine (Expr.lowerValue_yields result tidy
        (Expr.Explicit.extend drawn.extends_ _ conditionExplicit)).bind ?_
      rintro ⟨conditionCode, value⟩ first ⟨conditionEmits, _⟩
      have tidy := conditionEmits.tidy tidy
      have start := drawn.append conditionEmits.grows
      refine (Stmt.lower_contains_self result (Stmt.lower_contains thenBranch) tidy
        (Stmt.Explicit.extend start.extends_ _ thenExplicit)).bind ?_
      intro thenCode second thenContains
      refine (Stmt.lower_contains_self result (Stmt.lower_contains elseBranch)
        (thenContains.grows.tidy tidy (by simp))
        (Stmt.Explicit.extend (start.append thenContains.grows).extends_ _ elseExplicit)).bind ?_
      exact fun _ _ elseContains => Ensures.pure
        ((((thenContains.precede start _).follow (.refl _ _) _).append elseContains).follow
          (.refl _ _) _)
  | .block loc items, context, tidy, explicit => by
      rw [Stmt.lower]
      exact Item.lowerList_contains items tidy explicit
  | .whileLoop loc label condition body, context, tidy, explicit => by
      rcases explicit with ⟨⟨conditionExplicit, _⟩, bodyExplicit⟩
      rw [Stmt.lower]
      refine (Expr.lowerValue_yields result tidy conditionExplicit).bind ?_
      rintro ⟨conditionCode, value⟩ first ⟨conditionEmits, _⟩
      refine (Stmt.lower_contains_self result (Stmt.lower_contains body) (conditionEmits.tidy tidy)
        (Stmt.Explicit.extend conditionEmits.extends_ _ bodyExplicit)).bind ?_
      exact fun _ _ contains =>
        Ensures.pure ((contains.precede conditionEmits.grows _).follow (.refl _ _) _)
  | .doWhile loc label body condition, context, tidy, explicit => by
      rcases explicit with ⟨⟨conditionExplicit, _⟩, bodyExplicit⟩
      rw [Stmt.lower]
      refine (Stmt.lower_contains_self result (Stmt.lower_contains body) tidy bodyExplicit).bind ?_
      intro bodyCode first contains
      refine (Expr.lowerValue_yields result (contains.grows.tidy tidy (by simp))
        (Expr.Explicit.extend contains.grows.extends_ _ conditionExplicit)).bind ?_
      rintro ⟨conditionCode, value⟩ after ⟨conditionEmits, _⟩
      exact Ensures.pure ((((contains.precede (.refl _ _) _).follow (.refl _ _) _).follow
        conditionEmits.grows _).follow (.refl _ _) _)
  | .forLoop loc label init condition post body, context, tidy, explicit => by
      rcases explicit with ⟨initExplicit, conditionExplicit, postExplicit, bodyExplicit⟩
      rw [Stmt.lower]
      refine (ForInit.lower_contains result tidy initExplicit).bind ?_
      intro initCode first initContains
      have tidy := initContains.grows.tidy tidy (by simp)
      refine (Expr.lowerTest_yields result tidy fun expr mem =>
        (conditionExplicit expr mem).extend initContains.grows.extends_).bind ?_
      intro testCode second testEmits
      have tidy := testEmits.tidy tidy
      have start := initContains.grows.append testEmits.grows
      refine (Stmt.lower_contains_self result (Stmt.lower_contains body) tidy
        (Stmt.Explicit.extend start.extends_ _ bodyExplicit)).bind ?_
      intro bodyCode third bodyContains
      have start := start.append bodyContains.grows
      refine (Expr.lowerEffectOption_yields result (bodyContains.grows.tidy tidy (by simp))
        fun expr mem => (postExplicit expr mem).extend start.extends_).bind ?_
      exact fun _ _ postEmits => Ensures.pure
        ((((((initContains.follow (.refl _ _) _).follow testEmits.grows _).append
          bodyContains).follow (.refl _ _) _).follow postEmits.grows _).follow (.refl _ _) _)
  | .switch loc label value body cases, context, tidy, explicit => by
      rcases explicit with ⟨valueExplicit, integer, _, _, bodyExplicit⟩
      rw [Stmt.lower]
      refine (Expr.lowerValue_yields result tidy valueExplicit).bind ?_
      rintro ⟨valueCode, operand⟩ first ⟨valueEmits, hasValue⟩
      have tidy := valueEmits.tidy tidy
      refine (SwitchCase.lowerList_yields result (CType.isScalar_of_isInteger integer) cases tidy
        hasValue).bind ?_
      intro casesCode second casesEmits
      have start := valueEmits.grows.append casesEmits.grows
      refine (Stmt.lower_contains_self result (Stmt.lower_contains body) (casesEmits.tidy tidy)
        (Stmt.Explicit.extend start.extends_ _ bodyExplicit)).bind ?_
      exact fun _ _ contains => Ensures.pure ((contains.precede start _).follow (.refl _ _) _)
  | .case loc label value body, context, tidy, explicit => by
      rw [Stmt.lower]
      refine (Stmt.lower_contains_self result (Stmt.lower_contains body) tidy explicit.2).bind ?_
      exact fun _ _ contains => Ensures.pure (contains.precede (.refl _ _) _)
  | .default loc label body, context, tidy, explicit => by
      rw [Stmt.lower]
      refine (Stmt.lower_contains_self result (Stmt.lower_contains body) tidy explicit).bind ?_
      exact fun _ _ contains => Ensures.pure (contains.precede (.refl _ _) _)
  | .break loc label, context, tidy, _ | .continue loc label, context, tidy, _
  | .null loc, context, tidy, _ => by
      rw [Stmt.lower]
      exact Ensures.pure (.of_grows (.refl _ _))

theorem Item.lowerList_contains : ∀ (items : List Item) {context : Context}, context.Tidy →
    Item.ExplicitList context.symbols result items →
    Yields (Item.lowerList items) context (context.Contains result (Item.partsList items))
  | [], context, tidy, _ => by
      rw [Item.lowerList]
      exact Ensures.pure (.of_grows (.refl _ _))
  | .stmt stmt :: items, context, tidy, explicit => by
      rw [Item.lowerList]
      refine (Stmt.lower_contains_self result (Stmt.lower_contains stmt) tidy explicit.1).bind ?_
      intro code between contains
      refine (Item.lowerList_contains items (contains.grows.tidy tidy (by simp))
        (Item.ExplicitList.extend contains.grows.extends_ _ explicit.2)).bind ?_
      exact fun _ _ rest => Ensures.pure (contains.append rest)
  | .decl (.object decl) :: items, context, tidy, explicit => by
      rw [Item.lowerList]
      refine (VarDecl.lower_contains result tidy explicit.1).bind ?_
      intro code between contains
      refine (Item.lowerList_contains items (contains.grows.tidy tidy (by simp))
        (Item.ExplicitList.extend contains.grows.extends_ _ explicit.2)).bind ?_
      exact fun _ _ rest => Ensures.pure (contains.append rest)
  | .decl (.function decl) :: items, context, tidy, explicit => by
      rw [Item.lowerList]
      · exact Item.lowerList_contains items tidy explicit.2
      · simp
  | .decl (.definition _ _ _) :: _, context, tidy, explicit => explicit.elim

end

end

/-! ### Functions -/

theorem FunDecl.lower_contains {decl : FunDecl} {bodyLoc : Loc} {body : List Item}
    {context : Context} (tidy : context.Tidy)
    (explicit : (Decl.definition decl bodyLoc body).Explicit context.symbols) :
    Yields (decl.lower body) context fun function after =>
      context.Contains decl.result (Item.partsList body) function.body after := by
  unfold FunDecl.lower
  refine Pass.functionIsGlobal_yields.bind ?_
  rintro isGlobal _ rfl
  refine (Item.lowerList_contains decl.result body tidy explicit.2.2).bind ?_
  intro bodyCode after contains
  refine (CType.lowerEnd_yields decl.result).bind ?_
  rintro endCode _ ⟨rfl, _⟩
  exact Ensures.pure (contains.follow (.refl _ _) endCode)

/-- The code of a function contains that of the parts of its definition. -/
def Context.HoldsAll (context after : Context) (definition : FunDecl × List Item)
    (function : Function) : Prop :=
  ∀ part ∈ Item.partsList definition.2, context.Holds definition.1.result function.body after part

namespace Program

theorem lowerFunctions_holds : ∀ (program : Program) {context : Context}, context.Tidy →
    program.Explicit context.symbols →
    Yields program.lowerFunctions context fun functions after => context.Grows [] after ∧
      List.Forall₂ (context.HoldsAll after) program.definitions functions
  | [], context, tidy, _ => by
      rw [lowerFunctions]
      exact Ensures.pure ⟨.refl _ _, .nil⟩
  | .definition decl bodyLoc body :: decls, context, tidy, explicit => by
      rcases List.forall_mem_cons.1 explicit with ⟨head, tail⟩
      rw [lowerFunctions]
      refine (FunDecl.lower_contains tidy head).bind ?_
      intro function between contains
      have rest : Program.Explicit between.symbols decls :=
        fun decl mem => (tail decl mem).extend contains.grows.extends_
      refine (lowerFunctions_holds decls (contains.grows.tidy tidy (by simp)) rest).bind ?_
      rintro functions after ⟨grows, holds⟩
      refine Ensures.pure ⟨contains.grows.append grows, .cons ?_ (holds.imp ?_)⟩
      · exact fun part mem => (contains.holds part mem).widen (.refl _ _) grows
      · exact fun _ _ all part mem => (all part mem).widen contains.grows (.refl _ _)
  | .object decl :: decls, context, tidy, explicit
  | .function decl :: decls, context, tidy, explicit => by
      rcases List.forall_mem_cons.1 explicit with ⟨_, tail⟩
      rw [lowerFunctions]
      · exact lowerFunctions_holds decls tidy tail
      · simp

theorem check_parts : ∀ (program : Program) {context : Context},
    Yields program.check context fun checked _ => ∀ definition ∈ checked.definitions,
      ∀ part ∈ Item.partsList definition.2, part.IsChecked definition.1.result
  | [], context => Ensures.pure (List.forall_mem_nil _)
  | decl :: decls, context => by
      have own : Yields decl.checkFile context fun checked _ => ∀ definition ∈ checked.definition?,
          ∀ part ∈ Item.partsList definition.2, part.IsChecked definition.1.result := by
        cases decl with
        | object decl | function decl => exact Ensures.bind_any fun _ _ => Ensures.pure nofun
        | definition decl bodyLoc body =>
            refine Ensures.bind_any fun decl' _ => Ensures.bind_any fun _ _ => ?_
            refine (Item.checkList_parts body).bind fun checked _ inside => Ensures.pure ?_
            rintro _ ⟨⟩
            exact inside
      rw [check]
      refine own.bind fun checked _ ownParts => ?_
      refine (check_parts decls).bind fun others _ rest => Ensures.pure ?_
      intro definition mem
      rcases List.mem_filterMap.1 mem with ⟨found, foundMem, isDefinition⟩
      rcases List.mem_cons.1 foundMem with rfl | isOther
      · exact ownParts definition isDefinition
      · exact rest definition (List.mem_filterMap.2 ⟨found, isOther, isDefinition⟩)

theorem exists_of_mem_definitions {program : Program} {definition : FunDecl × List Item}
    (mem : definition ∈ program.definitions) :
    ∃ bodyLoc, .definition definition.1 bodyLoc definition.2 ∈ program := by
  rcases List.mem_filterMap.1 mem with ⟨decl, declMem, isDefinition⟩
  cases decl with
  | object | function => cases isDefinition
  | definition decl bodyLoc body =>
      cases isDefinition
      exact ⟨bodyLoc, declMem⟩

theorem Forall.parts {holds : TreePredicate} {program : Program} (all : program.Forall holds)
    {definition : FunDecl × List Item} (mem : definition ∈ program.definitions) :
    ∀ part ∈ Item.partsList definition.2, part.Forall holds := by
  rcases exists_of_mem_definitions mem with ⟨bodyLoc, isDefined⟩
  exact Item.ForallList.parts _ (all _ isDefined).2.2

theorem Bound.parts {describes : CType → SwitchCase → CaseNode → Prop} {program : Program}
    (bound : program.Bound describes) {definition : FunDecl × List Item}
    (mem : definition ∈ program.definitions) :
    ∀ part ∈ Item.partsList definition.2, part.Bound describes := by
  rcases exists_of_mem_definitions mem with ⟨bodyLoc, isDefined⟩
  exact Item.BoundList.parts _ (bound _ isDefined)

/-- What is known of a part of a function that an accepted source defines. -/
structure LoweredPart (context final : Context) (result : CType) (body : Code) (part : Part) :
    Prop where
  /-- Its jumps are bound, and the lists of its switches describe their cases. -/
  bound : part.Bound SwitchCase.Converts
  isChecked : part.IsChecked result
  /-- Its code stands in the code of the function. -/
  holds : context.Holds result body final part

/-- The functions that a parsed and accepted source is lowered to, next to its definitions. -/
theorem parts_of_lower {source : Text} {program analysed : Program} {lastId : Nat}
    {context final : Context} {linear : LinearProgram}
    (parses : Program.parse source = .ok (program, lastId))
    (accepts : program.analyze.run (parsedContext lastId) = .ok (analysed, context))
    (lowers : analysed.lower.run context = .ok (linear, final)) :
    List.Forall₂ (fun definition function => function.IsClosed ∧
      ∀ part ∈ Item.partsList definition.2,
        LoweredPart context final definition.1.result function.body part)
      analysed.definitions linear.functions := by
  have isAnalysed := analysed_of_parse parses accepts
  have bound := (analyze_binds (isSource_of_parse parses) rfl).of_ok accepts
  have checks : Yields program.analyze (parsedContext lastId) fun checked _ =>
      ∀ definition ∈ checked.definitions, ∀ part ∈ Item.partsList definition.2,
        part.IsChecked definition.1.result :=
    Ensures.bind_any fun _ _ => Ensures.bind_any fun labelled _ => check_parts labelled
  have isChecked := checks.of_ok accepts
  rcases (lower_functions (lowerFunctions_holds analysed isAnalysed.valid.tidy
    isAnalysed.explicit)).of_ok lowers with ⟨_, holds⟩
  have closed := (isAnalysed.lower_closed.of_ok lowers).2
  rw [List.forall₂_iff_zip] at holds ⊢
  refine ⟨holds.1, fun {definition function} mem => ⟨?_, fun part isPart => ?_⟩⟩
  · exact closed function (List.of_mem_zip mem).2
  · have isDefinition := (List.of_mem_zip mem).1
    exact ⟨bound.1.parts isDefinition part isPart, isChecked definition isDefinition part isPart,
      holds.2 mem part isPart⟩

end Program

end SubsetC
