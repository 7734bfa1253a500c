import Mathlib.Logic.Basic
import SubsetC.Ast

/-!
# Trees and their parts

Statements, blocks and compilation units are put together from expressions, declarations, places,
labels and lists of cases. A change that keeps the shape of a tree is given by what it does to each
sort of part (`TreeMap`), and a property of all parts by what it says of each sort
(`TreePredicate`). Two changes that do the same to all parts of a tree do the same to the tree.
-/

namespace SubsetC

/-- A change of the parts of a tree. -/
structure TreeMap where
  /-- What becomes of an expression of a statement. -/
  expr : Expr → Expr
  /-- What becomes of the declaration of an object, at file scope or in a block. -/
  object : (isFile : Bool) → VarDecl → VarDecl
  /-- What becomes of the declaration of a function. -/
  function : FunDecl → FunDecl
  /-- What becomes of the label of a loop, switch, case or jump. -/
  label : Option Text → Option Text
  /-- What becomes of the list of a switch's cases. -/
  cases : List SwitchCase → List SwitchCase

/-- A property of the parts of a tree. -/
structure TreePredicate where
  /-- What holds of the number and the place of a statement. -/
  loc : Loc → Prop
  /-- What holds of an expression of a statement. -/
  expr : Expr → Prop
  /-- What holds of the declaration of an object, at file scope or in a block. -/
  object : (isFile : Bool) → VarDecl → Prop
  /-- What holds of the declaration of a function. -/
  function : FunDecl → Prop
  /-- What holds of the label of a loop, switch, case or jump. -/
  label : Option Text → Prop
  /-- What holds of the list of a switch's cases. -/
  cases : List SwitchCase → Prop

/-! ### Maps -/

/-- The first clause of a for statement with its parts changed. -/
def ForInit.map (change : TreeMap) : ForInit → ForInit
  | .declarations loc decls => .declarations loc (decls.map (change.object false))
  | .expression loc value => .expression loc (value.map change.expr)

mutual

def Stmt.map (change : TreeMap) : Stmt → Stmt
  | .ret loc value => .ret loc (value.map change.expr)
  | .expr loc value => .expr loc (change.expr value)
  | .ifThen loc condition thenBranch =>
      .ifThen loc (change.expr condition) (thenBranch.map change)
  | .ifElse loc condition thenBranch elseBranch =>
      .ifElse loc (change.expr condition) (thenBranch.map change) (elseBranch.map change)
  | .block loc items => .block loc (Item.mapList change items)
  | .whileLoop loc label condition body =>
      .whileLoop loc (change.label label) (change.expr condition) (body.map change)
  | .doWhile loc label body condition =>
      .doWhile loc (change.label label) (body.map change) (change.expr condition)
  | .forLoop loc label init condition post body =>
      .forLoop loc (change.label label) (init.map change) (condition.map change.expr)
        (post.map change.expr) (body.map change)
  | .switch loc label value body cases =>
      .switch loc (change.label label) (change.expr value) (body.map change) (change.cases cases)
  | .case loc label value body =>
      .case loc (change.label label) (change.expr value) (body.map change)
  | .default loc label body => .default loc (change.label label) (body.map change)
  | .break loc label => .break loc (change.label label)
  | .continue loc label => .continue loc (change.label label)
  | .null loc => .null loc

def Decl.map (change : TreeMap) (isFile : Bool) : Decl → Decl
  | .object decl => .object (change.object isFile decl)
  | .function decl => .function (change.function decl)
  | .definition decl bodyLoc body =>
      .definition (change.function decl) bodyLoc (Item.mapList change body)

def Item.mapList (change : TreeMap) : List Item → List Item
  | [] => []
  | .stmt stmt :: items => .stmt (stmt.map change) :: Item.mapList change items
  | .decl decl :: items => .decl (decl.map change false) :: Item.mapList change items

end

/-- The compilation unit with the parts of its declarations changed. -/
def Program.mapParts (change : TreeMap) (program : Program) : Program :=
  program.map (Decl.map change true)

/-! ### Properties of all parts -/

/-- All parts of the first clause of a for statement have a property. -/
def ForInit.Forall (holds : TreePredicate) : ForInit → Prop
  | .declarations loc decls => holds.loc loc ∧ ∀ decl ∈ decls, holds.object false decl
  | .expression loc value => holds.loc loc ∧ ∀ expr ∈ value, holds.expr expr

mutual

/-- All parts of the statement have a property. -/
def Stmt.Forall (holds : TreePredicate) : Stmt → Prop
  | .ret loc value => holds.loc loc ∧ ∀ expr ∈ value, holds.expr expr
  | .expr loc value => holds.loc loc ∧ holds.expr value
  | .ifThen loc condition thenBranch =>
      holds.loc loc ∧ holds.expr condition ∧ thenBranch.Forall holds
  | .ifElse loc condition thenBranch elseBranch =>
      holds.loc loc ∧ holds.expr condition ∧ thenBranch.Forall holds ∧ elseBranch.Forall holds
  | .block loc items => holds.loc loc ∧ Item.ForallList holds items
  | .whileLoop loc label condition body | .doWhile loc label body condition =>
      holds.loc loc ∧ holds.label label ∧ holds.expr condition ∧ body.Forall holds
  | .forLoop loc label init condition post body =>
      holds.loc loc ∧ holds.label label ∧ init.Forall holds ∧
        (∀ expr ∈ condition, holds.expr expr) ∧ (∀ expr ∈ post, holds.expr expr) ∧
          body.Forall holds
  | .switch loc label value body cases =>
      holds.loc loc ∧ holds.label label ∧ holds.expr value ∧ body.Forall holds ∧
        holds.cases cases
  | .case loc label value body =>
      holds.loc loc ∧ holds.label label ∧ holds.expr value ∧ body.Forall holds
  | .default loc label body => holds.loc loc ∧ holds.label label ∧ body.Forall holds
  | .break loc label | .continue loc label => holds.loc loc ∧ holds.label label
  | .null loc => holds.loc loc

/-- All parts of the declaration have a property. -/
def Decl.Forall (holds : TreePredicate) (isFile : Bool) : Decl → Prop
  | .object decl => holds.object isFile decl
  | .function decl => holds.function decl
  | .definition decl bodyLoc body =>
      holds.function decl ∧ holds.loc bodyLoc ∧ Item.ForallList holds body

def Item.ForallList (holds : TreePredicate) : List Item → Prop
  | [] => True
  | .stmt stmt :: items => stmt.Forall holds ∧ Item.ForallList holds items
  | .decl decl :: items => decl.Forall holds false ∧ Item.ForallList holds items

end

/-- All parts of the compilation unit have a property. -/
def Program.Forall (holds : TreePredicate) (program : Program) : Prop :=
  ∀ decl ∈ program, decl.Forall holds true

/-! ### Changes that agree -/

/-- Two changes do the same to all parts with a property. -/
structure TreeMap.Agrees (holds : TreePredicate) (change other : TreeMap) : Prop where
  expr : ∀ expr, holds.expr expr → change.expr expr = other.expr expr
  object : ∀ isFile decl, holds.object isFile decl →
    change.object isFile decl = other.object isFile decl
  function : ∀ decl, holds.function decl → change.function decl = other.function decl
  label : ∀ label, holds.label label → change.label label = other.label label
  cases : ∀ cases, holds.cases cases → change.cases cases = other.cases cases

namespace TreeMap.Agrees

variable {holds : TreePredicate} {change other : TreeMap}

theorem exprOption (agrees : change.Agrees holds other) {value : Option Expr}
    (all : ∀ expr ∈ value, holds.expr expr) : value.map change.expr = value.map other.expr :=
  Option.map_congr fun expr mem => agrees.expr expr (all expr mem)

theorem forInit (agrees : change.Agrees holds other) {init : ForInit} (all : init.Forall holds) :
    init.map change = init.map other := by
  cases init with
  | declarations loc decls =>
      exact congrArg _ (List.map_congr_left fun decl mem =>
        agrees.object false decl (all.2 decl mem))
  | expression loc value => exact congrArg _ (agrees.exprOption all.2)

mutual

theorem stmt (agrees : change.Agrees holds other) :
    ∀ stmt : Stmt, stmt.Forall holds → stmt.map change = stmt.map other
  | .ret _ _, all => congrArg _ (agrees.exprOption all.2)
  | .expr _ value, all => congrArg _ (agrees.expr value all.2)
  | .ifThen _ condition thenBranch, all => by
      rw [Stmt.map, Stmt.map, agrees.expr condition all.2.1, stmt agrees thenBranch all.2.2]
  | .ifElse _ condition thenBranch elseBranch, all => by
      rw [Stmt.map, Stmt.map, agrees.expr condition all.2.1, stmt agrees thenBranch all.2.2.1,
        stmt agrees elseBranch all.2.2.2]
  | .block _ items, all => congrArg _ (itemList agrees items all.2)
  | .whileLoop _ label condition body, all | .doWhile _ label body condition, all => by
      rw [Stmt.map, Stmt.map, agrees.label label all.2.1, agrees.expr condition all.2.2.1,
        stmt agrees body all.2.2.2]
  | .forLoop _ label init condition post body, all => by
      rcases all with ⟨_, hasLabel, hasInit, hasCondition, hasPost, hasBody⟩
      rw [Stmt.map, Stmt.map, agrees.label label hasLabel, agrees.forInit hasInit,
        agrees.exprOption hasCondition, agrees.exprOption hasPost, stmt agrees body hasBody]
  | .switch _ label value body cases, all => by
      rcases all with ⟨_, hasLabel, hasValue, hasBody, hasCases⟩
      rw [Stmt.map, Stmt.map, agrees.label label hasLabel, agrees.expr value hasValue,
        stmt agrees body hasBody, agrees.cases cases hasCases]
  | .case _ label value body, all => by
      rw [Stmt.map, Stmt.map, agrees.label label all.2.1, agrees.expr value all.2.2.1,
        stmt agrees body all.2.2.2]
  | .default _ label body, all => by
      rw [Stmt.map, Stmt.map, agrees.label label all.2.1, stmt agrees body all.2.2]
  | .break _ label, all | .continue _ label, all => by
      rw [Stmt.map, Stmt.map, agrees.label label all.2]
  | .null _, _ => rfl

theorem decl (agrees : change.Agrees holds other) (isFile : Bool) :
    ∀ decl : Decl, decl.Forall holds isFile → decl.map change isFile = decl.map other isFile
  | .object decl, all => congrArg _ (agrees.object isFile decl all)
  | .function decl, all => congrArg _ (agrees.function decl all)
  | .definition decl _ body, all => by
      rw [Decl.map, Decl.map, agrees.function decl all.1, itemList agrees body all.2.2]

theorem itemList (agrees : change.Agrees holds other) :
    ∀ items : List Item, Item.ForallList holds items →
      Item.mapList change items = Item.mapList other items
  | [], _ => rfl
  | .stmt first :: rest, all => by
      rw [Item.mapList, Item.mapList, stmt agrees first all.1, itemList agrees rest all.2]
  | .decl first :: rest, all => by
      rw [Item.mapList, Item.mapList, decl agrees false first all.1, itemList agrees rest all.2]

end

/-- Two changes that do the same to all parts of a compilation unit change it alike. -/
theorem program (agrees : change.Agrees holds other) {program : Program}
    (all : program.Forall holds) : program.mapParts change = program.mapParts other :=
  List.map_congr_left fun first mem => agrees.decl true first (all first mem)

end TreeMap.Agrees

/-! ### Changes one after the other -/

namespace TreeMap

/-- The change that leaves all parts alone. -/
def identity : TreeMap := ⟨id, fun _ => id, id, id, id⟩

/-- One change after the other. -/
def andThen (first second : TreeMap) : TreeMap where
  expr := second.expr ∘ first.expr
  object isFile := second.object isFile ∘ first.object isFile
  function := second.function ∘ first.function
  label := second.label ∘ first.label
  cases := second.cases ∘ first.cases

end TreeMap

theorem ForInit.map_identity (init : ForInit) : init.map .identity = init := by
  cases init <;> simp [ForInit.map, TreeMap.identity]

mutual

theorem Stmt.map_identity : ∀ stmt : Stmt, stmt.map .identity = stmt
  | .ret _ _ => congrArg _ Option.map_id'
  | .expr _ _ | .break _ _ | .continue _ _ | .null _ => rfl
  | .ifThen _ _ body | .whileLoop _ _ _ body | .doWhile _ _ body _ | .switch _ _ _ body _
  | .case _ _ _ body | .default _ _ body => by
      rw [Stmt.map, Stmt.map_identity body]
      rfl
  | .ifElse _ _ thenBranch elseBranch => by
      rw [Stmt.map, Stmt.map_identity thenBranch, Stmt.map_identity elseBranch]
      rfl
  | .block _ items => congrArg _ (Item.mapList_identity items)
  | .forLoop _ _ init _ _ body => by
      rw [Stmt.map, init.map_identity, Stmt.map_identity body]
      simp [TreeMap.identity]

theorem Decl.map_identity (isFile : Bool) : ∀ decl : Decl, decl.map .identity isFile = decl
  | .object _ | .function _ => rfl
  | .definition _ _ body => congrArg _ (Item.mapList_identity body)

theorem Item.mapList_identity : ∀ items : List Item, Item.mapList .identity items = items
  | [] => rfl
  | .stmt stmt :: items => by
      rw [Item.mapList, Stmt.map_identity stmt, Item.mapList_identity items]
  | .decl decl :: items => by
      rw [Item.mapList, Decl.map_identity false decl, Item.mapList_identity items]

end

theorem Program.mapParts_identity (program : Program) : program.mapParts .identity = program :=
  (List.map_congr_left fun decl _ => Decl.map_identity true decl).trans (List.map_id _)

section

variable (first second : TreeMap)

theorem ForInit.map_map (init : ForInit) :
    (init.map first).map second = init.map (first.andThen second) := by
  cases init <;> simp [ForInit.map, TreeMap.andThen]

mutual

theorem Stmt.map_map : ∀ stmt : Stmt, (stmt.map first).map second = stmt.map (first.andThen second)
  | .ret _ _ => congrArg _ (Option.map_map _ _ _)
  | .expr _ _ | .break _ _ | .continue _ _ | .null _ => rfl
  | .ifThen _ _ body | .whileLoop _ _ _ body | .doWhile _ _ body _ | .switch _ _ _ body _
  | .case _ _ _ body | .default _ _ body => by
      rw [Stmt.map, Stmt.map, Stmt.map_map body]
      rfl
  | .ifElse _ _ thenBranch elseBranch => by
      rw [Stmt.map, Stmt.map, Stmt.map_map thenBranch, Stmt.map_map elseBranch]
      rfl
  | .block _ items => congrArg _ (Item.mapList_map items)
  | .forLoop _ _ init _ _ body => by
      rw [Stmt.map, Stmt.map, init.map_map, Stmt.map_map body]
      simp [Stmt.map, TreeMap.andThen]

theorem Decl.map_map (isFile : Bool) :
    ∀ decl : Decl, (decl.map first isFile).map second isFile = decl.map (first.andThen second) isFile
  | .object _ | .function _ => rfl
  | .definition _ _ body => congrArg _ (Item.mapList_map body)

theorem Item.mapList_map :
    ∀ items : List Item, Item.mapList second (Item.mapList first items) =
      Item.mapList (first.andThen second) items
  | [] => rfl
  | .stmt stmt :: items => by
      rw [Item.mapList, Item.mapList, Item.mapList, Stmt.map_map stmt, Item.mapList_map items]
  | .decl decl :: items => by
      rw [Item.mapList, Item.mapList, Item.mapList, Decl.map_map false decl,
        Item.mapList_map items]

end

theorem Program.mapParts_mapParts (program : Program) :
    (program.mapParts first).mapParts second = program.mapParts (first.andThen second) := by
  simp only [Program.mapParts, List.map_map]
  exact List.map_congr_left fun decl _ => Decl.map_map first second true decl

end

/-! ### Properties that follow from each other -/

namespace TreePredicate

/-- What a property says of a tree whose parts are changed. -/
def comap (holds : TreePredicate) (change : TreeMap) : TreePredicate where
  loc := holds.loc
  expr := holds.expr ∘ change.expr
  object isFile := holds.object isFile ∘ change.object isFile
  function := holds.function ∘ change.function
  label := holds.label ∘ change.label
  cases := holds.cases ∘ change.cases

/-- One property of parts implies another. -/
structure Implies (holds other : TreePredicate) : Prop where
  loc : ∀ loc, holds.loc loc → other.loc loc
  expr : ∀ expr, holds.expr expr → other.expr expr
  object : ∀ isFile decl, holds.object isFile decl → other.object isFile decl
  function : ∀ decl, holds.function decl → other.function decl
  label : ∀ label, holds.label label → other.label label
  cases : ∀ cases, holds.cases cases → other.cases cases

end TreePredicate

section

variable {holds : TreePredicate} {change : TreeMap}

theorem ForInit.forall_map : ∀ {init : ForInit},
    (init.map change).Forall holds ↔ init.Forall (holds.comap change)
  | .declarations _ _ => by simp [ForInit.map, ForInit.Forall, TreePredicate.comap]
  | .expression _ _ => by simp [ForInit.map, ForInit.Forall, TreePredicate.comap]

mutual

theorem Stmt.forall_map : ∀ {stmt : Stmt},
    (stmt.map change).Forall holds ↔ stmt.Forall (holds.comap change)
  | .ret _ _ | .expr _ _ | .break _ _ | .continue _ _ | .null _ => by
      simp [Stmt.map, Stmt.Forall, TreePredicate.comap]
  | .ifThen _ _ _ | .whileLoop _ _ _ _ | .doWhile _ _ _ _ | .switch _ _ _ _ _ | .case _ _ _ _
  | .default _ _ _ => by
      rw [Stmt.map, Stmt.Forall, Stmt.Forall, Stmt.forall_map]
      rfl
  | .ifElse _ _ _ _ => by
      rw [Stmt.map, Stmt.Forall, Stmt.Forall, Stmt.forall_map, Stmt.forall_map]
      rfl
  | .block _ _ => by
      rw [Stmt.map, Stmt.Forall, Stmt.Forall, Item.forallList_map]
      rfl
  | .forLoop _ _ init condition post body => by
      rw [Stmt.map, Stmt.Forall, Stmt.Forall, init.forall_map, Stmt.forall_map]
      simp [TreePredicate.comap]

theorem Decl.forall_map {isFile : Bool} : ∀ {decl : Decl},
    (decl.map change isFile).Forall holds isFile ↔ decl.Forall (holds.comap change) isFile
  | .object _ | .function _ => Iff.rfl
  | .definition _ _ _ => by
      rw [Decl.map, Decl.Forall, Decl.Forall, Item.forallList_map]
      rfl

theorem Item.forallList_map : ∀ {items : List Item},
    Item.ForallList holds (Item.mapList change items) ↔
      Item.ForallList (holds.comap change) items
  | [] => Iff.rfl
  | .stmt _ :: _ => by
      rw [Item.mapList, Item.ForallList, Item.ForallList, Stmt.forall_map, Item.forallList_map]
  | .decl _ :: _ => by
      rw [Item.mapList, Item.ForallList, Item.ForallList, Decl.forall_map, Item.forallList_map]

end

/-- All parts of a changed compilation unit have a property if the changed parts do. -/
theorem Program.forall_mapParts {program : Program} :
    (program.mapParts change).Forall holds ↔ program.Forall (holds.comap change) := by
  rw [Program.Forall, Program.mapParts, List.forall_mem_map]
  exact forall₂_congr fun _ _ => Decl.forall_map

end

-- The recursive calls of a mutual block hide that its theorems use the hypothesis.
set_option linter.unusedSectionVars false

section

variable {holds other : TreePredicate} (implies : holds.Implies other)

include implies

theorem ForInit.Forall.mono : ∀ {init : ForInit}, init.Forall holds → init.Forall other
  | .declarations _ _, all =>
      ⟨implies.loc _ all.1, fun decl mem => implies.object false decl (all.2 decl mem)⟩
  | .expression _ _, all => ⟨implies.loc _ all.1, fun expr mem => implies.expr expr (all.2 expr mem)⟩

mutual

theorem Stmt.Forall.mono : ∀ {stmt : Stmt}, stmt.Forall holds → stmt.Forall other
  | .ret _ _, all => ⟨implies.loc _ all.1, fun expr mem => implies.expr expr (all.2 expr mem)⟩
  | .expr _ _, all => ⟨implies.loc _ all.1, implies.expr _ all.2⟩
  | .ifThen _ _ _, all =>
      ⟨implies.loc _ all.1, implies.expr _ all.2.1, Stmt.Forall.mono all.2.2⟩
  | .ifElse _ _ _ _, all =>
      ⟨implies.loc _ all.1, implies.expr _ all.2.1, Stmt.Forall.mono all.2.2.1,
        Stmt.Forall.mono all.2.2.2⟩
  | .block _ _, all => ⟨implies.loc _ all.1, Item.forallList_mono all.2⟩
  | .whileLoop _ _ _ _, all | .doWhile _ _ _ _, all =>
      ⟨implies.loc _ all.1, implies.label _ all.2.1, implies.expr _ all.2.2.1,
        Stmt.Forall.mono all.2.2.2⟩
  | .forLoop _ _ _ _ _ _, all => by
      rcases all with ⟨loc, label, init, condition, post, body⟩
      exact ⟨implies.loc _ loc, implies.label _ label, init.mono implies,
        fun expr mem => implies.expr expr (condition expr mem),
        fun expr mem => implies.expr expr (post expr mem), Stmt.Forall.mono body⟩
  | .switch _ _ _ _ _, all =>
      ⟨implies.loc _ all.1, implies.label _ all.2.1, implies.expr _ all.2.2.1,
        Stmt.Forall.mono all.2.2.2.1, implies.cases _ all.2.2.2.2⟩
  | .case _ _ _ _, all =>
      ⟨implies.loc _ all.1, implies.label _ all.2.1, implies.expr _ all.2.2.1,
        Stmt.Forall.mono all.2.2.2⟩
  | .default _ _ _, all =>
      ⟨implies.loc _ all.1, implies.label _ all.2.1, Stmt.Forall.mono all.2.2⟩
  | .break _ _, all | .continue _ _, all => ⟨implies.loc _ all.1, implies.label _ all.2⟩
  | .null _, all => implies.loc _ all

theorem Decl.Forall.mono {isFile : Bool} : ∀ {decl : Decl},
    decl.Forall holds isFile → decl.Forall other isFile
  | .object _, all => implies.object isFile _ all
  | .function _, all => implies.function _ all
  | .definition _ _ _, all =>
      ⟨implies.function _ all.1, implies.loc _ all.2.1, Item.forallList_mono all.2.2⟩

theorem Item.forallList_mono : ∀ {items : List Item},
    Item.ForallList holds items → Item.ForallList other items
  | [], _ => trivial
  | .stmt _ :: _, all => ⟨Stmt.Forall.mono all.1, Item.forallList_mono all.2⟩
  | .decl _ :: _, all => ⟨Decl.Forall.mono all.1, Item.forallList_mono all.2⟩

end

/-- What all parts of a compilation unit have may be weakened. -/
theorem Program.Forall.mono {program : Program} (all : program.Forall holds) :
    program.Forall other :=
  fun decl mem => (all decl mem).mono implies

end

end SubsetC
