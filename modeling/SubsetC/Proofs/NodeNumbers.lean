import SubsetC.Proofs.TreeParts

/-!
# Numbers of nodes

The numbers of the nodes of a tree, in the order in which a parser that reads from the left builds
them: a node comes behind its children, and the children stand as in the source. `Numbers` says that
numbers are handed out one after the other, and splits where a list of nodes does.
-/

namespace SubsetC

namespace Expr

mutual

/-- The numbers of the nodes of an expression, children first. -/
def ids : Expr → List Nat
  | .constant note _ | .string note _ | .var note _ | .sizeofType note _ => [note.loc.id]
  | .unary note _ operand | .cast note _ operand _ | .addressOf note operand
  | .dereference note operand | .step note _ _ operand | .sizeofExpr note operand
  | .decay note operand => operand.ids ++ [note.loc.id]
  | .binary note _ left right | .assign note _ left right _ | .subscript note left right =>
      left.ids ++ right.ids ++ [note.loc.id]
  | .conditional note condition thenBranch elseBranch =>
      condition.ids ++ thenBranch.ids ++ elseBranch.ids ++ [note.loc.id]
  | .call note _ arguments => idsList arguments ++ [note.loc.id]

def idsList : List Expr → List Nat
  | [] => []
  | expr :: exprs => expr.ids ++ idsList exprs

end

def idsOption : Option Expr → List Nat
  | none => []
  | some expr => expr.ids

end Expr

namespace Initializer

mutual

/-- The numbers of the nodes of an initializer, children first. -/
def ids : Initializer → List Nat
  | .single loc value => value.ids ++ [loc.id]
  | .compound loc items => idsList items ++ [loc.id]

def idsList : List Initializer → List Nat
  | [] => []
  | item :: items => item.ids ++ idsList items

end

theorem idsList_append : ∀ first second : List Initializer,
    idsList (first ++ second) = idsList first ++ idsList second
  | [], _ => rfl
  | item :: items, second => by
      rw [List.cons_append, idsList, idsList, idsList_append items second, List.append_assoc]

end Initializer

namespace VarDecl

/-- The numbers of the nodes of the declaration of an object. -/
def ids (decl : VarDecl) : List Nat :=
  (match decl.init with
    | none => []
    | some init => init.ids) ++ [decl.loc.id]

def idsList (decls : List VarDecl) : List Nat := decls.flatMap ids

end VarDecl

/-- The numbers of the nodes of the first clause of a for statement. -/
def ForInit.ids : ForInit → List Nat
  | .declarations loc decls => VarDecl.idsList decls ++ [loc.id]
  | .expression loc value => Expr.idsOption value ++ [loc.id]

mutual

/-- The numbers of the nodes of a statement, children first. -/
def Stmt.ids : Stmt → List Nat
  | .ret loc value => Expr.idsOption value ++ [loc.id]
  | .expr loc value => value.ids ++ [loc.id]
  | .ifThen loc condition body | .whileLoop loc _ condition body | .switch loc _ condition body _
  | .case loc _ condition body => condition.ids ++ body.ids ++ [loc.id]
  | .ifElse loc condition thenBranch elseBranch =>
      condition.ids ++ thenBranch.ids ++ elseBranch.ids ++ [loc.id]
  | .block loc items => Item.idsList items ++ [loc.id]
  | .doWhile loc _ body condition => body.ids ++ condition.ids ++ [loc.id]
  | .forLoop loc _ init condition post body =>
      init.ids ++ Expr.idsOption condition ++ Expr.idsOption post ++ body.ids ++ [loc.id]
  | .default loc _ body => body.ids ++ [loc.id]
  | .break loc _ | .continue loc _ | .null loc => [loc.id]

/-- The numbers of the nodes of a declaration, children first. -/
def Decl.ids : Decl → List Nat
  | .object decl => decl.ids
  | .function decl => [decl.loc.id]
  | .definition decl bodyLoc body => Item.idsList body ++ [bodyLoc.id] ++ [decl.loc.id]

def Item.idsList : List Item → List Nat
  | [] => []
  | .stmt stmt :: items => stmt.ids ++ Item.idsList items
  | .decl decl :: items => decl.ids ++ Item.idsList items

end

/-- The numbers of the nodes of a compilation unit, children first. -/
def Program.ids (program : Program) : List Nat := program.flatMap Decl.ids

theorem Item.idsList_append_decls : ∀ (decls : List Decl) (items : List Item),
    Item.idsList (decls.map .decl ++ items) = decls.flatMap Decl.ids ++ Item.idsList items
  | [], _ => rfl
  | first :: rest, items => by
      rw [List.map_cons, List.cons_append, Item.idsList, Item.idsList_append_decls rest items,
        List.flatMap_cons, List.append_assoc]

/-! ### Consecutive numbers -/

/-- A list of nodes is numbered from the one behind the first number through the second. -/
structure Numbers (low high : Nat) (ids : List Nat) : Prop where
  /-- Numbers go up. -/
  le : low ≤ high
  /-- Each number between the two is handed out once, in order. -/
  ids_eq : ids = List.range' (low + 1) (high - low)

namespace Numbers

variable {low middle high : Nat} {first second : List Nat}

theorem nil : Numbers low low [] := ⟨Nat.le_refl low, by simp⟩

theorem one : Numbers low (low + 1) [low + 1] := ⟨Nat.le_succ low, by simp⟩

theorem append (numbers : Numbers low middle first) (others : Numbers middle high second) :
    Numbers low high (first ++ second) := by
  refine ⟨Nat.le_trans numbers.le others.le, ?_⟩
  have shift : middle + 1 = low + 1 + 1 * (middle - low) := by have := numbers.le; omega
  have total : high - low = middle - low + (high - middle) := by
    have := numbers.le
    have := others.le
    omega
  rw [numbers.ids_eq, others.ids_eq, shift, List.range'_append, total]

/-- A node behind its children. -/
theorem snoc (numbers : Numbers low high first) : Numbers low (high + 1) (first ++ [high + 1]) :=
  numbers.append one

theorem le_of_mem (numbers : Numbers low high first) {id : Nat} (mem : id ∈ first) : id ≤ high := by
  have := numbers.le
  rw [numbers.ids_eq, List.mem_range'_1] at mem
  omega

end Numbers

/-! ### Objects of a tree -/

namespace Initializer

mutual

/-- The numbers of an initializer and of those in it are bounded. -/
def IsNumbered (bound : Nat) : Initializer → Prop
  | .single loc _ => loc.id ≤ bound
  | .compound loc items => loc.id ≤ bound ∧ AreNumbered bound items

def AreNumbered (bound : Nat) : List Initializer → Prop
  | [] => True
  | item :: items => item.IsNumbered bound ∧ AreNumbered bound items

end

mutual

theorem isNumbered_of_ids {bound : Nat} : ∀ init : Initializer,
    (∀ id ∈ init.ids, id ≤ bound) → init.IsNumbered bound
  | .single loc _, bounded => bounded loc.id (by simp [ids])
  | .compound loc items, bounded => by
      rw [ids, List.forall_mem_append] at bounded
      exact ⟨bounded.2 loc.id (List.mem_singleton.2 rfl), areNumbered_of_ids items bounded.1⟩

theorem areNumbered_of_ids {bound : Nat} : ∀ items : List Initializer,
    (∀ id ∈ idsList items, id ≤ bound) → AreNumbered bound items
  | [], _ => trivial
  | item :: items, bounded => by
      rw [idsList, List.forall_mem_append] at bounded
      exact ⟨isNumbered_of_ids item bounded.1, areNumbered_of_ids items bounded.2⟩

end

end Initializer

/-- The numbers of the initializers in a tree are bounded. -/
def TreePredicate.numbered (bound : Nat) : TreePredicate where
  loc _ := True
  expr _ := True
  object _ decl := ∀ init ∈ decl.init, init.IsNumbered bound
  function _ := True
  label _ := True
  cases _ := True

section

variable {bound : Nat}

theorem VarDecl.forall_numbered {decl : VarDecl} (bounded : ∀ id ∈ decl.ids, id ≤ bound) :
    ∀ init ∈ decl.init, init.IsNumbered bound := by
  intro init mem
  refine init.isNumbered_of_ids fun id isIn => bounded id ?_
  rw [VarDecl.ids, Option.mem_def.1 mem]
  exact List.mem_append_left _ isIn

theorem ForInit.forall_numbered {init : ForInit} (bounded : ∀ id ∈ init.ids, id ≤ bound) :
    init.Forall (.numbered bound) := by
  cases init with
  | declarations loc decls =>
      refine ⟨trivial, fun decl mem => decl.forall_numbered fun id isOwn => bounded id ?_⟩
      exact List.mem_append_left _ (List.mem_flatMap.2 ⟨decl, mem, isOwn⟩)
  | expression loc value => exact ⟨trivial, fun _ _ => trivial⟩

mutual

theorem Stmt.forall_numbered :
    ∀ stmt : Stmt, (∀ id ∈ stmt.ids, id ≤ bound) → stmt.Forall (.numbered bound)
  | .ret _ _, _ => ⟨trivial, fun _ _ => trivial⟩
  | .expr _ _, _ | .break _ _, _ | .continue _ _, _ => ⟨trivial, trivial⟩
  | .null _, _ => trivial
  | .ifThen _ _ body, bounded => by
      simp only [Stmt.ids, List.forall_mem_append] at bounded
      exact ⟨trivial, trivial, Stmt.forall_numbered body bounded.1.2⟩
  | .ifElse _ _ thenBranch elseBranch, bounded => by
      simp only [Stmt.ids, List.forall_mem_append] at bounded
      exact ⟨trivial, trivial, Stmt.forall_numbered thenBranch bounded.1.1.2,
        Stmt.forall_numbered elseBranch bounded.1.2⟩
  | .block _ items, bounded =>
      ⟨trivial, Item.forall_numbered items (List.forall_mem_append.1 bounded).1⟩
  | .whileLoop _ _ _ body, bounded => by
      simp only [Stmt.ids, List.forall_mem_append] at bounded
      exact ⟨trivial, trivial, trivial, Stmt.forall_numbered body bounded.1.2⟩
  | .doWhile _ _ body _, bounded => by
      simp only [Stmt.ids, List.forall_mem_append] at bounded
      exact ⟨trivial, trivial, trivial, Stmt.forall_numbered body bounded.1.1⟩
  | .forLoop _ _ init _ _ body, bounded => by
      simp only [Stmt.ids, List.forall_mem_append] at bounded
      exact ⟨trivial, trivial, init.forall_numbered bounded.1.1.1.1, fun _ _ => trivial,
        fun _ _ => trivial, Stmt.forall_numbered body bounded.1.2⟩
  | .switch _ _ _ body _, bounded => by
      simp only [Stmt.ids, List.forall_mem_append] at bounded
      exact ⟨trivial, trivial, trivial, Stmt.forall_numbered body bounded.1.2, trivial⟩
  | .case _ _ _ body, bounded => by
      simp only [Stmt.ids, List.forall_mem_append] at bounded
      exact ⟨trivial, trivial, trivial, Stmt.forall_numbered body bounded.1.2⟩
  | .default _ _ body, bounded => by
      simp only [Stmt.ids, List.forall_mem_append] at bounded
      exact ⟨trivial, trivial, Stmt.forall_numbered body bounded.1⟩

theorem Decl.forall_numbered (isFile : Bool) :
    ∀ decl : Decl, (∀ id ∈ decl.ids, id ≤ bound) → decl.Forall (.numbered bound) isFile
  | .object decl, bounded => decl.forall_numbered bounded
  | .function _, _ => trivial
  | .definition _ _ body, bounded => by
      simp only [Decl.ids, List.forall_mem_append] at bounded
      exact ⟨trivial, trivial, Item.forall_numbered body bounded.1.1⟩

theorem Item.forall_numbered : ∀ items : List Item, (∀ id ∈ Item.idsList items, id ≤ bound) →
    Item.ForallList (.numbered bound) items
  | [], _ => trivial
  | .stmt first :: rest, bounded => by
      simp only [Item.idsList, List.forall_mem_append] at bounded
      exact ⟨Stmt.forall_numbered first bounded.1, Item.forall_numbered rest bounded.2⟩
  | .decl first :: rest, bounded => by
      simp only [Item.idsList, List.forall_mem_append] at bounded
      exact ⟨Decl.forall_numbered false first bounded.1, Item.forall_numbered rest bounded.2⟩

end

/-- A bound on all numbers of a compilation unit is one on those of its initializers. -/
theorem Program.forall_numbered {program : Program} (bounded : ∀ id ∈ program.ids, id ≤ bound) :
    program.Forall (.numbered bound) := by
  intro decl mem
  refine Decl.forall_numbered true decl fun id isOwn => bounded id ?_
  exact List.mem_flatMap.2 ⟨decl, mem, isOwn⟩

end

end SubsetC
