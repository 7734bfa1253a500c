import SubsetC.Proofs.Machine

/-!
# The meaning of structured trees

What an analysed tree computes, on the part of the language with integer objects and structured
control flow. Expressions have values, in which nothing happens besides; assignments and steps
happen as whole expressions only. A statement ends by running to its end, by a jump or by returning
something. Jumps need no labels here: a break ends the innermost loop or switch around it, and a
switch goes on at the first case among the items of its block that has the value, or else at the
default.

The rounds of each loop are counted. An execution that needs more rounds than it is given is
unfinished, so that a tree that runs forever is unfinished for every number of rounds.
-/

namespace SubsetC

/-! ### Expressions -/

/-- The value of a unary operator, at the integer type of its result. -/
def UnaryOp.apply (op : UnaryOp) (kind : IntType) (number : Int) : Int :=
  match op with
  | .negate => kind.wrap (-number)
  | .complement => kind.wrap (-number - 1)
  | .not => (number == 0).toInt
  | .plus => number

/-- The value an object gets that is updated by an operation: it is computed at a type of its own
and converted back. -/
def ArithOp.update? (gaps : Gaps) (op : ArithOp) (kind opKind : IntType) (current right : Int) :
    Option Int :=
  (op.apply gaps opKind (opKind.wrap current) right).map kind.wrap

/-- The operation of a step by one. -/
def StepOp.arith : StepOp → ArithOp
  | .increment => .add
  | .decrement => .sub

namespace Expr

/-- The value of an expression. There is none where the value is undefined. -/
def eval? (gaps : Gaps) (store : Store) : Expr → Option Int
  | .constant _ value => value.number?
  | .var note name => do
    let kind ← note.knownType.kind?
    some (kind.wrap (store name))
  | .unary note op operand => do
    let kind ← note.knownType.kind?
    let number ← operand.eval? gaps store
    some (op.apply kind number)
  | .binary note (.arith op) left right => do
    let kind ← note.knownType.kind?
    let leftNumber ← left.eval? gaps store
    let rightNumber ← right.eval? gaps store
    op.apply gaps kind leftNumber rightNumber
  | .binary _ (.compare op) left right => do
    let leftNumber ← left.eval? gaps store
    let rightNumber ← right.eval? gaps store
    some (op.holds leftNumber rightNumber).toInt
  | .binary _ (.logic .and) left right => do
    let leftNumber ← left.eval? gaps store
    if leftNumber = 0 then some 0
    else
      let rightNumber ← right.eval? gaps store
      some (rightNumber != 0).toInt
  | .binary _ (.logic .or) left right => do
    let leftNumber ← left.eval? gaps store
    if leftNumber ≠ 0 then some 1
    else
      let rightNumber ← right.eval? gaps store
      some (rightNumber != 0).toInt
  | .conditional _ condition thenBranch elseBranch => do
    let number ← condition.eval? gaps store
    if number = 0 then elseBranch.eval? gaps store else thenBranch.eval? gaps store
  | .cast _ target operand _ => do
    let kind ← target.kind?
    let number ← operand.eval? gaps store
    some (kind.wrap number)
  | .sizeofExpr _ operand => some (IntType.ulong.wrap operand.type.size)
  | .sizeofType _ operand => some (IntType.ulong.wrap operand.size)
  | _ => none

/-- Whether the expression computes an integer from constants and integer objects alone. -/
def isPure : Expr → Bool
  | .constant _ value => value.type.isInteger
  | .var note _ => note.knownType.isInteger
  | .unary _ _ operand => operand.isPure
  | .binary _ _ left right => left.isPure && right.isPure
  | .conditional _ condition thenBranch elseBranch =>
    condition.isPure && thenBranch.isPure && elseBranch.isPure
  | .cast _ target operand _ => target.isInteger && operand.isPure
  | .sizeofExpr _ _ | .sizeofType _ _ => true
  | _ => false

/-- The store after an expression whose value is not used. -/
def perform? (gaps : Gaps) (store : Store) : Expr → Option Store
  | .assign _ .plain (.var note name) right _ => do
    let kind ← note.knownType.kind?
    let number ← right.eval? gaps store
    some (store.set name (kind.wrap number))
  | .assign _ (.compound op) (.var note name) right opType => do
    let kind ← note.knownType.kind?
    let opKind ← (opType.getD .void).kind?
    let number ← right.eval? gaps store
    let updated ← op.update? gaps kind opKind (kind.wrap (store name)) number
    some (store.set name updated)
  | .step _ _ op (.var note name) => do
    let kind ← note.knownType.kind?
    let opKind ← note.knownType.promote.kind?
    let updated ← op.arith.update? gaps kind opKind (kind.wrap (store name)) 1
    some (store.set name updated)
  | expr => (expr.eval? gaps store).map fun _ => store

/-- Whether the expression is pure, or assigns to an integer object or steps one as a whole. -/
def isEffect : Expr → Bool
  | .assign _ _ (.var note _) right _ => note.knownType.isInteger && right.isPure
  | .step _ _ _ (.var note _) => note.knownType.isInteger
  | expr => expr.isPure

end Expr

/-! ### Outcomes -/

/-- What a function returns that runs to the end of its body: zero of the type of its result. -/
def CType.zeroAnswer : CType → Answer
  | .void => .nothing
  | .double => .double (.ofInt 0)
  | _ => .number 0

/-- How the execution of a statement ends. -/
inductive Outcome where
  /-- At the end of the statement. -/
  | normal (store : Store)
  /-- By leaving the innermost loop or switch. -/
  | broke (store : Store)
  /-- By going to the next round of the innermost loop. -/
  | continued (store : Store)
  /-- By returning from the function. -/
  | returned (answer : Answer)
  /-- At an operation without a result. -/
  | undefined
  /-- Not within the given number of rounds. -/
  | unfinished

namespace Outcome

/-- One statement after the other. -/
def andThen (outcome : Outcome) (next : Store → Outcome) : Outcome :=
  match outcome with
  | .normal store => next store
  | outcome => outcome

/-- What follows a value. -/
def given (value : Option Int) (next : Int → Outcome) : Outcome :=
  match value with
  | some number => next number
  | none => .undefined

/-- The body of a loop, where a continue goes to its end. -/
def resumed : Outcome → Outcome
  | .continued store => .normal store
  | outcome => outcome

/-- A loop or switch, where a break goes to its end. -/
def left : Outcome → Outcome
  | .broke store => .normal store
  | outcome => outcome

/-- Rounds of a loop, until one of them does not run to its end. -/
def repeated (round : Store → Outcome) : (rounds : Nat) → Store → Outcome
  | 0, _ => .unfinished
  | rounds + 1, store => (round store).andThen (repeated round rounds)

/-- What a function with a result type returns whose body ends in this way. -/
def answer? (result : CType) : Outcome → Option Answer
  | .returned answer => some answer
  | .normal _ => some result.zeroAnswer
  | _ => none

end Outcome

/-! ### Statements -/

/-- A test leaves the loop around it if it fails. -/
def Expr.test (gaps : Gaps) (store : Store) : Option Expr → Outcome
  | none => .normal store
  | some condition => .given (condition.eval? gaps store) fun number =>
    if number = 0 then .broke store else .normal store

/-- An expression whose value is not used. -/
def Expr.effect (gaps : Gaps) (store : Store) : Option Expr → Outcome
  | none => .normal store
  | some expr =>
    match expr.perform? gaps store with
    | some store => .normal store
    | none => .undefined

/-- An automatic object with an initializer gets its value; one without keeps what it held. -/
def VarDecl.exec (gaps : Gaps) (store : Store) (decl : VarDecl) : Outcome :=
  match decl.storageClass, decl.init with
  | none, some (.single _ value) =>
    .given (value.eval? gaps store) fun number =>
      match decl.type.kind? with
      | some kind => .normal (store.set decl.name (kind.wrap number))
      | none => .undefined
  | none, some (.compound _ _) => .undefined
  | _, _ => .normal store

def VarDecl.execList (gaps : Gaps) (store : Store) : List VarDecl → Outcome
  | [] => .normal store
  | decl :: decls => (decl.exec gaps store).andThen fun store => execList gaps store decls

/-- The first clause of a for statement. -/
def ForInit.exec (gaps : Gaps) (store : Store) : ForInit → Outcome
  | .declarations _ decls => VarDecl.execList gaps store decls
  | .expression _ value => Expr.effect gaps store value

/-- Whether a case with the given value stands directly before the statement. -/
def Stmt.hasCase (gaps : Gaps) (store : Store) (kind : IntType) (number : Int) : Stmt → Bool
  | .case _ _ value body =>
    (value.eval? gaps store).map kind.wrap == some number || body.hasCase gaps store kind number
  | .default _ _ body => body.hasCase gaps store kind number
  | _ => false

/-- Whether a default stands directly before the statement. -/
def Stmt.hasDefault : Stmt → Bool
  | .case _ _ _ body => body.hasDefault
  | .default _ _ _ => true
  | _ => false

mutual

/-- The execution of a statement from a store, with a number of rounds for each loop. -/
def Stmt.exec (gaps : Gaps) (rounds : Nat) (store : Store) : Stmt → Outcome
  | .ret _ none => .returned .nothing
  | .ret _ (some value) =>
    .given (value.eval? gaps store) fun number => .returned (.number number)
  | .expr _ value => Expr.effect gaps store (some value)
  | .ifThen _ condition thenBranch =>
    .given (condition.eval? gaps store) fun number =>
      if number = 0 then .normal store else thenBranch.exec gaps rounds store
  | .ifElse _ condition thenBranch elseBranch =>
    .given (condition.eval? gaps store) fun number =>
      if number = 0 then elseBranch.exec gaps rounds store else thenBranch.exec gaps rounds store
  | .block _ items => Item.execList gaps rounds store items
  | .whileLoop _ _ condition body =>
    (Outcome.repeated (fun store =>
      (Expr.test gaps store (some condition)).andThen fun store =>
        (body.exec gaps rounds store).resumed) rounds store).left
  | .doWhile _ _ body condition =>
    (Outcome.repeated (fun store =>
      (body.exec gaps rounds store).resumed.andThen fun store =>
        Expr.test gaps store (some condition)) rounds store).left
  | .forLoop _ _ init condition post body =>
    (init.exec gaps store).andThen fun store =>
      (Outcome.repeated (fun store =>
        (Expr.test gaps store condition).andThen fun store =>
          (body.exec gaps rounds store).resumed.andThen fun store =>
            Expr.effect gaps store post) rounds store).left
  | .switch _ _ value body _ =>
    .given (value.eval? gaps store) fun number =>
      match value.type.kind? with
      | none => .undefined
      | some kind =>
        match body.enter gaps rounds store (Stmt.hasCase gaps store kind number) with
        | some outcome => outcome.left
        | none =>
          match body.enter gaps rounds store Stmt.hasDefault with
          | some outcome => outcome.left
          | none => .normal store
  | .case _ _ _ body | .default _ _ body => body.exec gaps rounds store
  | .break _ _ => .broke store
  | .continue _ _ => .continued store
  | .null _ => .normal store

/-- The execution of the body of a switch from the first item on that is selected. -/
def Stmt.enter (gaps : Gaps) (rounds : Nat) (store : Store) (select : Stmt → Bool) :
    Stmt → Option Outcome
  | .block _ items => Item.enterList gaps rounds store select items
  | _ => none

/-- The execution of the items of a block. Functions declared there do nothing. -/
def Item.execList (gaps : Gaps) (rounds : Nat) (store : Store) : List Item → Outcome
  | [] => .normal store
  | .stmt stmt :: items =>
    (stmt.exec gaps rounds store).andThen fun store => Item.execList gaps rounds store items
  | .decl (.object decl) :: items =>
    (decl.exec gaps store).andThen fun store => Item.execList gaps rounds store items
  | .decl _ :: items => Item.execList gaps rounds store items

/-- The execution of the items of a block from the first statement on that is selected. -/
def Item.enterList (gaps : Gaps) (rounds : Nat) (store : Store) (select : Stmt → Bool) :
    List Item → Option Outcome
  | [] => none
  | .stmt stmt :: items =>
    if select stmt then
      some ((stmt.exec gaps rounds store).andThen fun store =>
        Item.execList gaps rounds store items)
    else Item.enterList gaps rounds store select items
  | .decl _ :: items => Item.enterList gaps rounds store select items

end

/-- The body of a function, executed from a store, returns an answer. -/
def FunDecl.Returns (gaps : Gaps) (decl : FunDecl) (body : List Item) (store : Store)
    (answer : Answer) : Prop :=
  ∃ rounds, (Item.execList gaps rounds store body).answer? decl.result = some answer

/-! ### Structured trees -/

/-- Whether the object is an automatic integer, with a pure initializer if any. -/
def VarDecl.isStructured (decl : VarDecl) : Bool :=
  decl.storageClass.isNone && decl.type.isInteger &&
    match decl.init with
    | none => true
    | some (.single _ value) => value.isPure
    | some (.compound _ _) => false

/-- Whether the first clause of a for statement is structured. -/
def ForInit.isStructured : ForInit → Bool
  | .declarations _ decls => decls.all VarDecl.isStructured
  | .expression _ value => value.all Expr.isEffect

mutual

/-- Whether the statement is structured: its expressions are pure but for whole expressions, its
objects are automatic integers, and the cases of a switch stand before items of its block. -/
def Stmt.isStructured (isItem : Bool) : Stmt → Bool
  | .ret _ value => value.all Expr.isPure
  | .expr _ value => value.isEffect
  | .ifThen _ condition thenBranch => condition.isPure && thenBranch.isStructured false
  | .ifElse _ condition thenBranch elseBranch =>
    condition.isPure && thenBranch.isStructured false && elseBranch.isStructured false
  | .block _ items => Item.areStructured false items
  | .whileLoop _ _ condition body | .doWhile _ _ body condition =>
    condition.isPure && body.isStructured false
  | .forLoop _ _ init condition post body =>
    init.isStructured && condition.all Expr.isPure && post.all Expr.isEffect &&
      body.isStructured false
  | .switch _ _ value body _ => value.isPure && body.isSwitchBody
  | .case _ _ value body => isItem && value.isPure && body.isStructured isItem
  | .default _ _ body => isItem && body.isStructured isItem
  | .break _ _ | .continue _ _ | .null _ => true

/-- Whether the statement is a block of structured items, which may be cases. -/
def Stmt.isSwitchBody : Stmt → Bool
  | .block _ items => Item.areStructured true items
  | _ => false

def Item.areStructured (isItem : Bool) : List Item → Bool
  | [] => true
  | .stmt stmt :: items => stmt.isStructured isItem && Item.areStructured isItem items
  | .decl (.object decl) :: items => decl.isStructured && Item.areStructured isItem items
  | .decl (.function _) :: items => Item.areStructured isItem items
  | .decl (.definition _ _ _) :: _ => false

end

end SubsetC
