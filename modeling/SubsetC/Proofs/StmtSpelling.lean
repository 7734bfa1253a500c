import SubsetC.Ast.Parser
import SubsetC.Proofs.DeclaratorSpelling
import SubsetC.Proofs.ExprSpelling

/-!
# Spelling statements and declarations

The texts of initializers, declarations, statements and blocks. A source may write a declaration for
each declarator or one for several, and a comma behind the last item of a list in braces or none, so
a block has more than one text: `Item.SpelledAsList` relates it to all of them.

A text of a statement says which if an else belongs to only together with the rule that it is the
nearest one. `Stmt.EndsOpen` describes the statements that would take over an else behind them, and
`Stmt.ElsesNearest` the trees in which no else stands behind such a statement.
-/

namespace SubsetC

/-! ### Trees without places -/

/-- The number and the place of no node. -/
def Loc.nowhere : Loc := ⟨0, .none⟩

namespace Initializer

mutual

/-- The initializer without the numbers and places of its nodes. -/
def unplaced : Initializer → Initializer
  | .single _ value => .single .nowhere value.unplaced
  | .compound _ items => .compound .nowhere (unplacedList items)

def unplacedList : List Initializer → List Initializer
  | [] => []
  | item :: items => item.unplaced :: unplacedList items

end

end Initializer

/-- The declaration without the numbers and places of its nodes. -/
def VarDecl.unplaced (decl : VarDecl) : VarDecl :=
  { decl with loc := .nowhere, init := decl.init.map Initializer.unplaced }

/-- The parameter without its place. -/
def Param.unplaced (param : Param) : Param := { param with span := .none }

/-- The declaration without the numbers and places of its nodes. -/
def FunDecl.unplaced (decl : FunDecl) : FunDecl :=
  { decl with loc := .nowhere, params := decl.params.map Param.unplaced }

/-- The first clause of a for statement without the numbers and places of its nodes. -/
def ForInit.unplaced : ForInit → ForInit
  | .declarations _ decls => .declarations .nowhere (decls.map VarDecl.unplaced)
  | .expression _ value => .expression .nowhere (value.map Expr.unplaced)

/-- The case without its place. -/
def SwitchCase.unplaced (case : SwitchCase) : SwitchCase := { case with span := .none }

mutual

/-- The statement without the numbers and places of its nodes. -/
def Stmt.unplaced : Stmt → Stmt
  | .ret _ value => .ret .nowhere (value.map Expr.unplaced)
  | .expr _ value => .expr .nowhere value.unplaced
  | .ifThen _ condition thenBranch => .ifThen .nowhere condition.unplaced thenBranch.unplaced
  | .ifElse _ condition thenBranch elseBranch =>
      .ifElse .nowhere condition.unplaced thenBranch.unplaced elseBranch.unplaced
  | .block _ items => .block .nowhere (Item.unplacedList items)
  | .whileLoop _ label condition body =>
      .whileLoop .nowhere label condition.unplaced body.unplaced
  | .doWhile _ label body condition => .doWhile .nowhere label body.unplaced condition.unplaced
  | .forLoop _ label init condition post body =>
      .forLoop .nowhere label init.unplaced (condition.map Expr.unplaced)
        (post.map Expr.unplaced) body.unplaced
  | .switch _ label value body cases =>
      .switch .nowhere label value.unplaced body.unplaced (cases.map SwitchCase.unplaced)
  | .case _ label value body => .case .nowhere label value.unplaced body.unplaced
  | .default _ label body => .default .nowhere label body.unplaced
  | .break _ label => .break .nowhere label
  | .continue _ label => .continue .nowhere label
  | .null _ => .null .nowhere

/-- The declaration without the numbers and places of its nodes. -/
def Decl.unplaced : Decl → Decl
  | .object decl => .object decl.unplaced
  | .function decl => .function decl.unplaced
  | .definition decl _ body => .definition decl.unplaced .nowhere (Item.unplacedList body)

def Item.unplacedList : List Item → List Item
  | [] => []
  | .stmt stmt :: items => .stmt stmt.unplaced :: Item.unplacedList items
  | .decl decl :: items => .decl decl.unplaced :: Item.unplacedList items

end

theorem Item.unplacedList_append_decls (items : List Item) :
    ∀ decls : List Decl, Item.unplacedList (decls.map .decl ++ items) =
      (decls.map Decl.unplaced).map .decl ++ Item.unplacedList items
  | [] => rfl
  | first :: rest => by
      simp only [List.map_cons, List.cons_append, Item.unplacedList]
      rw [unplacedList_append_decls items rest]

/-! ### Texts of declarations -/

/-- A text of an expression that may be left out. -/
inductive Expr.SpelledAsOption : Option Expr → List Terminal → Prop where
  | none : SpelledAsOption none []
  | some {value : Expr} {text : List Terminal} (isValue : value.SpelledAs true text) :
      SpelledAsOption (some value) text

namespace Initializer

mutual

/-- A text of an initializer. -/
inductive SpelledAs : Initializer → List Terminal → Prop where
  | single {loc : Loc} {value : Expr} {text : List Terminal}
      (isValue : value.SpelledAs true text) : SpelledAs (.single loc value) text
  /-- A comma may stand behind the last item. -/
  | compound {loc : Loc} {items : List Initializer} {texts : List (List Terminal)}
      (nonempty : items ≠ []) (areItems : SpelledAsList items texts) (commaBehind : Bool) :
      SpelledAs (.compound loc items) (.mark .leftBrace ::
        (Expr.commas texts ++
          ((if commaBehind then [.mark .comma] else []) ++ [.mark .rightBrace])))

/-- Texts of the initializers of a list. -/
inductive SpelledAsList : List Initializer → List (List Terminal) → Prop where
  | nil : SpelledAsList [] []
  | cons {item : Initializer} {items : List Initializer} {text : List Terminal}
      {texts : List (List Terminal)} (isFirst : item.SpelledAs text)
      (areMore : SpelledAsList items texts) : SpelledAsList (item :: items) (text :: texts)

end

/-- A text of the initializer of a declaration with the sign in front, or of none. -/
inductive SpelledAsOption : Option Initializer → List Terminal → Prop where
  | none : SpelledAsOption none []
  | some {init : Initializer} {text : List Terminal} (isInit : init.SpelledAs text) :
      SpelledAsOption (some init) (.mark .assign :: text)

end Initializer

/-- A text of the declaration of an object behind its specifiers. -/
def VarDecl.SpelledAs (specifiers : Specifiers) (decl : VarDecl) (text : List Terminal) : Prop :=
  decl.type.IsNameable ∧ decl.type.innermost = specifiers.base ∧
    decl.storageClass = specifiers.storageClass ∧
      ∃ initText, Initializer.SpelledAsOption decl.init initText ∧
        text = decl.type.declarator decl.name [] ++ initText

/-- The names of a function's parameters, which may be left out. -/
def FunDecl.names (decl : FunDecl) : List (Option Text) :=
  decl.params.map fun param => if param.name.isEmpty then none else some param.name

/-- A text of the declaration of a function behind its specifiers. -/
def FunDecl.SpelledAs (specifiers : Specifiers) (decl : FunDecl) (text : List Terminal) : Prop :=
  decl.type.IsDeclarable ∧ decl.type.innermost = specifiers.base ∧
    decl.storageClass = specifiers.storageClass ∧
      text = decl.type.declarator decl.name decl.names

/-- A text of a declaration without a body behind its specifiers. -/
inductive Decl.SpelledAs (specifiers : Specifiers) : Decl → List Terminal → Prop where
  | object {decl : VarDecl} {text : List Terminal} (isObject : decl.SpelledAs specifiers text) :
      SpelledAs specifiers (.object decl) text
  | function {decl : FunDecl} {text : List Terminal} (isFunction : decl.SpelledAs specifiers text) :
      SpelledAs specifiers (.function decl) text

/-- A text of the specifiers of a declaration. -/
def Specifiers.text (specifiers : Specifiers) : List Terminal := specifiers.words.map .word

/-- A text of the first clause of a for statement, with the semicolon behind it. -/
inductive ForInit.SpelledAs : ForInit → List Terminal → Prop where
  | declarations {loc : Loc} {specifiers : Specifiers} {decls : List VarDecl}
      {texts : List (List Terminal)} (nonempty : decls ≠ [])
      (areDecls : List.Forall₂ (VarDecl.SpelledAs specifiers) decls texts) :
      SpelledAs (.declarations loc decls)
        (specifiers.text ++ (Expr.commas texts ++ [.mark .semicolon]))
  | expression {loc : Loc} {value : Option Expr} {text : List Terminal}
      (isValue : Expr.SpelledAsOption value text) :
      SpelledAs (.expression loc value) (text ++ [.mark .semicolon])

/-! ### Texts of statements -/

/-- A text in braces. -/
def Terminal.braces (text : List Terminal) : List Terminal :=
  mark .leftBrace :: (text ++ [mark .rightBrace])

mutual

/-- A text of a statement as a source writes it, without labels and collected cases. -/
inductive Stmt.SpelledAs : Stmt → List Terminal → Prop where
  | ret {loc : Loc} {value : Option Expr} {text : List Terminal}
      (isValue : Expr.SpelledAsOption value text) :
      Stmt.SpelledAs (.ret loc value) (.word .return :: (text ++ [.mark .semicolon]))
  | expr {loc : Loc} {value : Expr} {text : List Terminal} (isValue : value.SpelledAs true text) :
      Stmt.SpelledAs (.expr loc value) (text ++ [.mark .semicolon])
  | ifThen {loc : Loc} {condition : Expr} {thenBranch : Stmt} {text thenText : List Terminal}
      (isCondition : condition.SpelledAs true text) (isThen : thenBranch.SpelledAs thenText) :
      Stmt.SpelledAs (.ifThen loc condition thenBranch)
        (.word .if :: (Terminal.enclose true text ++ thenText))
  | ifElse {loc : Loc} {condition : Expr} {thenBranch elseBranch : Stmt}
      {text thenText elseText : List Terminal} (isCondition : condition.SpelledAs true text)
      (isThen : thenBranch.SpelledAs thenText) (isElse : elseBranch.SpelledAs elseText) :
      Stmt.SpelledAs (.ifElse loc condition thenBranch elseBranch)
        (.word .if :: (Terminal.enclose true text ++ (thenText ++ .word .else :: elseText)))
  | block {loc : Loc} {items : List Item} {text : List Terminal}
      (areItems : Item.SpelledAsList items text) :
      Stmt.SpelledAs (.block loc items) (Terminal.braces text)
  | whileLoop {loc : Loc} {condition : Expr} {body : Stmt} {text bodyText : List Terminal}
      (isCondition : condition.SpelledAs true text) (isBody : body.SpelledAs bodyText) :
      Stmt.SpelledAs (.whileLoop loc none condition body)
        (.word .while :: (Terminal.enclose true text ++ bodyText))
  | doWhile {loc : Loc} {condition : Expr} {body : Stmt} {text bodyText : List Terminal}
      (isBody : body.SpelledAs bodyText) (isCondition : condition.SpelledAs true text) :
      Stmt.SpelledAs (.doWhile loc none body condition)
        (.word .do :: (bodyText ++ .word .while ::
          (Terminal.enclose true text ++ [.mark .semicolon])))
  | forLoop {loc : Loc} {init : ForInit} {condition post : Option Expr} {body : Stmt}
      {initText conditionText postText bodyText : List Terminal} (isInit : init.SpelledAs initText)
      (isCondition : Expr.SpelledAsOption condition conditionText)
      (isPost : Expr.SpelledAsOption post postText) (isBody : body.SpelledAs bodyText) :
      Stmt.SpelledAs (.forLoop loc none init condition post body)
        (.word .for :: .mark .leftParen :: (initText ++ (conditionText ++ .mark .semicolon ::
          (postText ++ .mark .rightParen :: bodyText))))
  | switch {loc : Loc} {value : Expr} {body : Stmt} {text bodyText : List Terminal}
      (isValue : value.SpelledAs true text) (isBody : body.SpelledAs bodyText) :
      Stmt.SpelledAs (.switch loc none value body [])
        (.word .switch :: (Terminal.enclose true text ++ bodyText))
  | case {loc : Loc} {value : Expr} {body : Stmt} {text bodyText : List Terminal}
      (isValue : value.SpelledAs true text) (isBody : body.SpelledAs bodyText) :
      Stmt.SpelledAs (.case loc none value body) (.word .case :: (text ++ .mark .colon :: bodyText))
  | default {loc : Loc} {body : Stmt} {bodyText : List Terminal}
      (isBody : body.SpelledAs bodyText) :
      Stmt.SpelledAs (.default loc none body) (.word .default :: .mark .colon :: bodyText)
  | break (loc : Loc) : Stmt.SpelledAs (.break loc none) [.word .break, .mark .semicolon]
  | continue (loc : Loc) : Stmt.SpelledAs (.continue loc none) [.word .continue, .mark .semicolon]
  | null (loc : Loc) : Stmt.SpelledAs (.null loc) [.mark .semicolon]

/-- A text of the items of a block. -/
inductive Item.SpelledAsList : List Item → List Terminal → Prop where
  | nil : Item.SpelledAsList [] []
  | stmt {stmt : Stmt} {items : List Item} {text more : List Terminal}
      (isFirst : stmt.SpelledAs text) (areMore : Item.SpelledAsList items more) :
      Item.SpelledAsList (.stmt stmt :: items) (text ++ more)
  /-- Declarators with the same specifiers may share a line. -/
  | decls {specifiers : Specifiers} {decls : List Decl} {items : List Item}
      {texts : List (List Terminal)} {more : List Terminal} (nonempty : decls ≠ [])
      (areDecls : List.Forall₂ (Decl.SpelledAs specifiers) decls texts)
      (areMore : Item.SpelledAsList items more) :
      Item.SpelledAsList (decls.map .decl ++ items)
        (specifiers.text ++ (Expr.commas texts ++ .mark .semicolon :: more))
  /-- The parameters of a function with a body have names. -/
  | definition {loc : Loc} {specifiers : Specifiers} {decl : FunDecl} {body items : List Item}
      {text bodyText more : List Terminal} (isFunction : decl.SpelledAs specifiers text)
      (named : ∀ param ∈ decl.params, param.name.isEmpty = false)
      (isBody : Item.SpelledAsList body bodyText) (areMore : Item.SpelledAsList items more) :
      Item.SpelledAsList (.decl (.definition decl loc body) :: items)
        (specifiers.text ++ (text ++ (Terminal.braces bodyText ++ more)))

end

/-! ### Where an else belongs -/

/-- The statement ends in an if without an else, which an else behind the statement would belong
to. What ends in a brace or in the condition of a do statement does not. -/
def Stmt.EndsOpen : Stmt → Prop
  | .ifThen _ _ _ => True
  | .ifElse _ _ _ elseBranch => elseBranch.EndsOpen
  | .whileLoop _ _ _ body | .forLoop _ _ _ _ _ body | .switch _ _ _ body _
  | .case _ _ _ body | .default _ _ body => body.EndsOpen
  | .ret _ _ | .expr _ _ | .block _ _ | .doWhile _ _ _ _ | .break _ _ | .continue _ _
  | .null _ => False

mutual

/-- No else in the statement stands behind a branch that would take it over. -/
def Stmt.ElsesNearest : Stmt → Prop
  | .ifElse _ _ thenBranch elseBranch =>
      ¬thenBranch.EndsOpen ∧ thenBranch.ElsesNearest ∧ elseBranch.ElsesNearest
  | .ifThen _ _ body | .whileLoop _ _ _ body | .doWhile _ _ body _ | .forLoop _ _ _ _ _ body
  | .switch _ _ _ body _ | .case _ _ _ body | .default _ _ body => body.ElsesNearest
  | .block _ items => Item.ElsesNearestList items
  | .ret _ _ | .expr _ _ | .break _ _ | .continue _ _ | .null _ => True

/-- No else in the declaration stands behind a branch that would take it over. -/
def Decl.ElsesNearest : Decl → Prop
  | .object _ | .function _ => True
  | .definition _ _ body => Item.ElsesNearestList body

/-- No else in the items of a block stands behind a branch that would take it over. -/
def Item.ElsesNearestList : List Item → Prop
  | [] => True
  | .stmt stmt :: items => stmt.ElsesNearest ∧ Item.ElsesNearestList items
  | .decl decl :: items => decl.ElsesNearest ∧ Item.ElsesNearestList items

end

end SubsetC
