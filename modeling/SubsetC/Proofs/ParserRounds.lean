import SubsetC.Ast.Parser

/-!
# Rounds of the parser's loops

Each loop of the parser does one round after another. A round ends the loop with a result, or has it
go on from a new start (`Parser.Round`). A loop is a round and what is left of the loop behind it
(`Declarator.suffixes_round` and its like), so that what holds of a loop is shown of its round.
-/

namespace SubsetC

variable {σ : Type}

namespace Parser

/-- What a round of a loop comes to. -/
inductive Round (α β : Type) where
  /-- The loop ends with a result. -/
  | done (result : β)
  /-- The loop goes on from a new start, and something is made of what it ends with. -/
  | again (next : α) (build : β → β)

variable {α β : Type}

/-- A loop goes on behind a round. -/
def Round.GoesOn : Round α β → Prop
  | .done _ => False
  | .again _ _ => True

/-- What is left of a loop behind a round. -/
def Round.rest (loop : α → Parser σ β) : Round α β → Parser σ β
  | .done result => pure result
  | .again next build => do pure (build (← loop next))

@[simp]
theorem Round.rest_done (loop : α → Parser σ β) (result : β) :
    (done result).rest loop = pure result := rfl

@[simp]
theorem Round.rest_again (loop : α → Parser σ β) (next : α) (build : β → β) :
    (again next build).rest loop = (do pure (build (← loop next))) := rfl

end Parser

open SubsetC.Parser (Round)

variable [TokenSource σ]

/-! ### Specifiers -/

namespace Specifiers

/-- One specifier, if the current token is one. -/
def round (storageAllowed : Bool) (_ : Nat) (seen : Seen) : Parser σ (Round Seen Seen) := do
  let token ← Parser.current
  match token.kind with
  | .keyword keyword =>
    if keyword.isSpecifier then
      Parser.skip
      let seen ← note storageAllowed seen token.span keyword
      pure (.again seen id)
    else
      pure (.done seen)
  | _ => pure (.done seen)

theorem collect_round (storageAllowed : Bool) (fuel : Nat) (seen : Seen) :
    (collect storageAllowed (fuel + 1) seen : Parser σ Seen) =
      (do (← round storageAllowed fuel seen).rest (collect storageAllowed fuel)) := by
  rw [collect, round, bind_assoc]
  congr 1
  funext token
  generalize token.kind = kind
  cases kind with
  | keyword keyword =>
      dsimp only
      split <;> simp
  | _ => rfl

end Specifiers

/-! ### Declarators -/

namespace Declarator

/-- One dimension or parameter list, if the current token opens one. -/
def suffixRound (fuel : Nat) (declarator : Declarator) :
    Parser σ (Round Declarator Declarator) := do
  let token ← Parser.current
  match token.kind with
  | .punctuator .leftBracket => do
    let size ← dimension
    pure (.again (.array declarator size) id)
  | .punctuator .leftParen => do
    let params ← params fuel
    pure (.again (.function declarator params token.span) id)
  | _ => pure (.done declarator)

/-- One dimension, if the current token opens one. -/
def dimensionRound (_ : Nat) (declarator : Declarator) :
    Parser σ (Round Declarator Declarator) := do
  if ← Parser.currentIsMark .leftBracket then
    let size ← dimension
    pure (.again (.array declarator size) id)
  else
    pure (.done declarator)

/-- One parameter, which is the last one unless a comma follows. -/
def paramRound (fuel : Nat) (_ : Unit) : Parser σ (Round Unit (List ParamDeclarator)) := do
  let start ← Parser.current
  let specifiers ← Specifiers.parse false
  let param := .mk specifiers.base (← parseWith fuel true) start.span
  if ← Parser.accept .comma then
    pure (.again () (param :: ·))
  else
    pure (.done [param])

theorem suffixes_round (fuel : Nat) (declarator : Declarator) :
    (suffixes (fuel + 1) declarator : Parser σ Declarator) =
      (do (← suffixRound fuel declarator).rest (suffixes fuel)) := by
  rw [suffixes, suffixRound, bind_assoc]
  congr 1
  funext token
  generalize token.kind = kind
  split <;> simp

theorem dimensions_round (fuel : Nat) (declarator : Declarator) :
    (dimensions (fuel + 1) declarator : Parser σ Declarator) =
      (do (← dimensionRound fuel declarator).rest (dimensions fuel)) := by
  rw [dimensions, dimensionRound, bind_assoc]
  congr 1
  funext found
  split <;> simp

theorem paramList_round (fuel : Nat) (start : Unit) :
    (paramList (fuel + 1) : Parser σ (List ParamDeclarator)) =
      (do (← paramRound fuel start).rest fun _ => paramList fuel) := by
  rw [paramList, paramRound]
  simp only [bind_assoc]
  congr 1
  funext start
  congr 1
  funext specifiers
  congr 1
  funext declarator
  congr 1
  funext accepted
  split <;> simp

end Declarator

/-! ### Expressions -/

namespace Expr

/-- One string literal, if the current token is one, behind a place and bytes so far. -/
def stringRound (_ : Nat) (seen : Span × Text) : Parser σ (Round (Span × Text) (Span × Text)) := do
  let token ← Parser.current
  if token.kind = .string then
    Parser.skip
    pure (.again (seen.1.through token.span, seen.2 ++ Text.unescape token.literal) id)
  else
    pure (.done seen)

/-- One operator with what stands behind it, if it binds at least at the level. -/
def operatorRound (level fuel : Nat) (left : Expr) : Parser σ (Round Expr Expr) := do
  let token ← Parser.current
  match Continuation.ofKind? token.kind with
  | none => pure (.done left)
  | some continuation =>
    if continuation.level < level then
      pure (.done left)
    else
      Parser.skip
      match continuation with
      | .assign op =>
        let right ← parseWith fuel continuation.level
        let note ← Parser.newNote token.span
        pure (.again (.assign note op left right none) id)
      | .conditional =>
        let thenBranch ← parseWith fuel 0
        let _ ← Parser.expectMark .colon
        let elseBranch ← parseWith fuel continuation.level
        let note ← Parser.newNote token.span
        pure (.again (.conditional note left thenBranch elseBranch) id)
      | .binary op =>
        let right ← parseWith fuel (continuation.level + 1)
        let note ← Parser.newNote token.span
        pure (.again (.binary note op left right) id)

/-- One subscript or step, if the current token starts one. -/
def trailingRound (fuel : Nat) (operand : Expr) : Parser σ (Round Expr Expr) := do
  let token ← Parser.current
  match token.kind with
  | .punctuator .leftBracket =>
    Parser.skip
    let index ← parseWith fuel 0
    let _ ← Parser.expectMark .rightBracket
    let note ← Parser.newNote token.span
    pure (.again (.subscript note operand index) id)
  | kind =>
    match stepOp? kind with
    | some op =>
      Parser.skip
      let note ← Parser.newNote token.span
      pure (.again (.step note .after op operand) id)
    | none => pure (.done operand)

/-- One argument, which is the last one unless a comma follows. -/
def argumentRound (fuel : Nat) (_ : Unit) : Parser σ (Round Unit (List Expr)) := do
  let argument ← parseWith fuel 0
  if ← Parser.accept .comma then
    pure (.again () (argument :: ·))
  else
    pure (.done [argument])

theorem stringRun_round (fuel : Nat) (seen : Span × Text) :
    (stringRun (fuel + 1) seen : Parser σ (Span × Text)) =
      (do (← stringRound fuel seen).rest (stringRun fuel)) := by
  rw [stringRun, stringRound, bind_assoc]
  congr 1
  funext token
  split <;> simp

theorem continuations_round (level fuel : Nat) (left : Expr) :
    (continuations (fuel + 1) level left : Parser σ Expr) =
      (do (← operatorRound level fuel left).rest (continuations fuel level)) := by
  rw [continuations, operatorRound, bind_assoc]
  congr 1
  funext token
  cases Continuation.ofKind? token.kind with
  | none => simp
  | some continuation =>
      dsimp only
      split
      · simp
      · cases continuation <;> simp

theorem trailing_round (fuel : Nat) (operand : Expr) :
    (trailing (fuel + 1) operand : Parser σ Expr) =
      (do (← trailingRound fuel operand).rest (trailing fuel)) := by
  rw [trailing, trailingRound, bind_assoc]
  congr 1
  funext token
  generalize token.kind = kind
  split
  · simp
  -- The round looks at the same token, which is no bracket here.
  · simp only [imp_false] at *
    cases stepOp? kind with
    | none => simp
    | some op => simp

theorem arguments_round (fuel : Nat) (start : Unit) :
    (arguments (fuel + 1) : Parser σ (List Expr)) =
      (do (← argumentRound fuel start).rest fun _ => arguments fuel) := by
  rw [arguments, argumentRound]
  simp only [bind_assoc]
  congr 1
  funext argument
  congr 1
  funext accepted
  split <;> simp

end Expr

/-! ### Initializers -/

namespace Initializer

/-- One initializer of a list, which is the last one unless a comma and more follow. -/
def itemRound (fuel : Nat) (_ : Unit) : Parser σ (Round Unit (List Initializer)) := do
  let item ← parseWith fuel
  if ← Parser.accept .comma then
    if ← Parser.currentIsMark .rightBrace then
      pure (.done [item])
    else
      pure (.again () (item :: ·))
  else
    pure (.done [item])

theorem itemsWith_round (fuel : Nat) (start : Unit) :
    (itemsWith (fuel + 1) : Parser σ (List Initializer)) =
      (do (← itemRound fuel start).rest fun _ => itemsWith fuel) := by
  rw [itemsWith, itemRound]
  simp only [bind_assoc]
  congr 1
  funext item
  congr 1
  funext accepted
  split
  · simp only [bind_assoc]
    congr 1
    funext isEnd
    split <;> simp
  · simp

end Initializer

/-! ### Declarations and statements -/

namespace VarDecl

/-- One declarator of a first clause of a for statement, which is the last one unless a comma
follows. -/
def declaratorRound (specifiers : Specifiers) (_ : Nat) (_ : Unit) :
    Parser σ (Round Unit (List VarDecl)) := do
  let declared ← (← Declarator.parse).declare specifiers.base
  if declared.type.isFunction then
    Parser.fail declared.span .functionInForInit
  let decl ← VarDecl.parseRest declared specifiers.storageClass
  if ← Parser.accept .comma then
    pure (.again () (decl :: ·))
  else
    let _ ← Parser.expectMark .semicolon
    pure (.done [decl])

theorem parseListWith_round (specifiers : Specifiers) (fuel : Nat) (start : Unit) :
    (parseListWith specifiers (fuel + 1) : Parser σ (List VarDecl)) =
      (do (← declaratorRound specifiers fuel start).rest fun _ =>
        parseListWith specifiers fuel) := by
  rw [parseListWith, declaratorRound]
  simp only [bind_assoc]
  congr 1
  funext declarator
  congr 1
  funext declared
  split
  · rfl
  simp only [bind_assoc]
  congr 1
  funext decl
  congr 1
  funext accepted
  split <;> simp

end VarDecl

namespace Decl

/-- What follows a declarator: a comma and more declarators, or a semicolon. -/
def separator (decl : Decl) : Parser σ (Round Bool (List Decl)) := do
  if ← Parser.accept .comma then
    pure (.again false (decl :: ·))
  else
    let _ ← Parser.expectMark .semicolon
    pure (.done [decl])

/-- One declarator of a declaration, which is the last one if it has a body, or unless a comma
follows. -/
def declaratorRound (specifiers : Specifiers) (fuel : Nat) (isFirst : Bool) :
    Parser σ (Round Bool (List Decl)) := do
  let declared ← (← Declarator.parse).declare specifiers.base
  match declared.type with
  | .function _ result =>
    if ← Declared.opensBody isFirst then
      declared.requireNames
      let (bodyLoc, body) ← Stmt.parseBlock (fuel + 1)
      let loc ← Parser.newLoc declared.span
      pure (.done [.definition (declared.funDecl loc result specifiers.storageClass) bodyLoc body])
    else
      let loc ← Parser.newLoc declared.span
      separator (.function (declared.funDecl loc result specifiers.storageClass))
  | _ =>
    let decl ← VarDecl.parseRest declared specifiers.storageClass
    separator (.object decl)

theorem parseMore_separator (fuel : Nat) (specifiers : Specifiers) (decl : Decl) :
    (parseMore (fuel + 1) specifiers decl : Parser σ (List Decl)) =
      (do (← separator decl).rest fun isFirst => parseDeclarators fuel specifiers isFirst) := by
  rw [parseMore, separator, bind_assoc]
  congr 1
  funext accepted
  split <;> simp

theorem parseDeclarators_round (specifiers : Specifiers) (fuel : Nat) (isFirst : Bool) :
    (parseDeclarators (fuel + 2) specifiers isFirst : Parser σ (List Decl)) =
      (do (← declaratorRound specifiers fuel isFirst).rest fun isFirst =>
        parseDeclarators fuel specifiers isFirst) := by
  rw [parseDeclarators, declaratorRound]
  simp only [bind_assoc]
  congr 1
  funext declarator
  congr 1
  funext declared
  generalize declared.type = type
  cases type with
  | function params result =>
      simp only [bind_assoc]
      congr 1
      funext opens
      split
      · simp
      · simp [parseMore_separator]
  | _ => simp [parseMore_separator]

end Decl

namespace Item

/-- One statement or declaration, unless the block is at its closing brace. -/
def round (fuel : Nat) (_ : Unit) : Parser σ (Round Unit (List Item)) := do
  let token ← Parser.current
  if token.kind = .punctuator .rightBrace then
    pure (.done [])
  else if token.kind = .endOfInput then
    Parser.fail token.span (.expected (.punctuator .rightBrace) token)
  else if token.kind.isSpecifier then
    let decls ← Decl.parseDeclarators fuel (← Specifiers.parse true) true
    pure (.again () (decls.map .decl ++ ·))
  else
    let stmt ← Stmt.parseWith fuel
    pure (.again () (.stmt stmt :: ·))

theorem parseList_round (fuel : Nat) (start : Unit) :
    (parseList (fuel + 1) : Parser σ (List Item)) =
      (do (← round fuel start).rest fun _ => parseList fuel) := by
  rw [parseList, round, bind_assoc]
  congr 1
  funext token
  split
  · simp
  split
  · rfl
  split <;> simp

end Item

namespace Program

/-- One declaration, unless the input is at its end. -/
def declarationRound (_ : Nat) (_ : Unit) : Parser σ (Round Unit Program) := do
  if ← Parser.currentIs .endOfInput then
    pure (.done [])
  else
    let decls ← Decl.parse
    pure (.again () (decls ++ ·))

theorem parseWith_round (fuel : Nat) (start : Unit) :
    (parseWith (fuel + 1) : Parser σ Program) =
      (do (← declarationRound fuel start).rest fun _ => parseWith fuel) := by
  rw [parseWith, declarationRound, bind_assoc]
  congr 1
  funext found
  split
  · rfl
  · simp

end Program

end SubsetC
