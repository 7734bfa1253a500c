import SubsetC.Ast.ExprParser
import SubsetC.Proofs.TypeSpelling

/-!
# Spelling expressions

The terminals of an expression, with parentheses only where an operand binds less tightly than its
position requires. Assignment and the conditional operator are the loosest levels and group to the
right; the binary operators group to the left, at the levels of `BinaryOp.level`; then come the
operators in front of an operand, with casts and sizeof, then those behind one, then what needs no
operand.
-/

namespace SubsetC

/-! ### Operators -/

/-- The operator between two operands. -/
def ArithOp.mark : ArithOp → Punctuator
  | .add => .plus
  | .sub => .minus
  | .mul => .star
  | .div => .slash
  | .rem => .percent
  | .bitAnd => .ampersand
  | .bitOr => .bar
  | .bitXor => .caret
  | .shiftLeft => .shiftLeft
  | .shiftRight => .shiftRight

/-- The operator between two operands. -/
def CompareOp.mark : CompareOp → Punctuator
  | .less => .less
  | .lessEqual => .lessEqual
  | .greater => .greater
  | .greaterEqual => .greaterEqual
  | .equal => .equal
  | .notEqual => .notEqual

/-- The operator between two operands. -/
def LogicOp.mark : LogicOp → Punctuator
  | .and => .andAnd
  | .or => .orOr

/-- The operator between two operands. -/
def BinaryOp.mark : BinaryOp → Punctuator
  | .arith op => op.mark
  | .compare op => op.mark
  | .logic op => op.mark

/-- The operator between the two sides. -/
def AssignOp.mark : AssignOp → Punctuator
  | .plain => .assign
  | .compound .add => .plusAssign
  | .compound .sub => .minusAssign
  | .compound .mul => .starAssign
  | .compound .div => .slashAssign
  | .compound .rem => .percentAssign
  | .compound .bitAnd => .ampersandAssign
  | .compound .bitOr => .barAssign
  | .compound .bitXor => .caretAssign
  | .compound .shiftLeft => .shiftLeftAssign
  | .compound .shiftRight => .shiftRightAssign

/-- The operator in front of an operand. -/
def UnaryOp.mark : UnaryOp → Punctuator
  | .negate => .minus
  | .not => .bang
  | .complement => .tilde
  | .plus => .plus

/-- The operator in front of or behind an operand. -/
def StepOp.mark : StepOp → Punctuator
  | .increment => .increment
  | .decrement => .decrement

namespace Expr

theorem Continuation.ofMark?_binary (op : BinaryOp) : ofMark? op.mark = some (.binary op) := by
  rcases op with op | op | op <;> cases op <;> rfl

theorem Continuation.ofMark?_assign (op : AssignOp) : ofMark? op.mark = some (.assign op) := by
  cases op with
  | plain => rfl
  | compound op => cases op <;> rfl

theorem unaryOp?_mark (op : UnaryOp) : unaryOp? (.punctuator op.mark) = some op := by
  cases op <;> rfl

theorem stepOp?_mark (op : StepOp) : stepOp? (.punctuator op.mark) = some op := by
  cases op <;> rfl

/-! ### Levels -/

/-- How strongly an operator in front of an operand binds, casts and sizeof included. -/
def prefixLevel : Nat := 60

/-- How strongly an operator behind an operand binds. -/
def postfixLevel : Nat := 65

/-- The level of what needs no operand. -/
def primaryLevel : Nat := 70

/-- How strongly the outermost operator of an expression binds. -/
def level : Expr → Nat
  | .assign _ _ _ _ _ => 1
  | .conditional _ _ _ _ => 3
  | .binary _ op _ _ => op.level
  | .unary _ _ _ | .addressOf _ _ | .dereference _ _ | .step _ .before _ _ | .cast _ _ _ _
  | .sizeofExpr _ _ | .sizeofType _ _ => prefixLevel
  | .subscript _ _ _ | .step _ .after _ _ => postfixLevel
  | .constant _ _ | .string _ _ | .var _ _ | .call _ _ _ | .decay _ _ => primaryLevel

def isCast : Expr → Bool
  | .cast _ _ _ _ => true
  | _ => false

/-! ### Terminals -/

/-- Texts with commas between them. -/
def commas : List (List Terminal) → List Terminal
  | [] => []
  | [text] => text
  | text :: texts => text ++ .mark .comma :: commas texts

mutual

/-- The terminals of an expression. A string literal and an array decay have none. -/
def terminals : Expr → List Terminal
  | .constant _ value => [.integer value.text]
  | .var _ name => [.name name]
  | .call _ name arguments =>
      .name name :: .mark .leftParen ::
        (commas (terminalsList arguments) ++ [.mark .rightParen])
  | .subscript _ array index =>
      Terminal.enclose (array.level < postfixLevel) array.terminals ++
        .mark .leftBracket :: (index.terminals ++ [.mark .rightBracket])
  | .step _ .after op operand =>
      Terminal.enclose (operand.level < postfixLevel) operand.terminals ++ [.mark op.mark]
  | .step _ .before op operand =>
      .mark op.mark :: Terminal.enclose (operand.level < prefixLevel) operand.terminals
  | .unary _ op operand =>
      .mark op.mark :: Terminal.enclose (operand.level < prefixLevel) operand.terminals
  | .addressOf _ operand =>
      .mark .ampersand :: Terminal.enclose (operand.level < prefixLevel) operand.terminals
  | .dereference _ operand =>
      .mark .star :: Terminal.enclose (operand.level < prefixLevel) operand.terminals
  | .cast _ target operand _ =>
      .mark .leftParen :: (target.typeName ++ .mark .rightParen ::
        Terminal.enclose (operand.level < prefixLevel) operand.terminals)
  | .sizeofType _ operand =>
      .word .sizeof :: .mark .leftParen :: (operand.typeName ++ [.mark .rightParen])
  | .sizeofExpr _ operand =>
      .word .sizeof ::
        Terminal.enclose (operand.isCast || operand.level < prefixLevel) operand.terminals
  | .binary _ op left right =>
      Terminal.enclose (left.level < op.level) left.terminals ++
        .mark op.mark :: Terminal.enclose (right.level < op.level + 1) right.terminals
  | .conditional _ condition thenBranch elseBranch =>
      Terminal.enclose (condition.level < 4) condition.terminals ++
        .mark .question :: (thenBranch.terminals ++
          .mark .colon :: Terminal.enclose (elseBranch.level < 3) elseBranch.terminals)
  | .assign _ op left right _ =>
      Terminal.enclose (left.level < 2) left.terminals ++
        .mark op.mark :: Terminal.enclose (right.level < 1) right.terminals
  | .string _ _ | .decay _ _ => []

def terminalsList : List Expr → List (List Terminal)
  | [] => []
  | expr :: exprs => expr.terminals :: terminalsList exprs

end

end Expr

/-! ### Expressions with a spelling -/

/-- Nothing but the place of the expression is known. -/
def Note.IsFresh (note : Note) : Prop := note = .untyped note.loc

/-- The note without the place. -/
def Note.unplaced (note : Note) : Note := { note with loc := ⟨0, .none⟩ }

theorem Note.IsFresh.unplaced_eq {note : Note} (isFresh : note.IsFresh) (loc : Loc) :
    (Note.untyped loc).unplaced = note.unplaced := by
  rw [isFresh]
  rfl

namespace Expr

mutual

/-- The expression is as a source writes it, with integers as its only literals. -/
def IsSpellable : Expr → Prop
  | .constant note value => note.IsFresh ∧ value.IsNumeral
  | .var note _ => note.IsFresh
  | .call note _ arguments => note.IsFresh ∧ IsSpellableList arguments
  | .unary note _ operand | .addressOf note operand | .dereference note operand
  | .step note _ _ operand | .sizeofExpr note operand => note.IsFresh ∧ operand.IsSpellable
  | .cast note target operand isImplicit =>
      note.IsFresh ∧ isImplicit = false ∧ target.IsNameable ∧ operand.IsSpellable
  | .sizeofType note operand => note.IsFresh ∧ operand.IsNameable
  | .subscript note left right | .binary note _ left right =>
      note.IsFresh ∧ left.IsSpellable ∧ right.IsSpellable
  | .assign note _ left right opType =>
      note.IsFresh ∧ opType = none ∧ left.IsSpellable ∧ right.IsSpellable
  | .conditional note condition thenBranch elseBranch =>
      note.IsFresh ∧ condition.IsSpellable ∧ thenBranch.IsSpellable ∧ elseBranch.IsSpellable
  | .string _ _ | .decay _ _ => False

def IsSpellableList : List Expr → Prop
  | [] => True
  | expr :: exprs => expr.IsSpellable ∧ IsSpellableList exprs

end

mutual

/-- The expression without the numbers and places of its nodes. -/
def unplaced : Expr → Expr
  | .constant note value => .constant note.unplaced value
  | .string note bytes => .string note.unplaced bytes
  | .var note name => .var note.unplaced name
  | .unary note op operand => .unary note.unplaced op operand.unplaced
  | .binary note op left right => .binary note.unplaced op left.unplaced right.unplaced
  | .assign note op left right opType =>
      .assign note.unplaced op left.unplaced right.unplaced opType
  | .conditional note condition thenBranch elseBranch =>
      .conditional note.unplaced condition.unplaced thenBranch.unplaced elseBranch.unplaced
  | .call note name arguments => .call note.unplaced name (unplacedList arguments)
  | .cast note target operand isImplicit =>
      .cast note.unplaced target operand.unplaced isImplicit
  | .addressOf note operand => .addressOf note.unplaced operand.unplaced
  | .dereference note operand => .dereference note.unplaced operand.unplaced
  | .subscript note array index => .subscript note.unplaced array.unplaced index.unplaced
  | .step note form op operand => .step note.unplaced form op operand.unplaced
  | .sizeofExpr note operand => .sizeofExpr note.unplaced operand.unplaced
  | .sizeofType note operand => .sizeofType note.unplaced operand
  | .decay note operand => .decay note.unplaced operand.unplaced

def unplacedList : List Expr → List Expr
  | [] => []
  | expr :: exprs => expr.unplaced :: unplacedList exprs

end

end Expr

/-! ### All texts of an expression -/

/-- A literal that stands for a constant. -/
def Terminal.Denotes (terminal : Terminal) (value : Const) : Prop :=
  match terminal.kind with
  | .integer => Literal.integer terminal.literal = .ok value
  | .floating => Literal.floating terminal.literal = value
  | .character => Literal.character terminal.literal = value
  | _ => False

namespace Expr

mutual

/-- A text of an expression as a source writes it. It differs from `terminals` in its literals,
which may be of any kind and are written in any way. String literals occur only where they are
allowed. -/
inductive SpelledAs (strings : Bool) : Expr → List Terminal → Prop where
  | constant {note : Note} {value : Const} {terminal : Terminal} (isFresh : note.IsFresh)
      (denotes : terminal.Denotes value) :
      SpelledAs strings (.constant note value) [terminal]
  /-- Several string literals next to each other are one. -/
  | string {note : Note} {bytes : Text} {text : List Terminal} (isAllowed : strings = true)
      (isFresh : note.IsFresh) (nonempty : text ≠ [])
      (areStrings : ∀ terminal ∈ text, terminal.kind = .string)
      (denotes : text.flatMap (fun terminal => Text.unescape terminal.literal) = bytes) :
      SpelledAs strings (.string note bytes) text
  | var {note : Note} (isFresh : note.IsFresh) (name : Text) :
      SpelledAs strings (.var note name) [.name name]
  | call {note : Note} {arguments : List Expr} {texts : List (List Terminal)}
      (isFresh : note.IsFresh) (name : Text)
      (areArguments : SpelledAsList strings arguments texts) :
      SpelledAs strings (.call note name arguments)
        (.name name :: .mark .leftParen :: (commas texts ++ [.mark .rightParen]))
  | subscript {note : Note} {array index : Expr} {arrayText indexText : List Terminal}
      (isFresh : note.IsFresh) (isArray : array.SpelledAs strings arrayText)
      (isIndex : index.SpelledAs strings indexText) :
      SpelledAs strings (.subscript note array index)
        (Terminal.enclose (array.level < postfixLevel) arrayText ++
          .mark .leftBracket :: (indexText ++ [.mark .rightBracket]))
  | stepAfter {note : Note} {operand : Expr} {text : List Terminal} (isFresh : note.IsFresh)
      (op : StepOp) (isOperand : operand.SpelledAs strings text) :
      SpelledAs strings (.step note .after op operand)
        (Terminal.enclose (operand.level < postfixLevel) text ++ [.mark op.mark])
  | stepBefore {note : Note} {operand : Expr} {text : List Terminal} (isFresh : note.IsFresh)
      (op : StepOp) (isOperand : operand.SpelledAs strings text) :
      SpelledAs strings (.step note .before op operand)
        (.mark op.mark :: Terminal.enclose (operand.level < prefixLevel) text)
  | unary {note : Note} {operand : Expr} {text : List Terminal} (isFresh : note.IsFresh)
      (op : UnaryOp) (isOperand : operand.SpelledAs strings text) :
      SpelledAs strings (.unary note op operand)
        (.mark op.mark :: Terminal.enclose (operand.level < prefixLevel) text)
  | addressOf {note : Note} {operand : Expr} {text : List Terminal} (isFresh : note.IsFresh)
      (isOperand : operand.SpelledAs strings text) :
      SpelledAs strings (.addressOf note operand)
        (.mark .ampersand :: Terminal.enclose (operand.level < prefixLevel) text)
  | dereference {note : Note} {operand : Expr} {text : List Terminal} (isFresh : note.IsFresh)
      (isOperand : operand.SpelledAs strings text) :
      SpelledAs strings (.dereference note operand)
        (.mark .star :: Terminal.enclose (operand.level < prefixLevel) text)
  | cast {note : Note} {target : CType} {operand : Expr} {text : List Terminal}
      (isFresh : note.IsFresh) (isNameable : target.IsNameable)
      (isOperand : operand.SpelledAs strings text) :
      SpelledAs strings (.cast note target operand false)
        (.mark .leftParen :: (target.typeName ++ .mark .rightParen ::
          Terminal.enclose (operand.level < prefixLevel) text))
  | sizeofType {note : Note} {operand : CType} (isFresh : note.IsFresh)
      (isNameable : operand.IsNameable) :
      SpelledAs strings (.sizeofType note operand)
        (.word .sizeof :: .mark .leftParen :: (operand.typeName ++ [.mark .rightParen]))
  | sizeofExpr {note : Note} {operand : Expr} {text : List Terminal} (isFresh : note.IsFresh)
      (isOperand : operand.SpelledAs strings text) :
      SpelledAs strings (.sizeofExpr note operand)
        (.word .sizeof :: Terminal.enclose (operand.isCast || operand.level < prefixLevel) text)
  | binary {note : Note} {left right : Expr} {leftText rightText : List Terminal}
      (isFresh : note.IsFresh) (op : BinaryOp) (isLeft : left.SpelledAs strings leftText)
      (isRight : right.SpelledAs strings rightText) :
      SpelledAs strings (.binary note op left right)
        (Terminal.enclose (left.level < op.level) leftText ++
          .mark op.mark :: Terminal.enclose (right.level < op.level + 1) rightText)
  | conditional {note : Note} {condition thenBranch elseBranch : Expr}
      {conditionText thenText elseText : List Terminal} (isFresh : note.IsFresh)
      (isCondition : condition.SpelledAs strings conditionText)
      (isThen : thenBranch.SpelledAs strings thenText)
      (isElse : elseBranch.SpelledAs strings elseText) :
      SpelledAs strings (.conditional note condition thenBranch elseBranch)
        (Terminal.enclose (condition.level < 4) conditionText ++
          .mark .question :: (thenText ++
            .mark .colon :: Terminal.enclose (elseBranch.level < 3) elseText))
  | assign {note : Note} {left right : Expr} {leftText rightText : List Terminal}
      (isFresh : note.IsFresh) (op : AssignOp) (isLeft : left.SpelledAs strings leftText)
      (isRight : right.SpelledAs strings rightText) :
      SpelledAs strings (.assign note op left right none)
        (Terminal.enclose (left.level < 2) leftText ++
          .mark op.mark :: Terminal.enclose (right.level < 1) rightText)

/-- Texts of the expressions of a list. -/
inductive SpelledAsList (strings : Bool) : List Expr → List (List Terminal) → Prop where
  | nil : SpelledAsList strings [] []
  | cons {expr : Expr} {exprs : List Expr} {text : List Terminal} {texts : List (List Terminal)}
      (isFirst : expr.SpelledAs strings text) (areMore : SpelledAsList strings exprs texts) :
      SpelledAsList strings (expr :: exprs) (text :: texts)

end

mutual

/-- The terminals of an expression are one of its texts. -/
theorem spelledAs_terminals {strings : Bool} :
    ∀ expr : Expr, expr.IsSpellable → expr.SpelledAs strings expr.terminals
  | .constant _ _, ⟨isFresh, isNumeral⟩ => .constant isFresh (Literal.integer_text isNumeral)
  | .var _ name, isFresh => .var isFresh name
  | .call _ name exprs, ⟨isFresh, areSpellable⟩ =>
      .call isFresh name (spelledAs_terminalsList exprs areSpellable)
  | .subscript _ array index, ⟨isFresh, arraySpellable, indexSpellable⟩ =>
      .subscript isFresh (spelledAs_terminals array arraySpellable)
        (spelledAs_terminals index indexSpellable)
  | .step _ .after op operand, ⟨isFresh, isSpellable⟩ =>
      .stepAfter isFresh op (spelledAs_terminals operand isSpellable)
  | .step _ .before op operand, ⟨isFresh, isSpellable⟩ =>
      .stepBefore isFresh op (spelledAs_terminals operand isSpellable)
  | .unary _ op operand, ⟨isFresh, isSpellable⟩ =>
      .unary isFresh op (spelledAs_terminals operand isSpellable)
  | .addressOf _ operand, ⟨isFresh, isSpellable⟩ =>
      .addressOf isFresh (spelledAs_terminals operand isSpellable)
  | .dereference _ operand, ⟨isFresh, isSpellable⟩ =>
      .dereference isFresh (spelledAs_terminals operand isSpellable)
  | .cast _ _ operand _, ⟨isFresh, notImplicit, isNameable, isSpellable⟩ =>
      notImplicit ▸ .cast isFresh isNameable (spelledAs_terminals operand isSpellable)
  | .sizeofType _ _, ⟨isFresh, isNameable⟩ => .sizeofType isFresh isNameable
  | .sizeofExpr _ operand, ⟨isFresh, isSpellable⟩ =>
      .sizeofExpr isFresh (spelledAs_terminals operand isSpellable)
  | .binary _ op left right, ⟨isFresh, leftSpellable, rightSpellable⟩ =>
      .binary isFresh op (spelledAs_terminals left leftSpellable)
        (spelledAs_terminals right rightSpellable)
  | .conditional _ condition thenBranch elseBranch,
      ⟨isFresh, conditionSpellable, thenSpellable, elseSpellable⟩ =>
      .conditional isFresh (spelledAs_terminals condition conditionSpellable)
        (spelledAs_terminals thenBranch thenSpellable)
        (spelledAs_terminals elseBranch elseSpellable)
  | .assign _ op left right _, ⟨isFresh, untyped, leftSpellable, rightSpellable⟩ =>
      untyped ▸ .assign isFresh op (spelledAs_terminals left leftSpellable)
        (spelledAs_terminals right rightSpellable)
  | .string _ _, isSpellable | .decay _ _, isSpellable => isSpellable.elim

theorem spelledAs_terminalsList {strings : Bool} :
    ∀ exprs : List Expr, IsSpellableList exprs →
      SpelledAsList strings exprs (terminalsList exprs)
  | [], _ => .nil
  | expr :: exprs, ⟨isSpellable, areSpellable⟩ =>
      .cons (spelledAs_terminals expr isSpellable) (spelledAs_terminalsList exprs areSpellable)

end

end Expr

end SubsetC
