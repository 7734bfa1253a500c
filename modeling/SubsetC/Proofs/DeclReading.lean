import SubsetC.Proofs.ExprReading
import SubsetC.Proofs.StmtSpelling

/-!
# Declarations are read back

The texts of initializers and of declarations are parsed as what they spell. The main statements are
`Initializer.SpelledAs.readAs`, `Decl.parseDeclarators_reads` for the declarators of a line, and
`ForInit.SpelledAs.parse_reads` for the first clause of a for statement. All of these lists have
commas between their items, and `Terminal.Spell.commas` takes them apart.
-/

namespace SubsetC

open SubsetC.Parser (Reads Sees sees_of_spell)

variable {ending : Except Lexer.Overrun Token} {before middle after : List Token}
  {text : List Terminal}

/-! ### Lists -/

theorem Expr.le_length_commas (text : List Terminal) (texts : List (List Terminal)) :
    text.length ≤ (commas (text :: texts)).length := by
  cases texts <;> simp [commas]

theorem Expr.length_commas_cons (text : List Terminal) {texts : List (List Terminal)}
    (nonempty : texts ≠ []) :
    (commas (text :: texts)).length = text.length + (commas texts).length + 1 := by
  rcases List.exists_cons_of_ne_nil nonempty with ⟨next, texts, rfl⟩
  simp only [commas, List.length_append, List.length_cons]
  omega

/-- Behind the first of several texts with commas between them is a comma and the others, or what is
behind all of them. -/
theorem Terminal.Spell.commas {texts : List (List Terminal)} {more : List Terminal}
    (spell : Terminal.Spell before (Expr.commas (text :: texts) ++ more) after) :
    ∃ behind, Terminal.Spell before text behind ∧
      (texts = [] ∧ Terminal.Spell behind more after ∨
        ∃ comma tokens, behind = comma :: tokens ∧ comma.kind = .punctuator .comma ∧ texts ≠ [] ∧
          Terminal.Spell tokens (Expr.commas texts ++ more) after) := by
  cases texts with
  | nil =>
      rcases spell.append with ⟨behind, textSpell, spell⟩
      exact ⟨behind, textSpell, .inl ⟨rfl, spell⟩⟩
  | cons next texts =>
      simp only [Expr.commas, List.append_assoc, List.cons_append] at spell
      rcases spell.append with ⟨behind, textSpell, spell⟩
      rcases spell.cons with ⟨comma, tokens, rfl, isComma, -, spell⟩
      exact ⟨_, textSpell, .inr ⟨comma, tokens, rfl, isComma, List.cons_ne_nil _ _, spell⟩⟩

/-! ### Expressions in statements -/

namespace Expr

theorem Starts.ne_mark {kind : TokenKind} {mark : Punctuator} (starts : Starts kind)
    (closes : mark ∈ [.rightParen, .rightBracket, .leftBrace, .rightBrace, .semicolon, .comma]) :
    kind ≠ .punctuator mark := by
  simp only [List.mem_cons, List.not_mem_nil, or_false] at closes
  rcases closes with rfl | rfl | rfl | rfl | rfl | rfl
  all_goals
    rintro rfl
    revert starts
    simp [Starts, unaryOp?, stepOp?]

namespace SpelledAs

variable {expr : Expr}

/-- A text of an expression starts like an expression. -/
theorem sees_starts {strings : Bool} (spelled : expr.SpelledAs strings text)
    (spell : Terminal.Spell before text after) : Sees ending before Starts := by
  rcases spelled.readAs.starts with ⟨terminal, rest, rfl, starts⟩
  exact (sees_of_spell spell starts.legal).mono fun _ same => same ▸ starts

/-- A text of an expression is parsed as the expression. -/
theorem parse_reads (spelled : expr.SpelledAs true text) (spell : Terminal.Spell before text after)
    (sees : Sees ending after (Behind true (Stops 0))) :
    Reads ending parse before after fun result => result.unplaced = expr.unplaced := by
  have length := spell.length_eq
  unfold parse
  refine Parser.fuel_reads.bind ?_
  rintro _ rfl
  exact spelled.readAs.reads_behind spell (Nat.zero_le _) sees (by omega)

theorem parseParenthesized_reads (spelled : expr.SpelledAs true text)
    (spell : Terminal.Spell before (Terminal.enclose true text) after) :
    Reads ending parseParenthesized before after
      fun result => result.unplaced = expr.unplaced := by
  rcases spell.cons with ⟨opening, tokens, rfl, isOpening, -, spell⟩
  rcases spell.snoc with ⟨closing, textSpell, isClosing⟩
  unfold parseParenthesized
  refine (Parser.expectMark_reads isOpening).bind ?_
  intro _ _
  refine (spelled.parse_reads textSpell (sees_closing isClosing (by decide))).bind ?_
  intro result same
  refine (Parser.expectMark_reads isClosing).bind ?_
  intro _ _
  exact Reads.pure same

end SpelledAs

/-- An expression is parsed up to the delimiter behind it, or is left out in front of it. -/
theorem SpelledAsOption.parseUnless_reads {value : Option Expr} {mark : Punctuator}
    {closing : Token} (spelled : SpelledAsOption value text)
    (closes : mark = .semicolon ∨ mark = .rightParen) (isClosing : closing.kind = .punctuator mark)
    (spell : Terminal.Spell before text (closing :: after)) :
    Reads ending (parseUnless mark) before (closing :: after)
      fun result => result.map unplaced = value.map unplaced := by
  unfold parseUnless
  cases spelled with
  | none =>
      cases spell.nil
      refine (Parser.currentIsMark_reads isClosing).bind ?_
      rintro _ rfl
      exact Reads.pure rfl
  | some isValue =>
      refine (Parser.currentIsMark_reads_not
        ((isValue.sees_starts spell).mono fun _ starts => starts.ne_mark ?_)).bind ?_
      · rcases closes with rfl | rfl <;> simp
      rintro _ rfl
      refine (isValue.parse_reads spell (sees_closing isClosing ?_)).bind ?_
      · rcases closes with rfl | rfl <;> simp
      intro result same
      exact Reads.pure (congrArg Option.some same)

end Expr

/-! ### Initializers -/

namespace Initializer

/-- A text is read as an initializer, between tokens that end it. Two steps are enough for each
token. -/
structure ReadAs (text : List Terminal) (init : Initializer) : Prop where
  /-- It does not start with a closing brace. -/
  starts : ∃ terminal rest, text = terminal :: rest ∧ terminal.kind ≠ .illegal ∧
    terminal.kind ≠ .punctuator .rightBrace
  /-- Behind it is a delimiter. -/
  reads : ∀ (ending : Except Lexer.Overrun Token) (before after : List Token) (closing : Token)
    (mark : Punctuator) (fuel : Nat), closing.kind = .punctuator mark →
    mark ∈ [.rightBrace, .semicolon, .comma] → Terminal.Spell before text (closing :: after) →
    2 * text.length ≤ fuel →
    Reads ending (parseWith fuel) before (closing :: after)
      fun result => result.unplaced = init.unplaced

namespace ReadAs

variable {loc : Loc}

theorem sees_starts {init : Initializer} (readAs : ReadAs text init)
    (spell : Terminal.Spell before text after) :
    Sees ending before (· ≠ .punctuator .rightBrace) := by
  rcases readAs.starts with ⟨terminal, rest, rfl, legal, notClosing⟩
  exact (sees_of_spell spell legal).mono fun _ same => same ▸ notClosing

theorem single {value : Expr} (spelled : value.SpelledAs true text) :
    ReadAs text (.single loc value) where
  starts := by
    rcases spelled.readAs.starts with ⟨terminal, rest, same, starts⟩
    exact ⟨terminal, rest, same, starts.legal, starts.ne_mark (by simp)⟩
  reads := by
    intro ending before after closing mark fuel isClosing closes spell enough
    have nonempty := spelled.readAs.starts.length_pos
    rcases Nat.exists_eq_add_of_le' (by omega : 1 ≤ fuel) with ⟨fuel, rfl⟩
    rw [parseWith]
    refine (Parser.current_reads_sees (spelled.sees_starts spell)).bind ?_
    intro token starts
    rw [if_neg (starts.ne_mark (by simp))]
    refine (spelled.parse_reads spell (Expr.sees_closing isClosing ?_)).bind ?_
    · revert closes
      simp
      tauto
    intro result same
    exact Parser.located_reads _ fun _ => by simp only [unplaced, same]

/-- Texts with commas between them are read as the items of a list in braces, up to the brace. A
comma may stand in front of it. -/
theorem items {texts : List (List Terminal)} {items : List Initializer}
    (all : List.Forall₂ ReadAs texts items) (nonempty : texts ≠ []) (commaBehind : Bool)
    {closing : Token} {fuel : Nat} (isClosing : closing.kind = .punctuator .rightBrace)
    (spell : Terminal.Spell before
      (Expr.commas texts ++ if commaBehind then [.mark .comma] else []) (closing :: after))
    (enough : 2 * (Expr.commas texts).length + 1 ≤ fuel) :
    Reads ending (itemsWith fuel) before (closing :: after)
      fun results => unplacedList results = unplacedList items := by
  induction all generalizing before fuel with
  | nil => exact absurd rfl nonempty
  | @cons text item texts items readAs all ih =>
      have atLeast := Expr.le_length_commas text texts
      rcases Nat.exists_eq_add_of_le' (by omega : 1 ≤ fuel) with ⟨fuel, rfl⟩
      rw [itemsWith]
      rcases spell.commas with
        ⟨behind, textSpell, ⟨rfl, behindSpell⟩ | ⟨comma, tokens, rfl, isComma, nonempty, spell⟩⟩
      · cases all
        cases commaBehind with
        | false =>
            cases behindSpell.nil
            refine (readAs.reads ending before after closing _ fuel isClosing (by simp) textSpell
              (by omega)).bind ?_
            intro result same
            refine (Parser.accept_reads_not (Parser.sees_cons ?_ ?_)).bind ?_
            · simp [isClosing]
            · simp [isClosing]
            rintro _ rfl
            exact Reads.pure (by simp only [unplacedList, same])
        | true =>
            rcases behindSpell.singleton with ⟨comma, rfl, isComma, -⟩
            refine (readAs.reads ending before _ comma _ fuel isComma (by simp) textSpell
              (by omega)).bind ?_
            intro result same
            refine (Parser.accept_reads isComma).bind ?_
            rintro _ rfl
            refine (Parser.currentIsMark_reads isClosing).bind ?_
            rintro _ rfl
            exact Reads.pure (by simp only [unplacedList, same])
      · have length := Expr.length_commas_cons text nonempty
        refine (readAs.reads ending before _ comma _ fuel isComma (by simp) textSpell
          (by omega)).bind ?_
        intro result same
        refine (Parser.accept_reads isComma).bind ?_
        rintro _ rfl
        refine (Parser.currentIsMark_reads_not ?_).bind ?_
        · cases all with
          | nil => exact absurd rfl nonempty
          | cons readSecond _ =>
              rcases spell.commas with ⟨_, secondSpell, -⟩
              exact readSecond.sees_starts secondSpell
        rintro _ rfl
        refine (ih nonempty spell (by omega)).bind ?_
        intro results allSame
        exact Reads.pure (by simp only [unplacedList, same, allSame])

theorem compound {texts : List (List Terminal)} {items : List Initializer}
    (all : List.Forall₂ ReadAs texts items) (nonempty : items ≠ []) (commaBehind : Bool) :
    ReadAs (.mark .leftBrace :: (Expr.commas texts ++
      ((if commaBehind then [Terminal.mark .comma] else []) ++ [Terminal.mark .rightBrace])))
      (.compound loc items) where
  starts := ⟨_, _, rfl, by simp, by simp⟩
  reads := by
    intro ending before after following mark fuel _ _ spell enough
    simp only [List.length_cons, List.length_append] at enough
    rcases spell.cons with ⟨opening, tokens, rfl, isOpening, -, spell⟩
    rw [← List.append_assoc] at spell
    rcases spell.snoc with ⟨closing, itemsSpell, isClosing⟩
    rcases Nat.exists_eq_add_of_le' (by omega : 1 ≤ fuel) with ⟨fuel, rfl⟩
    rw [parseWith]
    refine Parser.current_bind (Parser.legal_of_mark isOpening) ?_
    rw [if_pos isOpening]
    refine Parser.skip_bind (Parser.legal_of_mark isOpening) ?_
    cases all with
    | nil => exact absurd rfl nonempty
    | @cons text item texts items readAs all =>
        rcases itemsSpell.commas with ⟨_, textSpell, -⟩
        refine (Parser.current_reads_sees (readAs.sees_starts textSpell)).bind ?_
        intro first notClosing
        rw [if_neg notClosing]
        refine (ReadAs.items (.cons readAs all) (List.cons_ne_nil _ _) commaBehind isClosing
          itemsSpell (by omega)).bind ?_
        intro results same
        refine (Parser.expectMark_reads isClosing).bind ?_
        intro _ _
        exact Parser.located_reads _ fun _ => by simp only [unplaced, same]

end ReadAs

mutual

/-- A text of an initializer is read as the initializer. -/
theorem SpelledAs.readAs : ∀ {init : Initializer} {text : List Terminal},
    init.SpelledAs text → ReadAs text init
  | _, _, .single isValue => .single isValue
  | _, _, .compound nonempty areItems commaBehind => .compound areItems.readAs nonempty commaBehind

/-- Texts of the initializers of a list are read as the initializers. -/
theorem SpelledAsList.readAs : ∀ {items : List Initializer} {texts : List (List Terminal)},
    SpelledAsList items texts → List.Forall₂ ReadAs texts items
  | _, _, .nil => .nil
  | _, _, .cons isFirst areMore => .cons isFirst.readAs areMore.readAs

end

end Initializer

/-! ### Declarations -/

/-- The initializer of a declaration is read, if there is one. -/
theorem Initializer.SpelledAsOption.parseRest_reads {init : Option Initializer}
    {declared : Declared} {storageClass : Option StorageClass} {closing : Token}
    {mark : Punctuator}
    (spelled : SpelledAsOption init text) (isClosing : closing.kind = .punctuator mark)
    (closes : mark ∈ [.semicolon, .comma]) (spell : Terminal.Spell before text (closing :: after)) :
    Reads ending (VarDecl.parseRest declared storageClass) before (closing :: after)
      fun decl => decl.unplaced = ⟨.nowhere, declared.name, declared.type, storageClass,
        init.map Initializer.unplaced⟩ := by
  unfold VarDecl.parseRest
  cases spelled with
  | none =>
      cases spell.nil
      refine (Parser.accept_reads_not (Parser.sees_cons ?_ ?_)).bind ?_
      · simp [isClosing]
      · revert closes
        simp only [isClosing]
        rintro closes ⟨rfl⟩
        simp at closes
      rintro _ rfl
      simp only [Bool.false_eq_true, if_false, pure_bind]
      exact Parser.located_reads _ fun _ => rfl
  | @some init text isInit =>
      rcases spell.cons with ⟨sign, tokens, rfl, isSign, -, spell⟩
      have length := spell.length_eq
      have reads : Reads ending Initializer.parse tokens (closing :: after)
          fun result => result.unplaced = init.unplaced := by
        unfold Initializer.parse
        refine Parser.fuel_reads.bind ?_
        rintro _ rfl
        exact isInit.readAs.reads ending tokens after closing mark _ isClosing
          (List.mem_cons_of_mem _ closes) spell (by omega)
      refine (Parser.accept_reads isSign).bind ?_
      rintro _ rfl
      refine reads.bind ?_
      intro result same
      simp only [pure_bind]
      exact Parser.located_reads _ fun _ => by simp only [VarDecl.unplaced, Option.map_some, same]

theorem endsDeclarator_of_closes {mark : Punctuator}
    (closes : mark ∈ [.assign, .semicolon, .comma, .leftBrace]) :
    Declarator.EndsDeclarator (.punctuator mark) := by
  simp only [List.mem_cons, List.not_mem_nil, or_false] at closes
  rcases closes with rfl | rfl | rfl | rfl
  all_goals exact ⟨by simp, by simp⟩

theorem Initializer.SpelledAsOption.sees_endsDeclarator {init : Option Initializer}
    {closing : Token}
    {mark : Punctuator} (spelled : SpelledAsOption init text)
    (isClosing : closing.kind = .punctuator mark) (closes : mark ∈ [.semicolon, .comma])
    (spell : Terminal.Spell before text (closing :: after)) :
    Sees ending before Declarator.EndsDeclarator := by
  cases spelled with
  | none =>
      cases spell.nil
      refine Parser.sees_cons (Parser.legal_of_mark isClosing) ?_
      rw [isClosing]
      exact endsDeclarator_of_closes (by simp at closes ⊢; tauto)
  | some =>
      exact (sees_of_spell spell (by simp)).mono fun _ isSign =>
        isSign ▸ endsDeclarator_of_closes (by simp)

/-- The declaration of an object is read as a declarator and an initializer. -/
theorem VarDecl.SpelledAs.reads (ending : Except Lexer.Overrun Token) {specifiers : Specifiers}
    {decl : VarDecl} {closing : Token} {mark : Punctuator}
    (spelled : decl.SpelledAs specifiers text) (isClosing : closing.kind = .punctuator mark)
    (closes : mark ∈ [.semicolon, .comma]) (spell : Terminal.Spell before text (closing :: after)) :
    Sees ending before (·.isSpecifier = false) ∧ ∃ middle,
      Reads ending (do (← Declarator.parse).declare specifiers.base) before middle
        (fun declared => declared.name = decl.name ∧ declared.type = decl.type) ∧
      ∀ declared : Declared, declared.name = decl.name ∧ declared.type = decl.type →
        Reads ending (VarDecl.parseRest declared specifiers.storageClass) middle (closing :: after)
          fun found => found.unplaced = decl.unplaced := by
  rcases spelled with ⟨isNameable, isBase, sameStorage, initText, isInit, rfl⟩
  rcases spell.append with ⟨middle, declaratorSpell, initSpell⟩
  rcases isNameable.isDeclarable with ⟨isDeclarable, noParameters⟩
  rcases Declarator.declarator_reads isDeclarable (by rw [noParameters]; rfl) declaratorSpell
    (isInit.sees_endsDeclarator isClosing closes initSpell) with ⟨starts, reads⟩
  refine ⟨starts, middle, ?_, ?_⟩
  · rw [← isBase]
    exact reads.mono fun declared spells => ⟨spells.1, spells.2.1⟩
  · rintro declared ⟨sameName, sameType⟩
    refine (isInit.parseRest_reads isClosing closes initSpell).mono ?_
    rintro found same
    rw [same, sameName, sameType, ← sameStorage]
    rfl

theorem FunDecl.names_getD (decl : FunDecl) :
    (decl.names.map (·.getD [])).zip decl.type.parameters =
      decl.params.map fun param => (param.name, param.type) := by
  have same : decl.names.map (·.getD []) = decl.params.map Param.name := by
    rw [FunDecl.names, List.map_map]
    refine List.map_congr_left fun param _ => ?_
    cases isEmpty : param.name <;> simp [isEmpty]
  rw [same, FunDecl.type, CType.parameters, List.zip_map']

/-- What a declarator declares is a function, up to the places of the parameters. -/
def FunDecl.IsDeclared (decl : FunDecl) (declared : Declared) : Prop :=
  declared.name = decl.name ∧ declared.type = decl.type ∧
    declared.params.map Param.unplaced = decl.params.map Param.unplaced

/-- The declaration of a function is read as a declarator. -/
theorem FunDecl.SpelledAs.reads (ending : Except Lexer.Overrun Token) {specifiers : Specifiers}
    {decl : FunDecl} (spelled : decl.SpelledAs specifiers text)
    (spell : Terminal.Spell before text after)
    (sees : Sees ending after Declarator.EndsDeclarator) :
    Sees ending before (·.isSpecifier = false) ∧
      Reads ending (do (← Declarator.parse).declare specifiers.base) before after
        decl.IsDeclared := by
  rcases spelled with ⟨isDeclarable, isBase, -, rfl⟩
  have named : decl.names.length = decl.type.parameters.length := by
    simp [FunDecl.names, FunDecl.type, CType.parameters]
  rcases Declarator.declarator_reads isDeclarable named spell sees with ⟨starts, reads⟩
  refine ⟨starts, ?_⟩
  rw [← isBase]
  refine reads.mono ?_
  rintro declared ⟨sameName, sameType, sameParams⟩
  refine ⟨sameName, sameType, ?_⟩
  rw [decl.names_getD] at sameParams
  have := congrArg (List.map fun param : Text × CType => Param.mk param.1 param.2 .none) sameParams
  rw [List.map_map, List.map_map] at this
  exact this

theorem FunDecl.IsDeclared.unplaced_eq {decl : FunDecl} {declared : Declared}
    (isDeclared : decl.IsDeclared declared) (loc : Loc) :
    (declared.funDecl loc decl.result decl.storageClass).unplaced = decl.unplaced := by
  rcases isDeclared with ⟨sameName, -, sameParams⟩
  simp only [FunDecl.unplaced, Declared.funDecl, sameName, sameParams]

/-- A function with a body has names for its parameters. -/
theorem FunDecl.IsDeclared.requireNames_reads {decl : FunDecl} {declared : Declared}
    (isDeclared : decl.IsDeclared declared)
    (named : ∀ param ∈ decl.params, param.name.isEmpty = false) :
    Reads ending declared.requireNames before before fun _ => True := by
  have named : ∀ param ∈ declared.params, param.name.isEmpty = false := by
    intro param mem
    have placed : param.unplaced ∈ decl.params.map Param.unplaced :=
      isDeclared.2.2 ▸ List.mem_map_of_mem mem
    rcases List.mem_map.1 placed with ⟨other, isIn, same⟩
    have sameName : other.unplaced.name = param.unplaced.name := by rw [same]
    exact sameName ▸ named other isIn
  unfold Declared.requireNames
  generalize declared.params = params at named
  induction params with
  | nil => exact Reads.pure trivial
  | cons param params ih =>
      rw [List.forall_mem_cons] at named
      rw [List.forM, if_neg (by simp [named.1])]
      exact ih named.2

/-! ### Lines of declarations -/

section Lines

variable {specifiers : Specifiers}

/-- The first declarator of a line is read, and then what is behind it. -/
theorem Decl.SpelledAs.parseDeclarators_reads {decl : Decl} {closing : Token} {mark : Punctuator}
    {isFirst : Bool} {fuel : Nat} {wanted : List Decl → Prop}
    (spelled : decl.SpelledAs specifiers text) (isClosing : closing.kind = .punctuator mark)
    (closes : mark ∈ [.semicolon, .comma]) (spell : Terminal.Spell before text (closing :: middle))
    (rest : ∀ found : Decl, found.unplaced = decl.unplaced →
      Reads ending (Decl.parseMore fuel specifiers found) (closing :: middle) after wanted) :
    Sees ending before (·.isSpecifier = false) ∧
      Reads ending (Decl.parseDeclarators (fuel + 1) specifiers isFirst) before after wanted := by
  rw [Decl.parseDeclarators, ← bind_assoc]
  cases spelled with
  | object isObject =>
      rcases isObject.reads ending isClosing closes spell with ⟨starts, between, reads, readsRest⟩
      refine ⟨starts, reads.bind ?_⟩
      intro declared same
      have notFunction := isObject.1.isFunction_eq_false
      split
      case h_1 isFunction =>
        rw [← same.2, isFunction] at notFunction
        cases notFunction
      case h_2 =>
        refine (readsRest declared same).bind ?_
        intro found same
        exact rest _ (congrArg Decl.object same)
  | @function decl _ isFunction =>
      have ends : Sees ending (closing :: middle) Declarator.EndsDeclarator := by
        refine Parser.sees_cons (Parser.legal_of_mark isClosing) ?_
        rw [isClosing]
        exact endsDeclarator_of_closes (by simp at closes ⊢; tauto)
      rcases isFunction.reads ending spell ends with ⟨starts, reads⟩
      refine ⟨starts, reads.bind ?_⟩
      intro declared isDeclared
      have noBody : Reads ending (Declared.opensBody isFirst) (closing :: middle)
          (closing :: middle) fun found => found = false := by
        cases isFirst with
        | false => exact Reads.pure rfl
        | true =>
            refine Parser.currentIsMark_reads_not (Parser.sees_cons ?_ ?_)
            · simp [isClosing]
            · rw [isClosing]
              simp at closes ⊢
              rcases closes with rfl | rfl <;> simp
      rw [isDeclared.2.1]
      simp only [FunDecl.type]
      refine noBody.bind ?_
      rintro _ rfl
      simp only [Bool.false_eq_true, if_false]
      refine (Parser.newLoc_reads _).bind ?_
      intro loc _
      refine rest _ (congrArg Decl.function ?_)
      rw [← isFunction.2.2.1]
      exact isDeclared.unplaced_eq loc

theorem Decl.SpelledAs.words_ne_nil {decl : Decl} (spelled : decl.SpelledAs specifiers text) :
    specifiers.base.words ≠ [] := by
  cases spelled with
  | object isObject => exact isObject.2.1 ▸ CType.words_innermost_ne_nil _ isObject.1
  | function isFunction => exact isFunction.2.1 ▸ isFunction.1.words_ne_nil

/-- What a declarator is followed by: the semicolon, or a comma and the other declarators of the
line. -/
def Terminal.EndsDecl (texts : List (List Terminal)) (closing : Token) (mark : Punctuator)
    (middle after : List Token) : Prop :=
  closing.kind = .punctuator mark ∧
    (texts = [] ∧ mark = .semicolon ∧ middle = after ∨
      texts ≠ [] ∧ mark = .comma ∧
        Terminal.Spell middle (Expr.commas texts ++ [.mark .semicolon]) after)

theorem Terminal.Spell.line {texts : List (List Terminal)}
    (spell : Terminal.Spell before
      (Expr.commas (text :: texts) ++ [Terminal.mark .semicolon]) after) :
    ∃ closing mark middle, Terminal.Spell before text (closing :: middle) ∧
      mark ∈ [.semicolon, .comma] ∧ Terminal.EndsDecl texts closing mark middle after := by
  rcases spell.commas with
    ⟨behind, textSpell, ⟨rfl, endSpell⟩ | ⟨comma, tokens, rfl, isComma, nonempty, spell⟩⟩
  · rcases endSpell.singleton with ⟨closing, rfl, isClosing, -⟩
    exact ⟨closing, _, _, textSpell, by simp, isClosing, .inl ⟨rfl, rfl, rfl⟩⟩
  · exact ⟨comma, _, tokens, textSpell, by simp, isComma, .inr ⟨nonempty, rfl, spell⟩⟩

/-- Behind a declaration, the others of the line are read through the semicolon. -/
theorem Terminal.EndsDecl.reads {α : Type} {change : α → α} {found decl : α} {decls : List α}
    {more : Parser ParseState (List α)} {texts : List (List Terminal)} {closing : Token}
    {mark : Punctuator}
    (ends : Terminal.EndsDecl texts closing mark middle after) (same : change found = change decl)
    (isEmpty : texts = [] → decls = [])
    (rest : texts ≠ [] →
      Terminal.Spell middle (Expr.commas texts ++ [Terminal.mark .semicolon]) after →
      Reads ending more middle after fun results => results.map change = decls.map change) :
    Reads ending (do
      if ← Parser.accept .comma then
        pure (found :: (← more))
      else
        let _ ← Parser.expectMark .semicolon
        pure [found]) (closing :: middle) after
          fun results => results.map change = (decl :: decls).map change := by
  rcases ends with ⟨isClosing, ⟨rfl, rfl, rfl⟩ | ⟨nonempty, rfl, spell⟩⟩
  · cases isEmpty rfl
    refine (Parser.accept_reads_not (Parser.sees_cons ?_ ?_)).bind ?_
    · simp [isClosing]
    · simp [isClosing]
    rintro _ rfl
    refine (Parser.expectMark_reads isClosing).bind ?_
    intro _ _
    exact Reads.pure (congrArg ([·]) same)
  · refine (Parser.accept_reads isClosing).bind ?_
    rintro _ rfl
    refine (rest nonempty spell).bind ?_
    intro results allSame
    exact Reads.pure (congrArg₂ List.cons same allSame)

/-- Declarators with commas between them are read through the semicolon behind them. -/
theorem Decl.parseDeclarators_reads (ending : Except Lexer.Overrun Token) {decls : List Decl}
    {texts : List (List Terminal)} {isFirst : Bool} {fuel : Nat}
    (all : List.Forall₂ (Decl.SpelledAs specifiers) decls texts)
    (nonempty : texts ≠ [])
    (spell : Terminal.Spell before (Expr.commas texts ++ [Terminal.mark .semicolon]) after)
    (enough : 2 * (Expr.commas texts).length + 2 ≤ fuel) :
    Sees ending before (·.isSpecifier = false) ∧
      Reads ending (Decl.parseDeclarators fuel specifiers isFirst) before after
        fun found => found.map Decl.unplaced = decls.map Decl.unplaced := by
  induction all generalizing before isFirst fuel with
  | nil => exact absurd rfl nonempty
  | @cons decl text decls texts spelled all ih =>
      rcases Nat.exists_eq_add_of_le' (by omega : 2 ≤ fuel) with ⟨fuel, rfl⟩
      rcases spell.line with ⟨closing, mark, middle, textSpell, closes, ends⟩
      refine spelled.parseDeclarators_reads ends.1 closes textSpell ?_
      intro found same
      rw [Decl.parseMore]
      refine ends.reads same (fun isEmpty => List.forall₂_nil_right_iff.1 (isEmpty ▸ all)) ?_
      intro nonempty spell
      have length := Expr.length_commas_cons text nonempty
      exact (ih nonempty spell (by omega)).2

/-- The declarators of a first clause of a for statement are read through the semicolon. -/
theorem VarDecl.parseListWith_reads (ending : Except Lexer.Overrun Token) {decls : List VarDecl}
    {texts : List (List Terminal)} {fuel : Nat}
    (all : List.Forall₂ (VarDecl.SpelledAs specifiers) decls texts)
    (nonempty : texts ≠ [])
    (spell : Terminal.Spell before (Expr.commas texts ++ [Terminal.mark .semicolon]) after)
    (enough : (Expr.commas texts).length + 1 ≤ fuel) :
    Sees ending before (·.isSpecifier = false) ∧
      Reads ending (VarDecl.parseListWith specifiers fuel) before after
        fun found => found.map VarDecl.unplaced = decls.map VarDecl.unplaced := by
  induction all generalizing before fuel with
  | nil => exact absurd rfl nonempty
  | @cons decl text decls texts spelled all ih =>
      rcases Nat.exists_eq_add_of_le' (by omega : 1 ≤ fuel) with ⟨fuel, rfl⟩
      rcases spell.line with ⟨closing, mark, middle, textSpell, closes, ends⟩
      rcases spelled.reads ending ends.1 closes textSpell with
        ⟨starts, between, reads, readsRest⟩
      rw [VarDecl.parseListWith, ← bind_assoc]
      refine ⟨starts, reads.bind ?_⟩
      intro declared same
      rw [if_neg (by simp [same.2, spelled.1.isFunction_eq_false])]
      refine (readsRest declared same).bind ?_
      intro found same
      refine ends.reads same (fun isEmpty => List.forall₂_nil_right_iff.1 (isEmpty ▸ all)) ?_
      intro nonempty spell
      have length := Expr.length_commas_cons text nonempty
      exact (ih nonempty spell (by omega)).2

end Lines

/-- A declaration starts with a specifier. -/
theorem Specifiers.sees_text {specifiers : Specifiers} {more : List Terminal}
    (isBasic : specifiers.base.words ≠ [])
    (spell : Terminal.Spell before (specifiers.text ++ more) after) :
    Sees ending before (·.isSpecifier = true) := by
  rcases exists_words isBasic with ⟨keyword, rest, same, isSpecifier⟩
  rw [Specifiers.text, same] at spell
  exact (sees_of_spell spell (by simp)).mono fun _ isKeyword => isKeyword ▸ isSpecifier

/-- The first clause of a for statement is read through the semicolon behind it. -/
theorem ForInit.SpelledAs.parse_reads {init : ForInit} (spelled : init.SpelledAs text)
    (spell : Terminal.Spell before text after) :
    Reads ending ForInit.parse before after fun found => found.unplaced = init.unplaced := by
  unfold ForInit.parse
  cases spelled with
  | @declarations loc specifiers decls texts nonempty areDecls =>
      have isBasic : specifiers.base.words ≠ [] := by
        cases areDecls with
        | nil => exact absurd rfl nonempty
        | cons isFirst _ => exact isFirst.2.1 ▸ CType.words_innermost_ne_nil _ isFirst.1
      have someTexts : texts ≠ [] := by
        rintro rfl
        exact nonempty (List.forall₂_nil_right_iff.1 areDecls)
      refine (Parser.current_reads_sees (Specifiers.sees_text isBasic spell)).bind ?_
      intro token isSpecifier
      rw [if_pos isSpecifier]
      rcases spell.append with ⟨middle, wordsSpell, spell⟩
      have length := spell.length_eq
      rw [List.length_append] at length
      have enough : (Expr.commas texts).length + 1 ≤ 8 * (middle.length + 2) := by omega
      rcases VarDecl.parseListWith_reads ending areDecls someTexts spell enough with
        ⟨starts, reads⟩
      refine (Specifiers.parse_reads (by simp) isBasic wordsSpell starts).bind ?_
      rintro _ rfl
      refine Parser.fuel_reads.bind ?_
      rintro _ rfl
      refine reads.bind ?_
      intro found same
      exact Parser.located_reads _ fun _ => by simp only [ForInit.unplaced, same]
  | @expression loc value text isValue =>
      rcases spell.snoc with ⟨closing, valueSpell, isClosing⟩
      have starts : Sees ending before (·.isSpecifier = false) := by
        cases isValue with
        | none =>
            cases valueSpell.nil
            exact Parser.sees_cons (by simp [isClosing]) (by rw [isClosing]; rfl)
        | some isValue =>
            exact (isValue.sees_starts valueSpell).mono fun _ starts => starts.not_specifier
      refine (Parser.current_reads_sees starts).bind ?_
      intro token notSpecifier
      rw [if_neg (by simp [notSpecifier])]
      refine (isValue.parseUnless_reads (.inl rfl) isClosing valueSpell).bind ?_
      intro found same
      refine (Parser.expectMark_reads isClosing).bind ?_
      intro _ _
      exact Parser.located_reads _ fun _ => by simp only [ForInit.unplaced, same]

end SubsetC
