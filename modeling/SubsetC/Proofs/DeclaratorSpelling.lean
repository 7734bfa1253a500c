import SubsetC.Proofs.TypeSpelling

/-!
# Declarations

How a declaration of a name with a type is spelled in C. The name stands where a type name has
nothing, and a function has its parameter list next to its name. Parameters have a name or none. The
main statement is `Declarator.parse_spelling`: declarations, type names and parameters are read back
as what they spell.
-/

namespace SubsetC

/-! ### Spelling -/

namespace CType

/-- The types a name can be declared with: object types, and functions of object types other than
void whose result is no array. -/
def IsDeclarable : CType → Prop
  | .function parameters result => result.IsNameable ∧ result.isArray = false ∧
      ∀ parameter ∈ parameters, parameter.IsNameable ∧ parameter ≠ .void
  | type => type.IsNameable

/-- The parameters of a function type. -/
def parameters : CType → List CType
  | .function parameters _ => parameters
  | _ => []

/-- The spelling of a parameter, with a name or without. -/
def parameter (name : Option Text) (type : CType) : List Terminal :=
  type.spell false (name.toList.map .name)

/-- The spelling of a parameter list without its parentheses. -/
def parameterList : List (Option Text × CType) → List Terminal
  | [] => [.word .void]
  | [(name, type)] => parameter name type
  | (name, type) :: next :: params =>
      parameter name type ++ .mark .comma :: parameterList (next :: params)

/-- The spelling of a declaration, without a semicolon. The parameters of a function have the given
names, or none. -/
def declaration (type : CType) (name : Text) (names : List (Option Text)) : List Terminal :=
  match type with
  | .function parameters result =>
      result.spell false (.name name :: .mark .leftParen ::
        (parameterList (names.zip parameters) ++ [.mark .rightParen]))
  | type => type.spell false [.name name]

/-- The declarator in the spelling of a declaration, which is all but the words in front. -/
def declarator (type : CType) (name : Text) (names : List (Option Text)) : List Terminal :=
  match type with
  | .function parameters result =>
      result.derive false (.name name :: .mark .leftParen ::
        (parameterList (names.zip parameters) ++ [.mark .rightParen]))
  | type => type.derive false [.name name]

theorem IsDeclarable.words_ne_nil {type : CType} (isDeclarable : type.IsDeclarable) :
    type.innermost.words ≠ [] := by
  cases type with
  | function _ result => exact result.words_innermost_ne_nil isDeclarable.1
  | void | double | integer | pointer | array => exact words_innermost_ne_nil _ isDeclarable

theorem IsDeclarable.declaration_eq {type : CType} (isDeclarable : type.IsDeclarable) (name : Text)
    (names : List (Option Text)) : type.declaration name names =
      type.innermost.words.map .word ++ type.declarator name names := by
  cases type with
  | function _ result => exact result.spell_eq _ _ isDeclarable.1
  | void | double | integer | pointer | array => exact spell_eq _ _ _ isDeclarable

theorem exists_parameterList (param : Option Text × CType) :
    ∀ params, ∃ rest, parameterList (param :: params) = parameter param.1 param.2 ++ rest
  | [] => ⟨[], by rw [parameterList, List.append_nil]⟩
  | _ :: _ => ⟨_, rfl⟩

theorem IsNameable.isFunction_eq_false {type : CType} (isNameable : type.IsNameable) :
    type.isFunction = false := by
  cases type with
  | function => exact isNameable.elim
  | _ => rfl

theorem IsNameable.isDeclarable {type : CType} (isNameable : type.IsNameable) :
    type.IsDeclarable ∧ type.parameters = [] := by
  cases type with
  | function => exact isNameable.elim
  | void | double | integer | pointer | array => exact ⟨isNameable, rfl⟩

/-- A spelling starts with a word. If that is void, no parenthesis is closed behind it. -/
theorem exists_head : ∀ (type : CType) {isPointer : Bool} {inside : List Terminal},
    type.IsNameable → (∀ terminal ∈ inside.head?, terminal.kind ≠ .punctuator .rightParen) →
    (type = .void → inside ≠ []) →
    ∃ keyword rest, type.spell isPointer inside = .word keyword :: rest ∧
      (keyword = .void → ∃ second more, rest = second :: more ∧
        second.kind ≠ .punctuator .rightParen)
  | .pointer element, _, inside, isNameable, _, _ =>
      exists_head element isNameable (by simp) (fun _ => List.cons_ne_nil _ _)
  | .array size element, isPointer, inside, isNameable, solid, _ => by
      refine exists_head element isNameable.2.2 ?_ (fun _ => by simp [dimension])
      cases isPointer with
      | true => simp [Terminal.enclose]
      | false =>
          cases inside with
          | nil => simp [Terminal.enclose, dimension]
          | cons first inside => simpa [Terminal.enclose] using solid
  | .void, _, inside, _, solid, nonempty => by
      cases inside with
      | nil => exact absurd rfl (nonempty rfl)
      | cons first inside => exact ⟨_, _, rfl, fun _ => ⟨first, inside, rfl, solid first rfl⟩⟩
  | .double, _, _, _, _, _ => ⟨_, _, rfl, by simp⟩
  | .integer kind, _, _, _, _, _ => by cases kind <;> exact ⟨_, _, rfl, by simp⟩
  | .function _ _, _, _, isNameable, _, _ => isNameable.elim

end CType

/-- A declarator of a name with a type declares that name with that type, and parameters with the
given names or none. -/
def Declared.Spells (declared : Declared) (type : CType) (name : Text)
    (names : List (Option Text)) : Prop :=
  declared.name = name ∧ declared.type = type ∧
    declared.params.map (fun param => (param.name, param.type)) =
      (names.map (·.getD [])).zip type.parameters

variable {ending : Except Lexer.Overrun Token}

namespace Declarator

open SubsetC.Parser (Reads Sees sees_of_spell)

/-! ### Readers of declarations and parameters -/

/-- A kind that goes on in no declarator. -/
def EndsDeclarator (kind : TokenKind) : Prop :=
  kind ≠ .punctuator .leftParen ∧ kind ≠ .punctuator .leftBracket

/-- A kind that ends a parameter. -/
def EndsParameter (kind : TokenKind) : Prop :=
  kind = .punctuator .comma ∨ kind = .punctuator .rightParen

/-- The reader of declarators with a name, or of those of parameters. -/
def Reader.named (nameOptional : Bool) : Reader where
  whole fuel := parseWith fuel nameOptional
  behind := suffixes
  group := .paren
  Ends := if nameOptional then EndsParameter else EndsDeclarator

theorem Reader.endsDeclarator {nameOptional : Bool} {kind : TokenKind}
    (ends : (named nameOptional).Ends kind) : EndsDeclarator kind := by
  cases nameOptional with
  | true =>
      rcases ends with rfl | rfl
      · exact ⟨by simp, by simp⟩
      · exact ⟨by simp, by simp⟩
  | false => exact ends

/-- A star behind a parenthesis does not open a parameter list. -/
theorem opensParams_reads {opening star : Token} {tokens : List Token} (nameOptional : Bool)
    (isOpening : opening.kind = .punctuator .leftParen) (isStar : star.kind = .punctuator .star) :
    Reads ending (opensParams nameOptional) (opening :: star :: tokens)
      (opening :: star :: tokens) fun found => found = false := by
  unfold opensParams
  cases nameOptional with
  | false => exact Reads.pure rfl
  | true =>
      refine (Parser.following_reads (by simp [isOpening])).bind ?_
      rintro _ rfl
      exact Reads.pure (by simp [isStar, TokenKind.isSpecifier])

theorem suffixes_reads_nil {tokens : List Token} {declarator : Declarator} {fuel : Nat}
    (sees : Sees ending tokens EndsDeclarator) :
    Reads ending (suffixes (fuel + 1) declarator) tokens tokens
      fun found => found = declarator := by
  unfold suffixes
  refine (Parser.current_reads_sees sees).bind ?_
  intro token ends
  split
  case h_1 isBracket => exact absurd isBracket ends.2
  case h_2 isParen => exact absurd isParen ends.1
  case h_3 => exact Reads.pure rfl

theorem Reader.named_lawful (nameOptional : Bool) : (named nameOptional).Lawful where
  star := by
    intro ending token tokens after fuel fits isStar inner
    unfold named parseWith
    refine (Parser.accept_reads isStar).bind ?_
    rintro _ rfl
    refine inner.bind ?_
    intro found isFit
    exact Reads.pure ⟨found, isFit, rfl⟩
  parens := by
    intro ending opening star closing tokens rest after fuel fits wanted isOpening isStar isClosing
      inner behind
    unfold named parseWith
    refine (Parser.accept_reads_not (Parser.sees_cons ?_ ?_)).bind ?_
    · simp [isOpening]
    · simp [isOpening]
    rintro _ rfl
    refine Parser.current_bind (by simp [isOpening]) ?_
    simp only [isOpening]
    refine (opensParams_reads nameOptional isOpening isStar).bind ?_
    rintro _ rfl
    refine Parser.skip_bind (by simp [isOpening]) ?_
    refine inner.bind ?_
    rintro _ ⟨found, isFit, rfl⟩
    refine (Parser.expectMark_reads isClosing).bind ?_
    intro _ _
    exact behind found isFit
  bracket := by
    intro ending before middle after declarator size fuel wanted positive bounded spell rest
    rcases spell.cons with ⟨opening, tokens, rfl, isOpening, -⟩
    unfold named suffixes
    refine Parser.current_bind (by simp [isOpening]) ?_
    simp only [isOpening]
    refine (dimension_reads positive bounded spell).bind ?_
    rintro _ rfl
    exact rest
  stop := fun sees => suffixes_reads_nil (sees.mono fun _ => endsDeclarator)
  closes := by
    cases nameOptional with
    | true => exact .inr rfl
    | false => exact ⟨by simp, by simp⟩
  resolve_group := by
    intro inner base
    rw [named, resolve]
    rfl

/-! ### Names and their places -/

section Place

variable {fits : Declarator → Prop}

/-- A name, and what stands behind it. -/
theorem parseWith_reads_name {token : Token} {tokens after : List Token} {nameOptional : Bool}
    {fuel : Nat} {wanted : Declarator → Prop} (isName : token.kind = .identifier)
    (rest : Reads ending (suffixes fuel (.named token.literal token.span)) tokens after wanted) :
    Reads ending (parseWith (fuel + 1) nameOptional) (token :: tokens) after wanted := by
  unfold parseWith
  refine (Parser.accept_reads_not (Parser.sees_cons ?_ ?_)).bind ?_
  · simp [isName]
  · simp [isName]
  rintro _ rfl
  refine Parser.current_bind (by simp [isName]) ?_
  simp only [isName]
  exact Parser.skip_bind (by simp [isName]) rest

theorem spelledBy_name {nameOptional : Bool} {name : Text}
    (isFit : ∀ span, fits (.named name span)) :
    SpelledBy (.named nameOptional) fits false [.name name] := by
  refine SpelledBy.of_prefixed (Reader.named_lawful nameOptional) ?_ ?_
  · intro ending before after spell _
    exact (sees_of_spell spell (by simp)).mono fun _ isName => isName ▸ rfl
  intro ending before middle after enough fuel wanted spell _ rest bound
  rcases spell.singleton with ⟨token, rfl, isName, isText⟩
  rcases Nat.exists_eq_add_of_le' (by omega : 1 ≤ fuel) with ⟨fuel, rfl⟩
  refine parseWith_reads_name isName ?_
  rw [isText]
  exact rest _ fuel (isFit token.span) (by simp at bound; omega)

theorem spelledBy_nothing (isFit : fits .abstract) : SpelledBy (.named true) fits false [] := by
  have notOpen {kind : TokenKind} (follows : (Reader.named true).Follows kind) :
      kind.isSpecifier = false ∧ kind ≠ .punctuator .star ∧ kind ≠ .identifier ∧
        kind ≠ .punctuator .leftParen := by
    rcases follows with rfl | rfl | rfl
    all_goals exact ⟨rfl, by simp, by simp, by simp⟩
  refine SpelledBy.of_prefixed (Reader.named_lawful true) ?_ ?_
  · intro ending before after spell sees
    rw [spell.nil]
    exact sees.mono fun _ follows => (notOpen follows).1
  intro ending before middle after enough fuel wanted spell sees rest bound
  rw [spell.nil]
  rcases Nat.exists_eq_add_of_le' (by omega : 1 ≤ fuel) with ⟨fuel, rfl⟩
  unfold Reader.named parseWith
  refine (Parser.accept_reads_not (sees.mono fun _ follows => (notOpen follows).2.1)).bind ?_
  rintro _ rfl
  refine (Parser.current_reads_sees sees).bind ?_
  intro token follows
  split
  case h_1 isName => exact absurd isName (notOpen follows).2.2.1
  case h_2 isOpening => exact absurd isOpening (notOpen follows).2.2.2
  case h_3 => exact rest .abstract fuel isFit (by simp at bound; omega)

/-- A declarator that declares a name, or a place for one, with the base type itself. -/
def Names (name : Text) (declarator : Declarator) : Prop :=
  ∀ base, ∃ span, declarator.resolve base = .ok ⟨name, span, base, []⟩

theorem spelledBy_optional (name : Option Text) :
    SpelledBy (.named true) (Names (name.getD [])) false (name.toList.map .name) := by
  cases name with
  | none => exact spelledBy_nothing fun base => ⟨.none, by rw [resolve]; rfl⟩
  | some name => exact spelledBy_name fun span base => ⟨span, by rw [resolve]; rfl⟩

end Place

/-! ### Parameter lists -/

/-- The name and type of a parameter. A parameter without a name has an empty one. -/
def parameterOf (param : Option Text × CType) : Text × CType := (param.1.getD [], param.2)

/-- A parameter declarator declares a parameter. -/
def ParamDeclarator.Declares (param : Option Text × CType) : ParamDeclarator → Prop
  | .mk base declarator _ => ∃ span,
      declarator.resolve base = .ok ⟨param.1.getD [], span, param.2, []⟩

theorem resolveParams_of_declares {params : List (Option Text × CType)}
    {found : List ParamDeclarator} (areObjects : ∀ param ∈ params, param.2.IsNameable)
    (declares : List.Forall₂ ParamDeclarator.Declares params found) :
    ∃ resolved, resolveParams found = .ok resolved ∧
      resolved.map (fun param => (param.name, param.type)) = params.map parameterOf := by
  induction declares with
  | nil => exact ⟨[], by rw [resolveParams]; rfl, rfl⟩
  | @cons param found params more declares _ ih =>
      rcases ih fun other isIn => areObjects other (List.mem_cons_of_mem _ isIn) with
        ⟨resolved, resolves, same⟩
      rcases found with ⟨base, declarator, place⟩
      rcases declares with ⟨span, isDeclared⟩
      have isObject := (areObjects param List.mem_cons_self).isFunction_eq_false
      let name := param.1.getD []
      refine ⟨⟨name, param.2, if name.isEmpty then place else span⟩ :: resolved, ?_, ?_⟩
      · rw [resolveParams, isDeclared, resolves]
        change (if param.2.isFunction then _ else _) = _
        rw [isObject]
        rfl
      · rw [List.map_cons, List.map_cons, same]
        rfl

/-- A parameter is read up to the comma or the parenthesis behind it. -/
theorem parameter_reads {name : Option Text} {type : CType} {before after : List Token}
    (isNameable : type.IsNameable) (spell : Terminal.Spell before (type.parameter name) after)
    (sees : Sees ending after EndsParameter) {fuel : Nat}
    (enough : (type.parameter name).length + 1 ≤ fuel) {α : Type}
    {next : Token → Specifiers → Declarator → Parser ParseState α} {rest : List Token}
    {wanted : α → Prop}
    (goesOn : ∀ start specifiers declarator,
      ParamDeclarator.Declares (name, type) (.mk specifiers.base declarator start.span) →
      Reads ending (next start specifiers declarator) after rest wanted) :
    Reads ending (do
      let start ← Parser.current
      let specifiers ← Specifiers.parse false
      let declarator ← parseWith fuel true
      next start specifiers declarator) before rest wanted := by
  rcases (spelledBy_optional name).reads (Reader.named_lawful true) isNameable false spell sees with
    ⟨base, middle, readsWords, shorter, readsWhole⟩
  rcases type.exists_spell isNameable with ⟨keyword, text, same, -⟩
  have length := spell.length_eq
  have starts : Sees ending before fun _ => True := by
    rw [CType.parameter, same] at spell
    exact (sees_of_spell spell (by simp)).mono fun _ _ => trivial
  refine (Parser.current_reads_sees starts).bind ?_
  intro start _
  refine readsWords.bind ?_
  rintro _ rfl
  refine (readsWhole fuel (by omega)).bind ?_
  rintro found ⟨inner, names, resolves⟩
  refine goesOn _ _ _ ?_
  rw [ParamDeclarator.Declares, resolves]
  exact names type

theorem paramList_reads : ∀ (params : List (Option Text × CType)) {before after : List Token}
    {fuel : Nat}, params ≠ [] → (∀ param ∈ params, param.2.IsNameable) →
    Terminal.Spell before (CType.parameterList params) after →
    Sees ending after (· = .punctuator .rightParen) →
    (CType.parameterList params).length + 2 ≤ fuel →
    Reads ending (paramList fuel) before after (List.Forall₂ ParamDeclarator.Declares params)
  | [], _, _, _, nonempty, _, _, _, _ => absurd rfl nonempty
  | [(name, type)], before, after, fuel, _, areNameable, spell, sees, enough => by
      rcases Nat.exists_eq_add_of_le' (by omega : 1 ≤ fuel) with ⟨fuel, rfl⟩
      have isNameable : type.IsNameable := areNameable (name, type) List.mem_cons_self
      unfold paramList
      rw [CType.parameterList] at spell enough
      refine parameter_reads isNameable spell (sees.mono fun _ => .inr) ?_ ?_
      · omega
      intro start specifiers declarator declares
      refine (Parser.accept_reads_not (sees.mono ?_)).bind ?_
      · rintro _ rfl
        simp
      rintro _ rfl
      exact Reads.pure (.cons declares .nil)
  | (name, type) :: next :: params, before, after, fuel, _, areNameable, spell, sees, enough => by
      rcases Nat.exists_eq_add_of_le' (by omega : 1 ≤ fuel) with ⟨fuel, rfl⟩
      have isNameable : type.IsNameable := areNameable (name, type) List.mem_cons_self
      rw [CType.parameterList] at spell enough
      rw [List.length_append, List.length_cons] at enough
      rcases spell.append with ⟨middle, paramSpell, spell⟩
      rcases spell.cons with ⟨comma, tokens, rfl, isComma, -, spell⟩
      unfold paramList
      refine parameter_reads isNameable paramSpell ?_ ?_ ?_
      · exact Parser.sees_cons (by simp [isComma]) (.inl isComma)
      · omega
      intro start specifiers declarator declares
      refine (Parser.accept_reads isComma).bind ?_
      rintro _ rfl
      refine (paramList_reads (next :: params) (List.cons_ne_nil _ _)
        (fun param isIn => areNameable param (List.mem_cons_of_mem _ isIn)) spell sees
        (by omega)).bind ?_
      intro more areDeclared
      exact Reads.pure (.cons declares areDeclared)

/-- The spelling of a parameter does not start as a list of none does. -/
theorem isVoidList_reads_not {name : Option Text} {type : CType} {before after : List Token}
    (isNameable : type.IsNameable) (notVoid : type ≠ .void)
    (spell : Terminal.Spell before (type.parameter name) after) :
    Reads ending isVoidList before before fun found => found = false := by
  have solid : ∀ terminal ∈ (name.toList.map Terminal.name).head?,
      terminal.kind ≠ .punctuator .rightParen := by
    cases name <;> simp
  rcases type.exists_head isNameable solid (absurd · notVoid) with
    ⟨keyword, text, same, ifVoid⟩
  rw [CType.parameter, same] at spell
  rcases spell.cons with ⟨word, tokens, rfl, isWord, -, spell⟩
  have legal : word.kind ≠ .illegal := by simp [isWord]
  unfold isVoidList
  by_cases isVoid : keyword = .void
  · rcases ifVoid isVoid with ⟨second, more, rfl, notClosing⟩
    rcases spell.cons with ⟨next, tokens, rfl, isSecond, -, -⟩
    refine (Parser.currentIsBefore_reads (isWord.trans (by rw [isVoid])) legal).mono ?_
    rintro _ rfl
    exact decide_eq_false (isSecond ▸ notClosing)
  · refine Parser.currentIsBefore_reads_not (Parser.sees_cons legal ?_)
    rw [isWord]
    simpa using isVoid

/-- A parameter list in parentheses is read. The word void alone stands for no parameters. -/
theorem params_reads {params : List (Option Text × CType)} {before after : List Token}
    {fuel : Nat} (areObjects : ∀ param ∈ params, param.2.IsNameable ∧ param.2 ≠ .void)
    (spell : Terminal.Spell before
      (.mark .leftParen :: (CType.parameterList params ++ [Terminal.mark .rightParen])) after)
    (enough : (CType.parameterList params).length + 3 ≤ fuel) :
    Reads ending (Declarator.params fuel) before after
      (List.Forall₂ ParamDeclarator.Declares params) := by
  rcases Nat.exists_eq_add_of_le' (by omega : 1 ≤ fuel) with ⟨fuel, rfl⟩
  rcases spell.cons with ⟨opening, tokens, rfl, isOpening, -, spell⟩
  rcases spell.snoc with ⟨closing, listSpell, isClosing⟩
  unfold Declarator.params
  refine (Parser.expectMark_reads isOpening).bind ?_
  intro _ _
  cases params with
  | nil =>
      rcases listSpell.singleton with ⟨word, rfl, isVoid, -⟩
      refine (Parser.accept_reads_not (Parser.sees_cons ?_ ?_)).bind ?_
      · simp [isVoid]
      · simp [isVoid]
      rintro _ rfl
      have legal : word.kind ≠ .illegal := by simp [isVoid]
      refine (Parser.currentIsBefore_reads isVoid legal).bind ?_
      rintro _ rfl
      rw [if_pos (decide_eq_true isClosing)]
      refine Parser.skip_bind legal (Parser.skip_bind (by simp [isClosing]) ?_)
      exact Reads.pure .nil
  | cons param params =>
      rcases areObjects param List.mem_cons_self with ⟨isNameable, notVoid⟩
      rcases CType.exists_parameterList param params with ⟨text, same⟩
      have wholeSpell := listSpell
      rw [same] at wholeSpell
      rcases wholeSpell.append with ⟨_, paramSpell, -⟩
      refine (Parser.accept_reads_not ?_).bind ?_
      · rcases param.2.exists_spell isNameable with ⟨keyword, more, isText, -⟩
        rw [CType.parameter, isText] at paramSpell
        exact (sees_of_spell paramSpell (by simp)).mono fun _ isWord => by simp [isWord]
      rintro _ rfl
      refine (isVoidList_reads_not isNameable notVoid paramSpell).bind ?_
      rintro _ rfl
      refine (paramList_reads (param :: params) (List.cons_ne_nil _ _)
        (fun other isIn => (areObjects other isIn).1) listSpell ?_ (by omega)).bind ?_
      · exact Parser.sees_cons (by simp [isClosing]) isClosing
      intro found declares
      refine (Parser.expectMark_reads isClosing).bind ?_
      intro _ _
      exact Reads.pure declares

/-! ### Declarations -/

/-- A declarator of a function: with any result that is no array, it declares a function of that
result. -/
def NamesFunction (name : Text) (params : List (Option Text × CType)) (declarator : Declarator) :
    Prop :=
  ∀ result : CType, result.isArray = false → ∃ span resolved,
    declarator.resolve result = .ok ⟨name, span, .function (params.map Prod.snd) result, resolved⟩ ∧
      resolved.map (fun param => (param.name, param.type)) = params.map parameterOf

theorem spelledBy_function {name : Text} {params : List (Option Text × CType)}
    (areObjects : ∀ param ∈ params, param.2.IsNameable ∧ param.2 ≠ .void) :
    SpelledBy (.named false) (NamesFunction name params) false (.name name ::
      .mark .leftParen :: (CType.parameterList params ++ [Terminal.mark .rightParen])) := by
  refine SpelledBy.of_prefixed (Reader.named_lawful false) ?_ ?_
  · intro ending before after spell _
    exact (sees_of_spell spell (by simp)).mono fun _ isName => isName ▸ rfl
  intro ending before middle after enough fuel wanted spell _ rest bound
  rcases spell.cons with ⟨token, tokens, rfl, isName, isText, spell⟩
  simp only [List.length_cons, List.length_append] at bound
  rcases Nat.exists_eq_add_of_le' (by omega : 2 ≤ fuel) with ⟨fuel, rfl⟩
  refine parseWith_reads_name isName ?_
  rcases spell.cons with ⟨opening, tokens, rfl, isOpening, -, -⟩
  unfold suffixes
  refine Parser.current_bind (by simp [isOpening]) ?_
  simp only [isOpening]
  refine (params_reads areObjects spell (by omega)).bind ?_
  intro found declares
  refine rest _ fuel ?_ (by omega)
  intro result notArray
  rcases resolveParams_of_declares (fun param isIn => (areObjects param isIn).1) declares with
    ⟨resolved, resolves, same⟩
  have types : resolved.map Param.type = params.map Prod.snd := by
    have := congrArg (List.map Prod.snd) same
    rw [List.map_map, List.map_map] at this
    exact this
  refine ⟨token.span, resolved, ?_, same⟩
  rw [← types, resolve, resolves]
  simp only [unparen, notArray, isText]
  rfl

section Derived

variable {nameOptional : Bool} {fits : Declarator → Prop} {inside : List Terminal}
  {wanted : Declared → Prop} {before after : List Token}

/-- What a type is derived around is read, and applied to the type. -/
theorem derived_reads (type : CType) (spelled : SpelledBy (.named nameOptional) fits false inside)
    (isNameable : type.IsNameable)
    (declares : ∀ found, fits found →
      ∃ declared, found.resolve type = .ok declared ∧ wanted declared)
    (spell : Terminal.Spell before (type.derive false inside) after)
    (sees : Sees ending after (Reader.named nameOptional).Ends) :
    Sees ending before (·.isSpecifier = false) ∧
      Reads ending (do (← parseWith (← Parser.fuel) nameOptional).declare type.innermost) before
        after wanted := by
  rcases spelled.derived (Reader.named_lawful nameOptional) type isNameable with
    ⟨outer, _, outerSpelled, resolves⟩
  have length := spell.length_eq
  refine ⟨outerSpelled.starts ending before after spell (sees.mono fun _ => .inr), ?_⟩
  refine Parser.fuel_reads.bind ?_
  rintro _ rfl
  refine (outerSpelled.whole ending before after (8 * (before.length + 2)) spell sees
    (by omega)).bind ?_
  intro found isFit
  rcases resolves found isFit with ⟨inner, innerFits, same⟩
  rcases declares inner innerFits with ⟨declared, resolved, holds⟩
  simp only [declare, same, resolved]
  exact Reads.pure holds

/-- What a type is spelled around is read, and applied to the type. -/
theorem declared_reads {storageAllowed : Bool} {type : CType}
    (spelled : SpelledBy (.named nameOptional) fits false inside) (isNameable : type.IsNameable)
    (declares : ∀ found, fits found →
      ∃ declared, found.resolve type = .ok declared ∧ wanted declared)
    (spell : Terminal.Spell before (type.spell false inside) after)
    (sees : Sees ending after (Reader.named nameOptional).Ends) :
    Reads ending (do
      let specifiers ← Specifiers.parse storageAllowed
      (← parseWith (← Parser.fuel) nameOptional).declare specifiers.base) before after wanted := by
  rw [type.spell_eq _ _ isNameable] at spell
  rcases spell.append with ⟨middle, wordsSpell, insideSpell⟩
  rcases derived_reads type spelled isNameable declares insideSpell sees with ⟨starts, reads⟩
  have readsWords : Reads ending (Specifiers.parse storageAllowed) before middle
      fun found => found = ⟨type.innermost, none⟩ :=
    Specifiers.parse_reads (by simp) (type.words_innermost_ne_nil isNameable) wordsSpell starts
  refine readsWords.bind ?_
  rintro _ rfl
  exact reads

end Derived

section Names

variable {type : CType} {name : Text} {names : List (Option Text)} {before after : List Token}

/-- A declarator is read back as what it spells with the basic type of the type. -/
theorem declarator_reads (isDeclarable : type.IsDeclarable)
    (named : names.length = type.parameters.length)
    (spell : Terminal.Spell before (type.declarator name names) after)
    (sees : Sees ending after EndsDeclarator) :
    Sees ending before (·.isSpecifier = false) ∧
      Reads ending (do (← parse).declare type.innermost) before after
        fun declared => declared.Spells type name names := by
  have object (isNameable : type.IsNameable) (noParameters : type.parameters = [])
      (spell : Terminal.Spell before (type.derive false [.name name]) after) :
      Sees ending before (·.isSpecifier = false) ∧
        Reads ending (do (← parse).declare type.innermost) before after
          fun declared => declared.Spells type name names := by
    have isNamed : SpelledBy (.named false) (Names name) false [.name name] :=
      spelledBy_name fun span base => ⟨span, by rw [resolve]; rfl⟩
    refine derived_reads type isNamed isNameable ?_ spell sees
    intro found isNamed
    rcases isNamed type with ⟨span, resolves⟩
    exact ⟨_, resolves, rfl, rfl, by rw [noParameters, List.zip_nil_right]; rfl⟩
  cases type with
  | void | double | integer | pointer | array => exact object isDeclarable rfl spell
  | function parameters result =>
      rcases isDeclarable with ⟨isNameable, notArray, areObjects⟩
      have isFunction : SpelledBy (.named false) (NamesFunction name (names.zip parameters)) false
          (.name name :: .mark .leftParen ::
            (CType.parameterList (names.zip parameters) ++ [Terminal.mark .rightParen])) :=
        spelledBy_function fun param isIn => areObjects param.2 (List.of_mem_zip isIn).2
      refine derived_reads result isFunction isNameable ?_ spell sees
      intro found isNamed
      rcases isNamed result notArray with ⟨span, resolved, resolves, same⟩
      refine ⟨_, resolves, rfl, ?_, ?_⟩
      · exact congrArg (CType.function · result) (List.map_snd_zip (Nat.le_of_eq named.symm))
      · rw [List.zip_map_left]
        exact same

/-- A declaration is read back as what it spells. -/
theorem declaration_reads (isDeclarable : type.IsDeclarable)
    (named : names.length = type.parameters.length)
    (spell : Terminal.Spell before (type.declaration name names) after)
    (sees : Sees ending after EndsDeclarator) :
    Reads ending (do
      let specifiers ← Specifiers.parse true
      (← parse).declare specifiers.base) before after
        fun declared => declared.Spells type name names := by
  rw [isDeclarable.declaration_eq] at spell
  rcases spell.append with ⟨middle, wordsSpell, declaratorSpell⟩
  rcases declarator_reads isDeclarable named declaratorSpell sees with ⟨starts, reads⟩
  have readsWords : Reads ending (Specifiers.parse true) before middle
      fun found => found = ⟨type.innermost, none⟩ :=
    Specifiers.parse_reads (by simp) isDeclarable.words_ne_nil wordsSpell starts
  refine readsWords.bind ?_
  rintro _ rfl
  exact reads

end Names

/-- Declarations, type names and parameters are read back as what they spell, whatever stands behind
them. A declaration has the spelled name and type, and its parameters have the spelled names and
types in order. A parameter has the spelled type, with its name and without. -/
theorem parse_spelling {ending : Except Lexer.Overrun Token} {tokens rest : List Token}
    {type : CType} (lastId : Nat) :
    (∀ {name : Text} {names : List (Option Text)}, type.IsDeclarable →
      names.length = type.parameters.length →
      tokens.map Token.terminal = type.declaration name names →
      Sees ending rest EndsDeclarator → ∃ declared lastId',
        (do
          let specifiers ← Specifiers.parse true
          (← parse).declare specifiers.base : Parser ParseState Declared).run
            ⟨tokens ++ rest, ending, lastId⟩ = .ok (declared, ⟨rest, ending, lastId'⟩) ∧
        declared.name = name ∧ declared.type = type ∧
        declared.params.map (fun param => (param.name, param.type)) =
          (names.map (·.getD [])).zip type.parameters) ∧
    (type.IsNameable → tokens.map Token.terminal = type.typeName → Sees ending rest EndsName →
      ∃ found lastId', (parseTypeName : Parser ParseState CType).run
          ⟨tokens ++ rest, ending, lastId⟩ = .ok (found, ⟨rest, ending, lastId'⟩) ∧
        found = type) ∧
    (∀ {name : Option Text}, type.IsNameable →
      tokens.map Token.terminal = type.parameter name → Sees ending rest EndsParameter →
      ∃ declared lastId',
        (do
          let specifiers ← Specifiers.parse false
          (← parseWith (← Parser.fuel) true).declare specifiers.base :
              Parser ParseState Declared).run
            ⟨tokens ++ rest, ending, lastId⟩ = .ok (declared, ⟨rest, ending, lastId'⟩) ∧
        declared.name = name.getD [] ∧ declared.type = type ∧ declared.params = []) := by
  refine ⟨?_, ?_, ?_⟩
  · intro name names isDeclarable named spelled ends
    exact (declaration_reads isDeclarable named ⟨tokens, spelled, rfl⟩ ends).exists_run lastId
  · intro isNameable spelled ends
    exact (parseTypeName_reads isNameable ⟨tokens, spelled, rfl⟩ ends).exists_run lastId
  · intro name isNameable spelled ends
    refine (declared_reads (spelledBy_optional name) isNameable ?_ ⟨tokens, spelled, rfl⟩
      ends).exists_run lastId
    intro found names
    rcases names type with ⟨span, resolves⟩
    exact ⟨_, resolves, rfl, rfl, rfl⟩

/-- The cases of `long (*f(int, double *x, char (*)[3]))[4]`, of the type name of its last parameter
and of its second parameter. -/
theorem parse_spelling_rows :
    let rows : CType := .pointer (.array 3 .char)
    let type : CType := .function [.int, .pointer .double, rows] (.pointer (.array 4 .long))
    let token (terminal : Terminal) : Token := ⟨terminal.kind, terminal.literal, .none⟩
    let closing : List Token := [token (.mark .rightParen)]
    let ending : Except Lexer.Overrun Token := .ok ⟨.endOfInput, [], .none⟩
    (∃ declared lastId',
      (do
        let specifiers ← Specifiers.parse true
        (← parse).declare specifiers.base : Parser ParseState Declared).run
          ⟨(type.declaration "f" [none, some "x", none]).map token ++ [], ending, 0⟩ =
            .ok (declared, ⟨[], ending, lastId'⟩) ∧
      declared.name = "f" ∧ declared.type = type ∧
      declared.params.map (fun param => (param.name, param.type)) =
        [([], .int), (Text.ofString "x", .pointer .double), ([], rows)]) ∧
    (∃ found lastId', (parseTypeName : Parser ParseState CType).run
        ⟨rows.typeName.map token ++ closing, ending, 0⟩ = .ok (found, ⟨closing, ending, lastId'⟩) ∧
      found = rows) ∧
    (∃ declared lastId',
      (do
        let specifiers ← Specifiers.parse false
        (← parseWith (← Parser.fuel) true).declare specifiers.base :
            Parser ParseState Declared).run
          ⟨((CType.pointer .double).parameter (some "x")).map token ++ closing, ending, 0⟩ =
            .ok (declared, ⟨closing, ending, lastId'⟩) ∧
      declared.name = "x" ∧ declared.type = .pointer .double ∧ declared.params = []) := by
  intro rows type token closing ending
  have spelled (text : List Terminal) : (text.map token).map Token.terminal = text := by
    rw [List.map_map]
    exact List.map_id text
  have isNameable : rows.IsNameable := ⟨by decide, by decide, trivial⟩
  have isDeclarable : type.IsDeclarable := by
    refine ⟨⟨by decide, by decide, trivial⟩, rfl, ?_⟩
    simp only [List.mem_cons, List.not_mem_nil, or_false]
    rintro parameter (rfl | rfl | rfl)
    · exact ⟨trivial, nofun⟩
    · exact ⟨trivial, nofun⟩
    · exact ⟨isNameable, nofun⟩
  have isPointer : (CType.pointer .double).IsNameable := trivial
  refine ⟨(parse_spelling 0).1 isDeclarable rfl (spelled _) ?_,
    (parse_spelling 0).2.1 isNameable (spelled _) ?_,
    (parse_spelling 0).2.2 isPointer (spelled _) ?_⟩
  · exact ⟨_, rfl, nofun, nofun, nofun⟩
  · exact ⟨_, rfl, nofun, rfl, nofun, nofun, nofun⟩
  · exact ⟨_, rfl, nofun, .inr rfl⟩

/-- The spelling of that declaration. -/
example :
    let type : CType :=
      .function [.int, .pointer .double, .pointer (.array 3 .char)] (.pointer (.array 4 .long))
    (type.declaration "f" [none, some "x", none]).flatMap Terminal.literal =
      "long(*f(int,double*x,char(*)[3]))[4]" := by
  decide

end Declarator

end SubsetC
