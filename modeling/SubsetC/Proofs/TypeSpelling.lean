import SubsetC.Declarator
import SubsetC.Proofs.Reading
import Mathlib.Data.List.Nodup

/-!
# Type names

How a type is spelled in C, inside out: pointers in front of what is there already and dimensions
behind it, with parentheses where a dimension follows a star. The main statement is
`Declarator.parseTypeName_reads`: a type name is read back as the type it spells.

What the inside of a spelling stands for is said by `Declarator.SpelledBy`, which one lemma for each
derivation extends outwards. There are three ways to read a declarator, which differ in what can
stand at the place of the name; `Declarator.Reader.Lawful` says what they have in common.
-/

namespace SubsetC

/-! ### Spelling -/

namespace CType

/-- The types a type name can denote: those built from the basic types with pointers and with
dimensions of a positive long. -/
def IsNameable : CType → Prop
  | .void | .integer _ | .double => True
  | .pointer element => element.IsNameable
  | .array size element => 1 ≤ size ∧ size < 9223372036854775808 ∧ element.IsNameable
  | .function _ _ => False

/-- The words that name a basic type. -/
def words : CType → List Keyword
  | .void => [.void]
  | .integer .char => [.char]
  | .integer .schar => [.signed, .char]
  | .integer .uchar => [.unsigned, .char]
  | .integer .int => [.int]
  | .integer .uint => [.unsigned, .int]
  | .integer .long => [.long]
  | .integer .ulong => [.unsigned, .long]
  | .double => [.double]
  | .pointer _ | .array _ _ | .function _ _ => []

/-- A dimension in brackets. -/
def dimension (size : Int) : List Terminal :=
  [.mark .leftBracket, .integer (Text.ofInt size), .mark .rightBracket]

/-- The spelling of a type around what is declared, of which it matters whether a star stands in
front. -/
def spell : CType → (isPointer : Bool) → (inside : List Terminal) → List Terminal
  | .pointer element, _, inside => element.spell true (.mark .star :: inside)
  | .array size element, isPointer, inside =>
      element.spell false (Terminal.enclose isPointer inside ++ dimension size)
  | type, _, inside => type.words.map .word ++ inside

def typeName (type : CType) : List Terminal := type.spell false []

/-- The basic type that a type is derived from. -/
def innermost : CType → CType
  | .pointer element | .array _ element => element.innermost
  | .function _ result => result.innermost
  | type => type

/-- The spelling of a type around what is declared, without the words in front. -/
def derive : CType → (isPointer : Bool) → (inside : List Terminal) → List Terminal
  | .pointer element, _, inside => element.derive true (.mark .star :: inside)
  | .array size element, isPointer, inside =>
      element.derive false (Terminal.enclose isPointer inside ++ dimension size)
  | _, _, inside => inside

theorem words_innermost_ne_nil : ∀ type : CType, type.IsNameable → type.innermost.words ≠ []
  | .pointer element, isNameable => words_innermost_ne_nil element isNameable
  | .array _ element, isNameable => words_innermost_ne_nil element isNameable.2.2
  | .void, _ | .double, _ => List.cons_ne_nil _ _
  | .integer kind, _ => by cases kind <;> exact List.cons_ne_nil _ _
  | .function _ _, isNameable => isNameable.elim

theorem spell_eq : ∀ (type : CType) (isPointer : Bool) (inside : List Terminal),
    type.IsNameable → type.spell isPointer inside =
      type.innermost.words.map .word ++ type.derive isPointer inside
  | .pointer element, _, _, isNameable => spell_eq element _ _ isNameable
  | .array _ element, _, _, isNameable => spell_eq element _ _ isNameable.2.2
  | .void, _, _, _ | .double, _, _, _ | .integer _, _, _, _ => rfl
  | .function _ _, _, _, isNameable => isNameable.elim

end CType

def StorageClass.word : StorageClass → Keyword
  | .static => .static
  | .external => .externally

/-- The words of a declaration: that for a storage class, if it names one, and those for a basic
type. -/
def Specifiers.words (specifiers : Specifiers) : List Keyword :=
  specifiers.storageClass.toList.map StorageClass.word ++ specifiers.base.words

variable {ending : Except Lexer.Overrun Token}

/-! ### Specifiers -/

namespace Specifiers

open SubsetC.Parser (Reads Sees sees_of_spell)

/-- Reading type words, none of them twice, adds them to those seen before. -/
theorem collect_reads (storageAllowed : Bool) {after : List Token}
    (sees : Sees ending after (·.isSpecifier = false)) :
    ∀ (words : List Keyword) (seen : Seen) (before : List Token) (fuel : Nat),
      before.length < fuel → Terminal.Spell before (words.map .word) after →
      (∀ keyword ∈ words, keyword.isType) → (words.reverse ++ seen.1).Nodup →
      Reads ending (collect storageAllowed fuel seen) before after
        fun found => found = (words.reverse ++ seen.1, seen.2)
  | _, _, _, 0, enough, _, _, _ => absurd enough (Nat.not_lt_zero _)
  | [], seen, before, fuel + 1, _, spell, _, _ => by
      rw [spell.nil, collect]
      refine (Parser.current_reads_sees sees).bind ?_
      intro token notSpecifier
      split
      case h_1 keyword isKeyword =>
          rw [isKeyword] at notSpecifier
          rw [if_neg (by simpa [TokenKind.isSpecifier] using notSpecifier)]
          exact Reads.pure rfl
      case h_2 => exact Reads.pure rfl
  | keyword :: words, seen, before, fuel + 1, enough, spell, areTypes, distinct => by
      rcases spell.cons with ⟨token, rest, rfl, isKeyword, -, restSpell⟩
      have isType := areTypes keyword (List.mem_cons_self ..)
      have reversed : (keyword :: words).reverse ++ seen.1 =
          words.reverse ++ (keyword :: seen.1) := by simp
      have fresh : keyword ∉ seen.1 := by
        rw [reversed] at distinct
        exact (List.nodup_cons.1 (List.nodup_append.1 distinct).2.1).1
      have noted : (note storageAllowed seen token.span keyword : Parser ParseState Seen) =
          pure (keyword :: seen.1, seen.2) := by
        simp [note, isType, fresh]
      have legal : token.kind ≠ .illegal := by simp [isKeyword]
      rw [collect]
      refine Parser.current_bind legal ?_
      simp only [isKeyword]
      rw [if_pos (by simp [Keyword.isSpecifier, isType]), noted, reversed]
      refine Parser.skip_bind legal ?_
      exact collect_reads storageAllowed sees words (keyword :: seen.1, seen.2) rest fuel
        (Nat.lt_of_succ_lt_succ enough) restSpell
        (fun other mem => areTypes other (List.mem_cons_of_mem _ mem)) (reversed ▸ distinct)

/-- The words of a basic type, none of them twice, denote the type in any order. -/
theorem words_read {type : CType} (isBasic : type.words ≠ []) :
    (∀ keyword ∈ type.words, keyword.isType) ∧ type.words.Nodup ∧
      Specifiers.type type.words.reverse = .ok type := by
  cases type with
  | void | double => exact ⟨by decide, by decide, rfl⟩
  | integer kind => cases kind <;> exact ⟨by decide, by decide, rfl⟩
  | pointer | array | function => exact absurd rfl isBasic

/-- A declaration starts with one of its words. -/
theorem exists_words {specifiers : Specifiers} (isBasic : specifiers.base.words ≠ []) :
    ∃ keyword more, specifiers.words = keyword :: more ∧ keyword.isSpecifier := by
  rcases specifiers with ⟨base, _ | storageClass⟩
  · rcases List.exists_cons_of_ne_nil isBasic with ⟨keyword, more, same⟩
    have isType := (words_read isBasic).1 keyword (same ▸ List.mem_cons_self)
    exact ⟨keyword, more, same, by simp [Keyword.isSpecifier, isType]⟩
  · exact ⟨storageClass.word, base.words, rfl, by cases storageClass <;> rfl⟩

/-- The words of a declaration are collected. -/
theorem collect_words_reads {storageAllowed : Bool} {specifiers : Specifiers}
    {before after : List Token} {fuel : Nat} (enough : before.length < fuel)
    (isAllowed : specifiers.storageClass.isSome → storageAllowed)
    (isBasic : specifiers.base.words ≠ [])
    (spell : Terminal.Spell before (specifiers.words.map .word) after)
    (sees : Sees ending after (·.isSpecifier = false)) :
    Reads ending (collect storageAllowed fuel ([], none)) before after
      fun found => found = (specifiers.base.words.reverse, specifiers.storageClass) := by
  rcases specifiers with ⟨base, storageClass⟩
  rcases words_read isBasic with ⟨areTypes, distinct, -⟩
  have collects (storageClass : Option StorageClass) {before : List Token} {fuel : Nat}
      (enough : before.length < fuel) (spell : Terminal.Spell before (base.words.map .word) after) :
      Reads ending (collect storageAllowed fuel ([], storageClass)) before after
        fun found => found = (base.words.reverse, storageClass) := by
    refine (collect_reads storageAllowed sees base.words ([], storageClass) before fuel enough spell
      areTypes (by simpa [List.nodup_reverse] using distinct)).mono ?_
    rintro _ rfl
    rw [List.append_nil]
  cases storageClass with
  | none => exact collects none enough spell
  | some storageClass =>
      rcases spell.cons with ⟨token, rest, rfl, isWord, -, spell⟩
      have noted : (note storageAllowed ([], none) token.span storageClass.word :
          Parser ParseState Seen) = pure ([], some storageClass) := by
        cases storageClass <;> simp [note, isAllowed rfl, StorageClass.word, Keyword.isType]
      have legal : token.kind ≠ .illegal := by simp [isWord]
      obtain ⟨fuel, rfl⟩ : ∃ less, fuel = less + 1 := ⟨fuel - 1, by omega⟩
      rw [collect]
      refine Parser.current_bind legal ?_
      simp only [isWord]
      rw [if_pos (by cases storageClass <;> rfl), noted]
      exact Parser.skip_bind legal
        (collects (some storageClass) (Nat.lt_of_succ_lt_succ enough) spell)

/-- The words of a declaration are read as its specifiers. -/
theorem parse_reads {storageAllowed : Bool} {specifiers : Specifiers} {before after : List Token}
    (isAllowed : specifiers.storageClass.isSome → storageAllowed)
    (isBasic : specifiers.base.words ≠ [])
    (spell : Terminal.Spell before (specifiers.words.map .word) after)
    (sees : Sees ending after (·.isSpecifier = false)) :
    Reads ending (parse storageAllowed) before after fun found => found = specifiers := by
  have start : Reads ending Parser.current before before fun _ => True := by
    rcases exists_words isBasic with ⟨keyword, more, same, -⟩
    rw [same] at spell
    rcases spell.cons with ⟨token, rest, rfl, isKeyword, -⟩
    exact (Parser.current_reads_cons (by simp [isKeyword])).mono fun _ _ => trivial
  unfold parse
  refine start.bind ?_
  intro token _
  refine Parser.fuel_reads.bind ?_
  rintro _ rfl
  refine (collect_words_reads (by omega) isAllowed isBasic spell sees).bind ?_
  rintro _ rfl
  dsimp only
  rw [if_neg (by simpa using isBasic), (words_read isBasic).2.2]
  exact Reads.pure rfl

end Specifiers

/-! ### Declarators -/

namespace Declarator

open SubsetC.Parser (Reads Sees sees_of_spell)

/-- A kind that goes on neither in the specifiers nor in the declarator of a type name. -/
def EndsName (kind : TokenKind) : Prop :=
  kind.isSpecifier = false ∧ kind ≠ .punctuator .star ∧ kind ≠ .punctuator .leftParen ∧
    kind ≠ .punctuator .leftBracket

/-- A dimension is read back. -/
theorem dimension_reads {size : Int} {before after : List Token} (positive : 1 ≤ size)
    (fits : size < 9223372036854775808)
    (spell : Terminal.Spell before (CType.dimension size) after) :
    Reads ending dimension before after fun found => found = size := by
  rcases spell.cons with ⟨opening, rest, rfl, isOpening, -, spell⟩
  rcases spell.cons with ⟨token, rest, rfl, isInteger, isText, spell⟩
  rcases spell.singleton with ⟨closing, rfl, isClosing, -⟩
  rcases Literal.integer_ofInt (by omega) fits with ⟨constant, denotes, isSize⟩
  unfold dimension
  refine (Parser.expectMark_reads isOpening).bind ?_
  intro _ _
  refine Parser.current_bind (by simp [isInteger]) ?_
  simp only [isInteger, isText, denotes]
  simp only [pure_bind]
  refine Parser.skip_bind (by simp [isInteger]) ?_
  rw [if_neg (by omega)]
  refine (Parser.expectMark_reads isClosing).bind ?_
  intro _ _
  exact Reads.pure isSize

/-- A way to read declarators. Declarations, parameters and type names have one each. -/
structure Reader where
  /-- Reads a declarator. -/
  whole : (fuel : Nat) → Parser ParseState Declarator
  /-- Reads what follows an inner part of a declarator. -/
  behind : (fuel : Nat) → Declarator → Parser ParseState Declarator
  /-- What a declarator in parentheses is. -/
  group : Declarator → Declarator
  /-- The kinds that can follow a declarator. -/
  Ends : TokenKind → Prop

namespace Reader

/-- The inner part of a declarator, which is in parentheses if it is a pointer. -/
def enclose (reader : Reader) (isPointer : Bool) (declarator : Declarator) : Declarator :=
  if isPointer then reader.group declarator else declarator

/-- The kinds that can follow an inner part of a declarator that has a name or a place for one. -/
def Follows (reader : Reader) (kind : TokenKind) : Prop :=
  kind = .punctuator .leftBracket ∨ reader.Ends kind

/-- What all readers of declarators have in common. -/
structure Lawful (reader : Reader) : Prop where
  /-- A star is read first. -/
  star : ∀ {ending : Except Lexer.Overrun Token} {token : Token} {tokens after : List Token}
    {fuel : Nat} {fits : Declarator → Prop}, token.kind = .punctuator .star →
    Reads ending (reader.whole fuel) tokens after fits →
    Reads ending (reader.whole (fuel + 1)) (token :: tokens) after
      fun found => ∃ inner, fits inner ∧ found = .pointer inner
  /-- Parentheses around a pointer are read first, and then what is behind them. -/
  parens : ∀ {ending : Except Lexer.Overrun Token} {opening star closing : Token}
    {tokens rest after : List Token} {fuel : Nat} {fits wanted : Declarator → Prop},
    opening.kind = .punctuator .leftParen → star.kind = .punctuator .star →
    closing.kind = .punctuator .rightParen →
    Reads ending (reader.whole fuel) (star :: tokens) (closing :: rest)
      (fun found => ∃ inner, fits inner ∧ found = .pointer inner) →
    (∀ inner, fits inner →
      Reads ending (reader.behind fuel (reader.group (.pointer inner))) rest after wanted) →
    Reads ending (reader.whole (fuel + 1)) (opening :: star :: tokens) after wanted
  /-- A dimension is read behind what is there already. -/
  bracket : ∀ {ending : Except Lexer.Overrun Token} {before middle after : List Token}
    {declarator : Declarator} {size : Int} {fuel : Nat} {wanted : Declarator → Prop},
    1 ≤ size → size < 9223372036854775808 →
    Terminal.Spell before (CType.dimension size) middle →
    Reads ending (reader.behind fuel (.array declarator size)) middle after wanted →
    Reads ending (reader.behind (fuel + 1) declarator) before after wanted
  /-- Nothing is read behind the end of a declarator. -/
  stop : ∀ {ending : Except Lexer.Overrun Token} {tokens : List Token} {declarator : Declarator}
    {fuel : Nat}, Sees ending tokens reader.Ends →
    Reads ending (reader.behind (fuel + 1) declarator) tokens tokens
      fun found => found = declarator
  /-- A closing parenthesis is such an end. -/
  closes : reader.Ends (.punctuator .rightParen)
  /-- Parentheses around a pointer do not matter. -/
  resolve_group : ∀ inner base,
    (reader.group (.pointer inner)).resolve base = (Declarator.pointer inner).resolve base

end Reader

/-- The inside of a spelling is read as a declarator that fits: as a whole, and in front of
dimensions, where a star in front needs parentheses. -/
structure SpelledBy (reader : Reader) (fits : Declarator → Prop) (isPointer : Bool)
    (inside : List Terminal) : Prop where
  /-- It does not go on with the specifiers in front. -/
  starts : ∀ (ending : Except Lexer.Overrun Token) (before after : List Token),
    Terminal.Spell before inside after → Sees ending after reader.Follows →
    Sees ending before (·.isSpecifier = false)
  whole : ∀ (ending : Except Lexer.Overrun Token) (before after : List Token) (fuel : Nat),
    Terminal.Spell before inside after → Sees ending after reader.Ends →
    inside.length + 2 ≤ fuel → Reads ending (reader.whole fuel) before after fits
  /-- In front of what is read behind it. -/
  prefixed : ∀ (ending : Except Lexer.Overrun Token) (before middle after : List Token)
    (enough fuel : Nat) (wanted : Declarator → Prop),
    Terminal.Spell before (Terminal.enclose isPointer inside) middle →
    Sees ending middle reader.Follows →
    (∀ found fuel, fits found → enough < fuel →
      Reads ending (reader.behind fuel (reader.enclose isPointer found)) middle after wanted) →
    enough + (Terminal.enclose isPointer inside).length + 2 ≤ fuel →
    Reads ending (reader.whole fuel) before after wanted
  /-- With parentheses around it, it means the same. -/
  resolve_enclose : ∀ found base, fits found →
    (reader.enclose isPointer found).resolve base = found.resolve base

section Spelled

variable {reader : Reader} {fits : Declarator → Prop} {isPointer : Bool} {inside : List Terminal}

/-- Without a star in front, the whole is what stands in front of no dimensions. -/
theorem SpelledBy.of_prefixed (lawful : reader.Lawful)
    (starts : ∀ (ending : Except Lexer.Overrun Token) (before after : List Token),
      Terminal.Spell before inside after → Sees ending after reader.Follows →
      Sees ending before (·.isSpecifier = false))
    (prefixed : ∀ (ending : Except Lexer.Overrun Token) (before middle after : List Token)
      (enough fuel : Nat) (wanted : Declarator → Prop),
      Terminal.Spell before inside middle → Sees ending middle reader.Follows →
      (∀ found fuel, fits found → enough < fuel →
        Reads ending (reader.behind fuel found) middle after wanted) →
      enough + inside.length + 2 ≤ fuel →
      Reads ending (reader.whole fuel) before after wanted) :
    SpelledBy reader fits false inside where
  starts := starts
  prefixed := prefixed
  resolve_enclose := fun _ _ _ => rfl
  whole := by
    intro ending before after fuel spell sees enough
    refine prefixed ending before after after 0 fuel _ spell (sees.mono fun _ => .inr) ?_
      (by omega)
    intro found fuel isFit positive
    rcases Nat.exists_eq_add_of_le' positive with ⟨fuel, rfl⟩
    exact (lawful.stop sees).mono fun _ same => same ▸ isFit

theorem SpelledBy.array (lawful : reader.Lawful) {size : Int} (positive : 1 ≤ size)
    (bounded : size < 9223372036854775808) (spelled : SpelledBy reader fits isPointer inside) :
    SpelledBy reader
      (fun found => ∃ inner, fits inner ∧ found = .array (reader.enclose isPointer inner) size)
      false (Terminal.enclose isPointer inside ++ CType.dimension size) := by
  refine SpelledBy.of_prefixed lawful ?_ ?_
  · intro ending before after spell _
    rcases spell.append with ⟨behind, insideSpell, dimensionSpell⟩
    cases isPointer with
    | true => exact (sees_of_spell insideSpell (by simp)).mono fun _ isOpening => isOpening ▸ rfl
    | false =>
        refine spelled.starts ending before behind insideSpell ?_
        exact (sees_of_spell dimensionSpell (by simp)).mono fun _ isOpening => .inl isOpening
  intro ending before middle after enough fuel wanted spell sees rest bound
  rcases spell.append with ⟨behind, insideSpell, dimensionSpell⟩
  refine spelled.prefixed ending before behind after (enough + 1) fuel wanted insideSpell ?_ ?_ ?_
  · exact (sees_of_spell dimensionSpell (by simp)).mono fun _ isOpening => .inl isOpening
  · intro inner fuel isFit bound
    rcases Nat.exists_eq_add_of_le' (by omega : 1 ≤ fuel) with ⟨fuel, rfl⟩
    exact lawful.bracket positive bounded dimensionSpell
      (rest _ fuel ⟨inner, isFit, rfl⟩ (by omega))
  · simp only [List.length_append, CType.dimension, List.length_cons] at bound
    omega

theorem SpelledBy.pointer (lawful : reader.Lawful)
    (spelled : SpelledBy reader fits isPointer inside) :
    SpelledBy reader (fun found => ∃ inner, fits inner ∧ found = .pointer inner) true
      (.mark .star :: inside) := by
  have whole : ∀ (ending : Except Lexer.Overrun Token) (before after : List Token) (fuel : Nat),
      Terminal.Spell before (.mark .star :: inside) after → Sees ending after reader.Ends →
      (Terminal.mark .star :: inside).length + 2 ≤ fuel →
      Reads ending (reader.whole fuel) before after
        fun found => ∃ inner, fits inner ∧ found = .pointer inner := by
    intro ending before after fuel spell sees bound
    rcases spell.cons with ⟨star, tokens, rfl, isStar, -, insideSpell⟩
    simp only [List.length_cons] at bound
    rcases Nat.exists_eq_add_of_le' (by omega : 1 ≤ fuel) with ⟨fuel, rfl⟩
    exact lawful.star isStar (spelled.whole ending tokens after fuel insideSpell sees (by omega))
  -- In front of dimensions the whole stands in parentheses, and these are read first.
  refine ⟨?_, whole, ?_, ?_⟩
  · intro ending before after spell _
    exact (sees_of_spell spell (by simp)).mono fun _ isStar => isStar ▸ rfl
  · intro ending before middle after enough fuel wanted spell _ rest bound
    rcases spell.cons with ⟨opening, tokens, rfl, isOpening, -, spell⟩
    rcases spell.snoc with ⟨closing, insideSpell, isClosing⟩
    rcases insideSpell.cons with ⟨star, tokens, rfl, isStar, -, -⟩
    simp only [Terminal.enclose, if_true, List.length_cons, List.length_append] at bound
    rcases Nat.exists_eq_add_of_le' (by omega : 1 ≤ fuel) with ⟨fuel, rfl⟩
    refine lawful.parens isOpening isStar isClosing
      (whole ending _ _ fuel insideSpell ?_ (by simp; omega)) ?_
    · exact Parser.sees_cons (by simp [isClosing]) (by rw [isClosing]; exact lawful.closes)
    · intro inner isFit
      exact rest _ fuel ⟨inner, isFit, rfl⟩ (by omega)
  · rintro _ base ⟨inner, -, rfl⟩
    exact lawful.resolve_group inner base

/-- The derivations of a type around a declarator make a declarator that makes of the basic type
what the inner one makes of the type. -/
theorem SpelledBy.derived (lawful : reader.Lawful) :
    ∀ (type : CType) {fits : Declarator → Prop} {isPointer : Bool} {inside : List Terminal},
      SpelledBy reader fits isPointer inside → type.IsNameable →
      ∃ outer isPointer', SpelledBy reader outer isPointer' (type.derive isPointer inside) ∧
        ∀ found, outer found →
          ∃ inner, fits inner ∧ found.resolve type.innermost = inner.resolve type
  | .pointer element, _, _, _, spelled, isNameable => by
      rcases derived lawful element (spelled.pointer lawful) isNameable with
        ⟨outer, isPointer, outerSpelled, resolves⟩
      refine ⟨outer, isPointer, outerSpelled, ?_⟩
      intro found isFit
      rcases resolves found isFit with ⟨_, ⟨inner, innerFits, rfl⟩, resolved⟩
      refine ⟨inner, innerFits, ?_⟩
      rw [CType.innermost, resolved, resolve]
  | .array size element, _, _, _, spelled, ⟨positive, bounded, isNameable⟩ => by
      rcases derived lawful element (spelled.array lawful positive bounded) isNameable with
        ⟨outer, isPointer, outerSpelled, resolves⟩
      refine ⟨outer, isPointer, outerSpelled, ?_⟩
      intro found isFit
      rcases resolves found isFit with ⟨_, ⟨inner, innerFits, rfl⟩, resolved⟩
      refine ⟨inner, innerFits, ?_⟩
      rw [CType.innermost, resolved, resolve, spelled.resolve_enclose _ _ innerFits]
  | .void, _, _, _, spelled, _ | .double, _, _, _, spelled, _
  | .integer _, _, _, _, spelled, _ => ⟨_, _, spelled, fun found isFit => ⟨found, isFit, rfl⟩⟩
  | .function _ _, _, _, _, _, isNameable => isNameable.elim

/-- The spelling of a type around a declarator is read as specifiers and a declarator. -/
theorem SpelledBy.reads (lawful : reader.Lawful)
    (spelled : SpelledBy reader fits isPointer inside) {type : CType}
    (isNameable : type.IsNameable) (storageAllowed : Bool) {before after : List Token}
    (spell : Terminal.Spell before (type.spell isPointer inside) after)
    (sees : Sees ending after reader.Ends) :
    ∃ base middle, Reads ending (Specifiers.parse storageAllowed) before middle
        (fun found => found = ⟨base, none⟩) ∧
      middle.length < before.length ∧
      ∀ fuel, middle.length + 2 ≤ fuel + after.length →
        Reads ending (reader.whole fuel) middle after fun found =>
          ∃ inner, fits inner ∧ found.resolve base = inner.resolve type := by
  rcases spelled.derived lawful type isNameable with ⟨outer, _, outerSpelled, resolves⟩
  rw [type.spell_eq _ _ isNameable] at spell
  rcases spell.append with ⟨middle, wordsSpell, insideSpell⟩
  have isBasic := type.words_innermost_ne_nil isNameable
  have starts := outerSpelled.starts ending middle after insideSpell (sees.mono fun _ => .inr)
  have wordsLength := wordsSpell.length_eq
  have insideLength := insideSpell.length_eq
  have positive := List.length_pos_iff.2 isBasic
  rw [List.length_map] at wordsLength
  refine ⟨type.innermost, middle, ?_, by omega, ?_⟩
  · exact Specifiers.parse_reads (by simp) isBasic wordsSpell starts
  · intro fuel enough
    exact (outerSpelled.whole ending middle after fuel insideSpell sees (by omega)).mono resolves

end Spelled

/-! ### Type names -/

theorem dimensions_reads_nil {tokens : List Token} {declarator : Declarator}
    (sees : Sees ending tokens (· ≠ .punctuator .leftBracket)) {fuel : Nat} :
    Reads ending (dimensions (fuel + 1) declarator) tokens tokens
      fun found => found = declarator := by
  unfold dimensions
  refine (Parser.currentIsMark_reads_not sees).bind ?_
  rintro _ rfl
  exact Reads.pure rfl

theorem dimensions_reads {declarator : Declarator} {size : Int} {before middle after : List Token}
    (positive : 1 ≤ size) (bounded : size < 9223372036854775808)
    (spell : Terminal.Spell before (CType.dimension size) middle) {fuel : Nat}
    {wanted : Declarator → Prop}
    (rest : Reads ending (dimensions fuel (.array declarator size)) middle after wanted) :
    Reads ending (dimensions (fuel + 1) declarator) before after wanted := by
  rcases spell.cons with ⟨opening, tokens, rfl, isOpening, -⟩
  unfold dimensions
  refine (Parser.currentIsMark_reads isOpening).bind ?_
  rintro _ rfl
  refine (dimension_reads positive bounded spell).bind ?_
  rintro _ rfl
  exact rest

/-- The reader of type names, which keeps no parentheses. -/
def Reader.typeName : Reader := ⟨parseAbstractWith, dimensions, id, EndsName⟩

theorem Reader.typeName_lawful : typeName.Lawful where
  star := by
    intro ending token tokens after fuel fits isStar inner
    unfold typeName parseAbstractWith
    refine Parser.current_bind (by simp [isStar]) ?_
    simp only [isStar]
    refine Parser.skip_bind (by simp [isStar]) ?_
    refine inner.bind ?_
    intro found isFit
    exact Reads.pure ⟨found, isFit, rfl⟩
  parens := by
    intro ending opening star closing tokens rest after fuel fits wanted isOpening _ isClosing
      inner behind
    unfold typeName parseAbstractWith
    refine Parser.current_bind (by simp [isOpening]) ?_
    simp only [isOpening]
    refine Parser.skip_bind (by simp [isOpening]) ?_
    refine inner.bind ?_
    rintro _ ⟨found, isFit, rfl⟩
    refine (Parser.expectMark_reads isClosing).bind ?_
    intro _ _
    exact behind found isFit
  bracket := fun positive bounded spell rest => dimensions_reads positive bounded spell rest
  stop := fun sees => dimensions_reads_nil (sees.mono fun _ ends => ends.2.2.2)
  closes := ⟨rfl, nofun, nofun, nofun⟩
  resolve_group := fun _ _ => rfl

theorem spelledBy_abstract : SpelledBy .typeName (· = .abstract) false [] := by
  refine SpelledBy.of_prefixed Reader.typeName_lawful ?_ ?_
  · intro ending before after spell sees
    rw [spell.nil]
    exact sees.mono fun kind follows => follows.elim (fun isBracket => isBracket ▸ rfl) And.left
  intro ending before middle after enough fuel wanted spell sees rest bound
  rw [spell.nil]
  rcases Nat.exists_eq_add_of_le' (by omega : 1 ≤ fuel) with ⟨fuel, rfl⟩
  unfold Reader.typeName parseAbstractWith
  refine (Parser.current_reads_sees sees).bind ?_
  intro token follows
  split
  case h_1 isStar =>
    rw [isStar] at follows
    exact absurd follows (by simp [Reader.Follows, Reader.typeName, EndsName])
  case h_2 isOpening =>
    rw [isOpening] at follows
    exact absurd follows (by simp [Reader.Follows, Reader.typeName, EndsName])
  case h_3 => exact rest .abstract fuel rfl (by simp at bound; omega)

/-- A type name is read back as the type it spells. -/
theorem parseTypeName_reads {type : CType} {before after : List Token}
    (isNameable : type.IsNameable) (spell : Terminal.Spell before type.typeName after)
    (sees : Sees ending after EndsName) :
    Reads ending parseTypeName before after fun found => found = type := by
  rcases spelledBy_abstract.reads Reader.typeName_lawful isNameable false spell sees with
    ⟨base, middle, readsWords, -, readsWhole⟩
  unfold parseTypeName
  refine readsWords.bind ?_
  rintro _ rfl
  refine Parser.fuel_reads.bind ?_
  rintro _ rfl
  refine (readsWhole (8 * (middle.length + 2)) (by omega)).bind ?_
  rintro found ⟨_, rfl, resolves⟩
  rw [resolve] at resolves
  simp only [declare, resolves]
  exact Reads.pure rfl

end Declarator

/-- A type name starts with a word of a type. -/
theorem CType.exists_spell : ∀ (type : CType) {isPointer : Bool} {inside : List Terminal},
    type.IsNameable → ∃ keyword rest, type.spell isPointer inside = .word keyword :: rest ∧
      keyword.isSpecifier
  | .pointer element, _, _, isNameable => exists_spell element isNameable
  | .array _ element, _, _, isNameable => exists_spell element isNameable.2.2
  | .void, _, _, _ => ⟨_, _, rfl, rfl⟩
  | .double, _, _, _ => ⟨_, _, rfl, rfl⟩
  | .integer kind, _, _, _ => by cases kind <;> exact ⟨_, _, rfl, rfl⟩
  | .function _ _, _, _, isNameable => isNameable.elim

end SubsetC
