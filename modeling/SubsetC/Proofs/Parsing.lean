import SubsetC.Proofs.StreamParsing
import SubsetC.Proofs.TreeNames

/-!
# Trees that come from sources

The main statement is `Program.isSource_of_parse`: every parsed compilation unit is one of a source
in the sense of `Program.IsSource`. The words of a source have no dots, so the names a parser takes
from identifier tokens are plain; `Parser.Gives` carries this through the parsers, which say
nothing about failing here.
-/

namespace SubsetC

/-! ### Identifiers -/

/-- If the token is an identifier, its text is plain. -/
def Token.IsPlain (token : Token) : Prop := token.kind = .identifier → token.literal.IsPlain

namespace Lexer

theorem isPlain_takeWhile_isWord (text : Text) : Text.IsPlain (text.takeWhile isWord) := by
  intro dot
  have isWordDot := List.all_eq_true.1 (List.all_takeWhile (l := text) (p := isWord)) _ dot
  revert isWordDot
  decide

/-- The only lexemes that are identifiers are words. -/
theorem isPlain_of_lexeme? {lead : UInt8} {rest : Text} {lexeme : Lexeme}
    (found : lexeme? lead rest = some lexeme) (isIdentifier : lexeme.kind = .identifier) :
    lexeme.literal.IsPlain := by
  have numberKind : ∀ text, (number text).1 ≠ .identifier := by
    intro text
    simp only [number, apply_ite Prod.fst]
    repeat' split
    all_goals simp
  simp only [lexeme?, Lexeme.ofLiteral] at found
  split at found
  · cases found
    cases isIdentifier
  · split at found
    · split at found
      all_goals cases found
      all_goals cases isIdentifier
    · split at found
      · split at found
        all_goals cases found
        all_goals cases isIdentifier
      · split at found
        · cases found
          exact absurd isIdentifier (numberKind _)
        · split at found
          · cases found
            exact isPlain_takeWhile_isWord _
          · cases found
            cases isIdentifier

theorem isPlain_of_read {cursor next : Cursor} {token : Token}
    (reads : read cursor = .token token next) : token.IsPlain := by
  unfold read readToken at reads
  split at reads
  · cases reads
  · split at reads
    · cases reads
      exact isPlain_of_lexeme? ‹_›
    · cases reads

theorem isPlain_of_mem_lexFrom (cursor : Cursor) :
    (∀ token ∈ (lexFrom cursor).tokens, token.IsPlain) ∧
      ∀ token, (lexFrom cursor).ending = .ok token → token.IsPlain := by
  fun_induction lexFrom cursor with
  | case1 cursor token next reads shorter lexed ih =>
      refine ⟨?_, ih.2⟩
      intro other mem
      rcases List.mem_cons.1 mem with rfl | mem
      · exact isPlain_of_read reads
      · exact ih.1 other mem
  | case2 cursor token next reads =>
      refine ⟨by simp, ?_⟩
      intro other same isIdentifier
      cases same
      unfold read readToken at reads
      split at reads
      · cases reads
        cases isIdentifier
      · split at reads <;> cases reads
  | case3 cursor next reads => exact ⟨by simp, by simp⟩

end Lexer

/-! ### Parsers -/

/-- All identifiers still to be parsed are plain. -/
structure ParseState.IsPlain (state : ParseState) : Prop where
  /-- Those before the end. -/
  tokens : ∀ token ∈ state.tokens, token.IsPlain
  ending : ∀ token, state.ending = .ok token → token.IsPlain

/-- If all identifiers are plain, a parser gives a result as wanted, or fails. -/
def Parser.Gives {α : Type} (parser : Parser ParseState α) (wanted : α → Prop) : Prop :=
  ∀ state : ParseState, state.IsPlain →
    Ensures parser state (fun _ => True) fun result after => after.IsPlain ∧ wanted result

namespace Parser

section Rules

variable {α β : Type} {parser : Parser ParseState α} {next : α → Parser ParseState β}
  {middle wanted : α → Prop}
  {final : β → Prop}

theorem Gives.mono {wanted' : α → Prop} (gives : parser.Gives wanted)
    (weaken : ∀ result, wanted result → wanted' result) : parser.Gives wanted' := by
  intro state isPlain
  exact (gives state isPlain).mono fun result after holds => ⟨holds.1, weaken result holds.2⟩

theorem Gives.pure {result : α} (holds : wanted result) :
    Gives (Pure.pure result : Parser ParseState α) wanted :=
  fun _ isPlain => Ensures.pure ⟨isPlain, holds⟩

theorem Gives.bind (first : parser.Gives middle)
    (rest : ∀ result, middle result → (next result).Gives final) :
    Gives (parser >>= next) final := by
  intro state isPlain
  refine (first state isPlain).bind ?_
  intro result after holds
  exact rest result holds.2 after holds.1

theorem Gives.throw {failure : Failure} :
    Gives (MonadExcept.throw failure : Parser ParseState α) wanted :=
  fun _ _ => trivial

theorem Gives.fail {span : Span} {error : SyntaxError} :
    Gives (fail span error : Parser ParseState α) wanted :=
  Gives.throw

theorem Gives.fail_bind {span : Span} {error : SyntaxError} :
    Gives (Parser.fail span error >>= next) final :=
  fun _ _ => trivial

theorem Gives.get : Gives (MonadState.get : Parser ParseState ParseState) ParseState.IsPlain :=
  fun _ isPlain => ⟨isPlain, isPlain⟩

theorem Gives.ite {condition : Prop} [Decidable condition] {whenTrue whenFalse : Parser ParseState α}
    (isTrue : condition → whenTrue.Gives wanted) (isFalse : ¬condition → whenFalse.Gives wanted) :
    Gives (if condition then whenTrue else whenFalse) wanted := by
  split
  · exact isTrue ‹_›
  · exact isFalse ‹_›

end Rules

theorem newLoc_gives (span : Span) : (newLoc span).Gives fun _ => True :=
  fun _ isPlain => ⟨⟨isPlain.tokens, isPlain.ending⟩, trivial⟩

theorem newNote_gives (span : Span) : (newNote span).Gives fun note => note.type = none := by
  unfold newNote
  exact (newLoc_gives span).bind fun _ _ => Gives.pure rfl

theorem fuel_gives : fuel.Gives fun _ => True :=
  fun _ isPlain => ⟨isPlain, trivial⟩

theorem ending_gives {state : ParseState} (isPlain : state.IsPlain) :
    (Parser.ending state).Gives Token.IsPlain := by
  unfold Parser.ending
  split
  · exact Gives.pure (isPlain.ending _ ‹_›)
  · exact Gives.throw

theorem peekAt_gives (place : Nat) :
    Gives (TokenSource.peekAt place : Parser ParseState Token) Token.IsPlain := by
  refine Gives.get.bind ?_
  intro state isPlain
  split
  · exact Gives.pure (isPlain.tokens _ (List.mem_of_getElem? ‹_›))
  · exact ending_gives isPlain

theorem next_gives : Gives (TokenSource.next : Parser ParseState Unit) fun _ => True :=
  fun _ isPlain =>
    ⟨⟨fun token mem => isPlain.tokens token (List.mem_of_mem_tail mem), isPlain.ending⟩, trivial⟩

theorem current_gives : current.Gives Token.IsPlain := by
  unfold current
  refine (peekAt_gives 0).bind ?_
  intro token isPlain
  refine Gives.ite ?_ ?_
  · intro _
    exact Gives.fail_bind
  · intro _
    exact Gives.pure isPlain

theorem following_gives : following.Gives fun _ => True :=
  current_gives.bind fun _ _ => (peekAt_gives 1).mono fun _ _ => trivial

theorem skip_gives : skip.Gives fun _ => True :=
  current_gives.bind fun _ _ => next_gives

theorem currentIs_gives (kind : TokenKind) : (currentIs kind).Gives fun _ => True := by
  unfold currentIs
  exact current_gives.bind fun _ _ => Gives.pure trivial

theorem currentIsMark_gives (mark : Punctuator) : (currentIsMark mark).Gives fun _ => True :=
  currentIs_gives _

/-- A test that looks ahead gives nothing to go by. -/
theorem currentIsBefore_gives (kind : TokenKind) (test : TokenKind → Bool) :
    (currentIsBefore kind test).Gives fun _ => True := by
  unfold currentIsBefore
  refine (currentIs_gives kind).bind ?_
  intro _ _
  refine Gives.ite ?_ ?_
  · intro _
    exact following_gives.bind fun _ _ => Gives.pure trivial
  · intro _
    exact Gives.pure trivial

theorem expect_gives (kind : TokenKind) : (expect kind).Gives fun _ => True := by
  unfold expect
  refine current_gives.bind ?_
  intro token _
  refine Gives.ite ?_ ?_
  · intro _
    exact Gives.fail_bind
  · intro _
    exact skip_gives.bind fun _ _ => Gives.pure trivial

theorem expectMark_gives (mark : Punctuator) : (expectMark mark).Gives fun _ => True :=
  expect_gives _

theorem accept_gives (mark : Punctuator) : (accept mark).Gives fun _ => True := by
  unfold accept
  refine (currentIsMark_gives mark).bind ?_
  intro _ _
  refine Gives.ite ?_ ?_
  · intro _
    exact skip_gives.bind fun _ _ => Gives.pure trivial
  · intro _
    exact Gives.pure trivial

end Parser

/-! ### Declarators -/

theorem Specifiers.note_gives (storageAllowed : Bool) (seen : Specifiers.Seen) (span : Span)
    (keyword : Keyword) :
    (Specifiers.note storageAllowed seen span keyword).Gives fun _ => True := by
  unfold Specifiers.note
  repeat' split
  all_goals first
    | exact Parser.Gives.fail
    | exact Parser.Gives.pure trivial

theorem Specifiers.collect_gives (storageAllowed : Bool) : ∀ (fuel : Nat) (seen : Specifiers.Seen),
    (Specifiers.collect storageAllowed fuel seen).Gives fun _ => True
  | 0, _ => Parser.Gives.throw
  | fuel + 1, seen => by
      rw [Specifiers.collect]
      refine Parser.current_gives.bind ?_
      intro token _
      split
      · refine Parser.Gives.ite ?_ ?_
        · intro _
          refine Parser.skip_gives.bind ?_
          intro _ _
          refine (Specifiers.note_gives _ _ _ _).bind ?_
          intro seen _
          exact Specifiers.collect_gives storageAllowed fuel seen
        · intro _
          exact Parser.Gives.pure trivial
      · exact Parser.Gives.pure trivial

theorem Specifiers.notFunction_of_type {keywords : List Keyword} {type : CType}
    (denotes : Specifiers.type keywords = .ok type) : type.isFunction = false := by
  unfold Specifiers.type at denotes
  repeat' split at denotes
  all_goals
    cases denotes
    try rfl

theorem Specifiers.parse_gives (storageAllowed : Bool) :
    (Specifiers.parse storageAllowed).Gives fun specifiers =>
      specifiers.base.isFunction = false := by
  unfold Specifiers.parse
  refine Parser.current_gives.bind ?_
  intro start _
  refine Parser.fuel_gives.bind ?_
  intro fuel _
  refine (Specifiers.collect_gives _ fuel _).bind ?_
  intro seen _
  refine Parser.Gives.ite ?_ ?_
  · intro _
    exact Parser.Gives.fail_bind
  · intro _
    dsimp only
    split
    · exact Parser.Gives.pure (Specifiers.notFunction_of_type ‹_›)
    · exact Parser.Gives.fail

/-- What a declarator of a source declares. -/
structure Declared.IsSource (declared : Declared) : Prop where
  plain : declared.name.IsPlain
  params : ∀ type ∈ declared.params.map Param.type, type.isFunction = false
  /-- The result of a function is no array and no function. -/
  result : ∀ params result, declared.type = .function params result →
    result.isArray = false ∧ result.isFunction = false

theorem Declared.isSource_object {name : Text} {span : Span} {type : CType} (plain : name.IsPlain)
    (notFunction : type.isFunction = false) : (⟨name, span, type, []⟩ : Declared).IsSource := by
  refine ⟨plain, by simp, ?_⟩
  rintro params result rfl
  cases notFunction

namespace Declarator

/-- The name in the declarator is plain. -/
def IsPlain : Declarator → Prop
  | .named name _ => name.IsPlain
  | .abstract => True
  | .pointer inner | .array inner _ | .paren inner | .function inner _ _ => inner.IsPlain

theorem IsPlain.unparen : ∀ {declarator : Declarator}, declarator.IsPlain → declarator.unparen.IsPlain
  | .paren inner, isPlain => by
      simp only [IsPlain] at isPlain
      simpa only [Declarator.unparen] using IsPlain.unparen isPlain
  | .named _ _, isPlain | .abstract, isPlain | .pointer _, isPlain | .array _ _, isPlain
  | .function _ _ _, isPlain => isPlain

theorem notFunction_of_resolveParams : ∀ {declarators : List ParamDeclarator} {params : List Param},
    resolveParams declarators = .ok params →
      ∀ type ∈ params.map Param.type, type.isFunction = false
  | [], params, resolves => by
      simp only [resolveParams] at resolves
      cases resolves
      simp
  | .mk base declarator span :: rest, params, resolves => by
      simp only [resolveParams] at resolves
      cases ran : declarator.resolve base with
      | error failure =>
          rw [ran] at resolves
          cases resolves
      | ok declared =>
          simp only [ran, bind, Except.bind] at resolves
          split at resolves
          · cases resolves
          rename_i notFunction
          cases restRan : resolveParams rest with
          | error failure =>
              rw [restRan] at resolves
              cases resolves
          | ok restParams =>
              rw [restRan] at resolves
              cases resolves
              exact List.forall_mem_cons.2
                ⟨by simpa using notFunction, notFunction_of_resolveParams restRan⟩

theorem isSource_of_resolve : ∀ {declarator : Declarator} {base : CType} {declared : Declared},
    declarator.IsPlain → base.isFunction = false → declarator.resolve base = .ok declared →
      declared.IsSource
  | .named _ _, _, _, isPlain, notFunction, resolves => by
      simp only [resolve] at resolves
      cases resolves
      simp only [IsPlain] at isPlain
      exact Declared.isSource_object isPlain notFunction
  | .abstract, _, _, _, notFunction, resolves => by
      simp only [resolve] at resolves
      cases resolves
      exact Declared.isSource_object (by simp [Text.IsPlain]) notFunction
  | .pointer inner, _, _, isPlain, _, resolves | .array inner _, _, _, isPlain, _, resolves => by
      simp only [resolve] at resolves
      simp only [IsPlain] at isPlain
      exact isSource_of_resolve isPlain rfl resolves
  | .paren inner, base, _, isPlain, notFunction, resolves => by
      simp only [resolve] at resolves
      simp only [IsPlain] at isPlain
      refine isSource_of_resolve isPlain ?_ resolves
      split
      · rfl
      · exact notFunction
  | .function inner params span, base, declared, isPlain, notFunction, resolves => by
      simp only [IsPlain] at isPlain
      have innerPlain := isPlain.unparen
      -- Behind the parentheses stands a name or nothing; other shapes are refused.
      have named : ∃ name nameSpan, name.IsPlain ∧ base.isArray = false ∧
          (do
            let params ← resolveParams params
            pure ⟨name, nameSpan, .function (params.map Param.type) base, params⟩) =
          Except.ok declared := by
        simp only [resolve] at resolves
        cases shape : inner.unparen with
        | named name nameSpan =>
            simp only [shape, IsPlain, pure_bind] at innerPlain resolves
            split at resolves
            · cases resolves
            · exact ⟨name, nameSpan, innerPlain, by simpa using ‹¬base.isArray = true›, resolves⟩
        | abstract =>
            simp only [shape, pure_bind] at resolves
            split at resolves
            · cases resolves
            · exact ⟨[], span, by simp [Text.IsPlain], by simpa using ‹¬base.isArray = true›,
                resolves⟩
        | pointer | array | paren | function =>
            simp only [shape] at resolves
            cases resolves
      rcases named with ⟨name, nameSpan, namePlain, notArray, resolves⟩
      cases ran : resolveParams params with
      | error failure =>
          rw [ran] at resolves
          cases resolves
      | ok params =>
          rw [ran] at resolves
          cases resolves
          refine ⟨namePlain, notFunction_of_resolveParams ran, ?_⟩
          rintro _ _ ⟨⟩
          exact ⟨notArray, notFunction⟩

theorem declare_gives {declarator : Declarator} (isPlain : declarator.IsPlain) {base : CType}
    (notFunction : base.isFunction = false) :
    (declarator.declare base).Gives Declared.IsSource := by
  unfold declare
  split
  · exact Parser.Gives.pure (isSource_of_resolve isPlain notFunction ‹_›)
  · exact Parser.Gives.fail

theorem dimension_gives : dimension.Gives fun _ => True := by
  unfold dimension
  refine (Parser.expectMark_gives _).bind ?_
  intro _ _
  refine Parser.current_gives.bind ?_
  intro token _
  have sized : ∀ size : Int, Parser.Gives (do
      if size ≤ 0 then Parser.fail token.span .dimensionNotPositive
      let _ ← Parser.expectMark .rightBracket
      pure size) fun _ => True := by
    intro size
    refine Parser.Gives.ite ?_ ?_
    · intro _
      exact Parser.Gives.fail_bind
    · intro _
      exact (Parser.expectMark_gives _).bind fun _ _ => Parser.Gives.pure trivial
  dsimp only
  split
  · refine Parser.skip_gives.bind ?_
    intro _ _
    split
    · exact sized _
    · exact Parser.Gives.fail_bind
  all_goals exact Parser.Gives.fail_bind

theorem opensParams_gives (nameOptional : Bool) :
    (opensParams nameOptional).Gives fun _ => True := by
  unfold opensParams
  refine Parser.Gives.ite ?_ ?_
  · intro _
    exact Parser.following_gives.bind fun _ _ => Parser.Gives.pure trivial
  · intro _
    exact Parser.Gives.pure trivial

mutual

theorem parseWith_gives : ∀ (fuel : Nat) (nameOptional : Bool),
    (parseWith fuel nameOptional).Gives IsPlain
  | 0, _ => by
      rw [parseWith]
      exact Parser.Gives.throw
  | fuel + 1, nameOptional => by
      rw [parseWith]
      refine (Parser.accept_gives _).bind ?_
      intro _ _
      refine Parser.Gives.ite ?_ ?_
      · intro _
        exact (parseWith_gives fuel nameOptional).bind fun _ isPlain => Parser.Gives.pure isPlain
      · intro _
        refine Parser.current_gives.bind ?_
        intro token isPlain
        split
        · refine Parser.skip_gives.bind ?_
          intro _ _
          exact suffixes_gives fuel _ (isPlain ‹_›)
        · refine (opensParams_gives _).bind ?_
          intro _ _
          refine Parser.Gives.ite ?_ ?_
          · intro _
            exact suffixes_gives fuel _ trivial
          · intro _
            refine Parser.skip_gives.bind ?_
            intro _ _
            refine (parseWith_gives fuel nameOptional).bind ?_
            intro inner innerPlain
            refine (Parser.expectMark_gives _).bind ?_
            intro _ _
            exact suffixes_gives fuel _ innerPlain
        · refine Parser.Gives.ite ?_ ?_
          · intro _
            exact suffixes_gives fuel _ trivial
          · intro _
            exact Parser.Gives.fail

theorem suffixes_gives : ∀ (fuel : Nat) (declarator : Declarator), declarator.IsPlain →
    (suffixes fuel declarator).Gives IsPlain
  | 0, _, _ => by
      rw [suffixes]
      exact Parser.Gives.throw
  | fuel + 1, declarator, isPlain => by
      rw [suffixes]
      refine Parser.current_gives.bind ?_
      intro token _
      split
      · exact dimension_gives.bind fun _ _ => suffixes_gives fuel _ isPlain
      · exact (params_gives fuel).bind fun _ _ => suffixes_gives fuel _ isPlain
      · exact Parser.Gives.pure isPlain

theorem params_gives : ∀ fuel : Nat, (params fuel).Gives fun _ => True
  | 0 => by
      rw [params]
      exact Parser.Gives.throw
  | fuel + 1 => by
      rw [params]
      refine (Parser.expectMark_gives _).bind ?_
      intro _ _
      refine (Parser.accept_gives _).bind ?_
      intro _ _
      refine Parser.Gives.ite ?_ ?_
      · intro _
        exact Parser.Gives.pure trivial
      · intro _
        refine (Parser.currentIsBefore_gives _ _).bind ?_
        intro _ _
        refine Parser.Gives.ite ?_ ?_
        · intro _
          refine Parser.skip_gives.bind ?_
          intro _ _
          exact Parser.skip_gives.bind fun _ _ => Parser.Gives.pure trivial
        · intro _
          refine (paramList_gives fuel).bind ?_
          intro _ _
          exact (Parser.expectMark_gives _).bind fun _ _ => Parser.Gives.pure trivial

theorem paramList_gives : ∀ fuel : Nat, (paramList fuel).Gives fun _ => True
  | 0 => by
      rw [paramList]
      exact Parser.Gives.throw
  | fuel + 1 => by
      rw [paramList]
      refine Parser.current_gives.bind ?_
      intro _ _
      refine (Specifiers.parse_gives _).bind ?_
      intro _ _
      refine (parseWith_gives fuel true).bind ?_
      intro _ _
      refine (Parser.accept_gives _).bind ?_
      intro _ _
      refine Parser.Gives.ite ?_ ?_
      · intro _
        exact (paramList_gives fuel).bind fun _ _ => Parser.Gives.pure trivial
      · intro _
        exact Parser.Gives.pure trivial

end

theorem parse_gives : parse.Gives IsPlain :=
  Parser.fuel_gives.bind fun fuel _ => parseWith_gives fuel false

theorem dimensions_gives : ∀ (fuel : Nat) (declarator : Declarator), declarator.IsPlain →
    (dimensions fuel declarator).Gives IsPlain
  | 0, _, _ => by
      rw [dimensions]
      exact Parser.Gives.throw
  | fuel + 1, declarator, isPlain => by
      rw [dimensions]
      refine (Parser.currentIsMark_gives _).bind ?_
      intro _ _
      refine Parser.Gives.ite ?_ ?_
      · intro _
        exact dimension_gives.bind fun _ _ => dimensions_gives fuel _ isPlain
      · intro _
        exact Parser.Gives.pure isPlain

theorem parseAbstractWith_gives : ∀ fuel : Nat, (parseAbstractWith fuel).Gives IsPlain
  | 0 => by
      rw [parseAbstractWith]
      exact Parser.Gives.throw
  | fuel + 1 => by
      rw [parseAbstractWith]
      refine Parser.current_gives.bind ?_
      intro token _
      split
      · refine Parser.skip_gives.bind ?_
        intro _ _
        exact (parseAbstractWith_gives fuel).bind fun _ isPlain => Parser.Gives.pure isPlain
      · refine Parser.skip_gives.bind ?_
        intro _ _
        refine (parseAbstractWith_gives fuel).bind ?_
        intro inner isPlain
        dsimp only
        split
        · exact Parser.Gives.fail_bind
        · refine (Parser.expectMark_gives _).bind ?_
          intro _ _
          exact dimensions_gives fuel _ isPlain
      · exact dimensions_gives fuel _ trivial

theorem parseTypeName_gives : parseTypeName.Gives fun _ => True := by
  unfold parseTypeName
  refine (Specifiers.parse_gives _).bind ?_
  intro _ notFunction
  refine Parser.fuel_gives.bind ?_
  intro fuel _
  refine (parseAbstractWith_gives fuel).bind ?_
  intro _ isPlain
  exact (declare_gives isPlain notFunction).bind fun _ _ => Parser.Gives.pure trivial

end Declarator

/-! ### Expressions -/

namespace Expr

theorem parenTypeName_gives : parenTypeName.Gives fun _ => True := by
  unfold parenTypeName
  refine Parser.skip_gives.bind ?_
  intro _ _
  refine Declarator.parseTypeName_gives.bind ?_
  intro _ _
  exact (Parser.expectMark_gives _).bind fun _ _ => Parser.Gives.pure trivial

theorem stringRun_gives : ∀ (fuel : Nat) (seen : Span × Text),
    (stringRun fuel seen).Gives fun _ => True
  | 0, _ => Parser.Gives.throw
  | fuel + 1, seen => by
      rw [stringRun]
      refine Parser.current_gives.bind ?_
      intro token _
      refine Parser.Gives.ite ?_ ?_
      · intro _
        exact Parser.skip_gives.bind fun _ _ => stringRun_gives fuel _
      · intro _
        exact Parser.Gives.pure trivial

theorem strings_gives : strings.Gives IsSource := by
  unfold strings
  refine Parser.current_gives.bind ?_
  intro _ _
  refine Parser.fuel_gives.bind ?_
  intro fuel _
  refine (stringRun_gives fuel _).bind ?_
  intro seen _
  refine (Parser.newNote_gives _).bind ?_
  intro note untyped
  exact Parser.Gives.pure untyped

mutual

theorem parseWith_gives : ∀ fuel level : Nat, (parseWith fuel level).Gives IsSource
  | 0, _ => by
      rw [parseWith]
      exact Parser.Gives.throw
  | fuel + 1, level => by
      rw [parseWith]
      exact (operand_gives fuel).bind fun left isSource =>
        continuations_gives fuel level left isSource

theorem continuations_gives : ∀ (fuel level : Nat) (left : Expr), left.IsSource →
    (continuations fuel level left).Gives IsSource
  | 0, _, _, _ => by
      rw [continuations]
      exact Parser.Gives.throw
  | fuel + 1, level, left, leftSource => by
      rw [continuations]
      refine Parser.current_gives.bind ?_
      intro token _
      split
      · exact Parser.Gives.pure leftSource
      · refine Parser.Gives.ite ?_ ?_
        · intro _
          exact Parser.Gives.pure leftSource
        · intro _
          refine Parser.skip_gives.bind ?_
          intro _ _
          split
          · refine (parseWith_gives fuel _).bind ?_
            intro right rightSource
            refine (Parser.newNote_gives _).bind ?_
            intro note untyped
            exact continuations_gives fuel level _ ⟨untyped, leftSource, rightSource⟩
          · refine (parseWith_gives fuel _).bind ?_
            intro thenBranch thenSource
            refine (Parser.expectMark_gives _).bind ?_
            intro _ _
            refine (parseWith_gives fuel _).bind ?_
            intro elseBranch elseSource
            refine (Parser.newNote_gives _).bind ?_
            intro note untyped
            exact continuations_gives fuel level _ ⟨untyped, leftSource, thenSource, elseSource⟩
          · refine (parseWith_gives fuel _).bind ?_
            intro right rightSource
            refine (Parser.newNote_gives _).bind ?_
            intro note untyped
            exact continuations_gives fuel level _ ⟨untyped, leftSource, rightSource⟩

theorem operand_gives : ∀ fuel : Nat, (operand fuel).Gives IsSource
  | 0 => by
      rw [operand]
      exact Parser.Gives.throw
  | fuel + 1 => by
      have inner : ∀ (span : Span) (build : Note → Expr → Expr),
          (∀ note expr, note.type = none → expr.IsSource → (build note expr).IsSource) →
          Parser.Gives (do
            let inner ← operand fuel
            pure (build (← Parser.newNote span) inner)) IsSource := by
        intro span build isSource
        refine (operand_gives fuel).bind ?_
        intro expr exprSource
        refine (Parser.newNote_gives span).bind ?_
        intro note untyped
        exact Parser.Gives.pure (isSource note expr untyped exprSource)
      have suffixed : Parser.Gives (do trailing fuel (← atom fuel)) IsSource :=
        (atom_gives fuel).bind fun expr isSource => trailing_gives fuel expr isSource
      rw [operand]
      refine Parser.current_gives.bind ?_
      intro token _
      split
      -- a dereference
      · exact Parser.skip_gives.bind fun _ _ =>
          inner token.span .dereference fun _ _ untyped isSource => ⟨untyped, isSource⟩
      -- an address
      · exact Parser.skip_gives.bind fun _ _ =>
          inner token.span .addressOf fun _ _ untyped isSource => ⟨untyped, isSource⟩
      -- sizeof
      · refine Parser.skip_gives.bind ?_
        intro _ _
        refine (Parser.currentIsBefore_gives _ _).bind ?_
        intro _ _
        refine Parser.Gives.ite ?_ ?_
        · intro _
          refine parenTypeName_gives.bind ?_
          intro type _
          exact (Parser.newNote_gives _).bind fun _ untyped => Parser.Gives.pure untyped
        · intro _
          exact inner token.span .sizeofExpr fun _ _ untyped isSource => ⟨untyped, isSource⟩
      -- a parenthesis, perhaps of a cast
      · refine (Parser.currentIsBefore_gives _ _).bind ?_
        intro _ _
        refine Parser.Gives.ite ?_ ?_
        · intro _
          refine parenTypeName_gives.bind ?_
          intro target _
          exact inner token.span (fun note expr => .cast note target expr false)
            fun _ _ untyped isSource => ⟨untyped, isSource⟩
        · intro _
          exact suffixed
      -- any other token
      · split
        · refine Parser.skip_gives.bind ?_
          intro _ _
          exact inner token.span (fun note expr => .unary note _ expr)
            fun _ _ untyped isSource => ⟨untyped, isSource⟩
        · refine Parser.skip_gives.bind ?_
          intro _ _
          exact inner token.span (fun note expr => .step note .before _ expr)
            fun _ _ untyped isSource => ⟨untyped, isSource⟩
        · exact suffixed

theorem trailing_gives : ∀ (fuel : Nat) (operand : Expr), operand.IsSource →
    (trailing fuel operand).Gives IsSource
  | 0, _, _ => by
      rw [trailing]
      exact Parser.Gives.throw
  | fuel + 1, operand, isSource => by
      rw [trailing]
      refine Parser.current_gives.bind ?_
      intro token _
      split
      · refine Parser.skip_gives.bind ?_
        intro _ _
        refine (parseWith_gives fuel 0).bind ?_
        intro index indexSource
        refine (Parser.expectMark_gives _).bind ?_
        intro _ _
        refine (Parser.newNote_gives _).bind ?_
        intro note untyped
        exact trailing_gives fuel _ ⟨untyped, isSource, indexSource⟩
      · split
        · refine Parser.skip_gives.bind ?_
          intro _ _
          refine (Parser.newNote_gives _).bind ?_
          intro note untyped
          exact trailing_gives fuel _ ⟨untyped, isSource⟩
        · exact Parser.Gives.pure isSource

theorem atom_gives : ∀ fuel : Nat, (atom fuel).Gives IsSource
  | 0 => by
      rw [atom]
      exact Parser.Gives.throw
  | fuel + 1 => by
      rw [atom]
      refine Parser.current_gives.bind ?_
      intro token _
      split
      -- an integer literal
      · refine Parser.skip_gives.bind ?_
        intro _ _
        split
        · exact (Parser.newNote_gives _).bind fun _ untyped => Parser.Gives.pure untyped
        · exact Parser.Gives.fail
      -- a floating literal
      · refine Parser.skip_gives.bind ?_
        intro _ _
        exact (Parser.newNote_gives _).bind fun _ untyped => Parser.Gives.pure untyped
      -- a character literal
      · refine Parser.skip_gives.bind ?_
        intro _ _
        exact (Parser.newNote_gives _).bind fun _ untyped => Parser.Gives.pure untyped
      -- string literals
      · exact strings_gives
      -- a name, perhaps of a call
      · refine Parser.skip_gives.bind ?_
        intro _ _
        refine (Parser.accept_gives _).bind ?_
        intro _ _
        have call : ∀ arguments : List Expr, IsSourceList arguments → Parser.Gives (do
            let _ ← Parser.expectMark .rightParen
            pure (.call (← Parser.newNote token.span) token.literal arguments)) IsSource := by
          intro arguments isSource
          refine (Parser.expectMark_gives _).bind ?_
          intro _ _
          exact (Parser.newNote_gives _).bind fun _ untyped =>
            Parser.Gives.pure ⟨untyped, isSource⟩
        refine Parser.Gives.ite ?_ ?_
        · intro _
          refine (Parser.currentIsMark_gives _).bind ?_
          intro _ _
          refine Parser.Gives.ite ?_ ?_
          · intro _
            exact call [] trivial
          · intro _
            exact (arguments_gives fuel).bind call
        · intro _
          exact (Parser.newNote_gives _).bind fun _ untyped => Parser.Gives.pure untyped
      -- a parenthesis
      · refine Parser.skip_gives.bind ?_
        intro _ _
        refine (parseWith_gives fuel 0).bind ?_
        intro inner isSource
        exact (Parser.expectMark_gives _).bind fun _ _ => Parser.Gives.pure isSource
      -- no expression
      · exact Parser.Gives.fail

theorem arguments_gives : ∀ fuel : Nat, (arguments fuel).Gives IsSourceList
  | 0 => by
      rw [arguments]
      exact Parser.Gives.throw
  | fuel + 1 => by
      rw [arguments]
      refine (parseWith_gives fuel 0).bind ?_
      intro argument isSource
      refine (Parser.accept_gives _).bind ?_
      intro _ _
      refine Parser.Gives.ite ?_ ?_
      · intro _
        exact (arguments_gives fuel).bind fun _ areSource =>
          Parser.Gives.pure ⟨isSource, areSource⟩
      · intro _
        exact Parser.Gives.pure ⟨isSource, trivial⟩

end

theorem parse_gives : parse.Gives IsSource :=
  Parser.fuel_gives.bind fun fuel _ => parseWith_gives fuel 0

theorem parseUnless_gives (mark : Punctuator) :
    (parseUnless mark).Gives fun value => ∀ expr ∈ value, expr.IsSource := by
  unfold parseUnless
  refine (Parser.currentIsMark_gives _).bind ?_
  intro _ _
  refine Parser.Gives.ite ?_ ?_
  · intro _
    exact Parser.Gives.pure (by simp)
  · intro _
    exact parse_gives.bind fun _ isSource => Parser.Gives.pure (by simpa using isSource)

theorem parseParenthesized_gives : parseParenthesized.Gives IsSource := by
  unfold parseParenthesized
  refine (Parser.expectMark_gives _).bind ?_
  intro _ _
  refine parse_gives.bind ?_
  intro expr isSource
  exact (Parser.expectMark_gives _).bind fun _ _ => Parser.Gives.pure isSource

end Expr

/-! ### Declarations and statements -/

namespace Initializer

mutual

theorem parseWith_gives : ∀ fuel : Nat, (parseWith fuel).Gives IsSource
  | 0 => by
      rw [parseWith]
      exact Parser.Gives.throw
  | fuel + 1 => by
      rw [parseWith]
      refine Parser.current_gives.bind ?_
      intro token _
      refine Parser.Gives.ite ?_ ?_
      · intro _
        refine Parser.skip_gives.bind ?_
        intro _ _
        refine Parser.current_gives.bind ?_
        intro first _
        refine Parser.Gives.ite ?_ ?_
        · intro _
          exact Parser.Gives.fail_bind
        · intro _
          refine (itemsWith_gives fuel).bind ?_
          intro items areSource
          refine (Parser.expectMark_gives _).bind ?_
          intro _ _
          exact (Parser.newLoc_gives _).bind fun _ _ => Parser.Gives.pure areSource
      · intro _
        refine Expr.parse_gives.bind ?_
        intro value isSource
        exact (Parser.newLoc_gives _).bind fun _ _ => Parser.Gives.pure isSource

theorem itemsWith_gives : ∀ fuel : Nat, (itemsWith fuel).Gives IsSourceList
  | 0 => by
      rw [itemsWith]
      exact Parser.Gives.throw
  | fuel + 1 => by
      rw [itemsWith]
      refine (parseWith_gives fuel).bind ?_
      intro item isSource
      refine (Parser.accept_gives _).bind ?_
      intro _ _
      refine Parser.Gives.ite ?_ ?_
      · intro _
        refine (Parser.currentIsMark_gives _).bind ?_
        intro _ _
        refine Parser.Gives.ite ?_ ?_
        · intro _
          exact Parser.Gives.pure ⟨isSource, trivial⟩
        · intro _
          exact (itemsWith_gives fuel).bind fun _ areSource =>
            Parser.Gives.pure ⟨isSource, areSource⟩
      · intro _
        exact Parser.Gives.pure ⟨isSource, trivial⟩

end

theorem parse_gives : parse.Gives IsSource :=
  Parser.fuel_gives.bind fun fuel _ => parseWith_gives fuel

end Initializer

theorem VarDecl.parseRest_gives {declared : Declared} (isPlain : declared.name.IsPlain)
    (notFunction : declared.type.isFunction = false) (storageClass : Option StorageClass) :
    (VarDecl.parseRest declared storageClass).Gives fun decl =>
      decl.IsSource ∧ decl.name.IsPlain := by
  have build : ∀ init : Option Initializer, (∀ item ∈ init, item.IsSource) → Parser.Gives (do
      pure (⟨← Parser.newLoc declared.span, declared.name, declared.type, storageClass, init⟩ :
        VarDecl)) fun decl => decl.IsSource ∧ decl.name.IsPlain := by
    intro init isSource
    exact (Parser.newLoc_gives _).bind fun _ _ =>
      Parser.Gives.pure ⟨⟨fun _ => isPlain, isSource, notFunction⟩, isPlain⟩
  unfold VarDecl.parseRest
  refine (Parser.accept_gives _).bind ?_
  intro _ _
  refine Parser.Gives.ite ?_ ?_
  · intro _
    refine Initializer.parse_gives.bind ?_
    intro init isSource
    exact build (some init) (by simpa using isSource)
  · intro _
    exact build none (by simp)

theorem Declared.requireNames_gives (declared : Declared) :
    declared.requireNames.Gives fun _ => ∀ param ∈ declared.params, param.name ≠ [] := by
  unfold Declared.requireNames
  induction declared.params with
  | nil => exact Parser.Gives.pure (by simp)
  | cons param params ih =>
      have named : Parser.Gives (do
          if param.name.isEmpty then
            Parser.fail param.span (.parameterNameOmitted declared.name)) fun _ =>
          param.name ≠ [] := by
        refine Parser.Gives.ite ?_ ?_
        · intro _
          exact Parser.Gives.fail
        · intro notEmpty
          exact Parser.Gives.pure (by simpa using notEmpty)
      refine named.bind ?_
      intro _ notEmpty
      exact ih.mono fun _ allNamed => List.forall_mem_cons.2 ⟨notEmpty, allNamed⟩

theorem Declared.opensBody_gives (isFirst : Bool) :
    (Declared.opensBody isFirst).Gives fun _ => True := by
  unfold Declared.opensBody
  split
  · exact Parser.currentIsMark_gives _
  · exact Parser.Gives.pure trivial

theorem VarDecl.parseListWith_gives {specifiers : Specifiers}
    (baseNotFunction : specifiers.base.isFunction = false) : ∀ fuel : Nat,
    (VarDecl.parseListWith specifiers fuel).Gives fun decls => ∀ decl ∈ decls, decl.IsSource
  | 0 => by
      rw [VarDecl.parseListWith]
      exact Parser.Gives.throw
  | fuel + 1 => by
      rw [VarDecl.parseListWith]
      refine Declarator.parse_gives.bind ?_
      intro declarator isPlain
      refine (Declarator.declare_gives isPlain baseNotFunction).bind ?_
      intro declared declaredSource
      refine Parser.Gives.ite ?_ ?_
      · intro _
        exact Parser.Gives.fail_bind
      · intro notFunction
        refine (VarDecl.parseRest_gives declaredSource.plain (by simpa using notFunction) _).bind ?_
        intro decl isSource
        refine (Parser.accept_gives _).bind ?_
        intro _ _
        refine Parser.Gives.ite ?_ ?_
        · intro _
          exact (VarDecl.parseListWith_gives baseNotFunction fuel).bind fun _ areSource =>
            Parser.Gives.pure (List.forall_mem_cons.2 ⟨isSource.1, areSource⟩)
        · intro _
          exact (Parser.expectMark_gives _).bind fun _ _ =>
            Parser.Gives.pure (by simpa using isSource.1)

theorem ForInit.parse_gives : ForInit.parse.Gives ForInit.IsSource := by
  unfold ForInit.parse
  refine Parser.current_gives.bind ?_
  intro token _
  refine Parser.Gives.ite ?_ ?_
  · intro _
    refine (Specifiers.parse_gives _).bind ?_
    intro specifiers baseNotFunction
    refine Parser.fuel_gives.bind ?_
    intro fuel _
    refine (VarDecl.parseListWith_gives baseNotFunction fuel).bind ?_
    intro decls areSource
    exact (Parser.newLoc_gives _).bind fun _ _ => Parser.Gives.pure areSource
  · intro _
    refine (Expr.parseUnless_gives _).bind ?_
    intro value isSource
    refine (Parser.expectMark_gives _).bind ?_
    intro _ _
    exact (Parser.newLoc_gives _).bind fun _ _ => Parser.Gives.pure isSource

theorem Item.isSourceList_append : ∀ {decls : List Decl} {items : List Item},
    (∀ decl ∈ decls, decl.IsSource) → Item.IsSourceList items →
      Item.IsSourceList (decls.map .decl ++ items)
  | [], _, _, areSource => areSource
  | _ :: _, _, declsSource, areSource =>
      ⟨(List.forall_mem_cons.1 declsSource).1,
        Item.isSourceList_append (List.forall_mem_cons.1 declsSource).2 areSource⟩

mutual

theorem Decl.parseDeclarators_gives : ∀ (fuel : Nat) {specifiers : Specifiers} (isFirst : Bool),
    specifiers.base.isFunction = false →
      (Decl.parseDeclarators fuel specifiers isFirst).Gives Program.IsSource
  | 0, _, _, _ => by
      rw [Decl.parseDeclarators]
      exact Parser.Gives.throw
  | fuel + 1, specifiers, isFirst, baseNotFunction => by
      rw [Decl.parseDeclarators]
      refine Declarator.parse_gives.bind ?_
      intro declarator isPlain
      refine (Declarator.declare_gives isPlain baseNotFunction).bind ?_
      intro declared declaredSource
      split
      · rename_i params result isFunction
        have funDeclSource : ∀ loc,
            (declared.funDecl loc result specifiers.storageClass).IsSource := fun _ =>
          ⟨declaredSource.plain, declaredSource.params, declaredSource.result _ _ isFunction⟩
        refine (Declared.opensBody_gives _).bind ?_
        intro _ _
        refine Parser.Gives.ite ?_ ?_
        · intro _
          refine declared.requireNames_gives.bind ?_
          intro _ named
          refine (Stmt.parseBlock_gives fuel).bind ?_
          intro block areSource
          refine (Parser.newLoc_gives _).bind ?_
          intro loc _
          exact Parser.Gives.pure
            (List.forall_mem_singleton.2
              ⟨⟨funDeclSource loc, named, areSource⟩, declaredSource.plain⟩)
        · intro _
          refine (Parser.newLoc_gives _).bind ?_
          intro loc _
          exact Decl.parseMore_gives fuel _ baseNotFunction
            ⟨funDeclSource loc, declaredSource.plain⟩
      · rename_i notFunction
        have isObject : declared.type.isFunction = false := by
          cases shape : declared.type with
          | function params result => exact absurd shape (notFunction params result)
          | _ => rfl
        refine (VarDecl.parseRest_gives declaredSource.plain isObject _).bind ?_
        intro decl isSource
        exact Decl.parseMore_gives fuel _ baseNotFunction isSource

theorem Decl.parseMore_gives : ∀ (fuel : Nat) {specifiers : Specifiers} (decl : Decl),
    specifiers.base.isFunction = false → decl.IsSource ∧ decl.name.IsPlain →
      (Decl.parseMore fuel specifiers decl).Gives Program.IsSource
  | 0, _, _, _, _ => by
      rw [Decl.parseMore]
      exact Parser.Gives.throw
  | fuel + 1, specifiers, decl, baseNotFunction, isSource => by
      rw [Decl.parseMore]
      refine (Parser.accept_gives _).bind ?_
      intro _ _
      refine Parser.Gives.ite ?_ ?_
      · intro _
        exact (Decl.parseDeclarators_gives fuel false baseNotFunction).bind fun _ areSource =>
          Parser.Gives.pure (List.forall_mem_cons.2 ⟨isSource, areSource⟩)
      · intro _
        exact (Parser.expectMark_gives _).bind fun _ _ =>
          Parser.Gives.pure (List.forall_mem_singleton.2 isSource)

theorem Stmt.parseBlock_gives : ∀ fuel : Nat,
    (Stmt.parseBlock fuel).Gives fun block => Item.IsSourceList block.2
  | 0 => by
      rw [Stmt.parseBlock]
      exact Parser.Gives.throw
  | fuel + 1 => by
      rw [Stmt.parseBlock]
      refine (Parser.expectMark_gives _).bind ?_
      intro _ _
      refine (Item.parseList_gives fuel).bind ?_
      intro items areSource
      refine Parser.skip_gives.bind ?_
      intro _ _
      exact (Parser.newLoc_gives _).bind fun _ _ => Parser.Gives.pure areSource

theorem Item.parseList_gives : ∀ fuel : Nat, (Item.parseList fuel).Gives Item.IsSourceList
  | 0 => by
      rw [Item.parseList]
      exact Parser.Gives.throw
  | fuel + 1 => by
      rw [Item.parseList]
      refine Parser.current_gives.bind ?_
      intro token _
      refine Parser.Gives.ite (fun _ => Parser.Gives.pure trivial) ?_
      intro _
      refine Parser.Gives.ite (fun _ => Parser.Gives.fail) ?_
      intro _
      refine Parser.Gives.ite ?_ ?_
      · intro _
        refine (Specifiers.parse_gives _).bind ?_
        intro specifiers baseNotFunction
        refine (Decl.parseDeclarators_gives fuel true baseNotFunction).bind ?_
        intro decls declsSource
        exact (Item.parseList_gives fuel).bind fun _ areSource =>
          Parser.Gives.pure
            (Item.isSourceList_append (fun decl mem => (declsSource decl mem).1) areSource)
      · intro _
        refine (Stmt.parseWith_gives fuel).bind ?_
        intro stmt isSource
        exact (Item.parseList_gives fuel).bind fun _ areSource =>
          Parser.Gives.pure ⟨isSource, areSource⟩

theorem Stmt.parseWith_gives : ∀ fuel : Nat, (Stmt.parseWith fuel).Gives Stmt.IsSource
  | 0 => by
      rw [Stmt.parseWith]
      exact Parser.Gives.throw
  | fuel + 1 => by
      have build : ∀ (span : Span) (make : Loc → Stmt), (∀ loc, (make loc).IsSource) →
          Parser.Gives (do pure (make (← Parser.newLoc span))) Stmt.IsSource := by
        intro span make isSource
        exact (Parser.newLoc_gives span).bind fun loc _ => Parser.Gives.pure (isSource loc)
      have jump : ∀ (span : Span) (make : Loc → Stmt), (∀ loc, (make loc).IsSource) →
          Parser.Gives (do
            Parser.skip
            let _ ← Parser.expectMark .semicolon
            pure (make (← Parser.newLoc span))) Stmt.IsSource := by
        intro span make isSource
        refine Parser.skip_gives.bind ?_
        intro _ _
        refine (Parser.expectMark_gives _).bind ?_
        intro _ _
        exact build span make isSource
      rw [Stmt.parseWith]
      refine Parser.current_gives.bind ?_
      intro token _
      split
      -- return
      · refine Parser.skip_gives.bind ?_
        intro _ _
        refine (Expr.parseUnless_gives _).bind ?_
        intro value isSource
        refine (Parser.expectMark_gives _).bind ?_
        intro _ _
        exact build token.span (fun loc => .ret loc value) fun _ => isSource
      -- if
      · refine Parser.skip_gives.bind ?_
        intro _ _
        refine Expr.parseParenthesized_gives.bind ?_
        intro condition conditionSource
        refine (Stmt.parseWith_gives fuel).bind ?_
        intro thenBranch thenSource
        refine (Parser.currentIs_gives _).bind ?_
        intro _ _
        refine Parser.Gives.ite ?_ ?_
        · intro _
          refine Parser.skip_gives.bind ?_
          intro _ _
          refine (Stmt.parseWith_gives fuel).bind ?_
          intro elseBranch elseSource
          exact build token.span (fun loc => .ifElse loc condition thenBranch elseBranch)
            fun _ => ⟨conditionSource, thenSource, elseSource⟩
        · intro _
          exact build token.span (fun loc => .ifThen loc condition thenBranch)
            fun _ => ⟨conditionSource, thenSource⟩
      -- a block
      · refine (Stmt.parseBlock_gives fuel).bind ?_
        intro block areSource
        exact Parser.Gives.pure areSource
      -- while
      · refine Parser.skip_gives.bind ?_
        intro _ _
        refine Expr.parseParenthesized_gives.bind ?_
        intro condition conditionSource
        refine (Stmt.parseWith_gives fuel).bind ?_
        intro body bodySource
        exact build token.span (fun loc => .whileLoop loc none condition body)
          fun _ => ⟨conditionSource, bodySource⟩
      -- do
      · refine Parser.skip_gives.bind ?_
        intro _ _
        refine (Stmt.parseWith_gives fuel).bind ?_
        intro body bodySource
        refine (Parser.expect_gives _).bind ?_
        intro _ _
        refine Expr.parseParenthesized_gives.bind ?_
        intro condition conditionSource
        refine (Parser.expectMark_gives _).bind ?_
        intro _ _
        exact build token.span (fun loc => .doWhile loc none body condition)
          fun _ => ⟨conditionSource, bodySource⟩
      -- for
      · refine Parser.skip_gives.bind ?_
        intro _ _
        refine (Parser.expectMark_gives _).bind ?_
        intro _ _
        refine ForInit.parse_gives.bind ?_
        intro init initSource
        refine (Expr.parseUnless_gives _).bind ?_
        intro condition conditionSource
        refine (Parser.expectMark_gives _).bind ?_
        intro _ _
        refine (Expr.parseUnless_gives _).bind ?_
        intro post postSource
        refine (Parser.expectMark_gives _).bind ?_
        intro _ _
        refine (Stmt.parseWith_gives fuel).bind ?_
        intro body bodySource
        exact build token.span (fun loc => .forLoop loc none init condition post body)
          fun _ => ⟨initSource, conditionSource, postSource, bodySource⟩
      -- switch
      · refine Parser.skip_gives.bind ?_
        intro _ _
        refine Expr.parseParenthesized_gives.bind ?_
        intro value valueSource
        refine (Stmt.parseWith_gives fuel).bind ?_
        intro body bodySource
        exact build token.span (fun loc => .switch loc none value body [])
          fun _ => ⟨valueSource, bodySource⟩
      -- case
      · refine Parser.skip_gives.bind ?_
        intro _ _
        refine Expr.parse_gives.bind ?_
        intro value valueSource
        refine (Parser.expectMark_gives _).bind ?_
        intro _ _
        refine (Stmt.parseWith_gives fuel).bind ?_
        intro body bodySource
        exact build token.span (fun loc => .case loc none value body)
          fun _ => ⟨valueSource, bodySource⟩
      -- default
      · refine Parser.skip_gives.bind ?_
        intro _ _
        refine (Parser.expectMark_gives _).bind ?_
        intro _ _
        refine (Stmt.parseWith_gives fuel).bind ?_
        intro body bodySource
        exact build token.span (fun loc => .default loc none body) fun _ => bodySource
      -- break
      · exact jump token.span (fun loc => .break loc none) fun _ => trivial
      -- continue
      · exact jump token.span (fun loc => .continue loc none) fun _ => trivial
      -- a semicolon
      · refine Parser.skip_gives.bind ?_
        intro _ _
        exact build token.span .null fun _ => trivial
      -- an expression
      · refine Parser.Gives.ite (fun _ => Parser.Gives.fail_bind) ?_
        intro _
        refine Expr.parse_gives.bind ?_
        intro value isSource
        refine (Parser.expectMark_gives _).bind ?_
        intro _ _
        exact build token.span (fun loc => .expr loc value) fun _ => isSource

end

theorem Decl.parse_gives : Decl.parse.Gives Program.IsSource := by
  unfold Decl.parse
  refine (Specifiers.parse_gives _).bind ?_
  intro specifiers baseNotFunction
  exact Parser.fuel_gives.bind fun fuel _ =>
    Decl.parseDeclarators_gives fuel true baseNotFunction

namespace Program

theorem parseWith_gives : ∀ fuel : Nat, (parseWith fuel).Gives IsSource
  | 0 => by
      rw [parseWith]
      exact Parser.Gives.throw
  | fuel + 1 => by
      rw [parseWith]
      refine (Parser.currentIs_gives _).bind ?_
      intro _ _
      refine Parser.Gives.ite (fun _ => Parser.Gives.pure (by simp [IsSource])) ?_
      intro _
      refine Decl.parse_gives.bind ?_
      intro decls declsSource
      refine (parseWith_gives fuel).bind ?_
      intro rest restSource
      exact Parser.Gives.pure (List.forall_mem_append.2 ⟨declsSource, restSource⟩)

/-- Every parsed compilation unit is one of a source. -/
theorem isSource_of_parse {source : Text} {program : Program} {lastId : Nat}
    (parses : parse source = .ok (program, lastId)) : program.IsSource := by
  have lexed := Lexer.isPlain_of_mem_lexFrom (.start source)
  have gives : parseAll.Gives IsSource :=
    Parser.fuel_gives.bind fun fuel _ => parseWith_gives fuel
  have ensures := gives ⟨(Lexer.lex source).tokens, (Lexer.lex source).ending, 0⟩ ⟨lexed.1, lexed.2⟩
  rw [parse_eq_ofLexed] at parses
  simp only [ofLexed] at parses
  unfold Ensures at ensures
  split at ensures
  · rename_i result after runs
    simp only [runs] at parses
    cases parses
    exact ensures.2
  · rename_i failure runs
    simp only [runs] at parses
    cases parses

end Program

end SubsetC
