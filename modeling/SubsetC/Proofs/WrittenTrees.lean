import SubsetC.Proofs.NodeNumbers
import SubsetC.Proofs.StreamParsing

/-!
# Trees as parsers write them

What a parser writes comes from the tokens it reads. Every place in a tree, and every place a
parser complains about, is that of a token or of a run of string literals; every name is that of an
identifier token; nothing is typed, labelled or converted yet; and nodes are numbered one after the
other as they are built.

An `Origin` says which places and names tokens have. `Parser.Writes` carries this through the
parsers, for a parser that starts behind a given number of nodes. The main statement is
`Program.written_of_ofLexed`.
-/

namespace SubsetC

/-- Which places and names a tree may be built from. -/
structure Origin where
  /-- The places of tokens, and of runs of string literals. -/
  isSpan : Span → Prop
  /-- The texts of identifiers. -/
  isName : Text → Prop

/-- If a failure is the user's, it is at a place with a property. -/
def Failure.IsAt (isSpan : Span → Prop) (failure : Failure) : Prop :=
  ∀ span error, failure = .user span error → isSpan span

theorem Failure.isAt_user {isSpan : Span → Prop} {span : Span} {error : UserError}
    (holds : isSpan span) : (Failure.user span error).IsAt isSpan := by
  rintro _ _ ⟨⟩
  exact holds

/-! Other failures are at no place. -/

theorem Failure.isAt_internal {isSpan : Span → Prop} {error : InternalError} :
    (Failure.internal error).IsAt isSpan := by
  rintro _ _ ⟨⟩

theorem Failure.isAt_missing {isSpan : Span → Prop} {what : Missing} :
    (Failure.missing what).IsAt isSpan := by
  rintro _ _ ⟨⟩

theorem Failure.isAt_fault {isSpan : Span → Prop} {limit : Fault} :
    (Failure.fault limit).IsAt isSpan := by
  rintro _ _ ⟨⟩

theorem Failure.isAt_outOfFuel {isSpan : Span → Prop} : Failure.outOfFuel.IsAt isSpan := by
  rintro _ _ ⟨⟩

variable (origin : Origin)

/-! ### Written trees -/

/-- The note of an expression before types are checked. -/
structure Note.IsWritten (note : Note) : Prop where
  /-- The place is one of the source. -/
  span : origin.isSpan note.loc.span
  /-- Nothing is known of the expression. -/
  untyped : note = .untyped note.loc

namespace Expr

mutual

/-- The places and names of the expression are those of the source, and nothing is typed or
converted yet. -/
def IsWritten : Expr → Prop
  | .constant note _ | .string note _ | .sizeofType note _ => note.IsWritten origin
  | .var note name => note.IsWritten origin ∧ origin.isName name
  | .unary note _ operand | .addressOf note operand | .dereference note operand
  | .step note _ _ operand | .sizeofExpr note operand =>
      note.IsWritten origin ∧ operand.IsWritten
  | .cast note _ operand isImplicit =>
      note.IsWritten origin ∧ operand.IsWritten ∧ isImplicit = false
  | .binary note _ left right | .subscript note left right =>
      note.IsWritten origin ∧ left.IsWritten ∧ right.IsWritten
  | .assign note _ left right opType =>
      note.IsWritten origin ∧ left.IsWritten ∧ right.IsWritten ∧ opType = none
  | .conditional note condition thenBranch elseBranch =>
      note.IsWritten origin ∧ condition.IsWritten ∧ thenBranch.IsWritten ∧ elseBranch.IsWritten
  | .call note name arguments =>
      note.IsWritten origin ∧ origin.isName name ∧ IsWrittenList arguments
  | .decay _ _ => False

def IsWrittenList : List Expr → Prop
  | [] => True
  | expr :: exprs => expr.IsWritten ∧ IsWrittenList exprs

end

/-- The place of a written expression is one of the source. -/
theorem IsWritten.span {origin : Origin} {expr : Expr} (isWritten : expr.IsWritten origin) :
    origin.isSpan expr.span := by
  cases expr with
  | decay => exact isWritten.elim
  | constant | string | sizeofType => exact Note.IsWritten.span isWritten
  | var | unary | addressOf | dereference | step | sizeofExpr | cast | binary | subscript | assign
    | conditional | call => exact Note.IsWritten.span isWritten.1

end Expr

namespace Initializer

mutual

/-- The places and names of the initializer are those of the source. -/
def IsWritten : Initializer → Prop
  | .single loc value => origin.isSpan loc.span ∧ value.IsWritten origin
  | .compound loc items => origin.isSpan loc.span ∧ IsWrittenList items

def IsWrittenList : List Initializer → Prop
  | [] => True
  | item :: items => item.IsWritten ∧ IsWrittenList items

end

end Initializer

/-- The places and names in the declaration of an object are those of the source. -/
structure VarDecl.IsWritten (decl : VarDecl) : Prop where
  span : origin.isSpan decl.loc.span
  name : origin.isName decl.name
  init : ∀ init ∈ decl.init, init.IsWritten origin

/-- Every dimension of an array is positive, down to elements that are no arrays. -/
def CType.HasPositiveDimensions : CType → Prop
  | .array size element => 0 < size ∧ element.HasPositiveDimensions
  | _ => True

/-- The object is declared in the source, with a type that can be written there. -/
structure VarDecl.IsDeclared (decl : VarDecl) : Prop extends decl.IsWritten origin where
  /-- No dimension is zero or negative. -/
  dimensions : decl.type.HasPositiveDimensions

/-- The place and the name of a parameter are those of the source, unless the name is left out. -/
structure Param.IsWritten (param : Param) : Prop where
  span : origin.isSpan param.span
  name : param.name = [] ∨ origin.isName param.name

/-- The places and names in the declaration of a function are those of the source. -/
structure FunDecl.IsWritten (decl : FunDecl) : Prop where
  span : origin.isSpan decl.loc.span
  name : origin.isName decl.name
  params : ∀ param ∈ decl.params, param.IsWritten origin

/-- What holds of the parts of a tree that comes from a source. -/
def Origin.parts : TreePredicate where
  loc loc := origin.isSpan loc.span
  expr := Expr.IsWritten origin
  object _ := VarDecl.IsDeclared origin
  function := FunDecl.IsWritten origin
  label label := label = none
  cases cases := cases = []

/-! ### Parsers -/

/-- The place of a token and, if it is an identifier, its text are those of the source. -/
structure Token.IsFrom (token : Token) : Prop where
  span : origin.isSpan token.span
  /-- The text of an identifier. -/
  name : token.kind = .identifier → origin.isName token.literal

/-- The place of a token joined with those of the tokens behind it. -/
def Token.runSpan (first : Token) (rest : List Token) : Span :=
  (first :: rest).foldl (fun span token => span.through token.span) first.span

/-- The tokens still to be parsed are those of the source. -/
structure ParseState.IsFrom (state : ParseState) : Prop where
  /-- The tokens before the end. -/
  tokens : ∀ token ∈ state.tokens, token.IsFrom origin
  /-- The runs of string literals among them. -/
  runs : ∀ first rest, first :: rest <:+: state.tokens →
    (∀ token ∈ first :: rest, token.kind = .string) → origin.isSpan (first.runSpan rest)
  ending : ∀ token, state.ending = .ok token → token.IsFrom origin
  /-- The end of the input belongs to no run. -/
  notString : ∀ token, state.ending = .ok token → token.kind ≠ .string

/-- Behind a number of nodes, a parser builds a result as wanted and reaches the number it is
wanted with, or fails at a place of the source. -/
def Parser.Writes {α : Type} (parser : Parser ParseState α) (low : Nat)
    (wanted : Nat → α → Prop) : Prop :=
  ∀ state : ParseState, state.IsFrom origin → state.lastId = low →
    Ensures parser state (Failure.IsAt origin.isSpan) fun result after =>
      after.IsFrom origin ∧ wanted after.lastId result

/-- A parser builds no nodes. -/
abbrev Parser.Keeps {α : Type} (parser : Parser ParseState α) (seen : α → Prop) : Prop :=
  ∀ low, parser.Writes origin low fun high result => high = low ∧ seen result

variable {origin}

theorem ParseState.IsFrom.tail {state : ParseState} (isFrom : state.IsFrom origin) :
    ({ state with tokens := state.tokens.tail } : ParseState).IsFrom origin where
  tokens token mem := isFrom.tokens token (List.mem_of_mem_tail mem)
  runs first rest infix' :=
    isFrom.runs first rest (infix'.trans (List.tail_suffix state.tokens).isInfix)
  ending := isFrom.ending
  notString := isFrom.notString

namespace Parser

section Rules

variable {α β : Type} {low : Nat} {parser : Parser ParseState α} {next : α → Parser ParseState β}
  {middle wanted : Nat → α → Prop} {final : Nat → β → Prop} {seen : α → Prop}

theorem Writes.mono {wanted' : Nat → α → Prop} (writes : parser.Writes origin low wanted)
    (weaken : ∀ high result, wanted high result → wanted' high result) :
    parser.Writes origin low wanted' := by
  intro state isFrom atLow
  exact (writes state isFrom atLow).mono fun result after holds =>
    ⟨holds.1, weaken _ result holds.2⟩

theorem Writes.pure {result : α} (holds : wanted low result) :
    Writes origin (Pure.pure result : Parser ParseState α) low wanted := by
  rintro state isFrom rfl
  exact Ensures.pure ⟨isFrom, holds⟩

theorem Writes.bind (first : parser.Writes origin low middle)
    (rest : ∀ result high, middle high result → (next result).Writes origin high final) :
    Writes origin (parser >>= next) low final := by
  intro state isFrom atLow
  refine (first state isFrom atLow).bind ?_
  intro result after holds
  exact rest result _ holds.2 after holds.1 rfl

theorem Writes.throw {failure : Failure} (isAt : failure.IsAt origin.isSpan) :
    Writes origin (MonadExcept.throw failure : Parser ParseState α) low wanted :=
  fun _ _ _ => isAt

theorem Writes.outOfFuel :
    Writes origin (MonadExcept.throw .outOfFuel : Parser ParseState α) low wanted :=
  Writes.throw Failure.isAt_outOfFuel

theorem Writes.fail {span : Span} {error : SyntaxError} (isSpan : origin.isSpan span) :
    Writes origin (fail span error : Parser ParseState α) low wanted :=
  Writes.throw (Failure.isAt_user isSpan)

theorem Writes.fail_bind {span : Span} {error : SyntaxError} (isSpan : origin.isSpan span) :
    Writes origin (Parser.fail span error >>= next) low final :=
  (Writes.fail isSpan : Writes origin _ low fun _ _ => False).bind fun _ _ => False.elim

theorem Writes.ite {condition : Prop} [Decidable condition]
    {whenTrue whenFalse : Parser ParseState α}
    (isTrue : condition → whenTrue.Writes origin low wanted)
    (isFalse : ¬condition → whenFalse.Writes origin low wanted) :
    Writes origin (if condition then whenTrue else whenFalse) low wanted := by
  split
  · exact isTrue ‹_›
  · exact isFalse ‹_›

theorem Keeps.pure {result : α} (holds : seen result) :
    Keeps origin (Pure.pure result : Parser ParseState α) seen :=
  fun _ => Writes.pure ⟨rfl, holds⟩

/-- What is done behind a parser that builds no nodes. -/
theorem Keeps.bind (first : parser.Keeps origin seen)
    (rest : ∀ result, seen result → (next result).Writes origin low final) :
    Writes origin (parser >>= next) low final := by
  refine (first low).bind ?_
  rintro result _ ⟨rfl, holds⟩
  exact rest result holds

/-- A node that is built last. -/
theorem located {span : Span} (build : Loc → α) (holds : wanted (low + 1) (build ⟨low + 1, span⟩)) :
    Writes origin (do Pure.pure (build (← newLoc span))) low wanted := by
  rintro state isFrom rfl
  exact ⟨⟨isFrom.tokens, isFrom.runs, isFrom.ending, isFrom.notString⟩, holds⟩

/-- What is done behind a new note. -/
theorem noted_bind {span : Span} {next : Note → Parser ParseState β}
    (rest : (next (.untyped ⟨low + 1, span⟩)).Writes origin (low + 1) final) :
    Writes origin (newNote span >>= next) low final := by
  have writes : Writes origin (newNote span) low fun high note =>
      high = low + 1 ∧ note = .untyped ⟨low + 1, span⟩ := located Note.untyped ⟨rfl, rfl⟩
  refine writes.bind ?_
  rintro _ _ ⟨rfl, rfl⟩
  exact rest

/-- An expression that is built last. -/
theorem noted {span : Span} (build : Note → α)
    (holds : wanted (low + 1) (build (.untyped ⟨low + 1, span⟩))) :
    Writes origin (do Pure.pure (build (← newNote span))) low wanted :=
  noted_bind (Writes.pure holds)

end Rules

/-! ### Primitives -/

theorem get_keeps : Keeps origin get (ParseState.IsFrom origin) := by
  rintro _ state isFrom rfl
  exact ⟨isFrom, rfl, isFrom⟩

theorem fuel_keeps : fuel.Keeps origin fun _ => True := by
  rintro _ state isFrom rfl
  exact ⟨isFrom, rfl, trivial⟩

theorem ending_keeps {state : ParseState} (isFrom : state.IsFrom origin) :
    (ending state).Keeps origin (Token.IsFrom origin) := by
  intro low
  unfold Parser.ending
  split
  · exact Keeps.pure (isFrom.ending _ ‹_›) low
  · exact Writes.throw Failure.isAt_fault

theorem peekAt_keeps (place : Nat) :
    Keeps origin (TokenSource.peekAt place) (Token.IsFrom origin) := by
  intro low
  refine get_keeps.bind ?_
  intro state isFrom
  split
  · exact Keeps.pure (isFrom.tokens _ (List.mem_of_getElem? ‹_›)) low
  · exact ending_keeps isFrom low

theorem current_keeps : current.Keeps origin (Token.IsFrom origin) := by
  unfold current
  intro low
  refine (peekAt_keeps 0).bind ?_
  intro token isToken
  exact Writes.ite (fun _ => Writes.fail_bind isToken.span) fun _ => Keeps.pure isToken low

/-- The current token is one of the source: the first one left, or the end of the input. -/
theorem current_ensures {state : ParseState} (isFrom : state.IsFrom origin) :
    Ensures current state (Failure.IsAt origin.isSpan) fun token after =>
      after = state ∧ token.IsFrom origin ∧ next? state.ending state.tokens = some token :=
  (current_keeps state.lastId state isFrom rfl).with_run fun _ _ runs kept =>
    have stands := (current_yields state).of_ok runs
    ⟨stands.1, kept.2.2, stands.2⟩

theorem following_keeps : following.Keeps origin fun _ => True := fun low =>
  current_keeps.bind fun _ _ => (peekAt_keeps 1 low).mono fun _ _ holds => ⟨holds.1, trivial⟩

theorem skip_ensures {state : ParseState} (isFrom : state.IsFrom origin) :
    Ensures skip state (Failure.IsAt origin.isSpan) fun _ after =>
      after = { state with tokens := state.tokens.tail } := by
  refine (current_ensures isFrom).bind ?_
  rintro _ _ ⟨rfl, -, -⟩
  exact rfl

theorem skip_keeps : skip.Keeps origin fun _ => True := by
  rintro _ state isFrom rfl
  refine (skip_ensures isFrom).mono ?_
  rintro _ _ rfl
  exact ⟨isFrom.tail, rfl, trivial⟩

theorem currentIs_keeps (kind : TokenKind) : (currentIs kind).Keeps origin fun _ => True := by
  unfold currentIs
  intro low
  exact current_keeps.bind fun _ _ => Keeps.pure trivial low

theorem currentIsMark_keeps (mark : Punctuator) :
    (currentIsMark mark).Keeps origin fun _ => True :=
  currentIs_keeps _

/-- A test that looks ahead builds nothing. -/
theorem currentIsBefore_keeps (kind : TokenKind) (test : TokenKind → Bool) :
    (currentIsBefore kind test).Keeps origin fun _ => True := by
  unfold currentIsBefore
  intro low
  refine (currentIs_keeps kind).bind ?_
  intro _ _
  refine Writes.ite ?_ fun _ => Keeps.pure trivial low
  intro _
  exact following_keeps.bind fun _ _ => Keeps.pure trivial low

theorem expect_keeps (kind : TokenKind) : (expect kind).Keeps origin (Token.IsFrom origin) := by
  unfold expect
  intro low
  refine current_keeps.bind ?_
  intro token isToken
  refine Writes.ite (fun _ => Writes.fail_bind isToken.span) ?_
  intro _
  exact skip_keeps.bind fun _ _ => Keeps.pure isToken low

theorem expectMark_keeps (mark : Punctuator) :
    (expectMark mark).Keeps origin (Token.IsFrom origin) :=
  expect_keeps _

theorem accept_keeps (mark : Punctuator) : (accept mark).Keeps origin fun _ => True := by
  unfold accept
  intro low
  refine (currentIsMark_keeps mark).bind ?_
  intro _ _
  refine Writes.ite ?_ ?_
  · intro _
    exact skip_keeps.bind fun _ _ => Keeps.pure trivial low
  · intro _
    exact Keeps.pure trivial low

end Parser

open SubsetC.Parser (Writes Keeps)

/-! ### Specifiers and declarators -/

namespace Specifiers

theorem note_keeps (storageAllowed : Bool) (seen : Seen) {span : Span} (isSpan : origin.isSpan span)
    (keyword : Keyword) :
    (note storageAllowed seen span keyword).Keeps origin fun _ => True := by
  intro low
  unfold note
  repeat' split
  all_goals first
    | exact Writes.fail isSpan
    | exact Keeps.pure trivial low

theorem collect_keeps (storageAllowed : Bool) : ∀ (fuel : Nat) (seen : Seen),
    (collect storageAllowed fuel seen).Keeps origin fun _ => True
  | 0, _ => fun _ => Writes.outOfFuel
  | fuel + 1, seen => by
      intro low
      rw [collect]
      refine Parser.current_keeps.bind ?_
      intro token isToken
      split
      · refine Writes.ite ?_ fun _ => Keeps.pure trivial low
        intro _
        refine Parser.skip_keeps.bind ?_
        intro _ _
        refine (note_keeps _ _ isToken.span _).bind ?_
        intro seen _
        exact collect_keeps storageAllowed fuel seen low
      · exact Keeps.pure trivial low

theorem dimensions_of_type {keywords : List Keyword} {type : CType}
    (denotes : Specifiers.type keywords = .ok type) : type.HasPositiveDimensions := by
  unfold Specifiers.type at denotes
  repeat' split at denotes
  all_goals
    cases denotes
    try exact True.intro

theorem parse_keeps (storageAllowed : Bool) :
    (parse storageAllowed).Keeps origin fun specifiers =>
      specifiers.base.HasPositiveDimensions := by
  unfold parse
  intro low
  refine Parser.current_keeps.bind ?_
  intro start isStart
  refine Parser.fuel_keeps.bind ?_
  intro fuel _
  refine (collect_keeps _ fuel _).bind ?_
  intro seen _
  refine Writes.ite (fun _ => Writes.fail_bind isStart.span) ?_
  intro _
  dsimp only
  split
  · exact Keeps.pure (dimensions_of_type ‹_›) _
  · exact Writes.fail isStart.span

end Specifiers

mutual

/-- The places and names in a declarator are those of the source, and dimensions are positive. A name
can be left out only where it is optional. -/
def Declarator.IsWritten (origin : Origin) (nameOptional : Bool) : Declarator → Prop
  | .named name span => origin.isName name ∧ origin.isSpan span
  | .abstract => nameOptional
  | .pointer inner | .paren inner => inner.IsWritten origin nameOptional
  | .array inner size => inner.IsWritten origin nameOptional ∧ 0 < size
  | .function inner params span =>
      inner.IsWritten origin nameOptional ∧ ParamDeclarator.AreWritten origin params ∧
        origin.isSpan span

def ParamDeclarator.AreWritten (origin : Origin) : List ParamDeclarator → Prop
  | [] => True
  | .mk _ declarator span :: params =>
      declarator.IsWritten origin true ∧ origin.isSpan span ∧
        ParamDeclarator.AreWritten origin params

end

/-- What a declarator of the source declares. -/
structure Declared.IsWritten (origin : Origin) (nameOptional : Bool) (declared : Declared) :
    Prop where
  /-- It has a name and a place of the source, or the name is left out. -/
  named : origin.isName declared.name ∧ origin.isSpan declared.span ∨
    nameOptional ∧ declared.name = []
  params : ∀ param ∈ declared.params, param.IsWritten origin

namespace Declarator

theorem IsWritten.unparen {nameOptional : Bool} : ∀ {declarator : Declarator},
    declarator.IsWritten origin nameOptional → declarator.unparen.IsWritten origin nameOptional
  | .paren inner, isWritten => by
      rw [IsWritten] at isWritten
      simpa only [Declarator.unparen] using IsWritten.unparen isWritten
  | .named _ _, isWritten | .abstract, isWritten | .pointer _, isWritten | .array _ _, isWritten
  | .function _ _ _, isWritten => isWritten

/-- A declarator declares something of the source, or is wrong at a place of the source. -/
def Resolves {α : Type} (isSpan : Span → Prop) (wanted : α → Prop) :
    Except (Span × SyntaxError) α → Prop
  | .ok result => wanted result
  | .error (span, _) => isSpan span

theorem Resolves.bind {α β : Type} {isSpan : Span → Prop} {middle : α → Prop} {wanted : β → Prop}
    {outcome : Except (Span × SyntaxError) α} {next : α → Except (Span × SyntaxError) β}
    (first : Resolves isSpan middle outcome)
    (rest : ∀ result, middle result → Resolves isSpan wanted (next result)) :
    Resolves isSpan wanted (outcome >>= next) := by
  cases outcome with
  | ok result => exact rest result first
  | error failure => exact first

mutual

theorem resolve_written {nameOptional : Bool} : ∀ (declarator : Declarator) (base : CType),
    declarator.IsWritten origin nameOptional →
      Resolves origin.isSpan (Declared.IsWritten origin nameOptional) (declarator.resolve base)
  | .named name span, base, isWritten => ⟨.inl isWritten, by simp⟩
  | .abstract, base, isWritten => ⟨.inr ⟨isWritten, rfl⟩, by simp⟩
  | .pointer inner, _, isWritten | .paren inner, _, isWritten => resolve_written inner _ isWritten
  | .array inner _, _, isWritten => resolve_written inner _ isWritten.1
  | .function inner params span, base, isWritten => by
      rcases isWritten with ⟨inner', paramsWritten, isSpan⟩
      have applied (name : Text) (nameSpan : Span) (isNameSpan : origin.isSpan nameSpan)
          (named : origin.isName name ∨ nameOptional ∧ name = []) :
          Resolves origin.isSpan (Declared.IsWritten origin nameOptional) (do
            if base.isArray then throw (nameSpan, .arrayResult name)
            let params ← resolveParams params
            pure ⟨name, nameSpan, .function (params.map Param.type) base, params⟩) := by
        split
        · exact isNameSpan
        refine (resolveParams_written params paramsWritten).bind ?_
        intro resolved resolvedWritten
        exact ⟨named.imp (⟨·, isNameSpan⟩) id, resolvedWritten⟩
      have shape := inner'.unparen
      rw [resolve]
      -- The name is looked for behind parentheses; any other shape is refused.
      split
      · rename_i same
        rw [same] at shape
        exact applied _ _ shape.2 (.inl shape.1)
      · rename_i same
        rw [same] at shape
        exact applied _ _ isSpan (.inr ⟨shape, rfl⟩)
      · exact isSpan

theorem resolveParams_written : ∀ params : List ParamDeclarator,
    ParamDeclarator.AreWritten origin params →
      Resolves origin.isSpan (fun resolved => ∀ param ∈ resolved, param.IsWritten origin)
        (resolveParams params)
  | [], _ => by simp [resolveParams, Resolves, pure, Except.pure]
  | .mk base declarator span :: rest, areWritten => by
      rcases areWritten with ⟨isWritten, isSpan, restWritten⟩
      rw [resolveParams]
      refine (resolve_written declarator base isWritten).bind ?_
      intro declared declaredWritten
      have place : origin.isSpan (if declared.name.isEmpty then span else declared.span) := by
        split
        · exact isSpan
        · rename_i isNamed
          rcases declaredWritten.named with named | unnamed
          · exact named.2
          · exact absurd (List.isEmpty_iff.2 unnamed.2) isNamed
      have name : declared.name = [] ∨ origin.isName declared.name := by
        rcases declaredWritten.named with named | unnamed
        · exact .inr named.1
        · exact .inl unnamed.2
      dsimp only
      split
      · exact place
      refine (resolveParams_written rest restWritten).bind ?_
      intro params paramsWritten
      exact List.forall_mem_cons.2 ⟨⟨place, name⟩, paramsWritten⟩

end

/-- A type has the dimensions of its declarator. -/
theorem resolve_dimensions {nameOptional : Bool} : ∀ (declarator : Declarator) (base : CType),
    declarator.IsWritten origin nameOptional → base.HasPositiveDimensions →
      Resolves (fun _ => True) (fun declared : Declared => declared.type.HasPositiveDimensions)
        (declarator.resolve base)
  | .named _ _, _, _, positive | .abstract, _, _, positive => positive
  | .pointer inner, base, isWritten, _ => resolve_dimensions inner (.pointer base) isWritten trivial
  | .paren inner, base, isWritten, positive => by
      refine resolve_dimensions inner _ isWritten ?_
      split
      · exact trivial
      · exact positive
  | .array inner size, base, isWritten, positive =>
      resolve_dimensions inner (.array size base) isWritten.1 ⟨isWritten.2, positive⟩
  | .function inner params span, base, _, _ => by
      have applied (name : Text) (nameSpan : Span) : Resolves (fun _ => True)
          (fun declared : Declared => declared.type.HasPositiveDimensions) (do
            if base.isArray then throw (nameSpan, .arrayResult name)
            let params ← resolveParams params
            pure ⟨name, nameSpan, .function (params.map Param.type) base, params⟩) := by
        split
        · exact trivial
        · cases resolveParams params <;> exact trivial
      rw [resolve]
      split
      · exact applied _ _
      · exact applied _ _
      · exact trivial

theorem declare_keeps {nameOptional : Bool} {declarator : Declarator}
    (isWritten : declarator.IsWritten origin nameOptional) {base : CType}
    (positive : base.HasPositiveDimensions) :
    (declarator.declare base).Keeps origin fun declared =>
      declared.IsWritten origin nameOptional ∧ declared.type.HasPositiveDimensions := by
  intro low
  have resolves := resolve_written declarator base isWritten
  have dimensions := resolve_dimensions declarator base isWritten positive
  unfold declare
  split
  · rename_i declared same
    rw [same] at resolves dimensions
    exact Keeps.pure ⟨resolves, dimensions⟩ low
  · rename_i span error same
    rw [same] at resolves
    exact Writes.fail resolves

theorem dimension_keeps : dimension.Keeps origin fun size => 0 < size := by
  unfold dimension
  intro low
  refine (Parser.expectMark_keeps _).bind ?_
  intro _ _
  refine Parser.current_keeps.bind ?_
  intro token isToken
  have sized (size : Int) : Writes origin (do
      if size ≤ 0 then Parser.fail token.span .dimensionNotPositive
      let _ ← Parser.expectMark .rightBracket
      pure size) low fun high size => high = low ∧ 0 < size := by
    refine Writes.ite (fun _ => Writes.fail_bind isToken.span) ?_
    intro positive
    exact (Parser.expectMark_keeps _).bind fun _ _ => Keeps.pure (Int.not_le.1 positive) low
  dsimp only
  split
  · refine Parser.skip_keeps.bind ?_
    intro _ _
    split
    · exact sized _
    · exact Writes.fail_bind isToken.span
  all_goals exact Writes.fail_bind isToken.span

theorem opensParams_keeps (nameOptional : Bool) :
    (opensParams nameOptional).Keeps origin fun opens => opens = true → nameOptional = true := by
  unfold opensParams
  intro low
  refine Writes.ite ?_ ?_
  · intro isOptional
    exact Parser.following_keeps.bind fun _ _ => Keeps.pure (fun _ => isOptional) low
  · intro _
    exact Keeps.pure nofun low

mutual

theorem parseWith_keeps : ∀ (fuel : Nat) (nameOptional : Bool),
    (parseWith fuel nameOptional).Keeps origin (IsWritten origin nameOptional)
  | 0, _ => fun _ => Writes.outOfFuel
  | fuel + 1, nameOptional => by
      intro low
      rw [parseWith]
      refine (Parser.accept_keeps _).bind ?_
      intro _ _
      refine Writes.ite ?_ ?_
      · intro _
        refine (parseWith_keeps fuel nameOptional).bind ?_
        intro inner isWritten
        exact Keeps.pure isWritten low
      · intro _
        refine Parser.current_keeps.bind ?_
        intro token isToken
        split
        · refine Parser.skip_keeps.bind ?_
          intro _ _
          have isWritten : IsWritten origin nameOptional (.named token.literal token.span) :=
            ⟨isToken.name ‹_›, isToken.span⟩
          exact suffixes_keeps fuel _ isWritten low
        · refine (opensParams_keeps _).bind ?_
          intro _ opens
          refine Writes.ite ?_ ?_
          · intro isOpen
            exact suffixes_keeps fuel .abstract (opens isOpen) low
          · intro _
            refine Parser.skip_keeps.bind ?_
            intro _ _
            refine (parseWith_keeps fuel nameOptional).bind ?_
            intro inner isWritten
            refine (Parser.expectMark_keeps _).bind ?_
            intro _ _
            exact suffixes_keeps fuel (.paren inner) isWritten low
        · refine Writes.ite ?_ ?_
          · intro isOptional
            exact suffixes_keeps fuel .abstract isOptional low
          · intro _
            exact Writes.fail isToken.span

theorem suffixes_keeps {nameOptional : Bool} : ∀ (fuel : Nat) (declarator : Declarator),
    declarator.IsWritten origin nameOptional →
      (suffixes fuel declarator).Keeps origin (IsWritten origin nameOptional)
  | 0, _, _ => fun _ => Writes.outOfFuel
  | fuel + 1, declarator, isWritten => by
      intro low
      rw [suffixes]
      refine Parser.current_keeps.bind ?_
      intro token isToken
      split
      · refine dimension_keeps.bind ?_
        intro size positive
        exact suffixes_keeps fuel (.array declarator size) ⟨isWritten, positive⟩ low
      · refine (params_keeps fuel).bind ?_
        intro params areWritten
        exact suffixes_keeps fuel (.function declarator params token.span)
          ⟨isWritten, areWritten, isToken.span⟩ low
      · exact Keeps.pure isWritten low

theorem params_keeps : ∀ fuel : Nat, (params fuel).Keeps origin (ParamDeclarator.AreWritten origin)
  | 0 => fun _ => Writes.outOfFuel
  | fuel + 1 => by
      intro low
      rw [params]
      refine (Parser.expectMark_keeps _).bind ?_
      intro _ _
      refine (Parser.accept_keeps _).bind ?_
      intro _ _
      refine Writes.ite ?_ ?_
      · intro _
        exact Keeps.pure trivial low
      · intro _
        refine (Parser.currentIsBefore_keeps _ _).bind ?_
        intro _ _
        refine Writes.ite ?_ ?_
        · intro _
          exact Parser.skip_keeps.bind fun _ _ => Parser.skip_keeps.bind fun _ _ =>
            Keeps.pure trivial low
        · intro _
          refine (paramList_keeps fuel).bind ?_
          intro params areWritten
          exact (Parser.expectMark_keeps _).bind fun _ _ => Keeps.pure areWritten low

theorem paramList_keeps : ∀ fuel : Nat,
    (paramList fuel).Keeps origin (ParamDeclarator.AreWritten origin)
  | 0 => fun _ => Writes.outOfFuel
  | fuel + 1 => by
      intro low
      rw [paramList]
      refine Parser.current_keeps.bind ?_
      intro start isStart
      refine (Specifiers.parse_keeps _).bind ?_
      intro specifiers _
      refine (parseWith_keeps fuel true).bind ?_
      intro declarator isWritten
      refine (Parser.accept_keeps _).bind ?_
      intro _ _
      refine Writes.ite ?_ ?_
      · intro _
        refine (paramList_keeps fuel).bind ?_
        intro params areWritten
        exact Keeps.pure ⟨isWritten, isStart.span, areWritten⟩ low
      · intro _
        exact Keeps.pure ⟨isWritten, isStart.span, trivial⟩ low

end

theorem parse_keeps : parse.Keeps origin (IsWritten origin false) :=
  fun low => Parser.fuel_keeps.bind fun fuel _ => parseWith_keeps fuel false low

theorem dimensions_keeps : ∀ (fuel : Nat) (declarator : Declarator),
    declarator.IsWritten origin true →
      (dimensions fuel declarator).Keeps origin (IsWritten origin true)
  | 0, _, _ => fun _ => Writes.outOfFuel
  | fuel + 1, declarator, isWritten => by
      intro low
      rw [dimensions]
      refine (Parser.currentIsMark_keeps _).bind ?_
      intro _ _
      refine Writes.ite ?_ ?_
      · intro _
        refine dimension_keeps.bind ?_
        intro size positive
        exact dimensions_keeps fuel (.array declarator size) ⟨isWritten, positive⟩ low
      · intro _
        exact Keeps.pure isWritten low

theorem parseAbstractWith_keeps : ∀ fuel : Nat,
    (parseAbstractWith fuel).Keeps origin (IsWritten origin true)
  | 0 => fun _ => Writes.outOfFuel
  | fuel + 1 => by
      intro low
      rw [parseAbstractWith]
      refine Parser.current_keeps.bind ?_
      intro token isToken
      split
      · refine Parser.skip_keeps.bind ?_
        intro _ _
        refine (parseAbstractWith_keeps fuel).bind ?_
        intro inner isWritten
        exact Keeps.pure isWritten low
      · refine Parser.skip_keeps.bind ?_
        intro _ _
        refine (parseAbstractWith_keeps fuel).bind ?_
        intro inner isWritten
        dsimp only
        split
        · exact Writes.fail_bind isToken.span
        · refine (Parser.expectMark_keeps _).bind ?_
          intro _ _
          exact dimensions_keeps fuel _ isWritten low
      · exact dimensions_keeps fuel .abstract rfl low

theorem parseTypeName_keeps : parseTypeName.Keeps origin fun _ => True := by
  unfold parseTypeName
  intro low
  refine (Specifiers.parse_keeps _).bind ?_
  intro specifiers positive
  refine Parser.fuel_keeps.bind ?_
  intro fuel _
  refine (parseAbstractWith_keeps fuel).bind ?_
  intro declarator isWritten
  exact (declare_keeps isWritten positive).bind fun _ _ => Keeps.pure trivial low

end Declarator

end SubsetC
