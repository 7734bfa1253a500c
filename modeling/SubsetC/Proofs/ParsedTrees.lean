import SubsetC.Proofs.WrittenTrees

/-!
# Places and numbers of parsed trees

The parsers for expressions, initializers, statements and declarations write trees whose places and
names are those of the tokens, and whose nodes are numbered one after the other. The main statement
is `Program.written_of_ofLexed`.
-/

namespace SubsetC

open SubsetC.Parser (Writes Keeps)

variable {origin : Origin} {low middle high : Nat}

theorem Note.isWritten_untyped {span : Span} (isSpan : origin.isSpan span) (id : Nat) :
    (Note.untyped ⟨id, span⟩).IsWritten origin :=
  ⟨isSpan, rfl⟩

/-! ### Expressions -/

namespace Expr

/-- The expression is one of the source, and its nodes have the numbers behind one number through
another. -/
structure Written (origin : Origin) (low high : Nat) (expr : Expr) : Prop where
  /-- It is one of the source. -/
  isWritten : expr.IsWritten origin
  /-- Its nodes are numbered. -/
  numbers : Numbers low high expr.ids

/-- The optional expression is one of the source, and its nodes are numbered. -/
structure WrittenOption (origin : Origin) (low high : Nat) (value : Option Expr) : Prop where
  /-- It is one of the source. -/
  isWritten : ∀ expr ∈ value, expr.IsWritten origin
  /-- Its nodes are numbered. -/
  numbers : Numbers low high (idsOption value)

/-- The expressions are those of the source, and their nodes are numbered. -/
structure WrittenList (origin : Origin) (low high : Nat) (exprs : List Expr) : Prop where
  /-- They are those of the source. -/
  isWritten : IsWrittenList origin exprs
  /-- Their nodes are numbered. -/
  numbers : Numbers low high (idsList exprs)

theorem WrittenList.nil : WrittenList origin low low [] := ⟨trivial, .nil⟩

theorem WrittenList.cons {expr : Expr} {exprs : List Expr} (first : Written origin low middle expr)
    (rest : WrittenList origin middle high exprs) : WrittenList origin low high (expr :: exprs) :=
  ⟨⟨first.isWritten, rest.isWritten⟩, first.numbers.append rest.numbers⟩

theorem parenTypeName_keeps : parenTypeName.Keeps origin fun _ => True := by
  unfold parenTypeName
  intro low
  refine Parser.skip_keeps.bind ?_
  intro _ _
  refine Declarator.parseTypeName_keeps.bind ?_
  intro _ _
  exact (Parser.expectMark_keeps _).bind fun _ _ => Keeps.pure trivial low

/-- A leaf that is built last. -/
theorem leaf_writes {span : Span} (isSpan : origin.isSpan span) (build : Note → Expr)
    (isWritten : ∀ note, note.IsWritten origin → (build note).IsWritten origin)
    (ids : ∀ note, (build note).ids = [note.loc.id]) :
    Writes origin (do pure (build (← Parser.newNote span))) low (Written origin low) := by
  refine Parser.noted build ⟨isWritten _ (Note.isWritten_untyped isSpan _), ?_⟩
  rw [ids]
  exact .one

/-- A run of string literals so far, the first of which is a given token, with its place. -/
structure StringsRead (start : ParseState) (first : Token) (span : Span) (state : ParseState) :
    Prop where
  /-- The literals so far are the tokens in front of what is left. -/
  split : ∃ run, start.tokens = run ++ state.tokens ∧ (∀ token ∈ run, token.kind = .string) ∧
    span = run.foldl (fun span token => span.through token.span) first.span
  isFirst : ∀ token rest, start.tokens = token :: rest → first = token

/-- The place of a run of string literals is one of the source. -/
theorem StringsRead.isSpan {start state : ParseState} {first : Token} {span : Span}
    (areRead : StringsRead start first span state) (isFrom : start.IsFrom origin)
    (isToken : first.IsFrom origin) : origin.isSpan span := by
  rcases areRead.split with ⟨_ | ⟨token, run⟩, split, areStrings, rfl⟩
  · exact isToken.span
  · rw [areRead.isFirst token (run ++ state.tokens) split]
    exact isFrom.runs token run ⟨[], state.tokens, split.symm⟩ areStrings

/-- One more literal is read. -/
theorem StringsRead.snoc {start : ParseState} {first token : Token} {span : Span}
    {rest : List Token} {ending : Except Lexer.Overrun Token} {lastId : Nat}
    (areRead : StringsRead start first span ⟨token :: rest, ending, lastId⟩)
    (isString : token.kind = .string) :
    StringsRead start first (span.through token.span) ⟨rest, ending, lastId⟩ := by
  rcases areRead.split with ⟨run, split, areStrings, rfl⟩
  refine ⟨⟨run ++ [token], by simpa using split, ?_, by rw [List.foldl_concat]⟩, areRead.isFirst⟩
  exact List.forall_mem_append.2 ⟨areStrings, List.forall_mem_singleton.2 isString⟩

theorem stringRun_ensures {start : ParseState} {first : Token} :
    ∀ (fuel : Nat) {state : ParseState} (seen : Span × Text), state.IsFrom origin →
      StringsRead start first seen.1 state →
      Ensures (stringRun fuel seen) state (Failure.IsAt origin.isSpan) fun found after =>
        after.IsFrom origin ∧ after.lastId = state.lastId ∧ StringsRead start first found.1 after
  | 0, _, _, _, _ => Ensures.throw Failure.isAt_outOfFuel
  | fuel + 1, ⟨tokens, ending, lastId⟩, seen, isFrom, areRead => by
      rw [stringRun]
      refine (Parser.current_ensures isFrom).bind ?_
      rintro token _ ⟨rfl, isToken, isNext⟩
      refine Ensures.ite ?_ fun _ => Ensures.pure ⟨isFrom, rfl, areRead⟩
      intro isString
      cases tokens with
      | nil =>
          cases ending with
          | error overrun => cases isNext
          | ok ending =>
              cases isNext
              exact absurd isString (isFrom.notString token rfl)
      | cons other rest =>
          cases isNext
          refine (Parser.skip_ensures isFrom).bind ?_
          rintro _ _ rfl
          exact stringRun_ensures fuel _ isFrom.tail (areRead.snoc isString)

/-- String literals next to each other stand for one expression, at the place of them all. -/
theorem strings_writes : strings.Writes origin low (Written origin low) := by
  rintro state isFrom rfl
  unfold strings
  refine (Parser.current_ensures isFrom).bind ?_
  rintro first state ⟨rfl, isToken, isNext⟩
  refine Ensures.bind_ok (rfl : (Parser.fuel : Parser ParseState Nat).run _ = .ok (_, _)) ?_
  have areRead : StringsRead state first first.span state := by
    refine ⟨⟨[], rfl, by simp, rfl⟩, fun token rest same => ?_⟩
    rw [same] at isNext
    exact (Option.some.inj isNext).symm
  refine (stringRun_ensures _ (first.span, []) isFrom areRead).bind ?_
  rintro ⟨span, bytes⟩ after ⟨isFrom', sameId, areRead⟩
  dsimp only
  rw [← sameId]
  exact leaf_writes (areRead.isSpan isFrom isToken) (fun note => .string note bytes)
    (fun _ isWritten => isWritten) (fun _ => rfl) after isFrom' rfl

mutual

theorem parseWith_writes : ∀ (fuel level : Nat) {low : Nat},
    (parseWith fuel level).Writes origin low (Written origin low)
  | 0, _, _ => Writes.outOfFuel
  | fuel + 1, level, low => by
      rw [parseWith]
      refine (operand_writes fuel).bind ?_
      intro left middle written
      exact continuations_writes fuel level left written

theorem continuations_writes : ∀ (fuel level : Nat) (left : Expr) {low middle : Nat},
    Written origin low middle left →
      (continuations fuel level left).Writes origin middle (Written origin low)
  | 0, _, _, _, _, _ => Writes.outOfFuel
  | fuel + 1, level, left, low, middle, leftWritten => by
      rw [continuations]
      refine Parser.current_keeps.bind ?_
      intro token isToken
      split
      · exact Writes.pure leftWritten
      refine Writes.ite (fun _ => Writes.pure leftWritten) ?_
      intro _
      refine Parser.skip_keeps.bind ?_
      intro _ _
      split
      · refine (parseWith_writes fuel _).bind ?_
        intro right after rightWritten
        refine Parser.noted_bind ?_
        refine continuations_writes fuel level _ ⟨⟨Note.isWritten_untyped isToken.span _,
          leftWritten.isWritten, rightWritten.isWritten, rfl⟩, ?_⟩
        exact (leftWritten.numbers.append rightWritten.numbers).snoc
      · refine (parseWith_writes fuel _).bind ?_
        intro thenBranch after thenWritten
        refine (Parser.expectMark_keeps _).bind ?_
        intro _ _
        refine (parseWith_writes fuel _).bind ?_
        intro elseBranch last elseWritten
        refine Parser.noted_bind ?_
        refine continuations_writes fuel level _ ⟨⟨Note.isWritten_untyped isToken.span _,
          leftWritten.isWritten, thenWritten.isWritten, elseWritten.isWritten⟩, ?_⟩
        exact ((leftWritten.numbers.append thenWritten.numbers).append elseWritten.numbers).snoc
      · refine (parseWith_writes fuel _).bind ?_
        intro right after rightWritten
        refine Parser.noted_bind ?_
        refine continuations_writes fuel level _ ⟨⟨Note.isWritten_untyped isToken.span _,
          leftWritten.isWritten, rightWritten.isWritten⟩, ?_⟩
        exact (leftWritten.numbers.append rightWritten.numbers).snoc

theorem operand_writes : ∀ (fuel : Nat) {low : Nat},
    (operand fuel).Writes origin low (Written origin low)
  | 0, _ => Writes.outOfFuel
  | fuel + 1, low => by
      have inner {span : Span} (isSpan : origin.isSpan span) (build : Note → Expr → Expr)
          (isWritten : ∀ note expr, note.IsWritten origin → expr.IsWritten origin →
            (build note expr).IsWritten origin)
          (ids : ∀ note expr, (build note expr).ids = expr.ids ++ [note.loc.id]) :
          Writes origin (do
            let inner ← operand fuel
            pure (build (← Parser.newNote span) inner)) low (Written origin low) := by
        refine (operand_writes fuel).bind ?_
        intro expr middle written
        refine Parser.noted (fun note => build note expr)
          ⟨isWritten _ _ (Note.isWritten_untyped isSpan _) written.isWritten, ?_⟩
        rw [ids]
        exact written.numbers.snoc
      have suffixed : Writes origin (do trailing fuel (← atom fuel)) low (Written origin low) :=
        (atom_writes fuel).bind fun expr _ written => trailing_writes fuel expr written
      rw [operand]
      refine Parser.current_keeps.bind ?_
      intro token isToken
      split
      -- a dereference
      · refine Parser.skip_keeps.bind ?_
        intro _ _
        exact inner isToken.span .dereference (fun _ _ => And.intro) fun _ _ => rfl
      -- an address
      · refine Parser.skip_keeps.bind ?_
        intro _ _
        exact inner isToken.span .addressOf (fun _ _ => And.intro) fun _ _ => rfl
      -- sizeof
      · refine Parser.skip_keeps.bind ?_
        intro _ _
        refine (Parser.currentIsBefore_keeps _ _).bind ?_
        intro _ _
        refine Writes.ite ?_ ?_
        · intro _
          refine parenTypeName_keeps.bind ?_
          intro type _
          exact leaf_writes isToken.span (fun note => .sizeofType note type)
            (fun _ isWritten => isWritten) fun _ => rfl
        · intro _
          exact inner isToken.span .sizeofExpr (fun _ _ => And.intro) fun _ _ => rfl
      -- a parenthesis, perhaps of a cast
      · refine (Parser.currentIsBefore_keeps _ _).bind ?_
        intro _ _
        refine Writes.ite ?_ fun _ => suffixed
        intro _
        refine parenTypeName_keeps.bind ?_
        intro target _
        exact inner isToken.span (fun note expr => .cast note target expr false)
          (fun _ _ isNote isExpr => ⟨isNote, isExpr, rfl⟩) fun _ _ => rfl
      -- any other token
      · split
        · refine Parser.skip_keeps.bind ?_
          intro _ _
          exact inner isToken.span (fun note expr => .unary note _ expr)
            (fun _ _ => And.intro) fun _ _ => rfl
        · refine Parser.skip_keeps.bind ?_
          intro _ _
          exact inner isToken.span (fun note expr => .step note .before _ expr)
            (fun _ _ => And.intro) fun _ _ => rfl
        · exact suffixed

theorem trailing_writes : ∀ (fuel : Nat) (operand : Expr) {low middle : Nat},
    Written origin low middle operand →
      (trailing fuel operand).Writes origin middle (Written origin low)
  | 0, _, _, _, _ => Writes.outOfFuel
  | fuel + 1, operand, low, middle, written => by
      rw [trailing]
      refine Parser.current_keeps.bind ?_
      intro token isToken
      split
      · refine Parser.skip_keeps.bind ?_
        intro _ _
        refine (parseWith_writes fuel 0).bind ?_
        intro index after indexWritten
        refine (Parser.expectMark_keeps _).bind ?_
        intro _ _
        refine Parser.noted_bind ?_
        refine trailing_writes fuel _ ⟨⟨Note.isWritten_untyped isToken.span _,
          written.isWritten, indexWritten.isWritten⟩, ?_⟩
        exact (written.numbers.append indexWritten.numbers).snoc
      · split
        · refine Parser.skip_keeps.bind ?_
          intro _ _
          refine Parser.noted_bind ?_
          exact trailing_writes fuel _ ⟨⟨Note.isWritten_untyped isToken.span _,
            written.isWritten⟩, written.numbers.snoc⟩
        · exact Writes.pure written

theorem atom_writes : ∀ (fuel : Nat) {low : Nat}, (atom fuel).Writes origin low (Written origin low)
  | 0, _ => Writes.outOfFuel
  | fuel + 1, low => by
      rw [atom]
      refine Parser.current_keeps.bind ?_
      intro token isToken
      have constant (value : Const) : Writes origin (do
          pure (.constant (← Parser.newNote token.span) value)) low (Written origin low) :=
        leaf_writes isToken.span (fun note => .constant note value) (fun _ isWritten => isWritten)
          fun _ => rfl
      split
      -- an integer literal
      · refine Parser.skip_keeps.bind ?_
        intro _ _
        split
        · exact constant _
        · exact Writes.fail isToken.span
      -- a floating literal
      · exact Parser.skip_keeps.bind fun _ _ => constant _
      -- a character literal
      · exact Parser.skip_keeps.bind fun _ _ => constant _
      -- string literals
      · exact strings_writes
      -- a name, perhaps of a call
      · have isName := isToken.name ‹_›
        have call (arguments : List Expr) {middle : Nat}
            (written : WrittenList origin low middle arguments) : Writes origin (do
              let _ ← Parser.expectMark .rightParen
              pure (.call (← Parser.newNote token.span) token.literal arguments)) middle
              (Written origin low) := by
          refine (Parser.expectMark_keeps _).bind ?_
          intro _ _
          exact Parser.noted (fun note => Expr.call note token.literal arguments)
            ⟨⟨Note.isWritten_untyped isToken.span _, isName, written.isWritten⟩,
              written.numbers.snoc⟩
        refine Parser.skip_keeps.bind ?_
        intro _ _
        refine (Parser.accept_keeps _).bind ?_
        intro _ _
        refine Writes.ite ?_ ?_
        · intro _
          refine (Parser.currentIsMark_keeps _).bind ?_
          intro none _
          refine Writes.ite ?_ ?_
          · intro _
            exact call [] .nil
          · intro _
            refine (arguments_writes fuel).bind ?_
            intro arguments middle written
            exact call arguments written
        · intro _
          exact leaf_writes isToken.span (fun note => .var note token.literal)
            (fun _ isWritten => ⟨isWritten, isName⟩) fun _ => rfl
      -- a parenthesis
      · refine Parser.skip_keeps.bind ?_
        intro _ _
        refine (parseWith_writes fuel 0).bind ?_
        intro inner middle written
        exact (Parser.expectMark_keeps _).bind fun _ _ => Writes.pure written
      -- no expression
      · exact Writes.fail isToken.span

theorem arguments_writes : ∀ (fuel : Nat) {low : Nat},
    (arguments fuel).Writes origin low (WrittenList origin low)
  | 0, _ => Writes.outOfFuel
  | fuel + 1, low => by
      rw [arguments]
      refine (parseWith_writes fuel 0).bind ?_
      intro argument middle written
      refine (Parser.accept_keeps _).bind ?_
      intro _ _
      refine Writes.ite ?_ ?_
      · intro _
        refine (arguments_writes fuel).bind ?_
        intro arguments high restWritten
        exact Writes.pure (.cons written restWritten)
      · intro _
        exact Writes.pure (.cons written .nil)

end

theorem parse_writes : parse.Writes origin low (Written origin low) :=
  Parser.fuel_keeps.bind fun fuel _ => parseWith_writes fuel 0

theorem parseUnless_writes (mark : Punctuator) :
    (parseUnless mark).Writes origin low (WrittenOption origin low) := by
  unfold parseUnless
  refine (Parser.currentIsMark_keeps mark).bind ?_
  intro _ _
  refine Writes.ite ?_ ?_
  · intro _
    exact Writes.pure ⟨nofun, .nil⟩
  · intro _
    refine parse_writes.bind ?_
    intro expr middle written
    refine Writes.pure ⟨?_, written.numbers⟩
    rintro _ ⟨⟩
    exact written.isWritten

theorem parseParenthesized_writes : parseParenthesized.Writes origin low (Written origin low) := by
  unfold parseParenthesized
  refine (Parser.expectMark_keeps _).bind ?_
  intro _ _
  refine parse_writes.bind ?_
  intro expr middle written
  exact (Parser.expectMark_keeps _).bind fun _ _ => Writes.pure written

end Expr

/-! ### Objects -/

namespace Initializer

/-- The initializer is one of the source, and its nodes are numbered. -/
structure Written (origin : Origin) (low high : Nat) (init : Initializer) : Prop where
  /-- It is one of the source. -/
  isWritten : init.IsWritten origin
  /-- Its nodes are numbered. -/
  numbers : Numbers low high init.ids

/-- The initializers are those of the source, and their nodes are numbered. -/
structure WrittenList (origin : Origin) (low high : Nat) (items : List Initializer) : Prop where
  /-- They are those of the source. -/
  isWritten : IsWrittenList origin items
  /-- Their nodes are numbered. -/
  numbers : Numbers low high (idsList items)

theorem WrittenList.nil : WrittenList origin low low [] := ⟨trivial, .nil⟩

theorem WrittenList.cons {item : Initializer} {items : List Initializer}
    (first : Written origin low middle item) (rest : WrittenList origin middle high items) :
    WrittenList origin low high (item :: items) :=
  ⟨⟨first.isWritten, rest.isWritten⟩, first.numbers.append rest.numbers⟩

mutual

theorem parseWith_writes : ∀ (fuel : Nat) {low : Nat},
    (parseWith fuel).Writes origin low (Written origin low)
  | 0, _ => Writes.outOfFuel
  | fuel + 1, low => by
      rw [parseWith]
      refine Parser.current_keeps.bind ?_
      intro token isToken
      refine Writes.ite ?_ ?_
      · intro _
        refine Parser.skip_keeps.bind ?_
        intro _ _
        refine Parser.current_keeps.bind ?_
        intro first isFirst
        refine Writes.ite (fun _ => Writes.fail_bind isFirst.span) ?_
        intro _
        refine (itemsWith_writes fuel).bind ?_
        intro items middle written
        refine (Parser.expectMark_keeps _).bind ?_
        intro _ _
        exact Parser.located (fun loc => Initializer.compound loc items)
          ⟨⟨isToken.span, written.isWritten⟩, written.numbers.snoc⟩
      · intro _
        refine Expr.parse_writes.bind ?_
        intro value middle written
        exact Parser.located (fun loc => Initializer.single loc value)
          ⟨⟨written.isWritten.span, written.isWritten⟩, written.numbers.snoc⟩

theorem itemsWith_writes : ∀ (fuel : Nat) {low : Nat},
    (itemsWith fuel).Writes origin low (WrittenList origin low)
  | 0, _ => Writes.outOfFuel
  | fuel + 1, low => by
      rw [itemsWith]
      refine (parseWith_writes fuel).bind ?_
      intro item middle written
      refine (Parser.accept_keeps _).bind ?_
      intro _ _
      refine Writes.ite ?_ fun _ => Writes.pure (.cons written .nil)
      intro _
      refine (Parser.currentIsMark_keeps _).bind ?_
      intro _ _
      refine Writes.ite (fun _ => Writes.pure (.cons written .nil)) ?_
      intro _
      refine (itemsWith_writes fuel).bind ?_
      intro items high restWritten
      exact Writes.pure (.cons written restWritten)

end

theorem parse_writes : parse.Writes origin low (Written origin low) :=
  Parser.fuel_keeps.bind fun fuel _ => parseWith_writes fuel

end Initializer

namespace Declared

/-- What is declared with a name has a place of the source. -/
theorem IsWritten.isName {declared : Declared} (isWritten : declared.IsWritten origin false) :
    origin.isName declared.name ∧ origin.isSpan declared.span :=
  isWritten.named.resolve_right fun unnamed => Bool.noConfusion unnamed.1

theorem requireNames_keeps {declared : Declared} (isWritten : declared.IsWritten origin false) :
    declared.requireNames.Keeps origin fun _ => True := by
  unfold requireNames
  have params := isWritten.params
  revert params
  generalize declared.params = params
  intro params
  induction ‹List Param› with
  | nil => exact Keeps.pure trivial
  | cons param rest ih =>
      intro low
      rw [List.forall_mem_cons] at params
      have named : Writes origin (do
          if param.name.isEmpty then
            Parser.fail param.span (.parameterNameOmitted declared.name)) low
          fun high _ => high = low ∧ True :=
        Writes.ite (fun _ => Writes.fail params.1.span) fun _ => Writes.pure ⟨rfl, trivial⟩
      refine named.bind ?_
      rintro _ _ ⟨rfl, -⟩
      exact ih params.2 _

theorem opensBody_keeps (isFirst : Bool) : (opensBody isFirst).Keeps origin fun _ => True := by
  unfold opensBody
  intro low
  exact Writes.ite (fun _ => Parser.currentIsMark_keeps _ low) fun _ => Keeps.pure trivial low

end Declared

namespace VarDecl

/-- The declaration is one of the source, and its nodes are numbered. -/
structure Written (origin : Origin) (low high : Nat) (decl : VarDecl) : Prop where
  /-- It is one of the source. -/
  isWritten : decl.IsDeclared origin
  /-- Its nodes are numbered. -/
  numbers : Numbers low high decl.ids

/-- The declarations are those of the source, and their nodes are numbered. -/
structure WrittenList (origin : Origin) (low high : Nat) (decls : List VarDecl) : Prop where
  /-- They are those of the source. -/
  isWritten : ∀ decl ∈ decls, decl.IsDeclared origin
  /-- Their nodes are numbered. -/
  numbers : Numbers low high (idsList decls)

theorem WrittenList.nil : WrittenList origin low low [] := ⟨nofun, .nil⟩

theorem WrittenList.cons {decl : VarDecl} {decls : List VarDecl}
    (first : Written origin low middle decl) (rest : WrittenList origin middle high decls) :
    WrittenList origin low high (decl :: decls) :=
  ⟨List.forall_mem_cons.2 ⟨first.isWritten, rest.isWritten⟩, first.numbers.append rest.numbers⟩

theorem parseRest_writes {declared : Declared} (isWritten : declared.IsWritten origin false)
    (dimensions : declared.type.HasPositiveDimensions) (storageClass : Option StorageClass) :
    (parseRest declared storageClass).Writes origin low (Written origin low) := by
  unfold parseRest
  refine (Parser.accept_keeps _).bind ?_
  intro _ _
  have build (init : Option Initializer) {middle : Nat}
      (initWritten : ∀ value ∈ init, value.IsWritten origin)
      (numbers : Numbers low middle (init.elim [] Initializer.ids)) : Writes origin (do
        pure (VarDecl.mk (← Parser.newLoc declared.span) declared.name declared.type storageClass
          init)) middle (Written origin low) := by
    refine Parser.located (fun loc => VarDecl.mk loc declared.name declared.type storageClass init)
      ⟨⟨⟨isWritten.isName.2, isWritten.isName.1, initWritten⟩, dimensions⟩, ?_⟩
    cases init <;> exact numbers.snoc
  refine Writes.ite ?_ fun _ => build none nofun .nil
  intro _
  refine Initializer.parse_writes.bind ?_
  intro init middle written
  refine build (some init) ?_ written.numbers
  rintro _ ⟨⟩
  exact written.isWritten

theorem parseListWith_writes {specifiers : Specifiers}
    (positive : specifiers.base.HasPositiveDimensions) : ∀ (fuel : Nat) {low : Nat},
    (parseListWith specifiers fuel).Writes origin low (WrittenList origin low)
  | 0, _ => Writes.outOfFuel
  | fuel + 1, low => by
      rw [parseListWith]
      refine Declarator.parse_keeps.bind ?_
      intro declarator isDeclarator
      refine (Declarator.declare_keeps isDeclarator positive).bind ?_
      rintro declared ⟨isWritten, dimensions⟩
      refine Writes.ite (fun _ => Writes.fail_bind isWritten.isName.2) ?_
      intro _
      refine (parseRest_writes isWritten dimensions _).bind ?_
      intro decl middle written
      refine (Parser.accept_keeps _).bind ?_
      intro _ _
      refine Writes.ite ?_ ?_
      · intro _
        refine (parseListWith_writes positive fuel).bind ?_
        intro decls high restWritten
        exact Writes.pure (.cons written restWritten)
      · intro _
        exact (Parser.expectMark_keeps _).bind fun _ _ => Writes.pure (.cons written .nil)

end VarDecl

/-! ### Statements and declarations -/

/-- The parts of a statement are those of the source, and its nodes are numbered. -/
structure Stmt.Written (origin : Origin) (low high : Nat) (stmt : Stmt) : Prop where
  /-- Its parts are those of the source. -/
  isWritten : stmt.Forall origin.parts
  /-- Its nodes are numbered. -/
  numbers : Numbers low high stmt.ids

/-- The parts of a block are those of the source, and its nodes are numbered. -/
structure Item.WrittenList (origin : Origin) (low high : Nat) (items : List Item) : Prop where
  /-- Its parts are those of the source. -/
  isWritten : Item.ForallList origin.parts items
  /-- Its nodes are numbered. -/
  numbers : Numbers low high (Item.idsList items)

/-- The parts of declarations are those of the source, at file scope and in a block, and their
nodes are numbered. -/
structure Decl.WrittenList (origin : Origin) (low high : Nat) (decls : List Decl) : Prop where
  /-- Their parts are those of the source. -/
  isWritten : ∀ decl ∈ decls, ∀ isFile, decl.Forall origin.parts isFile
  /-- Their nodes are numbered. -/
  numbers : Numbers low high (decls.flatMap Decl.ids)

/-- The parts of the first clause of a for statement are those of the source, and its nodes are
numbered. -/
structure ForInit.Written (origin : Origin) (low high : Nat) (init : ForInit) : Prop where
  /-- Its parts are those of the source. -/
  isWritten : init.Forall origin.parts
  /-- Its nodes are numbered. -/
  numbers : Numbers low high init.ids

namespace Decl.WrittenList

theorem nil : Decl.WrittenList origin low low [] := ⟨nofun, .nil⟩

theorem cons {decl : Decl} {decls : List Decl}
    (isWritten : ∀ isFile, decl.Forall origin.parts isFile) (numbers : Numbers low middle decl.ids)
    (rest : Decl.WrittenList origin middle high decls) :
    Decl.WrittenList origin low high (decl :: decls) :=
  ⟨List.forall_mem_cons.2 ⟨isWritten, rest.isWritten⟩, numbers.append rest.numbers⟩

theorem append {first second : List Decl} (written : Decl.WrittenList origin low middle first)
    (rest : Decl.WrittenList origin middle high second) :
    Decl.WrittenList origin low high (first ++ second) := by
  refine ⟨List.forall_mem_append.2 ⟨written.isWritten, rest.isWritten⟩, ?_⟩
  rw [List.flatMap_append]
  exact written.numbers.append rest.numbers

theorem items {decls : List Decl} {items : List Item}
    (written : Decl.WrittenList origin low middle decls)
    (rest : Item.WrittenList origin middle high items) :
    Item.WrittenList origin low high (decls.map .decl ++ items) := by
  refine ⟨?_, ?_⟩
  · have isWritten := written.isWritten
    clear written
    induction decls with
    | nil => exact rest.isWritten
    | cons decl decls ih =>
        rw [List.forall_mem_cons] at isWritten
        exact ⟨isWritten.1 false, ih isWritten.2⟩
  · rw [Item.idsList_append_decls]
    exact written.numbers.append rest.numbers

end Decl.WrittenList

theorem ForInit.parse_writes : ForInit.parse.Writes origin low (ForInit.Written origin low) := by
  unfold ForInit.parse
  refine Parser.current_keeps.bind ?_
  intro token isToken
  refine Writes.ite ?_ ?_
  · intro _
    refine (Specifiers.parse_keeps true).bind ?_
    intro specifiers positive
    refine Parser.fuel_keeps.bind ?_
    intro fuel _
    refine (VarDecl.parseListWith_writes positive fuel).bind ?_
    intro decls middle written
    exact Parser.located (fun loc => ForInit.declarations loc decls)
      ⟨⟨isToken.span, written.isWritten⟩, written.numbers.snoc⟩
  · intro _
    refine (Expr.parseUnless_writes _).bind ?_
    intro value middle written
    refine (Parser.expectMark_keeps _).bind ?_
    intro _ _
    exact Parser.located (fun loc => ForInit.expression loc value)
      ⟨⟨isToken.span, written.isWritten⟩, written.numbers.snoc⟩

mutual

theorem Decl.parseDeclarators_writes : ∀ (fuel : Nat) {specifiers : Specifiers},
    specifiers.base.HasPositiveDimensions → ∀ (isFirst : Bool) {low : Nat},
    (Decl.parseDeclarators fuel specifiers isFirst).Writes origin low (Decl.WrittenList origin low)
  | 0, _, _, _, _ => Writes.outOfFuel
  | fuel + 1, specifiers, positive, isFirst, low => by
      rw [Decl.parseDeclarators]
      refine Declarator.parse_keeps.bind ?_
      intro declarator isDeclarator
      refine (Declarator.declare_keeps isDeclarator positive).bind ?_
      rintro declared ⟨isWritten, dimensions⟩
      have funDecl (loc : Loc) (isLoc : loc.span = declared.span) (result : CType) :
          (declared.funDecl loc result specifiers.storageClass).IsWritten origin :=
        ⟨isLoc ▸ isWritten.isName.2, isWritten.isName.1, isWritten.params⟩
      split
      · rename_i result _
        refine (Declared.opensBody_keeps isFirst).bind ?_
        intro _ _
        refine Writes.ite ?_ ?_
        · intro _
          refine (Declared.requireNames_keeps isWritten).bind ?_
          intro _ _
          refine (Stmt.parseBlock_writes fuel).bind ?_
          rintro ⟨bodyLoc, body⟩ middle ⟨isSpan, bodyWritten, numbers⟩
          refine Parser.located (fun loc => [Decl.definition
            (declared.funDecl loc result specifiers.storageClass) bodyLoc body]) ?_
          exact .cons (fun _ => ⟨funDecl _ rfl result, isSpan, bodyWritten⟩) numbers.snoc .nil
        · intro _
          have build : Writes origin (Parser.newLoc declared.span) low fun high loc =>
              high = low + 1 ∧ loc = ⟨low + 1, declared.span⟩ := Parser.located id ⟨rfl, rfl⟩
          refine build.bind ?_
          rintro _ _ ⟨rfl, rfl⟩
          exact Decl.parseMore_writes fuel positive _ (fun _ => funDecl _ rfl result) .one
      · refine (VarDecl.parseRest_writes isWritten dimensions _).bind ?_
        intro decl middle written
        exact Decl.parseMore_writes fuel positive (.object decl) (fun _ => written.isWritten)
          written.numbers

theorem Decl.parseMore_writes : ∀ (fuel : Nat) {specifiers : Specifiers},
    specifiers.base.HasPositiveDimensions → ∀ (first : Decl) {low middle : Nat},
      (∀ isFile, first.Forall origin.parts isFile) → Numbers low middle first.ids →
        (Decl.parseMore fuel specifiers first).Writes origin middle (Decl.WrittenList origin low)
  | 0, _, _, _, _, _, _, _ => Writes.outOfFuel
  | fuel + 1, specifiers, positive, first, low, middle, isWritten, numbers => by
      rw [Decl.parseMore]
      refine (Parser.accept_keeps _).bind ?_
      intro _ _
      refine Writes.ite ?_ ?_
      · intro _
        refine (Decl.parseDeclarators_writes fuel positive false).bind ?_
        intro decls high restWritten
        exact Writes.pure (.cons isWritten numbers restWritten)
      · intro _
        exact (Parser.expectMark_keeps _).bind fun _ _ =>
          Writes.pure (.cons isWritten numbers .nil)

theorem Stmt.parseBlock_writes : ∀ (fuel : Nat) {low : Nat},
    (Stmt.parseBlock fuel).Writes origin low fun high block =>
      origin.isSpan block.1.span ∧ Item.ForallList origin.parts block.2 ∧
        Numbers low high (Item.idsList block.2 ++ [block.1.id])
  | 0, _ => Writes.outOfFuel
  | fuel + 1, low => by
      rw [Stmt.parseBlock]
      refine (Parser.expectMark_keeps _).bind ?_
      intro brace isBrace
      refine (Item.parseList_writes fuel).bind ?_
      intro items middle written
      refine Parser.skip_keeps.bind ?_
      intro _ _
      exact Parser.located (fun loc => (loc, items))
        ⟨isBrace.span, written.isWritten, written.numbers.snoc⟩

theorem Item.parseList_writes : ∀ (fuel : Nat) {low : Nat},
    (Item.parseList fuel).Writes origin low (Item.WrittenList origin low)
  | 0, _ => Writes.outOfFuel
  | fuel + 1, low => by
      rw [Item.parseList]
      refine Parser.current_keeps.bind ?_
      intro token isToken
      refine Writes.ite (fun _ => Writes.pure ⟨trivial, .nil⟩) ?_
      intro _
      refine Writes.ite (fun _ => Writes.fail isToken.span) ?_
      intro _
      refine Writes.ite ?_ ?_
      · intro _
        refine (Specifiers.parse_keeps true).bind ?_
        intro specifiers positive
        refine (Decl.parseDeclarators_writes fuel positive true).bind ?_
        intro decls middle written
        refine (Item.parseList_writes fuel).bind ?_
        intro items high restWritten
        exact Writes.pure (written.items restWritten)
      · intro _
        refine (Stmt.parseWith_writes fuel).bind ?_
        intro stmt middle written
        refine (Item.parseList_writes fuel).bind ?_
        intro items high restWritten
        exact Writes.pure ⟨⟨written.isWritten, restWritten.isWritten⟩,
          written.numbers.append restWritten.numbers⟩

theorem Stmt.parseWith_writes : ∀ (fuel : Nat) {low : Nat},
    (Stmt.parseWith fuel).Writes origin low (Stmt.Written origin low)
  | 0, _ => Writes.outOfFuel
  | fuel + 1, low => by
      -- Most statements end in a body, behind parts that are written already.
      have nested {span : Span} (isSpan : origin.isSpan span) (make : Stmt → Loc → Stmt)
          {middle : Nat} {ids : List Nat} (numbers : Numbers low middle ids)
          (isWritten : ∀ body loc, origin.isSpan loc.span → body.Forall origin.parts →
            (make body loc).Forall origin.parts)
          (idsEq : ∀ body loc, (make body loc).ids = ids ++ body.ids ++ [loc.id]) :
          Writes origin (do
            let body ← Stmt.parseWith fuel
            pure (make body (← Parser.newLoc span))) middle (Stmt.Written origin low) := by
        refine (Stmt.parseWith_writes fuel).bind ?_
        intro body high written
        refine Parser.located (make body) ⟨isWritten body _ isSpan written.isWritten, ?_⟩
        rw [idsEq]
        exact (numbers.append written.numbers).snoc
      have jump {span : Span} (isSpan : origin.isSpan span) (make : Loc → Stmt)
          (isWritten : ∀ loc, origin.isSpan loc.span → (make loc).Forall origin.parts)
          (ids : ∀ loc, (make loc).ids = [loc.id]) :
          Writes origin (do pure (make (← Parser.newLoc span))) low (Stmt.Written origin low) := by
        refine Parser.located make ⟨isWritten _ isSpan, ?_⟩
        rw [ids]
        exact .one
      rw [Stmt.parseWith]
      refine Parser.current_keeps.bind ?_
      intro token isToken
      split
      -- return
      · refine Parser.skip_keeps.bind ?_
        intro _ _
        refine (Expr.parseUnless_writes _).bind ?_
        intro value middle written
        refine (Parser.expectMark_keeps _).bind ?_
        intro _ _
        exact Parser.located (fun loc => Stmt.ret loc value)
          ⟨⟨isToken.span, written.isWritten⟩, written.numbers.snoc⟩
      -- if
      · refine Parser.skip_keeps.bind ?_
        intro _ _
        refine Expr.parseParenthesized_writes.bind ?_
        intro condition middle written
        refine (Stmt.parseWith_writes fuel).bind ?_
        intro thenBranch after thenWritten
        refine (Parser.currentIs_keeps _).bind ?_
        intro _ _
        refine Writes.ite ?_ ?_
        · intro _
          refine Parser.skip_keeps.bind ?_
          intro _ _
          exact nested isToken.span
            (fun elseBranch loc => .ifElse loc condition thenBranch elseBranch)
            (written.numbers.append thenWritten.numbers)
            (fun _ _ isSpan isBody => ⟨isSpan, written.isWritten, thenWritten.isWritten, isBody⟩)
            fun _ _ => rfl
        · intro _
          exact Parser.located (fun loc => Stmt.ifThen loc condition thenBranch)
            ⟨⟨isToken.span, written.isWritten, thenWritten.isWritten⟩,
              (written.numbers.append thenWritten.numbers).snoc⟩
      -- a block
      · refine (Stmt.parseBlock_writes fuel).bind ?_
        rintro ⟨loc, items⟩ middle ⟨isSpan, isWritten, numbers⟩
        exact Writes.pure ⟨⟨isSpan, isWritten⟩, numbers⟩
      -- while
      · refine Parser.skip_keeps.bind ?_
        intro _ _
        refine Expr.parseParenthesized_writes.bind ?_
        intro condition middle written
        exact nested isToken.span (fun body loc => .whileLoop loc none condition body)
          written.numbers (fun _ _ isSpan isBody => ⟨isSpan, rfl, written.isWritten, isBody⟩)
          fun _ _ => rfl
      -- do
      · refine Parser.skip_keeps.bind ?_
        intro _ _
        refine (Stmt.parseWith_writes fuel).bind ?_
        intro body middle bodyWritten
        refine (Parser.expect_keeps _).bind ?_
        intro _ _
        refine Expr.parseParenthesized_writes.bind ?_
        intro condition after written
        refine (Parser.expectMark_keeps _).bind ?_
        intro _ _
        exact Parser.located (fun loc => Stmt.doWhile loc none body condition)
          ⟨⟨isToken.span, rfl, written.isWritten, bodyWritten.isWritten⟩,
            (bodyWritten.numbers.append written.numbers).snoc⟩
      -- for
      · refine Parser.skip_keeps.bind ?_
        intro _ _
        refine (Parser.expectMark_keeps _).bind ?_
        intro _ _
        refine ForInit.parse_writes.bind ?_
        intro init middle initWritten
        refine (Expr.parseUnless_writes _).bind ?_
        intro condition after written
        refine (Parser.expectMark_keeps _).bind ?_
        intro _ _
        refine (Expr.parseUnless_writes _).bind ?_
        intro post last postWritten
        refine (Parser.expectMark_keeps _).bind ?_
        intro _ _
        exact nested isToken.span (fun body loc => .forLoop loc none init condition post body)
          ((initWritten.numbers.append written.numbers).append postWritten.numbers)
          (fun _ _ isSpan isBody => ⟨isSpan, rfl, initWritten.isWritten, written.isWritten,
            postWritten.isWritten, isBody⟩) fun _ _ => rfl
      -- switch
      · refine Parser.skip_keeps.bind ?_
        intro _ _
        refine Expr.parseParenthesized_writes.bind ?_
        intro value middle written
        exact nested isToken.span (fun body loc => .switch loc none value body [])
          written.numbers (fun _ _ isSpan isBody => ⟨isSpan, rfl, written.isWritten, isBody, rfl⟩)
          fun _ _ => rfl
      -- case
      · refine Parser.skip_keeps.bind ?_
        intro _ _
        refine Expr.parse_writes.bind ?_
        intro value middle written
        refine (Parser.expectMark_keeps _).bind ?_
        intro _ _
        exact nested isToken.span (fun body loc => .case loc none value body)
          written.numbers (fun _ _ isSpan isBody => ⟨isSpan, rfl, written.isWritten, isBody⟩)
          fun _ _ => rfl
      -- default
      · refine Parser.skip_keeps.bind ?_
        intro _ _
        refine (Parser.expectMark_keeps _).bind ?_
        intro _ _
        exact nested isToken.span (fun body loc => .default loc none body) .nil
          (fun _ _ isSpan isBody => ⟨isSpan, rfl, isBody⟩) fun _ _ => rfl
      -- break
      · refine Parser.skip_keeps.bind ?_
        intro _ _
        refine (Parser.expectMark_keeps _).bind ?_
        intro _ _
        exact jump isToken.span (fun loc => .break loc none) (fun _ isSpan => ⟨isSpan, rfl⟩)
          fun _ => rfl
      -- continue
      · refine Parser.skip_keeps.bind ?_
        intro _ _
        refine (Parser.expectMark_keeps _).bind ?_
        intro _ _
        exact jump isToken.span (fun loc => .continue loc none) (fun _ isSpan => ⟨isSpan, rfl⟩)
          fun _ => rfl
      -- a semicolon
      · refine Parser.skip_keeps.bind ?_
        intro _ _
        exact jump isToken.span .null (fun _ isSpan => isSpan) fun _ => rfl
      -- an expression
      · refine Writes.ite (fun _ => Writes.fail_bind isToken.span) ?_
        intro _
        refine Expr.parse_writes.bind ?_
        intro value middle written
        refine (Parser.expectMark_keeps _).bind ?_
        intro _ _
        exact Parser.located (fun loc => Stmt.expr loc value)
          ⟨⟨isToken.span, written.isWritten⟩, written.numbers.snoc⟩

end

theorem Decl.parse_writes : Decl.parse.Writes origin low (Decl.WrittenList origin low) := by
  unfold Decl.parse
  refine (Specifiers.parse_keeps true).bind ?_
  intro specifiers positive
  refine Parser.fuel_keeps.bind ?_
  intro fuel _
  exact Decl.parseDeclarators_writes fuel positive true

namespace Program

theorem parseWith_writes : ∀ (fuel : Nat) {low : Nat},
    (parseWith fuel).Writes origin low (Decl.WrittenList origin low)
  | 0, _ => Writes.outOfFuel
  | fuel + 1, low => by
      rw [parseWith]
      refine (Parser.currentIs_keeps _).bind ?_
      intro _ _
      refine Writes.ite (fun _ => Writes.pure .nil) ?_
      intro _
      refine Decl.parse_writes.bind ?_
      intro decls middle written
      refine (parseWith_writes fuel).bind ?_
      intro rest high restWritten
      exact Writes.pure (written.append restWritten)

/-- A tree is parsed from tokens of a source with places and names of that source, and numbered from
one on through the newest node. If there is none, the parser complains at a place of the source. -/
theorem written_of_ofLexed {lexed : Lexer.Lexed}
    (isFrom : (⟨lexed.tokens, lexed.ending, 0⟩ : ParseState).IsFrom origin) :
    (∀ program lastId, ofLexed lexed = .ok (program, lastId) →
      program.Forall origin.parts ∧ Numbers 0 lastId program.ids) ∧
    ∀ failure, ofLexed lexed = .error failure → failure.IsAt origin.isSpan := by
  have writes : Writes origin parseAll 0 (Decl.WrittenList origin 0) :=
    Parser.fuel_keeps.bind fun fuel _ => parseWith_writes fuel
  have ensures := writes _ isFrom rfl
  unfold Ensures at ensures
  split at ensures
  case h_1 program state runs =>
    have parses : ofLexed lexed = .ok (program, state.lastId) := by
      unfold ofLexed
      dsimp only
      rw [runs]
      rfl
    rw [parses]
    simp only [Except.ok.injEq, Prod.mk.injEq, reduceCtorEq, false_implies, implies_true, and_true]
    rintro _ _ ⟨rfl, rfl⟩
    exact ⟨fun decl mem => ensures.2.isWritten decl mem true, ensures.2.numbers⟩
  case h_2 failure runs =>
    have fails : ofLexed lexed = .error failure := by
      unfold ofLexed
      dsimp only
      rw [runs]
      rfl
    rw [fails]
    simp only [Except.error.injEq, reduceCtorEq, false_implies, implies_true, true_and]
    rintro _ rfl
    exact ensures

end Program

end SubsetC
