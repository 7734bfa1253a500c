import SubsetC.Proofs.EagerLexing
import SubsetC.Proofs.LiteralForms

/-!
# The loops of the parser

Each loop of the parser repeats a round that fails, ends the loop, or consumes a token of the stream
(`Parser.Loop`). The end of the input is never consumed, so no loop can stay there. The main
statement is `Program.parse_total`: whatever tokens a source is lexed to, a parser over a stream of
them ends with a tree or a syntax error.

A round is followed over the list of what the stream shows, where it is seen to shorten the list.
-/

namespace SubsetC

open SubsetC.Parser (Leaves Follows)

/-! ### Consumed tokens of a stream -/

namespace Outlook

theorem behind_append (outlook : Outlook) (front rest : List Token) (place : Nat) :
    outlook.behind (front ++ rest) (place + front.length) = outlook.behind rest place := by
  have isRest : (front ++ rest)[place + front.length]? = rest[place]? := by
    rw [List.getElem?_append_right (Nat.le_add_left _ _), Nat.add_sub_cancel]
  have sameLength : place + front.length - (front ++ rest).length = place - rest.length := by
    rw [List.length_append]
    omega
  rw [behind, behind, isRest, sameLength]

end Outlook

namespace StreamState

/-- Some tokens are consumed, none of which is illegal or the end of the input. -/
structure Consumes (before : StreamState) (count : Nat) (after : StreamState) : Prop where
  /-- What was shown behind them is shown from the front on. -/
  moves : ∀ place, after.stream.shows place = before.stream.shows (place + count)
  legal : ∀ place < count, ∃ token, before.stream.shows place = .ok token ∧
    token.kind ≠ .endOfInput ∧ token.kind ≠ .illegal

variable {before middle after : StreamState} {left left' : ParseState}

theorem Consumes.trans {count count' : Nat} (first : before.Consumes count middle)
    (second : middle.Consumes count' after) : before.Consumes (count + count') after where
  moves place := by
    rw [second.moves, first.moves, Nat.add_assoc, Nat.add_comm count' count]
  legal place inside := by
    by_cases isFirst : place < count
    · exact first.legal place isFirst
    · have shown := second.legal (place - count) (by omega)
      rwa [first.moves, Nat.sub_add_cancel (Nat.le_of_not_lt isFirst)] at shown

/-- The tokens that a list loses are consumed from the stream that shows it. -/
theorem Shows.consumes (shows : before.Shows left) (shows' : after.Shows left')
    (reaches : left.Reaches left') :
    before.Consumes (left.tokens.length - left'.tokens.length) after := by
  rcases reaches with ⟨sameEnding, front, split, legal⟩
  have count : left.tokens.length - left'.tokens.length = front.length := by simp [split]
  rw [count]
  refine ⟨fun place => ?_, fun place inside => ⟨front[place], ?_, ?_, ?_⟩⟩
  · rw [shows.shows, shows'.shows, ParseState.outlook, ParseState.outlook, split, sameEnding]
    exact (Outlook.behind_append _ front left'.tokens place).symm
  · rw [shows.shows, ParseState.outlook, split]
    refine Outlook.behind_of_getElem? ?_
    rw [List.getElem?_append_left inside, List.getElem?_eq_getElem inside]
  · exact shows.isLexed.tokens _ (by simp [split])
  · exact legal _ (List.getElem_mem inside)

end StreamState

/-! ### Loops -/

namespace Parser

variable {α β : Type}

/-- A loop over streams repeats rounds that advance. A round takes some fuel away, and works with a
reserve of it besides eight units for each token that is left. -/
structure Loop (loop : Nat → α → Parser StreamState β)
    (round : Nat → α → Parser StreamState (Round α β)) (cost reserve : Nat) : Prop where
  /-- A round comes before the rest. -/
  unfolds : ∀ fuel start, loop (fuel + cost) start = do (← round fuel start).rest (loop fuel)
  /-- It fails as parsers may, or consumes tokens, at least one if the loop goes on. -/
  advances : ∀ fuel start {state : StreamState} {left : ParseState}, state.Shows left →
    reserve + 8 * left.tokens.length ≤ fuel + cost →
      Ensures (round fuel start) state left.MayFail fun step after =>
        ∃ count left', state.Consumes count after ∧ after.Shows left' ∧ left.Reaches left' ∧
          left'.tokens.length + count = left.tokens.length ∧ (step.GoesOn → 0 < count)

variable {loop : Nat → α → Parser StreamState β}
  {round : Nat → α → Parser StreamState (Round α β)} {cost reserve : Nat}

/-- What a round over lists makes shorter, one over streams consumes. -/
theorem Loop.of_follows {listed : Nat → α → Parser ParseState (Round α β)}
    (unfolds : ∀ fuel start, loop (fuel + cost) start = do (← round fuel start).rest (loop fuel))
    (follows : ∀ fuel start, Follows (listed fuel start) (round fuel start))
    (advances : ∀ fuel start (left : ParseState), reserve + 8 * left.tokens.length ≤ fuel + cost →
      (listed fuel start).Advances left) :
    Loop loop round cost reserve where
  unfolds := unfolds
  advances := by
    intro fuel start state left shows enough
    refine ((follows fuel start).ensures shows (advances fuel start left enough)).mono ?_
    rintro step after ⟨left', shows', reaches, -, shorter⟩
    have fewer := reaches.length_le
    exact ⟨_, left', shows.consumes shows' reaches, shows', reaches, by omega,
      fun goesOn => Nat.sub_pos_of_lt (shorter goesOn)⟩

end Parser

open SubsetC.Parser (Round Loop)

theorem Program.parseWith_loop :
    Loop (fun fuel (_ : Unit) => parseWith fuel) declarationRound 1 1 :=
  Loop.of_follows (fun fuel start => parseWith_round fuel start)
    (fun fuel start => declarationRound_follows fuel fuel start) fun fuel start _ _ =>
      (declarationRound_moves fuel start).mono fun _ _ holds => ⟨holds.1, holds.2.1⟩

theorem Specifiers.collect_loop (storageAllowed : Bool) :
    Loop (collect storageAllowed) (round storageAllowed) 1 1 := by
  refine Loop.of_follows (collect_round storageAllowed)
    (fun fuel start => round_follows storageAllowed fuel fuel start) fun fuel seen left _ => ?_
  refine (round_moves storageAllowed fuel seen).mono ?_
  rintro (found | ⟨next, build⟩) after ⟨ends, goesOn⟩
  · rcases ends found rfl with ⟨-, rfl⟩
    exact ⟨Nat.le_refl _, fun goesOn => absurd goesOn id⟩
  · rcases goesOn next build rfl with ⟨-, -, shorter⟩
    exact ⟨Nat.le_of_lt shorter, fun _ => shorter⟩

namespace Declarator

theorem suffixes_loop : Loop suffixes suffixRound 1 2 := by
  refine Loop.of_follows suffixes_round (fun fuel start =>
    suffixRound_follows (params_follows (Nat.le_refl fuel)) start) fun fuel start left enough => ?_
  exact suffixRound_advances start (params_leaves fuel (by omega) (Nat.le_refl _))

theorem dimensions_loop : Loop dimensions dimensionRound 1 1 :=
  Loop.of_follows dimensions_round (fun fuel start => dimensionRound_follows fuel fuel start)
    fun fuel start _ _ => dimensionRound_advances fuel start

theorem paramList_loop : Loop (fun fuel (_ : Unit) => paramList fuel) paramRound 1 1 := by
  refine Loop.of_follows (fun fuel start => paramList_round fuel start) (fun fuel start =>
    paramRound_follows (parseWith_follows (Nat.le_refl fuel) true) start)
      fun fuel start left enough => Leaves.advances (paramRound_leaves ?_ start)
  intro middle shorter
  exact parseWith_leaves fuel true (by omega) (Nat.le_succ _) fun _ => Nat.lt_succ_self _

end Declarator

namespace Expr

theorem stringRun_loop : Loop stringRun stringRound 1 1 :=
  Loop.of_follows stringRun_round (fun fuel start => stringRound_follows fuel fuel start)
    fun fuel seen _ _ => (stringRound_moves fuel seen).mono fun _ _ holds => ⟨holds.1, holds.2.1⟩

theorem continuations_loop (level : Nat) :
    Loop (fun fuel left => continuations fuel level left) (operatorRound level) 1 1 := by
  refine Loop.of_follows (continuations_round level) (fun fuel start =>
    operatorRound_follows (parseWith_follows (Nat.le_refl fuel)) level start)
      fun fuel operand left enough => operatorRound_advances level operand ?_
  intro level middle shorter
  exact parseWith_leaves fuel level (by omega) (Nat.le_refl _)

theorem trailing_loop : Loop trailing trailingRound 1 1 := by
  refine Loop.of_follows trailing_round (fun fuel start =>
    trailingRound_follows (parseWith_follows (Nat.le_refl fuel)) start)
      fun fuel operand left enough => trailingRound_advances operand ?_
  intro middle shorter
  exact parseWith_leaves fuel 0 (by omega) (Nat.le_refl _)

theorem arguments_loop : Loop (fun fuel (_ : Unit) => arguments fuel) argumentRound 1 4 := by
  refine Loop.of_follows (fun fuel start => arguments_round fuel start) (fun fuel start =>
    argumentRound_follows (parseWith_follows (Nat.le_refl fuel)) start)
      fun fuel start left enough => Leaves.advances (argumentRound_leaves ?_ start)
  exact parseWith_leaves fuel 0 (by omega) (Nat.le_refl _)

end Expr

theorem Initializer.itemsWith_loop :
    Loop (fun fuel (_ : Unit) => itemsWith fuel) itemRound 1 2 := by
  refine Loop.of_follows (fun fuel start => itemsWith_round fuel start) (fun fuel start =>
    itemRound_follows (parseWith_follows (Nat.le_refl fuel)) start)
      fun fuel start left enough => Leaves.advances (itemRound_leaves ?_ start)
  exact parseWith_leaves fuel (by omega) (Nat.le_refl _)

theorem VarDecl.parseListWith_loop (specifiers : Specifiers) :
    Loop (fun fuel (_ : Unit) => parseListWith specifiers fuel)
      (declaratorRound specifiers) 1 1 :=
  Loop.of_follows (parseListWith_round specifiers)
    (fun fuel start => declaratorRound_follows specifiers fuel fuel start)
      fun fuel start _ _ => Leaves.advances (declaratorRound_leaves specifiers fuel start)

theorem Decl.parseDeclarators_loop (specifiers : Specifiers) :
    Loop (fun fuel isFirst => parseDeclarators fuel specifiers isFirst)
      (declaratorRound specifiers) 2 2 := by
  refine Loop.of_follows (parseDeclarators_round specifiers) (fun fuel start =>
    declaratorRound_follows specifiers (Nat.le_refl fuel) start) fun fuel isFirst left enough =>
      Leaves.advances (declaratorRound_leaves specifiers isFirst ?_)
  intro middle shorter
  exact Stmt.parseBlock_leaves (fuel + 1) (by omega) (Nat.le_refl _)

theorem Item.parseList_loop : Loop (fun fuel (_ : Unit) => parseList fuel) round 1 3 := by
  refine Loop.of_follows (fun fuel start => parseList_round fuel start) (fun fuel start =>
    round_follows (fun specifiers => Decl.parseDeclarators_follows (Nat.le_refl fuel) specifiers _)
      (Stmt.parseWith_follows (Nat.le_refl fuel)) start) fun fuel start left enough => ?_
  have stmt : (Stmt.parseWith fuel).Leaves left left.tokens.length :=
    Stmt.parseWith_leaves fuel (by omega) (Nat.le_refl _)
  have moves := round_moves (fun specifiers middle shorter =>
    Decl.parseDeclarators_leaves fuel specifiers true (by omega) (Nat.le_refl _)) stmt start
  exact moves.mono fun _ _ holds => ⟨holds.1, holds.2.1⟩

/-- Each loop of the parser repeats rounds that fail, end the loop or consume a token. -/
structure Parser.LoopsAdvance : Prop where
  declarations : Loop (fun fuel (_ : Unit) => Program.parseWith fuel) Program.declarationRound 1 1
  /-- The specifiers of a declaration. -/
  specifiers : ∀ storageAllowed,
    Loop (Specifiers.collect storageAllowed) (Specifiers.round storageAllowed) 1 1
  declarators : ∀ specifiers,
    Loop (fun fuel isFirst => Decl.parseDeclarators fuel specifiers isFirst)
      (Decl.declaratorRound specifiers) 2 2
  /-- The declarators in the first clause of a for statement. -/
  clauseDeclarators : ∀ specifiers,
    Loop (fun fuel (_ : Unit) => VarDecl.parseListWith specifiers fuel)
      (VarDecl.declaratorRound specifiers) 1 1
  /-- The dimensions and parameter lists behind a name. -/
  suffixes : Loop Declarator.suffixes Declarator.suffixRound 1 2
  /-- The dimensions in a type name. -/
  dimensions : Loop Declarator.dimensions Declarator.dimensionRound 1 1
  params : Loop (fun fuel (_ : Unit) => Declarator.paramList fuel) Declarator.paramRound 1 1
  /-- The initializers of a list. -/
  initializers : Loop (fun fuel (_ : Unit) => Initializer.itemsWith fuel) Initializer.itemRound 1 2
  /-- The items of a block. -/
  items : Loop (fun fuel (_ : Unit) => Item.parseList fuel) Item.round 1 3
  /-- The operators behind an operand. -/
  operators : ∀ level,
    Loop (fun fuel left => Expr.continuations fuel level left) (Expr.operatorRound level) 1 1
  /-- The subscripts and steps behind an operand. -/
  trailing : Loop Expr.trailing Expr.trailingRound 1 1
  /-- The arguments of a call. -/
  arguments : Loop (fun fuel (_ : Unit) => Expr.arguments fuel) Expr.argumentRound 1 4
  /-- String literals next to each other. -/
  strings : Loop Expr.stringRun Expr.stringRound 1 1

theorem Parser.loopsAdvance : Parser.LoopsAdvance where
  declarations := Program.parseWith_loop
  specifiers := Specifiers.collect_loop
  declarators := Decl.parseDeclarators_loop
  clauseDeclarators := VarDecl.parseListWith_loop
  suffixes := Declarator.suffixes_loop
  dimensions := Declarator.dimensions_loop
  params := Declarator.paramList_loop
  initializers := Initializer.itemsWith_loop
  items := Item.parseList_loop
  operators := Expr.continuations_loop
  trailing := Expr.trailing_loop
  arguments := Expr.arguments_loop
  strings := Expr.stringRun_loop

/-- A stream hands its end of the input out without consuming it. -/
theorem TokenStream.next_endOfInput {stream : TokenStream} {token : Token}
    (repeats : stream.Repeats TokenKind.IsFinal) (isNext : stream.shows 0 = .ok token)
    (isEnd : token.kind = .endOfInput) :
    Ends next stream (fun handed after => handed = token ∧ after.shows = stream.shows)
      fun _ => False := by
  have notLast : ∀ other, stream.shows 0 = .ok other →
      other.kind = .endOfInput ∨ ¬other.kind.IsFinal := by
    intro other shown
    cases isNext.symm.trans shown
    exact .inl isEnd
  refine ((next_ends repeats notLast).mono ?_).allow ?_
  · rintro handed after ⟨shown, moved, -⟩
    cases isNext.symm.trans shown
    exact ⟨rfl, by rw [moved, Outlook.past, if_pos isEnd]⟩
  · intro fault shown
    cases isNext.symm.trans shown

/-! ### Cases that no parser comes to -/

/-- What a declarator may be wrong about: what it derives from a function, a function's result or a
parameter. -/
def SyntaxError.IsDerivation : SyntaxError → Prop
  | .functionDerivation | .arrayResult _ | .functionParameter _ => True
  | _ => False

/-- A declarator is applied to its base type, or it is wrong about a derivation. -/
def IsApplied {α : Type} (result : Except (Span × SyntaxError) α) : Prop :=
  ∀ span error, result = .error (span, error) → error.IsDerivation

namespace IsApplied

variable {α β : Type} {result : Except (Span × SyntaxError) α}

theorem pure (value : α) : IsApplied (Pure.pure value) := by
  intro span error same
  cases same

theorem throw {span : Span} {error : SyntaxError} (isDerivation : error.IsDerivation) :
    IsApplied (MonadExcept.throw (span, error) : Except (Span × SyntaxError) α) := by
  intro _ _ same
  cases same
  exact isDerivation

theorem throw_bind {span : Span} {error : SyntaxError} {next : α → Except (Span × SyntaxError) β}
    (isDerivation : error.IsDerivation) : IsApplied (MonadExcept.throw (span, error) >>= next) := by
  intro _ _ same
  cases same
  exact isDerivation

theorem bind {next : α → Except (Span × SyntaxError) β} (first : IsApplied result)
    (rest : ∀ value, IsApplied (next value)) : IsApplied (result >>= next) := by
  cases result with
  | error failure =>
      intro span error same
      cases same
      exact first span error rfl
  | ok value => exact rest value

end IsApplied

namespace Declarator

mutual

/-- There is no other declarator than those that are applied. -/
theorem resolve_isApplied : ∀ (declarator : Declarator) (base : CType),
    IsApplied (declarator.resolve base)
  | .named _ _, _ | .abstract, _ => .pure _
  | .pointer inner, base => resolve_isApplied inner (.pointer base)
  | .array inner size, base => resolve_isApplied inner (.array size base)
  | .paren inner, _ => resolve_isApplied inner _
  | .function inner params span, base => by
      have rest (name : Text) (nameSpan : Span) : IsApplied (do
          if base.isArray then throw (nameSpan, .arrayResult name)
          let params ← resolveParams params
          Pure.pure
            (⟨name, nameSpan, .function (params.map Param.type) base, params⟩ : Declared)) := by
        split
        · exact IsApplied.throw_bind (α := PUnit) trivial
        · exact (resolveParams_isApplied params).bind fun _ => .pure _
      rw [resolve]
      split
      · exact rest _ _
      · exact rest _ _
      · exact IsApplied.throw_bind (α := Text × Span) trivial

theorem resolveParams_isApplied : ∀ params : List ParamDeclarator,
    IsApplied (resolveParams params)
  | [] => .pure _
  | .mk base declarator span :: rest => by
      rw [resolveParams]
      refine (resolve_isApplied declarator base).bind fun declared => ?_
      dsimp only
      split
      · exact IsApplied.throw trivial
      · exact (resolveParams_isApplied rest).bind fun _ => .pure _

end

end Declarator

section Clauses

variable {σ : Type} [TokenSource σ]

theorem VarDecl.parseRest_type (declared : Declared) (storageClass : Option StorageClass)
    (state : σ) : Yields (VarDecl.parseRest declared storageClass) state fun decl _ =>
      decl.type = declared.type := by
  have made (init : Option Initializer) (state : σ) : Yields (do
      pure (⟨← Parser.newLoc declared.span, declared.name, declared.type, storageClass, init⟩ :
        VarDecl)) state fun decl _ => decl.type = declared.type :=
    Ensures.bind_any fun _ _ => Ensures.pure rfl
  unfold VarDecl.parseRest
  refine Ensures.bind_any fun accepted _ => ?_
  split
  · exact Ensures.bind_any fun init _ => made (some init) _
  · exact made none _

/-- The declarators of a first clause of a for statement are those of any declaration, all of them
of objects. -/
theorem VarDecl.parseListWith_objects (specifiers : Specifiers) (fuel : Nat) (state : σ) :
    Yields (VarDecl.parseListWith specifiers fuel) state fun decls after =>
      (∀ decl ∈ decls, decl.type.isFunction = false) ∧ ∀ isFirst,
        (Decl.parseDeclarators (2 * fuel) specifiers isFirst).run state =
          .ok (decls.map .object, after) := by
  induction fuel generalizing state with
  | zero => exact Ensures.throw trivial
  | succ fuel ih =>
      rw [VarDecl.parseListWith]
      refine (Ensures.runs _ _).bind fun declarator first parses => ?_
      refine (Ensures.runs _ _).bind fun declared second declares => ?_
      split
      · exact Ensures.throw trivial
      rename_i notFunction
      refine (Ensures.runs _ _).bind fun decl third parsesRest => ?_
      have isObject : decl.type.isFunction = false := by
        rw [(VarDecl.parseRest_type _ _ second).of_ok parsesRest]
        simpa using notFunction
      have parsesFirst (isFirst : Bool) :
          (Decl.parseDeclarators (2 * fuel + 2) specifiers isFirst).run state =
            (Decl.parseMore (2 * fuel + 1) specifiers (.object decl)).run third := by
        rw [Decl.parseDeclarators, Ensures.run_bind_of_ok parses, Ensures.run_bind_of_ok declares]
        split
        · rename_i isFunction
          rw [isFunction] at notFunction
          exact absurd rfl notFunction
        · exact Ensures.run_bind_of_ok parsesRest
      refine (Ensures.runs _ _).bind fun accepted fourth accepts => ?_
      rw [Decl.parseMore] at parsesFirst
      simp only [Ensures.run_bind_of_ok accepts] at parsesFirst
      split
      · rename_i isAccepted
        simp only [if_pos isAccepted] at parsesFirst
        refine (ih fourth).bind ?_
        rintro decls last ⟨areObjects, more⟩
        refine Ensures.pure ⟨List.forall_mem_cons.2 ⟨isObject, areObjects⟩, fun isFirst => ?_⟩
        exact (parsesFirst isFirst).trans (Ensures.run_bind_of_ok (more false))
      · rename_i notAccepted
        simp only [if_neg notAccepted] at parsesFirst
        refine (Ensures.runs _ _).bind fun _ last expects => ?_
        refine Ensures.pure ⟨List.forall_mem_singleton.2 isObject, fun isFirst => ?_⟩
        exact (parsesFirst isFirst).trans (Ensures.run_bind_of_ok expects)

end Clauses

/-! ### Compilation units -/

/-- What the lexer hands on: tokens that it accepts, and then the end of the source or an illegal
token. -/
theorem Lexer.exists_last_of_tokenize {source : Text} {stream : List Token}
    (lexes : tokenize source = .ok stream) :
    ∃ (tokens : List Token) (last : Token), stream = tokens ++ [last] ∧
      (∀ token ∈ tokens, token ∈ (lex source).tokens) ∧ last.kind.IsFinal := by
  have isPrefix : ∀ token ∈ (lex source).tokens.takeWhile fun token => token.kind ≠ .illegal,
      token ∈ (lex source).tokens := fun _ mem => (List.takeWhile_prefix _).subset mem
  unfold tokenize Lexed.throughIllegal at lexes
  dsimp only at lexes
  split at lexes
  · rename_i illegal found
    cases lexes
    exact ⟨_, illegal, rfl, isPrefix, .inr (by simpa using List.find?_some found)⟩
  · cases isEnding : (lex source).ending with
    | error overrun => simp [isEnding, Except.map] at lexes
    | ok ending =>
        rw [isEnding] at lexes
        cases lexes
        exact ⟨_, ending, rfl, isPrefix, (lex_isLexed source).ending _ isEnding⟩

namespace Program

/-- A parser over a stream of tokens always ends, and there is nothing that it is not prepared
for. -/
structure ParsesTotally (tokens : List Token) : Prop where
  /-- It ends with a tree, once it has consumed all tokens but the end of the input, which the stream
  goes on to show, or with a syntax error. -/
  ends : Ensures parseAll (⟨.ofTokens tokens, 0⟩ : StreamState)
    (fun failure => ∃ span error, failure = .user span (.syntactic error) ∧
      failure.diagnostic = ⟨.parse, .none, span, error.message⟩)
    fun _ after => ∃ last, tokens.getLast? = some last ∧ last.kind = .endOfInput ∧
      StreamState.Consumes ⟨.ofTokens tokens, 0⟩ (tokens.length - 1) after ∧
      ∀ place, after.stream.shows place = .ok last
  loops : Parser.LoopsAdvance
  /-- The end of the input is not consumed. -/
  endStays : ∀ {stream : TokenStream} {token : Token}, stream.Repeats TokenKind.IsFinal →
    stream.shows 0 = .ok token → token.kind = .endOfInput →
      TokenStream.Ends TokenStream.next stream
        (fun handed after => handed = token ∧ after.shows = stream.shows) fun _ => False
  /-- There are characters of one byte and decimal numerals only. -/
  forms : ∀ token ∈ tokens, token.kind.IsFinal ∨ Lexer.HasForm token.kind token.literal
  /-- There is no declarator that cannot be applied. -/
  declarators : ∀ (declarator : Declarator) (base : CType), IsApplied (declarator.resolve base)
  /-- What stands in the first clause of a for statement declares objects. -/
  clauses : ∀ specifiers fuel (state : StreamState),
    Yields (VarDecl.parseListWith specifiers fuel) state fun decls after =>
      (∀ decl ∈ decls, decl.type.isFunction = false) ∧ ∀ isFirst,
        (Decl.parseDeclarators (2 * fuel) specifiers isFirst).run state =
          .ok (decls.map .object, after)

/-- Whatever the lexer makes of a source, a parser over a stream of it ends with a tree or with a
syntax error. -/
theorem parse_total {source : Text} {tokens : List Token}
    (lexes : Lexer.tokenize source = .ok tokens) : ParsesTotally tokens := by
  rcases Lexer.exists_last_of_tokenize lexes with ⟨front, last, rfl, areTokens, isLast⟩
  have isLexed : ParseState.IsLexed ⟨front, .ok last, 0⟩ := by
    refine ⟨fun token mem => (Lexer.lex_isLexed source).tokens token (areTokens token mem), ?_⟩
    rintro _ ⟨⟩
    exact isLast
  have shows := StreamState.shows_ofTokens isLexed
  refine ⟨?_, Parser.loopsAdvance, TokenStream.next_endOfInput, ?_, Declarator.resolve_isApplied,
    VarDecl.parseListWith_objects⟩
  · refine ((parseAll_follows.ensures shows (parseAll_moves _)).mono ?_).allow ?_
    · rintro program after ⟨left, shows', reaches, none, token, isEnding, isEnd⟩
      cases isEnding.symm.trans reaches.1
      have consumes := shows.consumes shows' reaches
      rw [none] at consumes
      refine ⟨last, List.getLast?_concat, isEnd, by simpa using consumes, fun place => ?_⟩
      rw [shows'.shows, ParseState.outlook, none, isEnding]
      rfl
    · rintro failure (⟨span, error, rfl⟩ | ⟨overrun, overruns, -⟩)
      · exact ⟨span, error, rfl, rfl⟩
      · cases overruns
  · refine List.forall_mem_append.2
      ⟨fun token mem => .inr ?_, List.forall_mem_singleton.2 (.inl isLast)⟩
    exact Lexer.hasForm_of_mem_lexFrom (.start source) token (areTokens token mem)

/-- A source that breaks off inside a function, behind a character and a floating literal. -/
theorem parse_total_truncated :
    ∃ tokens, Lexer.tokenize "int f(void) \x7b return 'a' + 1.5" = .ok tokens ∧
      ParsesTotally tokens := by
  have succeeds : succeedsWith (fun _ => true)
      (Lexer.tokenize "int f(void) \x7b return 'a' + 1.5") := by
    decide +kernel
  rcases exists_of_succeedsWith succeeds with ⟨tokens, lexes, -⟩
  exact ⟨tokens, lexes, parse_total lexes⟩

end Program

end SubsetC
