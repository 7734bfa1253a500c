import SubsetC.Token.Stream

/-!
# What streams hand out

A stream over a source lexes no further than it is asked to look, and a stream over tokens repeats
the last of them. What a stream shows (`TokenStream.shows`) does not depend on how much of it is
buffered: looking ahead leaves it as it is, and consuming a token shifts it by one place, unless the
token is the end of the input. The main statements are `TokenStream.peekAt_ends` and
`TokenStream.next_ends`, which say this of the two operations.
-/

namespace SubsetC

open Lexer

/-! ### Outlooks -/

/-- The tokens by their places from the next one on, or what goes wrong in looking that far. -/
abbrev Outlook := Nat → Except StreamFault Token

namespace Outlook

/-- An outlook behind some tokens. -/
def behind (outlook : Outlook) (front : List Token) : Outlook := fun place =>
  match front[place]? with
  | some token => .ok token
  | none => outlook (place - front.length)

variable {outlook outlook' : Outlook}

theorem behind_cons_succ (outlook : Outlook) (token : Token) (front : List Token) (place : Nat) :
    outlook.behind (token :: front) (place + 1) = outlook.behind front place := by
  simp [behind]

theorem behind_append_singleton {token : Token} (isNext : outlook 0 = .ok token)
    (isRest : ∀ place, outlook (place + 1) = outlook' place) (front : List Token) :
    outlook'.behind (front ++ [token]) = outlook.behind front := by
  funext place
  induction front generalizing place with
  | nil =>
      cases place with
      | zero => exact isNext.symm
      | succ place => exact (isRest place).symm
  | cons first front ih =>
      cases place with
      | zero => rfl
      | succ place =>
          rw [List.cons_append, behind_cons_succ, behind_cons_succ]
          exact ih place

theorem behind_of_getElem? {token : Token} {front : List Token} {place : Nat}
    (found : front[place]? = some token) : outlook.behind front place = .ok token := by
  rw [behind, found]

theorem behind_of_length_le {front : List Token} {place : Nat} (isBehind : front.length ≤ place) :
    outlook.behind front place = outlook (place - front.length) := by
  rw [behind, List.getElem?_eq_none isBehind]

/-- The token a number of places ahead, none of which stands in front of the next token. -/
def ahead (outlook : Outlook) : Int → Except StreamFault Token
  | .ofNat place => outlook place
  | .negSucc places => .error (.before (.negSucc places))

/-- The outlook once the next token is consumed, which the end of the input never is. -/
def past (outlook : Outlook) (token : Token) : Outlook :=
  if token.kind = .endOfInput then outlook else fun place => outlook (place + 1)

end Outlook

/-- The outlook on lexed tokens. Their end stands at all places behind the last of them. -/
def Lexer.Lexed.outlook (lexed : Lexed) : Outlook :=
  Outlook.behind (fun _ => lexed.ending.mapError .overrun) lexed.tokens

theorem Lexer.Lexed.outlook_cons_succ (token : Token) (tokens : List Token)
    (ending : Except Overrun Token) (place : Nat) :
    outlook ⟨token :: tokens, ending⟩ (place + 1) = outlook ⟨tokens, ending⟩ place :=
  Outlook.behind_cons_succ _ token tokens place

namespace Lexer

variable {cursor next : Cursor} {token : Token}

theorem lexFrom_of_token (reads : read cursor = .token token next) :
    lexFrom cursor = { lexFrom next with tokens := token :: (lexFrom next).tokens } := by
  rw [lexFrom]
  split <;> rename_i reads'
  all_goals cases reads.symm.trans reads'
  rfl

theorem lexFrom_of_endOfInput (reads : read cursor = .endOfInput token next) :
    lexFrom cursor = ⟨[], .ok token⟩ := by
  rw [lexFrom]
  split <;> rename_i reads'
  all_goals cases reads.symm.trans reads'
  rfl

theorem lexFrom_of_overrun (reads : read cursor = .overrun next) :
    lexFrom cursor = ⟨[], .error ⟨next.position.offset - 1⟩⟩ := by
  rw [lexFrom]
  split <;> rename_i reads'
  all_goals cases reads.symm.trans reads'
  rfl

/-- A token takes at least one byte. -/
theorem length_tokens_lexFrom_le (cursor : Cursor) :
    (lexFrom cursor).tokens.length ≤ cursor.rest.length := by
  fun_induction lexFrom cursor with
  | case1 cursor token next reads shorter lexed ih =>
      exact Nat.succ_le_of_lt (Nat.lt_of_le_of_lt ih shorter)
  | case2 | case3 => exact Nat.zero_le _

/-- Behind a source there is nothing to skip. -/
theorem Cursor.skip_of_nil (atEnd : cursor.rest = []) : cursor.skip = cursor := by
  rcases cursor with ⟨position, rest⟩
  cases atEnd
  rfl

/-- The end of a source is read again and again. -/
theorem read_of_endOfInput (reads : read cursor = .endOfInput token next) :
    read next = .endOfInput token next := by
  have atEnd : next = cursor.skip ∧ cursor.skip.rest = [] := by
    unfold read readToken at reads
    split at reads
    · rename_i atEnd
      cases reads
      exact ⟨rfl, atEnd⟩
    · split at reads <;> cases reads
  rcases atEnd with ⟨rfl, atEnd⟩
  rw [← reads, read, read, Cursor.skip_of_nil atEnd]

end Lexer

namespace TokenStream

/-- What a stream shows behind its buffer. -/
def supplied (stream : TokenStream) : Outlook :=
  match stream.supply with
  | .source cursor => (lexFrom cursor).outlook
  | .lastToken => fun _ =>
    match stream.buffer.getLast? with
    | some token => .ok token
    | none => .error .exhausted

/-- What a stream shows, whether or not it is buffered already. -/
def shows (stream : TokenStream) : Outlook := stream.supplied.behind stream.buffer

/-- If a stream repeats its last token, that token is of a kind that may stand last. -/
def Repeats (stream : TokenStream) (final : TokenKind → Prop) : Prop :=
  stream.supply = .lastToken →
    ∃ token, stream.buffer.getLast? = some token ∧ final token.kind

/-- The number of tokens that a stream has buffered or is still to lex. -/
def stock (stream : TokenStream) : Nat :=
  match stream.supply with
  | .source cursor => stream.buffer.length + (lexFrom cursor).tokens.length
  | .lastToken => stream.buffer.length

/-- A later state of a stream, before any more tokens are consumed. -/
structure Extends (final : TokenKind → Prop) (stream after : TokenStream) : Prop where
  shows : after.shows = stream.shows
  /-- It handed out the same token last. -/
  last : after.last = stream.last
  /-- It repeats a token of the same sort, if any. -/
  repeats : after.Repeats final
  /-- No token is lost. -/
  stock : stream.stock ≤ after.stock

/-- What an operation on a stream ends in: a result and a state as wanted, or a fault as allowed. -/
def Ends {α : Type} (action : StreamM α) (stream : TokenStream)
    (wanted : α → TokenStream → Prop) (allowed : StreamFault → Prop) : Prop :=
  match action.run.run stream with
  | (.ok result, after) => wanted result after
  | (.error fault, _) => allowed fault

variable {stream : TokenStream} {final : TokenKind → Prop}

/-- No more tokens are left than a stream says. -/
theorem stock_le_bound (stream : TokenStream) : stream.stock ≤ stream.bound := by
  rcases stream with ⟨_ | _, buffer, last⟩
  · exact Nat.add_le_add_left (length_tokens_lexFrom_le _) _
  · exact Nat.le_refl _

theorem Extends.refl (repeats : stream.Repeats final) : Extends final stream stream :=
  ⟨rfl, rfl, repeats, Nat.le_refl _⟩

theorem Extends.trans {middle after : TokenStream} (first : Extends final stream middle)
    (second : Extends final middle after) : Extends final stream after :=
  ⟨second.shows.trans first.shows, second.last.trans first.last, second.repeats,
    Nat.le_trans first.stock second.stock⟩

section Ends

variable {α β : Type} {action : StreamM α} {next : α → StreamM β}
  {middle wanted : α → TokenStream → Prop} {final : β → TokenStream → Prop}
  {allowed allowed' : StreamFault → Prop}

theorem Ends.pure {result : α} (holds : wanted result stream) :
    Ends (Pure.pure result) stream wanted allowed := holds

theorem Ends.throw {fault : StreamFault} (holds : allowed fault) :
    Ends (MonadExcept.throw fault : StreamM α) stream wanted allowed := holds

theorem Ends.allow (ends : Ends action stream wanted allowed)
    (weaken : ∀ fault, allowed fault → allowed' fault) : Ends action stream wanted allowed' := by
  unfold Ends at *
  split at ends
  · exact ends
  · exact weaken _ ends

theorem Ends.mono {wanted' : α → TokenStream → Prop} (ends : Ends action stream wanted allowed)
    (weaken : ∀ result after, wanted result after → wanted' result after) :
    Ends action stream wanted' allowed := by
  unfold Ends at *
  split at ends
  · exact weaken _ _ ends
  · exact ends

theorem Ends.bind (first : Ends action stream middle allowed)
    (rest : ∀ result after, middle result after → Ends (next result) after final allowed) :
    Ends (action >>= next) stream final allowed := by
  unfold Ends at first ⊢
  rw [ExceptT.run_bind, StateT.run_bind]
  rcases runs : action.run.run stream with ⟨fault | result, after⟩
  · rw [runs] at first
    exact first
  · rw [runs] at first
    exact rest result after first

theorem Ends.get_bind {next : TokenStream → StreamM β}
    (rest : Ends (next stream) stream final allowed) :
    Ends (get >>= next) stream final allowed := rest

theorem Ends.set {after : TokenStream} {wanted : Unit → TokenStream → Prop}
    (holds : wanted () after) :
    Ends (MonadStateOf.set after : StreamM Unit) stream wanted allowed := holds

theorem Ends.set_bind {after : TokenStream} {next : Unit → StreamM β}
    (rest : Ends (next ()) after final allowed) :
    Ends (MonadStateOf.set after >>= next) stream final allowed := rest

theorem Ends.modify_bind {change : TokenStream → TokenStream} {next : Unit → StreamM β}
    (rest : Ends (next ()) (change stream) final allowed) :
    Ends (modify change >>= next) stream final allowed := rest

end Ends

/-- The first of the supplied tokens is added to what is buffered. -/
theorem Extends.buffered {after : TokenStream} {token : Token} (last : after.last = stream.last)
    (repeats : after.Repeats final) (stock : stream.stock ≤ after.stock)
    (buffered : after.buffer = stream.buffer ++ [token]) (isNext : stream.supplied 0 = .ok token)
    (isRest : ∀ place, stream.supplied (place + 1) = after.supplied place) :
    Extends final stream after := by
  refine ⟨?_, last, repeats, stock⟩
  rw [TokenStream.shows, buffered]
  exact Outlook.behind_append_singleton isNext isRest stream.buffer

/-- One more token is buffered, if there is one. -/
theorem pull_ends (repeats : stream.Repeats final) :
    Ends pull stream
      (fun _ after => Extends final stream after ∧
        after.buffer.length = stream.buffer.length + 1)
      fun fault => ∀ place, stream.buffer.length ≤ place → stream.shows place = .error fault := by
  rcases stream with ⟨supply, buffer, last⟩
  unfold pull
  refine Ends.get_bind ?_
  cases supply with
  | lastToken =>
      rcases repeats rfl with ⟨token, isLast, isFinal⟩
      change buffer.getLast? = some token at isLast
      have same : buffer.getLast? = (buffer ++ [token]).getLast? := by
        rw [isLast, List.getLast?_concat]
      dsimp only
      rw [isLast]
      refine Ends.set ⟨Extends.buffered rfl ?_ ?_ rfl ?_ ?_, List.length_append⟩
      · exact fun _ => ⟨token, List.getLast?_concat, isFinal⟩
      · simp only [stock, List.length_append]
        exact Nat.le_add_right _ _
      · simp only [supplied, isLast]
      · intro place
        simp only [supplied, same]
  | source cursor =>
      dsimp only
      cases reads : read cursor with
      | token token next =>
          refine Ends.set ⟨Extends.buffered rfl nofun ?_ rfl ?_ ?_, List.length_append⟩
          · simp only [stock, lexFrom_of_token reads, List.length_cons, List.length_append,
              List.length_nil]
            omega
          · simp only [supplied, lexFrom_of_token reads]
            rfl
          · intro place
            simp only [supplied, lexFrom_of_token reads]
            exact Lexed.outlook_cons_succ token _ _ place
      | endOfInput token next =>
          refine Ends.set ⟨Extends.buffered rfl nofun ?_ rfl ?_ ?_, List.length_append⟩
          · simp only [stock, lexFrom_of_endOfInput reads, List.length_append, List.length_nil]
            omega
          · simp only [supplied, lexFrom_of_endOfInput reads]
            rfl
          · intro place
            simp only [supplied, lexFrom_of_endOfInput reads,
              lexFrom_of_endOfInput (read_of_endOfInput reads)]
            rfl
      | overrun next =>
          refine Ends.set_bind (Ends.throw ?_)
          intro place isBehind
          rw [shows, Outlook.behind_of_length_le isBehind]
          simp only [supplied, lexFrom_of_overrun reads]
          rfl

/-- Some more tokens are buffered, if there are as many. -/
theorem pulls_ends (repeats : stream.Repeats final) (count : Nat) :
    Ends (pulls count) stream
      (fun _ after => Extends final stream after ∧
        after.buffer.length = stream.buffer.length + count)
      fun fault => 0 < count ∧ ∀ place, stream.buffer.length + count ≤ place + 1 →
        stream.shows place = .error fault := by
  induction count generalizing stream with
  | zero => exact Ends.pure ⟨.refl repeats, rfl⟩
  | succ count ih =>
      rw [pulls]
      refine ((pull_ends repeats).allow ?_).bind ?_
      · intro fault faults
        exact ⟨Nat.succ_pos count, fun place isBehind => faults place (by omega)⟩
      · rintro _ middle ⟨same, buffered⟩
        refine ((ih same.repeats).mono ?_).allow ?_
        · rintro _ after ⟨same', buffered'⟩
          exact ⟨same.trans same', by omega⟩
        · rintro fault ⟨-, faults⟩
          refine ⟨Nat.succ_pos count, fun place isBehind => ?_⟩
          rw [← same.shows]
          exact faults place (by omega)

/-- Looking ahead shows what is there and consumes nothing. -/
theorem peekAt_ends (repeats : stream.Repeats final) (ahead : Int) :
    Ends (peekAt ahead) stream
      (fun token after => Extends final stream after ∧ stream.shows.ahead ahead = .ok token ∧
        after.buffer[ahead.toNat]? = some token)
      fun fault => stream.shows.ahead ahead = .error fault := by
  unfold peekAt
  refine Ends.get_bind ?_
  cases ahead with
  | ofNat place =>
      have count : (Int.ofNat place + 1).toNat = place + 1 := rfl
      rw [count]
      refine ((pulls_ends repeats _).allow ?_).bind ?_
      · rintro fault ⟨isMore, faults⟩
        exact faults place (by omega)
      · rintro _ after ⟨same, buffered⟩
        refine Ends.get_bind ?_
        have isBuffered : place < after.buffer.length := by omega
        have found := List.getElem?_eq_getElem isBuffered
        rw [found]
        refine Ends.pure ⟨same, ?_, found⟩
        rw [← same.shows]
        exact Outlook.behind_of_getElem? found
  | negSucc places =>
      have noMore : (Int.negSucc places + 1).toNat - stream.buffer.length = 0 := by omega
      rw [noMore]
      exact Ends.throw rfl

/-- Behind a token that may not stand last, the last one is still to come. -/
theorem getLast?_of_repeats {token : Token} {rest : List Token} {last : Span}
    (repeats : Repeats ⟨.lastToken, token :: rest, last⟩ final) (notFinal : ¬final token.kind) :
    rest.getLast? = (token :: rest).getLast? := by
  cases rest with
  | nil =>
      rcases repeats rfl with ⟨ending, isLast, isFinal⟩
      cases isLast
      exact absurd isFinal notFinal
  | cons second rest => rw [List.getLast?_cons_cons]

/-- Dropping the first of the buffered tokens moves the outlook by one place. -/
theorem shows_tail {supply : Supply} {token : Token} {rest : List Token} {last : Span} (span : Span)
    (repeats : Repeats ⟨supply, token :: rest, last⟩ final) (notFinal : ¬final token.kind) :
    Repeats ⟨supply, rest, span⟩ final ∧
      shows ⟨supply, rest, span⟩ = fun place =>
        shows ⟨supply, token :: rest, last⟩ (place + 1) := by
  have supplied_eq : supplied ⟨supply, rest, span⟩ = supplied ⟨supply, token :: rest, last⟩ := by
    cases supply with
    | source cursor => rfl
    | lastToken => simp only [supplied, getLast?_of_repeats repeats notFinal]
  constructor
  · intro isRepeated
    cases isRepeated
    rw [getLast?_of_repeats repeats notFinal]
    exact repeats rfl
  · funext place
    rw [shows, shows, supplied_eq]
    exact (Outlook.behind_cons_succ _ token rest place).symm

/-- Dropping the first of the buffered tokens loses no other. -/
theorem stock_tail (supply : Supply) (token : Token) (rest : List Token) (last span : Span) :
    stock ⟨supply, token :: rest, last⟩ = stock ⟨supply, rest, span⟩ + 1 := by
  cases supply with
  | source cursor => simp only [stock, List.length_cons]; omega
  | lastToken => rfl

/-- Consuming the next token moves the outlook past it, unless it is the last one of a stream that
repeats it and not the end of the input. -/
theorem next_ends (repeats : stream.Repeats final)
    (notLast : ∀ token, stream.shows 0 = .ok token →
      token.kind = .endOfInput ∨ ¬final token.kind) :
    Ends next stream
      (fun token after => stream.shows 0 = .ok token ∧ after.shows = stream.shows.past token ∧
        after.last = token.span ∧ after.Repeats final ∧ stream.stock ≤ after.stock + 1)
      fun fault => stream.shows 0 = .error fault := by
  unfold next peek
  refine (peekAt_ends repeats 0).bind ?_
  rintro token after ⟨same, shown, isFirst⟩
  rcases after with ⟨supply, buffer, last⟩
  rcases buffer with _ | ⟨first, rest⟩
  · cases isFirst
  cases isFirst
  refine Ends.modify_bind (Ends.pure ⟨shown, ?_⟩)
  unfold Outlook.past
  rw [← same.shows]
  by_cases isEnd : token.kind = .endOfInput
  · rw [if_pos isEnd, if_pos isEnd]
    exact ⟨rfl, rfl, same.repeats, Nat.le_succ_of_le same.stock⟩
  · rw [if_neg isEnd, if_neg isEnd]
    have notFinal := (notLast token shown).resolve_left isEnd
    rcases shows_tail token.span same.repeats notFinal with ⟨repeats, moved⟩
    exact ⟨moved, rfl, repeats,
      Nat.le_trans same.stock (Nat.le_of_eq (stock_tail supply token rest last token.span))⟩

end TokenStream

/-- A stream over tokens shows them and then the last of them for ever. -/
theorem TokenStream.shows_ofTokens (tokens : List Token) (last : Token) :
    (TokenStream.ofTokens (tokens ++ [last])).shows = Lexed.outlook ⟨tokens, .ok last⟩ := by
  have buffered : TokenStream.ofTokens (tokens ++ [last]) =
      ⟨.lastToken, tokens ++ [last], .none⟩ := by
    simp [TokenStream.ofTokens]
  rw [buffered, shows, Lexed.outlook]
  refine Outlook.behind_append_singleton rfl ?_ tokens
  intro place
  change Except.ok last = _
  simp [supplied]

end SubsetC
