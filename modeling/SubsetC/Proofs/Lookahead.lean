import SubsetC.Proofs.EagerLexing

/-!
# Transparent lookahead

A stream buffers what it looks at, and a stream over tokens makes up copies of the last of them.
None of that is seen in what it hands out: without all looks ahead, the same calls get the same
tokens and the same spans, and what a look ahead shows is what is consumed later on.

What a stream answers is told by the tokens that it shows and by how many of them are consumed
(`StreamCall.told`, `StreamCall.answers_ends`). The main statement is
`TokenStream.lookahead_transparent`.
-/

namespace SubsetC

open Lexer

/-- A call of an operation of a stream. -/
inductive StreamCall where
  /-- Looks at the next token. -/
  | peek
  /-- Looks at the token some places ahead. -/
  | peekAt (ahead : Nat)
  /-- Consumes the next token. -/
  | next
  /-- Asks for the span of the token handed out last. -/
  | lastSpan
  deriving DecidableEq, Repr

/-- What a stream answers to a call. -/
inductive StreamAnswer where
  | token (token : Token)
  | span (span : Span)
  deriving DecidableEq, Repr

namespace StreamCall

/-- The place ahead that a call looks at. -/
def ahead? : StreamCall → Option Nat
  | peek => some 0
  | peekAt ahead => some ahead
  | next | lastSpan => none

def looksAhead (call : StreamCall) : Bool := call.ahead?.isSome

def answer : StreamCall → StreamM StreamAnswer
  | peek => do pure (.token (← TokenStream.peek))
  | peekAt ahead => do pure (.token (← TokenStream.peekAt ahead))
  | next => do pure (.token (← TokenStream.next))
  | lastSpan => do pure (.span (← TokenStream.lastSpan))

/-- Calls one after another, each with its answer. -/
def answers : List StreamCall → StreamM (List (StreamCall × StreamAnswer))
  | [] => pure []
  | call :: calls => do
    let answer ← call.answer
    let rest ← answers calls
    pure ((call, answer) :: rest)

end StreamCall

/-- What a stream answers to some calls, or the first fault. -/
def TokenStream.log (stream : TokenStream) (calls : List StreamCall) :
    Except StreamFault (List (StreamCall × StreamAnswer)) :=
  ((StreamCall.answers calls).run.run stream).1

/-! ### Told answers -/

namespace StreamCall

/-- The answer to a call, told by the shown tokens, the number of consumed ones and the span of the
token handed out last. -/
def toldAnswer (tokens : Nat → Token) (place : Nat) (last : Span) : StreamCall → StreamAnswer
  | peek | next => .token (tokens place)
  | peekAt ahead => .token (tokens (place + ahead))
  | lastSpan => .span last

/-- The place of the next token after a call. -/
def placeAfter (place : Nat) : StreamCall → Nat
  | next => place + 1
  | peek | peekAt _ | lastSpan => place

/-- The span of the token handed out last after a call. -/
def lastAfter (tokens : Nat → Token) (place : Nat) (last : Span) : StreamCall → Span
  | next => (tokens place).span
  | peek | peekAt _ | lastSpan => last

/-- What is told of calls one after another. -/
def told (tokens : Nat → Token) :
    Nat → Span → List StreamCall → List (StreamCall × StreamAnswer)
  | _, _, [] => []
  | place, last, call :: calls =>
    (call, call.toldAnswer tokens place last) ::
      told tokens (call.placeAfter place) (call.lastAfter tokens place last) calls

variable {tokens : Nat → Token} {place : Nat} {last : Span} {call : StreamCall}
  {calls : List StreamCall}

theorem told_map_fst : (told tokens place last calls).map Prod.fst = calls := by
  induction calls generalizing place last with
  | nil => rfl
  | cons call calls ih => rw [told, List.map_cons, ih]

/-- A look ahead changes neither what comes next nor what came last. -/
theorem looksAhead_stays (tokens : Nat → Token) (place : Nat) (last : Span)
    (looks : call.looksAhead) :
    call.placeAfter place = place ∧ call.lastAfter tokens place last = last := by
  cases call with
  | peek | peekAt => exact ⟨rfl, rfl⟩
  | next | lastSpan => cases looks

theorem told_filter :
    told tokens place last (calls.filter fun call => !call.looksAhead) =
      (told tokens place last calls).filter fun entry => !entry.1.looksAhead := by
  induction calls generalizing place last with
  | nil => rfl
  | cons call calls ih =>
      rcases looks : call.looksAhead with _ | _
      · simp [told, looks, ih]
      · rcases looksAhead_stays tokens place last looks with ⟨samePlace, sameLast⟩
        simp [told, looks, ih, samePlace, sameLast]

/-- What is told of more calls goes on where the calls before them end. -/
theorem exists_told_append (tokens : Nat → Token) (place : Nat) (last : Span)
    (calls : List StreamCall) :
    ∃ here last', ∀ more, told tokens place last (calls ++ more) =
      told tokens place last calls ++ told tokens here last' more := by
  induction calls generalizing place last with
  | nil => exact ⟨place, last, fun _ => rfl⟩
  | cons call calls ih =>
      rcases ih (call.placeAfter place) (call.lastAfter tokens place last) with
        ⟨here, last', goesOn⟩
      refine ⟨here, last', fun more => ?_⟩
      rw [List.cons_append, told, goesOn]
      rfl

/-- The consumed tokens are handed out in their order. -/
theorem told_getElem?_next {later : Nat} (isConsumed : later < calls.count .next) :
    ((told tokens place last calls).filter fun entry => entry.1 = .next)[later]? =
      some (.next, .token (tokens (place + later))) := by
  induction calls generalizing place last later with
  | nil => cases isConsumed
  | cons call calls ih =>
      by_cases isNext : call = .next
      · cases isNext
        cases later with
        | zero => rfl
        | succ later =>
            have moved : place + (later + 1) = StreamCall.placeAfter place .next + later := by
              simp only [placeAfter]
              omega
            rw [List.count_cons_self, Nat.succ_lt_succ_iff] at isConsumed
            rw [told, List.filter_cons_of_pos rfl, List.getElem?_cons_succ, moved]
            exact ih isConsumed
      · have stays : call.placeAfter place = place := by
          cases call with
          | next => exact absurd rfl isNext
          | peek | peekAt | lastSpan => rfl
        rw [List.count_cons_of_ne isNext] at isConsumed
        rw [told, List.filter_cons_of_neg (by simpa using isNext), stays]
        exact ih isConsumed

/-- What is told of one of many calls, and how it goes on there whatever is called next. -/
theorem told_eq_append {before after : List (StreamCall × StreamAnswer)} {answer : StreamAnswer}
    (same : told tokens place last calls = before ++ (call, answer) :: after) :
    ∃ here last', answer = call.toldAnswer tokens here last' ∧
      after = told tokens (call.placeAfter here) (call.lastAfter tokens here last')
        (after.map Prod.fst) ∧
      ∀ more, told tokens place last (before.map Prod.fst ++ more) =
        before ++ told tokens here last' more := by
  have split : calls = before.map Prod.fst ++ call :: after.map Prod.fst := by
    have sameCalls := congrArg (List.map Prod.fst) same
    rw [told_map_fst, List.map_append, List.map_cons] at sameCalls
    exact sameCalls
  rcases exists_told_append tokens place last (before.map Prod.fst) with ⟨here, last', goesOn⟩
  rw [split, goesOn] at same
  rcases List.append_inj same (by rw [← List.length_map, told_map_fst, List.length_map]) with
    ⟨sameBefore, sameAfter⟩
  rw [sameBefore] at goesOn
  rw [told, List.cons.injEq, Prod.mk.injEq] at sameAfter
  rcases sameAfter with ⟨⟨-, isAnswer⟩, isAfter⟩
  exact ⟨here, last', isAnswer.symm, isAfter.symm, goesOn⟩

/-- A look ahead tells the token at its place. -/
theorem toldAnswer_of_ahead? {ahead : Nat} (looks : call.ahead? = some ahead) :
    call.toldAnswer tokens place last = .token (tokens (place + ahead)) := by
  cases call with
  | peek | peekAt =>
      cases looks
      rfl
  | next | lastSpan => cases looks

/-- Where all further tokens are the same, and the last one was too, all answers are about it. -/
theorem told_of_repeats {token : Token} (repeats : ∀ later, tokens (place + later) = token)
    {entry : StreamCall × StreamAnswer} (isEntry : entry ∈ told tokens place token.span calls) :
    entry.2 = if entry.1 = .lastSpan then .span token.span else .token token := by
  induction calls generalizing place with
  | nil => cases isEntry
  | cons call calls ih =>
      rcases List.mem_cons.mp isEntry with rfl | isLater
      · cases call with
        | peek | next => exact congrArg StreamAnswer.token (repeats 0)
        | peekAt ahead => exact congrArg StreamAnswer.token (repeats ahead)
        | lastSpan => rfl
      · cases call with
        | peek | peekAt | lastSpan => exact ih repeats isLater
        | next =>
            have isSame : tokens place = token := repeats 0
            rw [lastAfter, isSame] at isLater
            refine ih (fun later => ?_) isLater
            rw [← repeats (1 + later), placeAfter, Nat.add_assoc]

end StreamCall

/-! ### Streams that hand out tokens -/

/-- Behind the end of the input, tokens repeat it. -/
def RepeatsEnding (tokens : Nat → Token) : Prop :=
  ∀ place, (tokens place).kind = .endOfInput → ∀ later, tokens (place + later) = tokens place

namespace TokenStream

/-- A stream has tokens to hand out, of which some are consumed. -/
structure HandsOut (stream : TokenStream) (tokens : Nat → Token) (place : Nat) : Prop where
  /-- It shows the tokens that are left. -/
  shows : ∀ later, stream.shows later = .ok (tokens (place + later))
  /-- It repeats the end of the input, if anything. -/
  repeats : stream.Repeats (· = .endOfInput)

variable {stream after : TokenStream} {tokens : Nat → Token} {place : Nat}

theorem HandsOut.of_extends (handsOut : stream.HandsOut tokens place)
    (same : Extends (· = .endOfInput) stream after) : after.HandsOut tokens place :=
  ⟨fun later => by rw [same.shows, handsOut.shows], same.repeats⟩

theorem peekAt_handsOut (handsOut : stream.HandsOut tokens place) (ahead : Nat) :
    Ends (peekAt ahead) stream
      (fun token after => token = tokens (place + ahead) ∧ after.last = stream.last ∧
        after.HandsOut tokens place)
      fun _ => False := by
  refine ((peekAt_ends handsOut.repeats ahead).allow ?_).mono ?_
  · intro fault faults
    cases (handsOut.shows ahead).symm.trans faults
  · rintro token after ⟨same, shown, -⟩
    cases (handsOut.shows ahead).symm.trans shown
    exact ⟨rfl, same.last, handsOut.of_extends same⟩

theorem next_handsOut (repeats : RepeatsEnding tokens) (handsOut : stream.HandsOut tokens place) :
    Ends next stream
      (fun token after => token = tokens place ∧ after.last = token.span ∧
        after.HandsOut tokens (place + 1))
      fun _ => False := by
  refine ((next_ends handsOut.repeats fun _ _ => Decidable.em _).allow ?_).mono ?_
  · intro fault faults
    cases (handsOut.shows 0).symm.trans faults
  · rintro token after ⟨shown, moved, last, isRepeated, -⟩
    cases (handsOut.shows 0).symm.trans shown
    refine ⟨rfl, last, fun later => ?_, isRepeated⟩
    rw [moved, Outlook.past, Nat.add_assoc, Nat.add_comm 1 later]
    split
    · rename_i isEnd
      rw [handsOut.shows, repeats place isEnd, repeats place isEnd]
    · exact handsOut.shows (later + 1)

end TokenStream

namespace StreamCall

open TokenStream

variable {stream : TokenStream} {tokens : Nat → Token} {place : Nat}

/-- A stream answers a call as it is told. -/
theorem answer_ends (repeats : RepeatsEnding tokens) (handsOut : stream.HandsOut tokens place)
    (call : StreamCall) :
    Ends call.answer stream
      (fun answer after => answer = call.toldAnswer tokens place stream.last ∧
        after.last = call.lastAfter tokens place stream.last ∧
        after.HandsOut tokens (call.placeAfter place))
      fun _ => False := by
  cases call with
  | peek =>
      refine (peekAt_handsOut handsOut 0).bind ?_
      rintro _ after ⟨rfl, last, left⟩
      exact Ends.pure ⟨rfl, last, left⟩
  | peekAt ahead =>
      refine (peekAt_handsOut handsOut ahead).bind ?_
      rintro _ after ⟨rfl, last, left⟩
      exact Ends.pure ⟨rfl, last, left⟩
  | next =>
      refine (next_handsOut repeats handsOut).bind ?_
      rintro _ after ⟨rfl, last, left⟩
      exact Ends.pure ⟨rfl, last, left⟩
  | lastSpan => exact Ends.get_bind (Ends.pure ⟨rfl, rfl, handsOut⟩)

/-- A stream answers calls one after another as it is told. -/
theorem answers_ends (repeats : RepeatsEnding tokens) (handsOut : stream.HandsOut tokens place)
    (calls : List StreamCall) :
    Ends (answers calls) stream (fun log _ => log = told tokens place stream.last calls)
      fun _ => False := by
  induction calls generalizing stream place with
  | nil => exact Ends.pure rfl
  | cons call calls ih =>
      rw [answers, told]
      refine (answer_ends repeats handsOut call).bind ?_
      rintro _ after ⟨rfl, last, left⟩
      refine (ih left).bind ?_
      rintro _ _ rfl
      rw [last]
      exact Ends.pure rfl

end StreamCall

namespace TokenStream

variable {stream : TokenStream}

theorem log_eq_told {tokens : Nat → Token} (repeats : RepeatsEnding tokens)
    (handsOut : stream.HandsOut tokens 0) (calls : List StreamCall) :
    stream.log calls = .ok (StreamCall.told tokens 0 stream.last calls) := by
  have ends := StreamCall.answers_ends repeats handsOut calls
  unfold Ends at ends
  split at ends
  · rename_i runs
    rw [log, runs, ends]
  · exact ends.elim

/-- A stream over all of an input, up to the end of it. -/
inductive IsWhole : TokenStream → Prop where
  /-- A source without an overrun. -/
  | source {source : Text} {ending : Token} (lexes : (lex source).ending = .ok ending) :
      IsWhole (.ofSource source)
  /-- Tokens of which only the last is the end of the input. -/
  | tokens {tokens : List Token} {ending : Token}
      (others : ∀ token ∈ tokens, token.kind ≠ .endOfInput) (isEnd : ending.kind = .endOfInput) :
      IsWhole (.ofTokens (tokens ++ [ending]))

/-- The tokens of an input by their places, with the end of it behind them. -/
theorem repeatsEnding_getD {tokens : List Token} (ending : Token)
    (others : ∀ token ∈ tokens, token.kind ≠ .endOfInput) :
    RepeatsEnding fun place => tokens[place]?.getD ending := by
  intro place isEnd later
  rcases found : tokens[place]? with _ | token
  · have isBehind : tokens.length ≤ place + later :=
      Nat.le_add_right_of_le (List.getElem?_eq_none_iff.mp found)
    simp only [found, List.getElem?_eq_none isBehind]
  · simp only [found] at isEnd
    exact absurd isEnd (others token (List.mem_of_getElem? found))

theorem outlook_eq_getD (tokens : List Token) (ending : Token) (place : Nat) :
    Lexed.outlook ⟨tokens, .ok ending⟩ place = .ok (tokens[place]?.getD ending) := by
  rw [Lexed.outlook, Outlook.behind]
  rcases tokens[place]? with _ | token
  all_goals rfl

/-- A stream over all of an input hands out its tokens and repeats the end of it. -/
theorem IsWhole.handsOut (isWhole : stream.IsWhole) :
    ∃ tokens, RepeatsEnding tokens ∧ stream.HandsOut tokens 0 := by
  cases isWhole with
  | @source source ending lexes =>
      have others := (lexFrom_isLexed (.start source) 0).tokens
      refine ⟨_, repeatsEnding_getD ending others, fun place => ?_, nofun⟩
      rw [Nat.zero_add, ← outlook_eq_getD, ← lexes]
      rfl
  | @tokens tokens ending others isEnd =>
      refine ⟨_, repeatsEnding_getD ending others, fun place => ?_, fun _ => ?_⟩
      · rw [shows_ofTokens, Nat.zero_add]
        exact outlook_eq_getD tokens ending place
      · exact ⟨ending, by simp [ofTokens], isEnd⟩

/-- Lookahead is transparent. A stream over all of an input answers all calls. Without those that
look ahead, the others are answered in the same way. A look ahead shows what the call for a next
token that is as many calls for one later would get, whatever else is called. Once the end of the
input was handed out, it is all that is. -/
theorem lookahead_transparent (isWhole : stream.IsWhole) (calls : List StreamCall) :
    ∃ log, stream.log calls = .ok log ∧ log.map Prod.fst = calls ∧
      stream.log (calls.filter fun call => !call.looksAhead) =
        .ok (log.filter fun entry => !entry.1.looksAhead) ∧
      (∀ before call answer after ahead, log = before ++ (call, answer) :: after →
        call.ahead? = some ahead → ∀ more : List StreamCall, ahead < more.count .next →
          ∃ entries, stream.log (before.map Prod.fst ++ call :: more) =
              .ok (before ++ (call, answer) :: entries) ∧
            (entries.filter fun entry => entry.1 = .next)[ahead]? = some (.next, answer)) ∧
      ∀ before token after, log = before ++ (.next, .token token) :: after →
        token.kind = .endOfInput → ∀ entry ∈ after,
          entry.2 = if entry.1 = .lastSpan then .span token.span else .token token := by
  rcases isWhole.handsOut with ⟨tokens, repeats, handsOut⟩
  have logs := log_eq_told repeats handsOut
  refine ⟨_, logs calls, StreamCall.told_map_fst, ?_, ?_, ?_⟩
  · rw [logs, StreamCall.told_filter]
  · intro before call answer after ahead split looks more isConsumed
    rcases StreamCall.told_eq_append split with ⟨here, last, isAnswer, -, goesOn⟩
    have isAhead : call.looksAhead := by rw [StreamCall.looksAhead, looks, Option.isSome_some]
    rcases StreamCall.looksAhead_stays tokens here last isAhead with ⟨samePlace, sameLast⟩
    refine ⟨StreamCall.told tokens here last more, ?_, ?_⟩
    · rw [logs, goesOn, StreamCall.told, samePlace, sameLast, isAnswer]
    · rw [StreamCall.told_getElem?_next isConsumed, isAnswer,
        StreamCall.toldAnswer_of_ahead? looks]
  · intro before token after split isEnd
    rcases StreamCall.told_eq_append split with ⟨here, last, isAnswer, isAfter, -⟩
    cases isAnswer
    intro entry isEntry
    rw [isAfter] at isEntry
    refine StreamCall.told_of_repeats (fun later => ?_) isEntry
    rw [StreamCall.placeAfter, Nat.add_assoc, repeats here isEnd]

/-- A look behind a name and its end changes neither the span of the name nor the end. -/
theorem lookahead_transparent_name :
    let stream := ofSource "x"
    let name : Token := ⟨.identifier, "x", ⟨0, 1, 1, 1⟩⟩
    let ending : Token := ⟨.endOfInput, [], ⟨1, 1, 1, 2⟩⟩
    (lex "x").ending = .ok ending ∧
      stream.log [.peekAt 2, .next, .peek, .lastSpan, .next] =
        .ok [(.peekAt 2, .token ending), (.next, .token name), (.peek, .token ending),
          (.lastSpan, .span name.span), (.next, .token ending)] ∧
      stream.log [.next, .lastSpan, .next] =
        .ok [(.next, .token name), (.lastSpan, .span name.span), (.next, .token ending)] := by
  intro stream name ending
  have lexes : (lex "x").ending = .ok ending := by decide +kernel
  have logs : stream.log [.peekAt 2, .next, .peek, .lastSpan, .next] =
      .ok [(.peekAt 2, .token ending), (.next, .token name), (.peek, .token ending),
        (.lastSpan, .span name.span), (.next, .token ending)] := by decide +kernel
  rcases lookahead_transparent (.source lexes) [.peekAt 2, .next, .peek, .lastSpan, .next] with
    ⟨log, logs', -, others, -⟩
  cases logs.symm.trans logs'
  exact ⟨lexes, logs, others⟩

end TokenStream

end SubsetC
