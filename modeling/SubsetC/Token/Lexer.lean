import SubsetC.Token
import SubsetC.Text.Escape

/-!
# Lexing

A source is read token by token. Before each token, white space and comments are skipped; the
token is then the longest word, number, literal, operator or delimiter at that place, and what is
none of these is an illegal token of its own. Reading goes on after an illegal token.

There is one way for reading to fail: a string literal that runs into the end of the source right
after a backslash would have to contain a byte beyond the end.
-/

namespace SubsetC

namespace Lexer

/-! ### Classes of bytes -/

/-- Whether a byte is white space. -/
def isBlank (byte : UInt8) : Bool :=
  byte = 32 || (9 ≤ byte && byte ≤ 13)

def isDigit (byte : UInt8) : Bool :=
  48 ≤ byte && byte ≤ 57

/-- Whether a byte can start an identifier: an ASCII letter, an underscore, or the Latin-1 number
of a letter. -/
def isLetter (byte : UInt8) : Bool :=
  (65 ≤ byte && byte ≤ 90) || (97 ≤ byte && byte ≤ 122) || byte = 95 ||
    byte = 0xaa || byte = 0xb5 || byte = 0xba || (0xc0 ≤ byte && byte != 0xd7 && byte != 0xf7)

/-- Whether a byte can continue an identifier. -/
def isWord (byte : UInt8) : Bool := isLetter byte || isDigit byte

/-- Whether a byte directly after a number makes the number illegal. -/
def isNumberTail (byte : UInt8) : Bool := isWord byte || byte = Text.ofAscii '.'

def startsWith (byte : UInt8) (text : Text) : Bool := text.head? = some byte

/-! ### Gaps between tokens -/

/-- Where the reader stands between two tokens. -/
inductive Gap where
  /-- Outside comments. -/
  | blank
  /-- Inside a comment that ends with its line. -/
  | line
  /-- Before the star of a comment's opening. -/
  | opening
  /-- Inside a comment that ends with a star and a slash. -/
  | block
  /-- Before the slash of a comment's end. -/
  | closing
  deriving DecidableEq, Repr

/-- The source after white space and comments. A null byte ends a comment without belonging to
it, and the end of the source ends every comment. -/
def skipGap : Gap → Text → Text
  | _, [] => []
  | .blank, byte :: rest =>
    if isBlank byte then skipGap .blank rest
    else if byte = Text.ofAscii '/' && startsWith (Text.ofAscii '/') rest then skipGap .line rest
    else if byte = Text.ofAscii '/' && startsWith (Text.ofAscii '*') rest then
      skipGap .opening rest
    else byte :: rest
  | .line, byte :: rest =>
    if byte = Text.ofAscii '\n' then skipGap .blank rest
    else if byte = 0 then byte :: rest
    else skipGap .line rest
  | .opening, _ :: rest => skipGap .block rest
  | .block, byte :: rest =>
    if byte = 0 then byte :: rest
    else if byte = Text.ofAscii '*' && startsWith (Text.ofAscii '/') rest then
      skipGap .closing rest
    else skipGap .block rest
  | .closing, _ :: rest => skipGap .blank rest

/-! ### Numbers -/

/-- The fraction at the start of a text: a point and the digits after it. -/
def fraction (text : Text) : Text :=
  match text with
  | byte :: rest => if byte = Text.ofAscii '.' then byte :: rest.takeWhile isDigit else []
  | [] => []

/-- The sign at the start of a text. -/
def sign (text : Text) : Text :=
  match text with
  | byte :: _ => if byte = Text.ofAscii '+' ∨ byte = Text.ofAscii '-' then [byte] else []
  | [] => []

/-- The exponent at the start of a text, with its mark and sign, and whether it has digits. A text
without the mark has no exponent to complain about. -/
def exponent (text : Text) : Text × Bool :=
  match text with
  | byte :: rest =>
    if byte = Text.ofAscii 'e' ∨ byte = Text.ofAscii 'E' then
      let sign := sign rest
      let digits := (rest.drop sign.length).takeWhile isDigit
      (byte :: sign ++ digits, !digits.isEmpty)
    else ([], true)
  | [] => ([], true)

/-- Whether a byte is the suffix of unsigned numbers. -/
def isUnsignedMark (byte : UInt8) : Bool :=
  byte = Text.ofAscii 'u' || byte = Text.ofAscii 'U'

/-- Whether a byte is the suffix of long numbers. -/
def isLongMark (byte : UInt8) : Bool :=
  byte = Text.ofAscii 'l' || byte = Text.ofAscii 'L'

/-- The integer suffix at the start of a text: at most one mark of each sort. -/
def integerSuffix (text : Text) : Text :=
  match text with
  | first :: second :: _ =>
    if (isUnsignedMark first && isLongMark second) || (isLongMark first && isUnsignedMark second)
    then [first, second]
    else if isUnsignedMark first || isLongMark first then [first]
    else []
  | [first] => if isUnsignedMark first || isLongMark first then [first] else []
  | [] => []

/-- The number at the start of a text that starts with a digit, or with a point and a digit. A
number that runs into a letter, a digit or a point is illegal and extends over all of these. -/
def number (text : Text) : TokenKind × Text :=
  let whole := text.takeWhile isDigit
  let afterWhole := text.drop whole.length
  let fraction := fraction afterWhole
  let afterFraction := afterWhole.drop fraction.length
  let (exponent, wellFormed) := exponent afterFraction
  let afterExponent := afterFraction.drop exponent.length
  let isFloating := !fraction.isEmpty || !exponent.isEmpty
  let suffix := if isFloating then [] else integerSuffix afterExponent
  let rest := afterExponent.drop suffix.length
  let tail := rest.takeWhile isNumberTail
  let literal := whole ++ fraction ++ exponent ++ suffix
  if wellFormed && tail.isEmpty then
    (if isFloating then .floating else .integer, literal)
  else
    (.illegal, literal ++ tail)

/-! ### Literals -/

/-- How the body of a string literal ends. -/
inductive StringEnd where
  | closed
  /-- At a newline, a null byte or the end of the source. -/
  | broken
  /-- Beyond the end of the source. -/
  | overrun
  deriving DecidableEq, Repr

/-- The body of a string literal after its opening quote. -/
def stringBody : Text → Text × StringEnd
  | [] => ([], .broken)
  | byte :: rest =>
    if byte = Text.ofAscii '"' then ([], .closed)
    else if byte = 0 ∨ byte = Text.ofAscii '\n' then ([], .broken)
    else if byte = Text.ofAscii '\\' then
      match rest with
      | [] => ([byte], .overrun)
      | escaped :: rest =>
        let (body, ending) := stringBody rest
        (byte :: escaped :: body, ending)
    else
      let (body, ending) := stringBody rest
      (byte :: body, ending)

/-- The body of a character literal after its opening quote, and whether it is acceptable. -/
def characterBody : Text → Text × Bool
  | [] => ([], false)
  | byte :: rest =>
    if byte = Text.ofAscii '\'' ∨ byte = Text.ofAscii '\n' ∨ byte = 0 then ([], false)
    else if byte = Text.ofAscii '\\' then
      match rest with
      | escaped :: _ => if Text.isEscapable escaped then ([byte, escaped], true) else ([byte], false)
      | [] => ([byte], false)
    else ([byte], true)

/-! ### Tokens -/

/-- A token without its place in the source. -/
structure Lexeme where
  kind : TokenKind
  /-- The token's text. -/
  literal : Text
  /-- The number of bytes the token takes after its first one. -/
  extra : Nat
  deriving DecidableEq, Repr

/-- The token whose literal is all of its text. -/
def Lexeme.ofLiteral (kind : TokenKind) (literal : Text) : Lexeme :=
  ⟨kind, literal, literal.length - 1⟩

/-- The token at the start of a text, which does not start with a gap. No token means that the
text starts with a string literal that overruns it. -/
def lexeme? (lead : UInt8) (rest : Text) : Option Lexeme :=
  let text := lead :: rest
  match Punctuator.leading? text with
  | some punctuator => some (.ofLiteral (.punctuator punctuator) punctuator.text)
  | none =>
    if lead = Text.ofAscii '"' then
      match stringBody rest with
      | (body, .closed) => some ⟨.string, body, body.length + 1⟩
      | (body, .broken) => some (.ofLiteral .illegal (lead :: body))
      | (_, .overrun) => none
    else if lead = Text.ofAscii '\'' then
      let (body, acceptable) := characterBody rest
      if acceptable && startsWith (Text.ofAscii '\'') (rest.drop body.length) then
        some ⟨.character, body, body.length + 1⟩
      else
        some (.ofLiteral .illegal (lead :: body))
    else if isDigit lead || (lead = Text.ofAscii '.' && (rest.head?.any isDigit)) then
      let (kind, literal) := number text
      some (.ofLiteral kind literal)
    else if isLetter lead then
      let word := text.takeWhile isWord
      let kind :=
        match Keyword.ofText? word with
        | some keyword => .keyword keyword
        | none => .identifier
      some (.ofLiteral kind word)
    else
      some ⟨.illegal, String.utf8EncodeChar (Char.ofUInt8 lead), 0⟩

/-- The rest of a source, and the place where it starts. -/
structure Cursor where
  /-- The place of the first byte of the rest. -/
  position : Position
  /-- The bytes that are still to be read. -/
  rest : Text
  deriving DecidableEq, Repr

namespace Cursor

def start (source : Text) : Cursor := ⟨.start, source⟩

/-- The cursor after some more bytes. -/
def advance (cursor : Cursor) (width : Nat) : Cursor :=
  ⟨cursor.position.advance (cursor.rest.take width), cursor.rest.drop width⟩

/-- The cursor after white space and comments. -/
def skip (cursor : Cursor) : Cursor :=
  cursor.advance (cursor.rest.length - (skipGap .blank cursor.rest).length)

/-- The cursor one byte beyond the end of its source. -/
def overrun (cursor : Cursor) : Cursor :=
  let position := cursor.position.advance cursor.rest
  ⟨{ position with offset := position.offset + 1, column := position.column + 1 }, []⟩

end Cursor

/-- What reading at a cursor yields, with the cursor it leaves behind. -/
inductive Reading where
  | token (token : Token) (next : Cursor)
  /-- The end of the source. -/
  | endOfInput (token : Token) (next : Cursor)
  /-- A string literal that would end beyond the source. -/
  | overrun (next : Cursor)

/-- The token at a cursor that does not stand before a gap. -/
def readToken (cursor : Cursor) : Reading :=
  match cursor.rest with
  | [] => .endOfInput ⟨.endOfInput, [], .ofWidth cursor.position 0⟩ cursor
  | lead :: rest =>
    match lexeme? lead rest with
    | some ⟨kind, literal, extra⟩ =>
      .token ⟨kind, literal, .ofWidth cursor.position (extra + 1)⟩ (cursor.advance (extra + 1))
    | none => .overrun cursor.overrun

/-- The next token after a cursor. -/
def read (cursor : Cursor) : Reading := readToken cursor.skip

theorem Cursor.length_advance_le (cursor : Cursor) (width : Nat) :
    (cursor.advance width).rest.length ≤ cursor.rest.length := by
  simp [Cursor.advance]

/-- Reading a token leaves less to read. -/
theorem length_lt_of_read_token {cursor next : Cursor} {token : Token}
    (reads : read cursor = .token token next) : next.rest.length < cursor.rest.length := by
  have skipped : cursor.skip.rest.length ≤ cursor.rest.length := cursor.length_advance_le _
  unfold read readToken at reads
  split at reads
  · cases reads
  · rename_i lead rest shape
    split at reads
    · cases reads
      simp only [Cursor.advance, List.length_drop]
      have : 0 < cursor.skip.rest.length := by simp [shape]
      omega
    · cases reads

/-- The failure of a string literal that would end beyond the source. -/
structure Overrun where
  /-- The number of bytes of the source. -/
  length : Nat
  deriving DecidableEq, Repr

/-- All tokens of a source before its end. -/
structure Lexed where
  /-- The tokens, illegal ones included. -/
  tokens : List Token
  /-- The token for the end of the source, unless a string literal overruns it. -/
  ending : Except Overrun Token

/-- The tokens from a cursor on. -/
def lexFrom (cursor : Cursor) : Lexed :=
  match reads : read cursor with
  | .token token next =>
    have := length_lt_of_read_token reads
    let lexed := lexFrom next
    { lexed with tokens := token :: lexed.tokens }
  | .endOfInput token _ => ⟨[], .ok token⟩
  | .overrun next => ⟨[], .error ⟨next.position.offset - 1⟩⟩
termination_by cursor.rest.length

/-- The tokens of a source. -/
def lex (source : Text) : Lexed := lexFrom (.start source)

namespace Lexed

def illegal? (lexed : Lexed) : Option Token :=
  lexed.tokens.find? fun token => token.kind = .illegal

/-- The tokens through the first illegal one, or else through the end of the source. -/
def throughIllegal (lexed : Lexed) : Except Overrun (List Token) :=
  let legal := lexed.tokens.takeWhile fun token => token.kind ≠ .illegal
  match lexed.illegal? with
  | some illegal => .ok (legal ++ [illegal])
  | none => lexed.ending.map fun ending => legal ++ [ending]

end Lexed

/-- The tokens of a source through the first illegal one, or else through its end. -/
def tokenize (source : Text) : Except Overrun (List Token) := (lex source).throughIllegal

end Lexer

end SubsetC
