import SubsetC.Span

/-!
# Tokens

The kinds of tokens, with the spelling of keywords and of punctuation, and tokens with their
literal text and span.
-/

namespace SubsetC

/-- The reserved words. -/
inductive Keyword where
  | int
  | long
  | signed
  | unsigned
  | double
  | char
  | void
  | return
  | if
  | else
  | do
  | while
  | for
  | break
  | continue
  | switch
  | case
  | default
  | static
  | externally
  | sizeof
  deriving DecidableEq, Repr

namespace Keyword

def text : Keyword → Text
  | .int => "int"
  | .long => "long"
  | .signed => "signed"
  | .unsigned => "unsigned"
  | .double => "double"
  | .char => "char"
  | .void => "void"
  | .return => "return"
  | .if => "if"
  | .else => "else"
  | .do => "do"
  | .while => "while"
  | .for => "for"
  | .break => "break"
  | .continue => "continue"
  | .switch => "switch"
  | .case => "case"
  | .default => "default"
  | .static => "static"
  | .externally => "extern"
  | .sizeof => "sizeof"

def all : List Keyword :=
  [.int, .long, .signed, .unsigned, .double, .char, .void, .return, .if, .else, .do, .while,
    .for, .break, .continue, .switch, .case, .default, .static, .externally, .sizeof]

def ofText? (word : Text) : Option Keyword :=
  all.find? fun keyword => keyword.text = word

/-- Whether the keyword is part of a type name. -/
def isType : Keyword → Bool
  | .int | .long | .signed | .unsigned | .double | .char | .void => true
  | _ => false

/-- Whether the keyword can stand among the specifiers of a declaration. -/
def isSpecifier (keyword : Keyword) : Bool :=
  keyword.isType || keyword = .static || keyword = .externally

end Keyword

/-- The operators and delimiters. -/
inductive Punctuator where
  | plus
  | minus
  | star
  | slash
  | percent
  | assign
  | equal
  | notEqual
  | less
  | lessEqual
  | greater
  | greaterEqual
  | andAnd
  | orOr
  | bang
  | ampersand
  | bar
  | caret
  | tilde
  | shiftLeft
  | shiftRight
  | question
  | colon
  | plusAssign
  | minusAssign
  | starAssign
  | slashAssign
  | percentAssign
  | ampersandAssign
  | barAssign
  | caretAssign
  | shiftLeftAssign
  | shiftRightAssign
  | increment
  | decrement
  | leftParen
  | rightParen
  | leftBrace
  | rightBrace
  | leftBracket
  | rightBracket
  | semicolon
  | comma
  deriving DecidableEq, Repr

namespace Punctuator

/-- The spelling of an operator or delimiter. -/
def text : Punctuator → Text
  | .plus => "+"
  | .minus => "-"
  | .star => "*"
  | .slash => "/"
  | .percent => "%"
  | .assign => "="
  | .equal => "=="
  | .notEqual => "!="
  | .less => "<"
  | .lessEqual => "<="
  | .greater => ">"
  | .greaterEqual => ">="
  | .andAnd => "&&"
  | .orOr => "||"
  | .bang => "!"
  | .ampersand => "&"
  | .bar => "|"
  | .caret => "^"
  | .tilde => "~"
  | .shiftLeft => "<<"
  | .shiftRight => ">>"
  | .question => "?"
  | .colon => ":"
  | .plusAssign => "+="
  | .minusAssign => "-="
  | .starAssign => "*="
  | .slashAssign => "/="
  | .percentAssign => "%="
  | .ampersandAssign => "&="
  | .barAssign => "|="
  | .caretAssign => "^="
  | .shiftLeftAssign => "<<="
  | .shiftRightAssign => ">>="
  | .increment => "++"
  | .decrement => "--"
  | .leftParen => "("
  | .rightParen => ")"
  | .leftBrace => "\x7b"
  | .rightBrace => "\x7d"
  | .leftBracket => "["
  | .rightBracket => "]"
  | .semicolon => ";"
  | .comma => ","

/-- All operators and delimiters, the longer spellings first. -/
def all : List Punctuator :=
  [.shiftLeftAssign, .shiftRightAssign,
    .equal, .notEqual, .lessEqual, .greaterEqual, .andAnd, .orOr, .shiftLeft, .shiftRight,
    .plusAssign, .minusAssign, .starAssign, .slashAssign, .percentAssign, .ampersandAssign,
    .barAssign, .caretAssign, .increment, .decrement,
    .plus, .minus, .star, .slash, .percent, .assign, .less, .greater, .bang, .ampersand, .bar,
    .caret, .tilde, .question, .colon, .leftParen, .rightParen, .leftBrace, .rightBrace,
    .leftBracket, .rightBracket, .semicolon, .comma]

/-- The longest operator or delimiter a text starts with. -/
def leading? (text : Text) : Option Punctuator :=
  all.find? fun punctuator => punctuator.text.isPrefixOf text

end Punctuator

inductive TokenKind where
  | endOfInput
  | illegal
  | identifier
  | integer
  | floating
  | character
  | string
  | keyword (word : Keyword)
  | punctuator (mark : Punctuator)
  deriving DecidableEq, Repr

namespace TokenKind

/-- The name of a kind, which is the spelling for keywords, operators and delimiters. -/
def text : TokenKind → Text
  | .endOfInput => "EOF"
  | .illegal => "ILLEGAL"
  | .identifier => "IDENT"
  | .integer => "INT"
  | .floating => "FLOAT"
  | .character => "CHAR"
  | .string => "STRING"
  | .keyword word => word.text
  | .punctuator mark => mark.text

/-- Whether the token can stand among the specifiers of a declaration. -/
def isSpecifier : TokenKind → Bool
  | .keyword word => word.isSpecifier
  | _ => false

end TokenKind

structure Token where
  kind : TokenKind
  /-- The token's text; for character and string literals, the text between the quotes. -/
  literal : Text
  /-- Where the token stands. -/
  span : Span
  deriving DecidableEq, Repr

end SubsetC
