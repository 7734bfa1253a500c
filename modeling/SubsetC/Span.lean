import SubsetC.Text

/-!
# Source spans

Offsets and columns count bytes. In a source, lines and columns start at one.
-/

namespace SubsetC

/-- A place between two bytes of a source. -/
structure Position where
  /-- The number of bytes before the place. -/
  offset : Nat
  /-- One more than the number of newlines before it. -/
  line : Nat
  /-- One more than the number of bytes between the last newline and the place. -/
  column : Nat
  deriving DecidableEq, Repr

namespace Position

/-- The place before the first byte. -/
def start : Position := ⟨0, 1, 1⟩

/-- The place after one more byte. -/
def step (position : Position) (byte : UInt8) : Position :=
  if byte = Text.ofAscii '\n' then ⟨position.offset + 1, position.line + 1, 1⟩
  else ⟨position.offset + 1, position.line, position.column + 1⟩

/-- The place after a text. -/
def advance (position : Position) (text : Text) : Position :=
  text.foldl step position

end Position

/-- A stretch of text, with the line and column of its start. Any numbers make a span, whether or
not there is such a place in a source. -/
structure Span where
  /-- The offset of the first byte. -/
  start : Int
  /-- The offset after the last byte. -/
  stop : Int
  /-- The line of the first byte. -/
  line : Int
  /-- The column of the first byte. -/
  column : Int
  deriving DecidableEq, Repr, Inhabited

namespace Span

/-- The span of nothing, before any source. -/
def none : Span := ⟨0, 0, 0, 0⟩

/-- The span that starts at a position and has the given width. -/
def ofWidth (position : Position) (width : Nat) : Span :=
  ⟨position.offset, position.offset + width, position.line, position.column⟩

/-- The span from the start of one span through the end of another that may end later. -/
def through (span other : Span) : Span :=
  { span with stop := max span.stop other.stop }

/-- The line and column, as messages show them. -/
def text (span : Span) : Text :=
  Text.ofInt span.line ++ ":" ++ Text.ofInt span.column

end Span

end SubsetC
