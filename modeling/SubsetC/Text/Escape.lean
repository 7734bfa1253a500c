import SubsetC.Text

/-!
# Escapes of C literals

`escape` writes the bytes of a string the way dumps show them, and `unescape` reads the body of a
character or string literal.
-/

namespace SubsetC

namespace Text

/-- A byte of a string as dumps show it. -/
def escapeByte (byte : UInt8) : Text :=
  if byte = ofAscii '"' ∨ byte = ofAscii '\\' then
    [ofAscii '\\', byte]
  else if byte = ofAscii '\n' then
    "\\n"
  else if byte = ofAscii '\t' then
    "\\t"
  else if byte = 0 then
    "\\0"
  else if 0x20 ≤ byte ∧ byte < 0x7f then
    [byte]
  else
    "\\x" ++ hex 2 byte.toNat

/-- The bytes of a string as dumps show them. -/
def escape (bytes : Text) : Text :=
  bytes.flatMap escapeByte

/-- The byte a backslash and the given byte stand for; a byte without a meaning of its own stands
for itself. -/
def escapedByte (byte : UInt8) : UInt8 :=
  match Char.ofUInt8 byte with
  | 'a' => 7
  | 'b' => 8
  | 't' => 9
  | 'n' => 10
  | 'v' => 11
  | 'f' => 12
  | 'r' => 13
  | '0' => 0
  | _ => byte

/-- Whether a byte may follow a backslash in a character literal. -/
def isEscapable (byte : UInt8) : Bool :=
  Char.ofUInt8 byte ∈ ['\'', '"', '?', '\\', 'a', 'b', 'f', 'n', 'r', 't', 'v', '0']

/-- The bytes the body of a literal denotes. A backslash at its very end stands for itself. -/
def unescape : Text → Text
  | [] => []
  | [byte] => [byte]
  | byte :: next :: rest =>
    if byte = ofAscii '\\' then
      escapedByte next :: unescape rest
    else
      byte :: unescape (next :: rest)

end Text

end SubsetC
