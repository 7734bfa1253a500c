import SubsetC.Text.Utf8
import SubsetC.Text.Printable

/-!
# Quoted texts

A text inside double quotes, as token dumps and messages show it. Printable characters stand for
themselves; the quote, the backslash and everything else are escaped, and bytes that are not UTF-8
are escaped one by one.
-/

namespace SubsetC

namespace Text

/-- The letter of a one-letter escape for a control character. -/
def controlLetter? (character : Char) : Option Char :=
  match character.toNat with
  | 7 => some 'a'
  | 8 => some 'b'
  | 9 => some 't'
  | 10 => some 'n'
  | 11 => some 'v'
  | 12 => some 'f'
  | 13 => some 'r'
  | _ => none

/-- A character as it stands between quotes. -/
def quoteChar (character : Char) : Text :=
  if character = '"' ∨ character = '\\' then
    [ofAscii '\\', ofAscii character]
  else if isPrintable character then
    String.utf8EncodeChar character
  else
    match controlLetter? character with
    | some letter => [ofAscii '\\', ofAscii letter]
    | none =>
      let codePoint := character.toNat
      if codePoint < 0x20 ∨ codePoint = 0x7f then
        "\\x" ++ hex 2 codePoint
      else if codePoint < 0x10000 then
        "\\u" ++ hex 4 codePoint
      else
        "\\U" ++ hex 8 codePoint

/-- The text between the quotes, after skipping the pending bytes of the character before. -/
def quoteBody : (pending : Nat) → Text → Text
  | _, [] => []
  | pending + 1, _ :: rest => quoteBody pending rest
  | 0, lead :: rest =>
    match decodeChar? (lead :: rest) with
    | some (character, after) =>
      quoteChar character ++ quoteBody (rest.length - after.length) rest
    | none => "\\x" ++ hex 2 lead.toNat ++ quoteBody 0 rest

def quote (text : Text) : Text :=
  "\"" ++ quoteBody 0 text ++ "\""

end Text

end SubsetC
