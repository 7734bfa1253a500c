import SubsetC.Text

/-!
# Reading UTF-8

A text is read one character at a time. A character is accepted only in its shortest encoding, and
surrogates and numbers beyond the last code point are refused, so each character has exactly one
accepted encoding.
-/

namespace SubsetC

namespace Text

/-- The six payload bits of a continuation byte. -/
def continuation? (byte : UInt8) : Option Nat :=
  if byte &&& 0xc0 = 0x80 then some (byte &&& 0x3f).toNat else none

/-- The character of a code point that is at least as large as its encoding's length demands. -/
def character? (least codePoint : Nat) : Option Char :=
  if least ≤ codePoint ∧ codePoint.isValidChar then some (Char.ofNat codePoint) else none

/-- The character a text starts with, and the bytes after it. -/
def decodeChar? : Text → Option (Char × Text)
  | [] => none
  | lead :: rest =>
    if lead < 0x80 then
      some (Char.ofNat lead.toNat, rest)
    else if lead &&& 0xe0 = 0xc0 then
      match rest with
      | second :: rest => do
        let low ← continuation? second
        let character ← character? 0x80 ((lead &&& 0x1f).toNat * 64 + low)
        pure (character, rest)
      | _ => none
    else if lead &&& 0xf0 = 0xe0 then
      match rest with
      | second :: third :: rest => do
        let high ← continuation? second
        let low ← continuation? third
        let character ← character? 0x800 (((lead &&& 0x0f).toNat * 64 + high) * 64 + low)
        pure (character, rest)
      | _ => none
    else if lead &&& 0xf8 = 0xf0 then
      match rest with
      | second :: third :: fourth :: rest => do
        let high ← continuation? second
        let middle ← continuation? third
        let low ← continuation? fourth
        let character ← character? 0x10000
          ((((lead &&& 0x07).toNat * 64 + high) * 64 + middle) * 64 + low)
        pure (character, rest)
      | _ => none
    else
      none

end Text

end SubsetC
