import SourceSearch.Text.Utf8

/-!
# Quoted text in JSON

The written form of a text between its quotes.  Writing escapes the quote, the backslash and the
control bytes, and leaves every other byte of the UTF-8 form as it is.  Reading also knows `\/` and
`\u` escapes of any character; surrogates have to come in pairs.
-/

namespace SourceSearch
namespace Json

/-- The byte of an ASCII character. -/
def byte (c : Char) : UInt8 := c.toUInt8

/-- The byte of a hexadecimal digit below 16. -/
def hexByte (n : Nat) : UInt8 := if n < 10 then UInt8.ofNat (0x30 + n) else UInt8.ofNat (0x57 + n)

/-- The value of a hexadecimal digit, of either case. -/
def hexValue? (digit : UInt8) : Option Nat :=
  if 0x30 ≤ digit && digit ≤ 0x39 then some (digit.toNat - 0x30)
  else if 0x61 ≤ digit && digit ≤ 0x66 then some (digit.toNat - 0x57)
  else if 0x41 ≤ digit && digit ≤ 0x46 then some (digit.toNat - 0x37)
  else none

/-- The written form of one byte of a text. -/
def escapeByte (b : UInt8) : List UInt8 :=
  if b = byte '"' then [byte '\\', byte '"']
  else if b = byte '\\' then [byte '\\', byte '\\']
  else if b = 0x08 then [byte '\\', byte 'b']
  else if b = 0x0C then [byte '\\', byte 'f']
  else if b = 0x0A then [byte '\\', byte 'n']
  else if b = 0x0D then [byte '\\', byte 'r']
  else if b = 0x09 then [byte '\\', byte 't']
  else if b < 0x20 then
    [byte '\\', byte 'u', byte '0', byte '0', hexByte (b.toNat / 16), hexByte (b.toNat % 16)]
  else [b]

/-- The written form of a text, without the quotes around it. -/
def escape (text : String) : List UInt8 := text.toUTF8.data.toList.flatMap escapeByte

/-- The byte that a one-letter escape stands for. -/
def letterEscape? (letter : UInt8) : Option UInt8 :=
  if letter = byte '"' ∨ letter = byte '\\' ∨ letter = byte '/' then some letter
  else if letter = byte 'b' then some 0x08
  else if letter = byte 'f' then some 0x0C
  else if letter = byte 'n' then some 0x0A
  else if letter = byte 'r' then some 0x0D
  else if letter = byte 't' then some 0x09
  else none

/-- The value of four hexadecimal digits. -/
def hexQuad? (a b c d : UInt8) : Option Nat := do
  let a ← hexValue? a
  let b ← hexValue? b
  let c ← hexValue? c
  let d ← hexValue? d
  return ((a * 16 + b) * 16 + c) * 16 + d

/-- The code unit opens a surrogate pair. -/
def isLeading (unit : Nat) : Bool := 0xD800 ≤ unit && unit < 0xDC00

/-- The code unit closes a surrogate pair. -/
def isTrailing (unit : Nat) : Bool := 0xDC00 ≤ unit && unit < 0xE000

/-- The bytes of the character with a given code point. -/
def encodePoint (point : Nat) : List UInt8 := String.utf8EncodeChar (Char.ofNat point)

/-- The bytes that a written text stands for, or `none` at a broken escape. -/
def unescape : List UInt8 → Option (List UInt8)
  | [] => some []
  | a :: rest =>
      if a ≠ byte '\\' then (unescape rest).map (a :: ·)
      else match rest with
        | [] => none
        | letter :: rest =>
            if letter ≠ byte 'u' then do
              let b ← letterEscape? letter
              let bytes ← unescape rest
              return b :: bytes
            else match rest with
              | h₁ :: h₂ :: h₃ :: h₄ :: rest => do
                  let unit ← hexQuad? h₁ h₂ h₃ h₄
                  if isTrailing unit then none
                  else if !isLeading unit then
                    let bytes ← unescape rest
                    return encodePoint unit ++ bytes
                  else match rest with
                    | s :: u :: l₁ :: l₂ :: l₃ :: l₄ :: rest => do
                        let low ← hexQuad? l₁ l₂ l₃ l₄
                        if s ≠ byte '\\' ∨ u ≠ byte 'u' ∨ !isTrailing low then none
                        else
                          let bytes ← unescape rest
                          return encodePoint
                            (0x10000 + (unit - 0xD800) * 0x400 + (low - 0xDC00)) ++ bytes
                    | _ => none
              | _ => none

/-- The text of a written form. -/
def readText? (written : List UInt8) : Option String := unescape written >>= Text.ofBytes?

end Json
end SourceSearch
