/-!
# Bytes and words

Little-endian words, blocks of a fixed size and the hexadecimal text of bytes, shared by the
digests.
-/

namespace SourceSearch
namespace Digest

/-- The list cut into blocks of `size` elements; the last block may be shorter. -/
def blocks {α : Type} (size : Nat) (list : List α) : List (List α) :=
  (List.range ((list.length + size - 1) / size)).map fun i => (list.drop (i * size)).take size

/-- The word whose bytes are listed from the lowest. -/
def littleEndian (bytes : List UInt8) : UInt32 :=
  bytes.foldr (fun byte word => word * 256 + byte.toUInt32) 0

/-- The words of a block of bytes. -/
def wordsOfBytes (bytes : List UInt8) : Array UInt32 :=
  ((blocks 4 bytes).map littleEndian).toArray

/-- The four bytes of a word from the lowest. -/
def bytesOfWord (word : UInt32) : List UInt8 :=
  [word.toUInt8, (word >>> 8).toUInt8, (word >>> 16).toUInt8, (word >>> 24).toUInt8]

/-- The word rotated to the left, by fewer than 32 places. -/
def rotateLeft (word : UInt32) (places : UInt32) : UInt32 :=
  (word <<< places) ||| (word >>> (32 - places))

/-- The lowercase hexadecimal digit of a number below 16. -/
def hexDigit (n : Nat) : Char :=
  if n < 10 then Char.ofNat ('0'.toNat + n) else Char.ofNat ('a'.toNat + (n - 10))

/-- The two lowercase hexadecimal digits of each byte. -/
def hexDigits (bytes : List UInt8) : List Char :=
  bytes.flatMap fun byte => [hexDigit (byte.toNat / 16), hexDigit (byte.toNat % 16)]

/-- Bytes as lowercase hexadecimal text. -/
def hex (bytes : List UInt8) : String := String.ofList (hexDigits bytes)

end Digest
end SourceSearch
