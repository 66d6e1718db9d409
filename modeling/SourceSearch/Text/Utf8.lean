/-!
# Reading UTF-8

Two readings of bytes as text: the strict one refuses bytes that are not well-formed UTF-8, the
lossy one puts one replacement character in the place of each maximal invalid run.
-/

namespace SourceSearch
namespace Text

/-- The replacement character, which stands for bytes that encode nothing. -/
def replacement : Char := '\uFFFD'

/-- The number of bytes announced by a lead byte; 0 for a byte that starts no sequence. -/
def sequenceLength (lead : UInt8) : Nat :=
  if lead < 0x80 then 1
  else if lead < 0xC2 then 0
  else if lead < 0xE0 then 2
  else if lead < 0xF0 then 3
  else if lead < 0xF5 then 4
  else 0

/-- A continuation byte in the third or fourth place. -/
def isContinuation (byte : UInt8) : Bool := 0x80 ≤ byte && byte ≤ 0xBF

/-- A second byte that may follow the lead byte: overlong forms, surrogates and values above the
last code point are excluded here. -/
def mayFollow (lead second : UInt8) : Bool :=
  let low := if lead == 0xE0 then 0xA0 else if lead == 0xF0 then 0x90 else 0x80
  let high := if lead == 0xED then 0x9F else if lead == 0xF4 then 0x8F else 0xBF
  low ≤ second && second ≤ high

/-- The character of a two-byte sequence. -/
def twoBytes (a b : UInt8) : Char :=
  Char.ofNat ((a.toNat % 0x20) * 0x40 + b.toNat % 0x40)

/-- The character of a three-byte sequence. -/
def threeBytes (a b c : UInt8) : Char :=
  Char.ofNat ((a.toNat % 0x10) * 0x1000 + (b.toNat % 0x40) * 0x40 + c.toNat % 0x40)

/-- The character of a four-byte sequence. -/
def fourBytes (a b c d : UInt8) : Char :=
  Char.ofNat ((a.toNat % 0x08) * 0x40000 + (b.toNat % 0x40) * 0x1000 +
    (c.toNat % 0x40) * 0x40 + d.toNat % 0x40)

/-- Read bytes as UTF-8, with one replacement character for each maximal run of bytes that begins
like a sequence but is none. -/
def decodeLossy : List UInt8 → List Char
  | [] => []
  | a :: afterA =>
      let length := sequenceLength a
      if length = 0 then replacement :: decodeLossy afterA
      else if length = 1 then Char.ofNat a.toNat :: decodeLossy afterA
      else match afterA with
        | [] => [replacement]
        | b :: afterB =>
            if !mayFollow a b then replacement :: decodeLossy (b :: afterB)
            else if length = 2 then twoBytes a b :: decodeLossy afterB
            else match afterB with
              | [] => [replacement]
              | c :: afterC =>
                  if !isContinuation c then replacement :: decodeLossy (c :: afterC)
                  else if length = 3 then threeBytes a b c :: decodeLossy afterC
                  else match afterC with
                    | [] => [replacement]
                    | d :: afterD =>
                        if !isContinuation d then replacement :: decodeLossy (d :: afterD)
                        else fourBytes a b c d :: decodeLossy afterD

/-- The text of a byte array, invalid runs replaced. -/
def ofBytesLossy (bytes : ByteArray) : String :=
  String.ofList (decodeLossy bytes.data.toList)

/-- The text of a byte list, if it is well-formed UTF-8. -/
def ofBytes? (bytes : List UInt8) : Option String :=
  String.fromUTF8? ⟨bytes.toArray⟩

end Text
end SourceSearch
