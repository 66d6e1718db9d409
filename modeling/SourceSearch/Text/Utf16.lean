/-!
# UTF-16 code units

A character of the basic plane is one unit; any other is a pair of surrogates.
-/

namespace SourceSearch
namespace Text

/-- The UTF-16 code units of a character. -/
def charUnits (c : Char) : List Nat :=
  if c.toNat < 0x10000 then [c.toNat]
  else
    let offset := c.toNat - 0x10000
    [0xD800 + offset / 0x400, 0xDC00 + offset % 0x400]

/-- The UTF-16 code units of a text. -/
def units (text : List Char) : List Nat := text.flatMap charUnits

end Text
end SourceSearch
