/-!
# Text as lists of characters

Blank characters, trimming, splitting into lines and into blank-separated tokens, and the
windows of a fixed width.  A `String` is taken apart into its characters, so every function here
is structural recursion or a list operation.
-/

namespace SourceSearch
namespace Text

/-- The characters with the Unicode property `White_Space`. -/
def isBlank (c : Char) : Bool :=
  let n := c.toNat
  (0x09 ≤ n && n ≤ 0x0D) || n == 0x20 || n == 0x85 || n == 0xA0 || n == 0x1680 ||
    (0x2000 ≤ n && n ≤ 0x200A) || n == 0x2028 || n == 0x2029 || n == 0x202F || n == 0x205F ||
    n == 0x3000

/-- The text without its trailing characters that satisfy `p`. -/
def dropTrailing (p : Char → Bool) (text : List Char) : List Char :=
  (text.reverse.dropWhile p).reverse

/-- The text without leading and trailing blanks. -/
def trim (text : List Char) : List Char :=
  dropTrailing isBlank (text.dropWhile isBlank)

/-- The maximal runs of characters that are not blank. -/
def tokens (text : List Char) : List (List Char) :=
  (text.splitOnP isBlank).filter (!·.isEmpty)

/-- One line as it stands before a line feed: a carriage return at its end belongs to the break. -/
def endLine (line : List Char) : List Char :=
  match line.getLast? with
  | some '\r' => line.dropLast
  | _ => line

/-- Turn the pieces between line feeds into lines.  The last piece was not ended by a line feed:
it counts as a line only if it holds something, and it keeps a carriage return. -/
def endLines : List (List Char) → List (List Char)
  | [] => []
  | [last] => if last.isEmpty then [] else [last]
  | piece :: next :: rest => endLine piece :: endLines (next :: rest)

/-- The lines of a text, ended by `\n` or `\r\n`; a final line may lack its end. -/
def lines (text : List Char) : List (List Char) :=
  endLines (text.splitOn '\n')

/-- `part` occurs in `whole` as a run of consecutive characters. -/
def occursIn (part : List Char) : List Char → Bool
  | [] => part.isEmpty
  | whole@(_ :: rest) => part.isPrefixOf whole || occursIn part rest

/-- Every run of `width` consecutive characters, from left to right, with repetitions. -/
def windows (width : Nat) : List Char → List (List Char)
  | [] => []
  | text@(_ :: rest) =>
      if width ≤ text.length then text.take width :: windows width rest else []

end Text
end SourceSearch
