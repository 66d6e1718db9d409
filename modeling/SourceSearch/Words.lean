import SourceSearch.Text.Basic
import SourceSearch.Text.Lowercase

/-!
# The words of a text

A line is lowercased and cut at a fixed set of delimiters.  Words are the pieces of at least three
characters; shorter pieces are tokens of the line but no words of the text.
-/

namespace SourceSearch

/-- The lowercase form of a text. -/
def lowercase (text : String) : String := String.ofList (Text.lowercase text.toList)

/-- The lines of a text, without their ends. -/
def lines (text : String) : List String := (Text.lines text.toList).map String.ofList

/-- The text without leading and trailing blanks. -/
def trim (text : String) : String := String.ofList (Text.trim text.toList)

/-- `part` occurs in `whole` as a run of consecutive characters. -/
def occursIn (part whole : String) : Bool := Text.occursIn part.toList whole.toList

namespace Words

/-- The characters that separate tokens. -/
def separates (c : Char) : Bool :=
  c ∈ [' ', '/', '+', '-', '*', '\t', '\n', '\r', '.', ':', ';', ',', '(', ')', '{', '}', '[', ']']

/-- The lowercased tokens of a line, of any length but not empty. -/
def split (line : String) : List String :=
  let pieces := (Text.lowercase line.toList).splitOnP separates
  ((pieces.map Text.trim).filter (!·.isEmpty)).map String.ofList

/-- The least number of characters of a word. -/
def minLength : Nat := 3

/-- The words of a text in the order of the text, with repetitions. -/
def ofText (text : String) : List String :=
  ((lines text).flatMap split).filter (minLength ≤ ·.length)

/-- The words of a text in the order of their first occurrence. -/
def distinct (text : String) : List String := (ofText text).eraseDups

end Words
end SourceSearch
