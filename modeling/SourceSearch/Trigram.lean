import SourceSearch.Sorted.Map
import SourceSearch.Sorted.Set
import SourceSearch.Words

/-!
# Trigrams

A trigram is three consecutive characters of a word.  Trigrams never span a delimiter, because
they are taken from words.  The frequency of a trigram counts the word occurrences that contain it,
so a word with the same trigram twice counts once.
-/

namespace SourceSearch

/-- Three consecutive characters of a word, kept as text. -/
abbrev Trigram := String

namespace Trigram

/-- Every window of three characters of a word, from left to right, with repetitions. -/
def windows (word : String) : List Trigram :=
  (Text.windows 3 word.toList).map String.ofList

/-- The trigrams of one word, which is taken as it stands. -/
def ofWord (word : String) : SortedSet Trigram := .ofList (windows word)

/-- The trigrams of any of the words. -/
def ofWords (words : List String) : SortedSet Trigram := .ofList (words.flatMap windows)

/-- Count `amount` occurrences of a word for each of its trigrams. -/
def countWord (frequencies : SortedMap Trigram Nat) (word : String) (amount : Nat) :
    SortedMap Trigram Nat :=
  (ofWord word).toList.foldl (fun counts trigram => counts.alter trigram (·.getD 0 + amount))
    frequencies

/-- For each trigram of a list of words the number of list members that contain it. -/
def frequencies (words : List String) : SortedMap Trigram Nat :=
  words.eraseDups.foldl (fun counts word => countWord counts word (words.count word)) .empty

end Trigram

/-- What the index keeps of a document's text. -/
structure Extraction where
  /-- The distinct words, in the order of their first occurrence. -/
  wordlist : List String
  /-- The trigrams of the words. -/
  trigrams : SortedSet Trigram
  /-- How many word occurrences contain each trigram. -/
  frequencies : SortedMap Trigram Nat
  /-- The number of lines of the text. -/
  lineCount : Nat
  deriving DecidableEq

namespace Extraction

/-- Take apart the text of a document. -/
def ofText (text : String) : Extraction :=
  let wordlist := Words.distinct text
  { wordlist
    trigrams := Trigram.ofWords wordlist
    frequencies := Trigram.frequencies (Words.ofText text)
    lineCount := (lines text).length }

/-- The text has no words. -/
def isEmpty (extraction : Extraction) : Bool := extraction.wordlist.isEmpty

end Extraction
end SourceSearch
