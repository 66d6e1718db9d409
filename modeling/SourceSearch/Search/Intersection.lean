import SourceSearch.Postings.Reader
import SourceSearch.Search.Details

/-!
# Intersecting postings

The documents that may contain a set of trigrams.  Postings are intersected from the assumed
smallest to the largest.  Once a list is out of proportion to the result the rest is skipped, so
the result may be too large but never loses a document that has all the trigrams.
-/

namespace SourceSearch

/-- The state of an intersection when it has ended. -/
structure Intersection where
  /-- The documents that are left. -/
  documents : SortedSet DocumentKey
  /-- What each trigram did. -/
  usage : List Usage
  /-- Trigrams that were left out. -/
  skipped : List Trigram
  deriving DecidableEq

namespace Intersection

/-- A postings list is out of proportion to a result of `size` documents. -/
def isExcessive (abortRatio size : Nat) (occurrence : Occurrence) : Bool :=
  min (abortRatio * size) Json.max64 < occurrence.count

/-- What an intersection did that left `after` of `before` documents. -/
def stateOf (before after : Nat) : UsageState := if after < before then .success else .failed

/-- Intersect documents with further postings; skip the rest after postings that are out of
proportion to what is left. -/
def narrow (postings : Trigram → SortedSet DocumentKey) (abortRatio : Nat) :
    SortedSet DocumentKey → List Occurrence → Intersection
  | documents, [] => ⟨documents, [], []⟩
  | documents, occurrence :: rest =>
      let kept := documents.inter (postings occurrence.trigram)
      let usage := Usage.of occurrence (stateOf documents.size kept.size)
      if isExcessive abortRatio kept.size occurrence then
        ⟨kept, usage :: rest.map (Usage.of · .unknown), rest.map Occurrence.trigram⟩
      else
        let narrowed := narrow postings abortRatio kept rest
        { narrowed with usage := usage :: narrowed.usage }

/-- Intersect all postings; the first list is where the result begins, and no list at all matches
nothing. -/
def ofOccurrences (postings : Trigram → SortedSet DocumentKey) (abortRatio : Nat) :
    List Occurrence → Intersection
  | [] => ⟨.empty, [], []⟩
  | seed :: rest =>
      let narrowed := narrow postings abortRatio (postings seed.trigram) rest
      { narrowed with usage := Usage.of seed .success :: narrowed.usage }

end Intersection

namespace PostingsReader

/-- The trigrams with their assumed sizes, smallest first; equal sizes in the order of the
trigrams. -/
def bySize (reader : PostingsReader) (tree : FileTree) (trigrams : SortedSet Trigram) :
    List Occurrence :=
  (trigrams.toList.map (reader.occurrence tree)).mergeSort fun a b => a.count ≤ b.count

/-- The documents that may contain all of the trigrams, with the diagnostics. -/
def search (reader : PostingsReader) (abortRatio : Nat) (tree : FileTree)
    (trigrams : SortedSet Trigram) : SortedSet DocumentKey × Details :=
  let occurrences := reader.bySize tree trigrams
  let found := Intersection.ofOccurrences (reader.documents tree) abortRatio occurrences
  (found.documents, { skipped := found.skipped, usage := found.usage, occurrences })

end PostingsReader
end SourceSearch
