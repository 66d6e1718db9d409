import SourceSearch.Search.Details

/-!
# Ranking words

Words are ordered by how useful their trigrams were in a search.  A trigram that shrank the result
raises the score of a word, one that did not lowers it, and one that the search never asked for
counts as unused; a skipped trigram counts neither way.
-/

namespace SourceSearch

/-- A word with its score. -/
structure RankedWord where
  /-- The word. -/
  word : String
  /-- The score; higher is better. -/
  score : Int
  deriving DecidableEq

namespace Ranking

/-- What a trigram did; of several entries the last counts. -/
def stateOf (usage : List Usage) (trigram : Trigram) : Option UsageState :=
  (usage.reverse.find? (·.trigram = trigram)).map Usage.state

/-- The score of a word with `unused` trigrams that no search asked for, `success` that shrank the
result and `failure` that did not. -/
def scoreOfCounts (unused success failure : Int) : Int :=
  if success + failure = 0 then 1 - unused
  else
    1 + success - failure +
      if unused = 0 then (if failure ≤ success then 2 else -1)
      else if failure = 0 then (unused + 1) / 2
      else if failure ≤ success then 2
      else -((unused + 1) / 2)

/-- The score of a word. -/
def score (usage : List Usage) (word : String) : Int :=
  let states := (Trigram.ofWord word).toList.map (stateOf usage)
  scoreOfCounts (states.count none) (states.count (some .success)) (states.count (some .failed))

/-- The words with their scores, best first; equal scores keep their order. -/
def rank (usage : List Usage) (words : List String) : List RankedWord :=
  (words.map fun word => ⟨word, score usage word⟩).mergeSort fun a b => b.score ≤ a.score

end Ranking
end SourceSearch
