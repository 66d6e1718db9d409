import SourceSearch.Proofs.Query.Rewriting
import SourceSearch.Proofs.Search.Calls

/-!
# Searches for rewritten queries

The documents that pass a filter depend on its trigrams alone, and the verdict on a document on the
sets of words and class tags that are required and excluded.  So queries with the same demands find
the same documents in every tree, whatever is damaged there, and a search for a term is one for the
query that requires it.
-/

namespace SourceSearch

variable {query other : Query} {filter : TrigramFilter} {searcher : Searcher} {tree : FileTree}

namespace Query

section Lists

variable {α : Type} {first second : List α}

theorem isEmpty_eq_of_mem_iff (same : ∀ a, a ∈ first ↔ a ∈ second) :
    first.isEmpty = second.isEmpty := by
  rw [Bool.eq_iff_iff, List.isEmpty_iff, List.isEmpty_iff, List.eq_nil_iff_forall_not_mem,
    List.eq_nil_iff_forall_not_mem]
  exact forall_congr' fun a => not_congr (same a)

theorem all_eq_of_mem_iff (same : ∀ a, a ∈ first ↔ a ∈ second) (test : α → Bool) :
    first.all test = second.all test := by
  rw [Bool.eq_iff_iff, List.all_eq_true, List.all_eq_true]
  exact forall_congr' fun a => imp_congr_left (same a)

theorem any_eq_of_mem_iff (same : ∀ a, a ∈ first ↔ a ∈ second) (test : α → Bool) :
    first.any test = second.any test := by
  rw [Bool.eq_iff_iff, List.any_eq_true, List.any_eq_true]
  exact exists_congr fun a => and_congr_left fun _ => same a

end Lists

/-- The verdict on a document is the same, also where its records cannot be read. -/
theorem SameDemands.satisfies?_eq (same : SameDemands query other) (index : Index)
    (tree : FileTree) (key : DocumentKey) :
    index.satisfies? tree query key = index.satisfies? tree other key := by
  have words : index.wordsMatch? tree query.requiredWords query.excludedWords key =
      index.wordsMatch? tree other.requiredWords other.excludedWords key := by
    rw [Index.wordsMatch?, Index.wordsMatch?]
    simp only [all_eq_of_mem_iff same.words, any_eq_of_mem_iff same.noWords]
  have tags : index.tagsMatch? tree query.requiredTags query.excludedTags key =
      index.tagsMatch? tree other.requiredTags other.excludedTags key := by
    rw [Index.tagsMatch?, Index.tagsMatch?]
    simp only [isEmpty_eq_of_mem_iff same.tags, isEmpty_eq_of_mem_iff same.noTags,
      all_eq_of_mem_iff same.tags, any_eq_of_mem_iff same.noTags]
  rw [Index.satisfies?, Index.satisfies?, words, tags, isEmpty_eq_of_mem_iff same.words,
    isEmpty_eq_of_mem_iff same.noWords]

/-- Class tags are searched exactly if the filter requires a trigram of one. -/
theorem usesTags_eq (compiled : query.filter = .ok filter) :
    (query.mentionsTag && !filter.metadata.isEmpty) = !filter.metadata.isEmpty := by
  cases nonempty : filter.metadata.isEmpty with
  | true => rw [Bool.not_true, Bool.and_false]
  | false =>
      rw [(filters_filter query filter compiled).mentionsTag nonempty]
      rfl

/-- The documents that pass the filters are the same. -/
theorem SameDemands.filtered_eq (same : SameDemands query other) {more : TrigramFilter}
    (compiled : query.filter = .ok filter) (compiled' : other.filter = .ok more)
    (searcher : Searcher) (tree : FileTree) :
    searcher.filtered tree filter query.mentionsTag =
      searcher.filtered tree more other.mentionsTag := by
  obtain ⟨content, metadata⟩ := same.filter_eq compiled compiled'
  rw [Searcher.filtered, Searcher.filtered, usesTags_eq compiled, usesTags_eq compiled', content,
    metadata]

end Query

namespace Searcher

/-- The keys that a query lists, unless it fails. -/
def listed? (searcher : Searcher) (tree : FileTree) (query : Query) :
    Option (List DocumentKey) :=
  (searcher.query query tree).1.1.toOption.map (·.map Hit.documentKey)

theorem listed?_eq_none (failed : ∃ failure, query.filter = .error failure) :
    searcher.listed? tree query = none := by
  obtain ⟨failure, error⟩ := failed
  rw [listed?, Searcher.query, error]
  rfl

theorem listed?_eq_some (uncached : searcher.index.config.useQueryCache = false)
    (compiled : query.filter = .ok filter) :
    searcher.listed? tree query =
      some ((searcher.filtered tree filter query.mentionsTag).1.toList.filter fun key =>
        searcher.index.satisfies? tree query key = some true) := by
  rw [listed?, Index.query_uncached uncached compiled]
  exact congrArg some (Index.map_documentKey_hit _)

/-- Queries with the same demands fail together, and otherwise list the same documents. -/
theorem listed?_eq (uncached : searcher.index.config.useQueryCache = false)
    (same : Query.SameDemands query other) :
    searcher.listed? tree query = searcher.listed? tree other := by
  cases refused : query.isRefused with
  | true =>
      rw [listed?_eq_none ((Query.isRefused_iff query).mp refused),
        listed?_eq_none ((Query.isRefused_iff other).mp (same.refused.mp refused))]
  | false =>
      have admitted : other.isRefused = false := by
        rw [← Bool.not_eq_true, ← same.refused, refused]
        exact Bool.false_ne_true
      obtain ⟨filter, compiled⟩ := Query.exists_filter refused
      obtain ⟨more, compiled'⟩ := Query.exists_filter admitted
      rw [listed?_eq_some uncached compiled, listed?_eq_some uncached compiled',
        same.filtered_eq compiled compiled']
      simp only [same.satisfies?_eq]

/-! ## Terms -/

/-- What passes the filter of a word are the candidates for it as a term. -/
theorem filtered_text (searcher : Searcher) (tree : FileTree) (term : String) :
    (searcher.filtered tree (.trigrams (Trigram.ofWord (lowercase term)) .empty) false).1 =
      (searcher.candidates tree term).1 := by
  rw [Searcher.filtered]
  cases empty : (Trigram.ofWord (lowercase term)).isEmpty with
  | true =>
      -- a term without a trigram has no candidates, and its filter passes nothing
      rw [TrigramFilter.content, empty, if_pos rfl, Index.candidates_of_short]
      · rfl
      · rw [Trigram.isEmpty_ofWord, decide_eq_true_eq] at empty
        omega
  | false =>
      rw [TrigramFilter.content, empty, if_neg Bool.false_ne_true]
      rfl

/-- A word as a query demands of a document what it demands as a term. -/
theorem satisfies?_text (index : Index) (tree : FileTree) (term : String) (key : DocumentKey) :
    index.satisfies? tree (.text term) key = index.wordsMatch? tree [lowercase term] [] key := by
  have tags : index.tagsMatch? tree (Query.text term).requiredTags (Query.text term).excludedTags
      key = some true := rfl
  rw [Index.satisfies?]
  split
  · rename_i passed
    exact tags.trans passed.symm
  · rfl

/-- A search for a term answers as the query for it does. -/
theorem query_text_eq (uncached : searcher.index.config.useQueryCache = false) (term : String) :
    (searcher.query (.text term) tree).1.1 = .ok (searcher.search term tree).1.1 := by
  have compiled : (Query.text term).filter = .ok _ := rfl
  rw [Index.query_uncached uncached compiled, Index.search_uncached uncached]
  simp only [satisfies?_text]
  exact congrArg _ (congrArg _ (congrArg _ (congrArg SortedSet.toList (filtered_text _ _ _))))

/-- **Query algebra.**  Without the query cache, in every tree, any number of rewriting steps
anywhere in a query changes neither whether it fails nor which documents it lists; and a search for
a term gives the results of the query for it, with their records and previews. -/
theorem listed?_rewritten (uncached : searcher.index.config.useQueryCache = false)
    (tree : FileTree) :
    (∀ query other, Relation.EqvGen Query.Rewrites query other →
      searcher.listed? tree query = searcher.listed? tree other) ∧
    ∀ term, (searcher.query (.text term) tree).1.1 = .ok (searcher.search term tree).1.1 :=
  ⟨fun _ _ steps => listed?_eq uncached (.of_steps steps), query_text_eq uncached⟩

/-- An included word beside a part that says nothing is the quoted word alone. -/
theorem listed?_rewritten_sample :
    Searcher.listed? { index := Index.sampleIndex } Index.sampleTree
        (.all [.empty, .including (.text "abc")]) =
      Searcher.listed? { index := Index.sampleIndex } Index.sampleTree (.phrase "abc") ∧
    (Searcher.query { index := Index.sampleIndex } (.text "abc") Index.sampleTree).1.1 =
      .ok (Searcher.search { index := Index.sampleIndex } "abc" Index.sampleTree).1.1 := by
  have uncached : (Searcher.index { index := Index.sampleIndex }).config.useQueryCache = false :=
    rfl
  obtain ⟨rewritten, asTerm⟩ := listed?_rewritten uncached Index.sampleTree
  refine ⟨rewritten _ _ ?_, asTerm "abc"⟩
  have dropped : Query.Rewrites (.all [.empty, .including (.text "abc")])
      (.all [.including (.text "abc")]) := .drop [] [.including (.text "abc")]
  apply Relation.EqvGen.trans _ _ _ (.rel _ _ dropped)
  apply Relation.EqvGen.trans _ _ _ (.rel _ _ (.unwrap _))
  apply Relation.EqvGen.trans _ _ _ (.rel _ _ (.bare _))
  exact .rel _ _ (.quote "abc")

end Searcher
end SourceSearch
