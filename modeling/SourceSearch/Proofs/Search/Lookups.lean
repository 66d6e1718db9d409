import SourceSearch.Proofs.Search.Calls

/-!
# Lookups

What a call searches the postings for.  Its candidates are the documents that all of its lookups
find, so they depend on nothing else.
-/

namespace SourceSearch

/-- A search for trigrams in one namespace. -/
structure Lookup where
  /-- The folder of the postings. -/
  folder : String
  /-- The trigrams. -/
  trigrams : SortedSet Trigram

/-- The searches for trigrams that a call makes. -/
def Call.lookups : Call → List Lookup
  | .ofTerm term => [⟨Index.textFolder, Trigram.ofWord (lowercase term)⟩]
  | .ofQuery query =>
      match query.filter with
      | .error _ => []
      | .ok filter =>
          (if filter.content.isEmpty then [] else [⟨Index.textFolder, filter.content⟩]) ++
            if query.mentionsTag && !filter.metadata.isEmpty then
              [⟨Index.tagFolder, filter.metadata⟩]
            else []

namespace Index

variable {index : Index} {tree other : FileTree} {key : DocumentKey} {call : Call}
  {found : SortedSet DocumentKey}

/-- The ratio at which intersections in a namespace end. -/
def abortRatio (index : Index) (folder : String) : Nat :=
  if folder = textFolder then index.config.contentAbortRatio else index.config.metadataAbortRatio

/-- What a search for trigrams finds, with its diagnostics. -/
def lookUp (index : Index) (tree : FileTree) (lookup : Lookup) : SortedSet DocumentKey × Details :=
  (index.reader lookup.folder).search (index.abortRatio lookup.folder) tree lookup.trigrams

/-- A call looks for trigrams of a term, or for those of the filter of a query. -/
theorem cases_of_mem_lookups {lookup : Lookup} (member : lookup ∈ call.lookups) :
    (∃ term, call = .ofTerm term ∧ lookup = ⟨textFolder, Trigram.ofWord (lowercase term)⟩) ∨
      ∃ query filter, call = .ofQuery query ∧ query.filter = .ok filter ∧
        (lookup = ⟨textFolder, filter.content⟩ ∨ lookup = ⟨tagFolder, filter.metadata⟩) := by
  cases call with
  | ofTerm term => exact .inl ⟨term, rfl, List.mem_singleton.mp member⟩
  | ofQuery query =>
      simp only [Call.lookups] at member
      split at member
      · cases member
      · rename_i filter compiled
        refine .inr ⟨query, filter, rfl, compiled, ?_⟩
        rcases List.mem_append.mp member with texts | tags
        · split at texts
          · cases texts
          · exact .inl (List.mem_singleton.mp texts)
        · split at tags
          · exact .inr (List.mem_singleton.mp tags)
          · cases tags

theorem folder_of_mem_lookups {lookup : Lookup} (member : lookup ∈ call.lookups) :
    lookup.folder ∈ [textFolder, tagFolder] := by
  rcases cases_of_mem_lookups member with ⟨-, -, rfl⟩ | ⟨-, -, -, -, rfl | rfl⟩ <;> simp

/-- All trigrams that are looked for have three characters. -/
theorem length_of_mem_lookups {lookup : Lookup} (member : lookup ∈ call.lookups)
    {trigram : Trigram} (inside : trigram ∈ lookup.trigrams) : trigram.length = 3 := by
  rcases cases_of_mem_lookups member with ⟨term, -, rfl⟩ | ⟨query, filter, -, compiled, rfl | rfl⟩
  · exact (Trigram.mem_ofWord_iff.mp inside).1
  · exact (Query.filters_filter query filter compiled).length_of_mem_content inside
  · exact (Query.filters_filter query filter compiled).length_of_mem_metadata inside

/-- The candidates for a call are what all of its searches find, if there are any. -/
theorem mem_candidates_iff (finds : index.candidates? tree call = .ok found) :
    key ∈ found ↔
      call.lookups ≠ [] ∧ ∀ lookup ∈ call.lookups, key ∈ (index.lookUp tree lookup).1 := by
  have texts (trigrams : SortedSet Trigram) : index.lookUp tree ⟨textFolder, trigrams⟩ =
      index.textReader.search index.config.contentAbortRatio tree trigrams := rfl
  have tags (trigrams : SortedSet Trigram) : index.lookUp tree ⟨tagFolder, trigrams⟩ =
      index.tagReader.search index.config.metadataAbortRatio tree trigrams := rfl
  cases call with
  | ofTerm term =>
      cases finds
      simp [Call.lookups, texts, Searcher.candidates, Searcher.searchTexts]
  | ofQuery query =>
      rw [candidates?] at finds
      cases compiled : query.filter with
      | error failure =>
          rw [compiled] at finds
          cases finds
      | ok filter =>
          rw [compiled, Except.map, Except.ok.injEq] at finds
          rw [← finds, Searcher.filtered]
          cases content : filter.content.isEmpty <;>
            cases uses : query.mentionsTag && !filter.metadata.isEmpty <;>
            simp [Call.lookups, compiled, content, uses, texts, tags, Searcher.searchTexts,
              Searcher.searchTags, SortedSet.mem_inter, SortedSet.not_mem_empty]

/-- Lookups that find the same give the same candidates. -/
theorem candidates?_eq_of_lookUp
    (same : ∀ lookup ∈ call.lookups, index.lookUp other lookup = index.lookUp tree lookup) :
    index.candidates? other call = index.candidates? tree call := by
  cases compiles : call.compiles with
  | true =>
      obtain ⟨found, finds⟩ := exists_candidates compiles index tree
      obtain ⟨found', finds'⟩ := exists_candidates compiles index other
      rw [finds, finds']
      refine congrArg Except.ok (SortedSet.ext_mem fun key => ?_)
      rw [mem_candidates_iff finds', mem_candidates_iff finds]
      exact and_congr_right fun _ => forall₂_congr fun lookup listed => by rw [same lookup listed]
  | false =>
      obtain ⟨failure, errors⟩ := exists_error compiles
      rw [errors, errors]

end Index
end SourceSearch
