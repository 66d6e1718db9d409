import SourceSearch.Proofs.Query.Filter
import SourceSearch.Proofs.Search.Terms

/-!
# Exact query evaluation

Without the query cache a query whose filter requires a trigram finds exactly the documents that
satisfy all that the query requires and nothing that it excludes.
-/

namespace SourceSearch

namespace IndexedDocument

variable {document : IndexedDocument} {query : Query}

/-- A document has what a query requires and nothing that it excludes. -/
structure Satisfies (document : IndexedDocument) (query : Query) : Prop where
  /-- Each required word is in some word of the text. -/
  hasWords : ∀ part ∈ query.requiredWords,
    ∃ word ∈ Words.distinct document.text, occursIn part word = true
  /-- No excluded text has all its parts in words of the text, unless it has no parts. -/
  lacksWords : ∀ excluded ∈ query.excludedWords,
    ¬ (Words.split excluded ≠ [] ∧ ∀ part ∈ Words.split excluded,
      ∃ word ∈ Words.distinct document.text, occursIn part word = true)
  /-- The values of required classes contain what is required. -/
  hasTags : ∀ tag ∈ query.requiredTags, ∃ value,
    document.record.class? tag.1 = some value ∧ occursIn tag.2 (lowercase value) = true
  /-- The values of excluded classes do not contain what is excluded. -/
  lacksTags : ∀ tag ∈ query.excludedTags, ¬ ∃ value,
    document.record.class? tag.1 = some value ∧ occursIn tag.2 (lowercase value) = true

/-- The verdict on a document. -/
def satisfies (document : IndexedDocument) (query : Query) : Bool :=
  (query.requiredWords.all document.hasText &&
      !query.excludedWords.any (Index.rulesOut document.words)) &&
    (query.requiredTags.all (Index.carries document.record) &&
      !query.excludedTags.any (Index.carries document.record))

theorem rulesOut_iff {excluded : String} :
    Index.rulesOut document.words excluded = true ↔
      Words.split excluded ≠ [] ∧ ∀ part ∈ Words.split excluded,
        ∃ word ∈ Words.distinct document.text, occursIn part word = true := by
  rw [Index.rulesOut, Bool.and_eq_true, List.all_eq_true, Bool.not_eq_true']
  exact and_congr List.isEmpty_eq_false_iff (forall₂_congr fun _ _ => hasText_iff)

theorem carries_iff {record : Metadata} {tag : String × String} :
    Index.carries record tag = true ↔ ∃ value,
      record.class? tag.1 = some value ∧ occursIn tag.2 (lowercase value) = true := by
  rw [Index.carries]
  cases record.class? tag.1 <;> simp

theorem satisfies_iff : document.satisfies query = true ↔ document.Satisfies query := by
  have noneOf {α : Type} (p : α → Bool) (l : List α) :
      (!l.any p) = true ↔ ∀ a ∈ l, ¬ p a = true := by simp
  rw [satisfies, Bool.and_eq_true, Bool.and_eq_true, Bool.and_eq_true, List.all_eq_true,
    List.all_eq_true, noneOf, noneOf]
  simp only [hasText_iff, rulesOut_iff, carries_iff]
  constructor
  · rintro ⟨⟨words, noWords⟩, tags, noTags⟩
    exact ⟨words, noWords, tags, noTags⟩
  · rintro ⟨words, noWords, tags, noTags⟩
    exact ⟨⟨words, noWords⟩, tags, noTags⟩

/-- A document that carries a class tag has the trigrams of its value. -/
theorem ofWord_subset_tagTrigrams {record : Metadata} {tag : String × String}
    (has : Index.carries record tag = true) {trigram : Trigram}
    (inside : trigram ∈ Trigram.ofWord tag.2) : trigram ∈ record.tagTrigrams := by
  obtain ⟨value, is, occurs⟩ := carries_iff.mp has
  refine Trigram.ofWord_subset_ofWords (List.mem_map_of_mem ?_) occurs inside
  exact List.mem_map_of_mem (f := Prod.snd) (SortedMap.find?_eq_some_iff.mp is)

end IndexedDocument

namespace Searcher

/-- A query whose filter is known asks the query cache first. -/
theorem query_eq (searcher : Searcher) {query : Query} {filter : TrigramFilter}
    (compiled : query.filter = .ok filter) (tree : FileTree) :
    searcher.query query tree =
      match searcher.index.remembered? tree (cacheKey query.render) with
      | some results => ((.ok results, searcher), tree)
      | none =>
          let filtered := searcher.filtered tree filter query.mentionsTag
          let concluded := searcher.index.conclude (cacheKey query.render)
            query.requiredWords.head? (fun tree => searcher.index.satisfies? tree query)
            filtered.1 tree
          ((.ok concluded.1, filtered.2), concluded.2) := by
  rw [Searcher.query, compiled]
  change (match searcher.index.remembered? tree (cacheKey query.render) with
    | some results =>
        (return (.ok results, searcher) : DiskM (Except Failure (List Hit) × Searcher))
    | none => _) tree = _
  cases searcher.index.remembered? tree (cacheKey query.render) <;> rfl

end Searcher

namespace Index

variable {index : Index} {location : Location} {tree : FileTree}
  {documents : List IndexedDocument} {query : Query}
  {filter : TrigramFilter}

/-- The verdict on a document follows from its stored words and record. -/
theorem Recalls.satisfies?_eq (recalls : index.Recalls documents tree)
    {document : IndexedDocument} (member : document ∈ documents) :
    index.satisfies? tree query document.key = some (document.satisfies query) := by
  have words : (if query.requiredWords.isEmpty && query.excludedWords.isEmpty then some true
      else index.wordsMatch? tree query.requiredWords query.excludedWords document.key) =
        some (query.requiredWords.all document.hasText &&
          !query.excludedWords.any (rulesOut document.words)) := by
    rw [recalls.wordsMatch?_eq member]
    split
    · rename_i empty
      rw [Bool.and_eq_true, List.isEmpty_iff, List.isEmpty_iff] at empty
      rw [empty.1, empty.2]
      rfl
    · rfl
  have tags : index.tagsMatch? tree query.requiredTags query.excludedTags document.key =
      some (query.requiredTags.all (carries document.record) &&
        !query.excludedTags.any (carries document.record)) := by
    rw [tagsMatch?, recalls.records document member]
    split
    · rename_i empty
      rw [Bool.and_eq_true, List.isEmpty_iff, List.isEmpty_iff] at empty
      rw [empty.1, empty.2]
      rfl
    · rfl
  rw [satisfies?, words, tags, IndexedDocument.satisfies]
  cases query.requiredWords.all document.hasText &&
    !query.excludedWords.any (rulesOut document.words) <;> rfl

theorem query_uncached {searcher : Searcher}
    (uncached : searcher.index.config.useQueryCache = false)
    (compiled : query.filter = .ok filter) (tree : FileTree) :
    searcher.query query tree =
      ((.ok (((searcher.filtered tree filter query.mentionsTag).1.toList.filter fun key =>
            searcher.index.satisfies? tree query key = some true).map
          (searcher.index.hit tree query.requiredWords.head?)),
        (searcher.filtered tree filter query.mentionsTag).2), tree) := by
  rw [Searcher.query_eq _ compiled, remembered?_eq_none uncached]
  simp only [conclude_uncached uncached]

/-- Documents that satisfy a query have the trigrams of its filter. -/
theorem subset_of_satisfies (filters : Query.Filters query.requiredLeaves filter)
    {document : IndexedDocument} (satisfied : document.satisfies query = true) :
    (∀ trigram ∈ filter.content, trigram ∈ document.trigrams) ∧
      ∀ trigram ∈ filter.metadata, trigram ∈ document.record.tagTrigrams := by
  rw [IndexedDocument.satisfies, Bool.and_eq_true, Bool.and_eq_true, Bool.and_eq_true,
    List.all_eq_true, List.all_eq_true] at satisfied
  obtain ⟨⟨words, -⟩, tags, -⟩ := satisfied
  constructor
  · intro trigram member
    obtain ⟨word, required, inside⟩ := (filters.content trigram).mp member
    exact IndexedDocument.ofWord_subset_trigrams (words word required) inside
  · intro trigram member
    obtain ⟨tag, required, inside⟩ := (filters.metadata trigram).mp member
    exact IndexedDocument.ofWord_subset_tagTrigrams (tags tag required) inside

/-- What passes a filter that requires a trigram covers the documents that satisfy the query. -/
theorem covers_filtered {searcher : Searcher}
    (texts : searcher.index.textReader.Finds tree IndexedDocument.trigrams documents)
    (tags : searcher.index.tagReader.Finds tree (fun document => document.record.tagTrigrams)
      documents)
    (compiled : query.filter = .ok filter) (nonempty : filter.isEmpty = false) :
    Covers documents (fun document => document.satisfies query = true)
      (searcher.filtered tree filter query.mentionsTag).1 := by
  have filters := Query.filters_filter query filter compiled
  have byContent (content : filter.content.isEmpty = false) :=
    texts.covers_search content (fun _ => filters.length_of_mem_content)
      searcher.index.config.contentAbortRatio
  have byTags (metadata : filter.metadata.isEmpty = false) :=
    tags.covers_search metadata (fun _ => filters.length_of_mem_metadata)
      searcher.index.config.metadataAbortRatio
  rw [TrigramFilter.isEmpty] at nonempty
  rw [Searcher.filtered]
  cases content : filter.content.isEmpty with
  | true =>
      cases metadata : filter.metadata.isEmpty with
      | true => simp [content, metadata] at nonempty
      | false =>
          rw [filters.mentionsTag metadata]
          exact (byTags metadata).mono fun document _ satisfied =>
            (subset_of_satisfies filters satisfied).2
  | false =>
      cases metadata : filter.metadata.isEmpty with
      | true =>
          simp only [Bool.not_true, Bool.and_false, Bool.false_eq_true, if_false]
          exact (byContent content).mono fun document _ satisfied =>
            (subset_of_satisfies filters satisfied).1
      | false =>
          rw [filters.mentionsTag metadata]
          exact ((byContent content).inter (byTags metadata)).mono fun document _ satisfied =>
            subset_of_satisfies filters satisfied

/-- A filter that requires no trigram finds nothing. -/
theorem filtered_of_isEmpty (searcher : Searcher) (tree : FileTree) (empty : filter.isEmpty = true)
    (mentionsTag : Bool) : (searcher.filtered tree filter mentionsTag).1 = .empty := by
  rw [TrigramFilter.isEmpty, Bool.and_eq_true] at empty
  rw [Searcher.filtered, empty.1, empty.2]
  simp only [Bool.not_true, Bool.and_false, Bool.false_eq_true, if_false, if_true]

/-- A query whose filter requires a trigram lists the documents that satisfy it, any other finds
nothing. -/
theorem Represents.lists_query (represents : index.Represents location documents tree)
    (uncached : index.config.useQueryCache = false)
    (fits : index.config.maxShardGenerations ≤ Json.max32)
    (texts : index.WithinShards IndexedDocument.trigrams documents)
    (tags : index.WithinShards (fun document => document.record.tagTrigrams) documents)
    (searcher : Searcher) (same : searcher.index = index)
    (compiled : query.filter = .ok filter) :
    ∃ hits later, searcher.query query tree = ((.ok hits, later), tree) ∧
      (filter.isEmpty = true → hits = []) ∧
      (filter.isEmpty = false →
        Lists documents (fun document => document.Satisfies query) hits) := by
  subst same
  refine ⟨_, _, query_uncached uncached compiled tree, fun empty => ?_, fun nonempty => ?_⟩
  · rw [filtered_of_isEmpty _ _ empty]
    rfl
  · have covers := covers_filtered (represents.findsTexts fits texts)
      (represents.findsTags fits tags) compiled nonempty
    exact (represents.recalls.lists covers (fun document => represents.recalls.satisfies?_eq)
      _).congr fun document _ => IndexedDocument.satisfies_iff

/-- **Query evaluation is exact.**  After a build that succeeds, a query without the query cache
lists exactly the documents of the crawled files that have not failed that satisfy it, if its
filter requires any trigram, and finds nothing otherwise. -/
theorem query_built {scheme : KeyScheme} {classifier : Classifier} {crawlRoot : Path}
    {summary : BuildSummary} {built : FileTree}
    (builds : index.Builds scheme classifier crawlRoot location tree summary built)
    (uncached : index.config.useQueryCache = false)
    (texts : index.WithinShards IndexedDocument.trigrams
      (index.indexedDocuments scheme classifier crawlRoot tree summary.failed))
    (tags : index.WithinShards (fun document => document.record.tagTrigrams)
      (index.indexedDocuments scheme classifier crawlRoot tree summary.failed))
    (searcher : Searcher) (same : searcher.index = index)
    (compiled : query.filter = .ok filter) :
    (∀ file ∈ index.crawled crawlRoot tree, file ∉ summary.failed →
      (IndexedDocument.ofFile? scheme classifier crawlRoot (index.startOf tree) file).isSome) ∧
    ∃ hits later, searcher.query query built = ((.ok hits, later), built) ∧
      (filter.isEmpty = true → hits = []) ∧
      (filter.isEmpty = false →
        Lists (index.indexedDocuments scheme classifier crawlRoot tree summary.failed)
          (fun document => document.Satisfies query) hits) := by
  obtain ⟨represents, complete⟩ := builds.represents
  exact ⟨complete,
    represents.lists_query uncached builds.generations texts tags searcher same compiled⟩

theorem query_built_sample : ∃ summary built hits later,
    sampleIndex.Builds sampleScheme .standard ⟨"/src"⟩ ["index"] sampleTree summary built ∧
    Searcher.query { index := sampleIndex } (.all [.text "abc", .tag "filetype" "Java"]) built =
      ((.ok hits, later), built) ∧
      Lists sampleDocuments
        (fun document => document.Satisfies (.all [.text "abc", .tag "filetype" "Java"])) hits := by
  obtain ⟨summary, built, failed, builds⟩ := builds_sample
  have within (trigramsOf : IndexedDocument → SortedSet Trigram) :
      sampleIndex.WithinShards trigramsOf
        (sampleIndex.indexedDocuments sampleScheme .standard ⟨"/src"⟩ sampleTree
          summary.failed) := by
    rw [failed]
    exact withinShards_sample _
  have compiled : Query.filter (.all [.text "abc", .tag "filetype" "Java"]) = .ok _ := rfl
  obtain ⟨-, hits, later, run, -, lists⟩ :=
    query_built builds rfl (within _) (within _) { index := sampleIndex } rfl compiled
  rw [failed] at lists
  exact ⟨summary, built, hits, later, builds, run, lists (by decide)⟩

end Index
end SourceSearch
