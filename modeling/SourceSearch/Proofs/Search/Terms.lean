import SourceSearch.Proofs.Index.Buildable
import SourceSearch.Proofs.Search.Candidates

/-!
# Exact term search

Without the query cache a search for a term in a built index finds exactly the documents with a
word that contains the lowercased term, if it has three characters; a shorter one finds nothing.
-/

namespace SourceSearch

/-- Hits that list exactly the documents that satisfy a condition, each once with its record, in
the order of their keys. -/
structure Lists (documents : List IndexedDocument) (matching : IndexedDocument → Prop)
    (hits : List Hit) : Prop where
  /-- Keys ascend, so none comes twice. -/
  ascending : (hits.map Hit.documentKey).Pairwise (· < ·)
  /-- The hits are the documents. -/
  exact : ∀ key record, (∃ hit ∈ hits, hit.documentKey = key ∧ hit.metadata = record) ↔
    ∃ document ∈ documents, matching document ∧ document.key = key ∧ some document.record = record

theorem Lists.congr {documents : List IndexedDocument} {matching other : IndexedDocument → Prop}
    {hits : List Hit} (lists : Lists documents matching hits)
    (same : ∀ document ∈ documents, matching document ↔ other document) :
    Lists documents other hits where
  ascending := lists.ascending
  exact key record := (lists.exact key record).trans (exists_congr fun document =>
    and_congr_right fun member => and_congr_left fun _ => same document member)

/-- Documents that do not match at all are listed by no hits. -/
theorem lists_nil {documents : List IndexedDocument} {matching : IndexedDocument → Prop}
    (excluded : ∀ document ∈ documents, ¬ matching document) :
    Lists documents matching [] where
  ascending := .nil
  exact key record := by
    simp only [List.not_mem_nil, false_and, exists_false, false_iff]
    rintro ⟨document, member, matched, -⟩
    exact excluded document member matched

/-- Hits of documents that do not match are none. -/
theorem Lists.eq_nil {documents : List IndexedDocument} {matching : IndexedDocument → Prop}
    {hits : List Hit} (lists : Lists documents matching hits)
    (excluded : ∀ document ∈ documents, ¬ matching document) : hits = [] := by
  refine List.eq_nil_iff_forall_not_mem.mpr fun hit listed => ?_
  obtain ⟨document, member, matched, -⟩ := (lists.exact _ _).mp ⟨hit, listed, rfl, rfl⟩
  exact excluded document member matched

/-- Hits of documents of which one matches are some. -/
theorem Lists.ne_nil {documents : List IndexedDocument} {matching : IndexedDocument → Prop}
    {hits : List Hit} (lists : Lists documents matching hits) {document : IndexedDocument}
    (listed : document ∈ documents) (matched : matching document) : hits ≠ [] := by
  obtain ⟨hit, inside, -⟩ := (lists.exact document.key (some document.record)).mpr
    ⟨document, listed, matched, rfl, rfl⟩
  exact List.ne_nil_of_mem inside

namespace IndexedDocument

/-- Some word of the document contains a text. -/
def hasText (document : IndexedDocument) (part : String) : Bool :=
  Index.someWordHas document.words part

theorem hasText_iff {document : IndexedDocument} {part : String} :
    document.hasText part = true ↔
      ∃ word ∈ Words.distinct document.text, occursIn part word = true := List.any_eq_true

/-- A document that has a text has its trigrams. -/
theorem ofWord_subset_trigrams {document : IndexedDocument} {part : String}
    (has : document.hasText part = true) {trigram : Trigram}
    (inside : trigram ∈ Trigram.ofWord part) : trigram ∈ document.trigrams := by
  obtain ⟨word, member, occurs⟩ := List.any_eq_true.mp has
  exact Trigram.ofWord_subset_ofWords member occurs inside

end IndexedDocument

namespace Searcher

/-- A search asks the query cache first. -/
theorem search_eq (searcher : Searcher) (term : String) (tree : FileTree) :
    searcher.search term tree =
      match searcher.index.remembered? tree (cacheKey term) with
      | some results => ((results, searcher), tree)
      | none =>
          let candidates := searcher.candidates tree term
          let concluded := searcher.index.conclude (cacheKey term) (some (lowercase term))
            (fun tree => searcher.index.wordsMatch? tree [lowercase term] []) candidates.1 tree
          ((concluded.1, candidates.2), concluded.2) := by
  change (match searcher.index.remembered? tree (cacheKey term) with
    | some results => (return (results, searcher) : DiskM _)
    | none => _) tree = _
  cases searcher.index.remembered? tree (cacheKey term) <;> rfl

end Searcher

namespace Index

variable {index : Index} {location : Location} {tree : FileTree}
  {documents : List IndexedDocument}

/-- The documents that pass are presented, and remembered if every document could be judged. -/
theorem conclude_eq (index : Index) (key : String) (term : Option String)
    (judge : FileTree → DocumentKey → Option Bool) (found : SortedSet DocumentKey)
    (tree : FileTree) :
    index.conclude key term judge found tree =
      let results := (found.toList.filter fun key => judge tree key = some true).map
        (index.hit tree term)
      (results,
        if index.config.useQueryCache && found.toList.all fun key => (judge tree key).isSome then
          (index.remember key results tree).2
        else tree) := by
  have passed : ((found.toList.map fun document => (document, judge tree document)).filter
        (·.2 = some true)).map (fun entry => index.hit tree term entry.1) =
      (found.toList.filter fun key => judge tree key = some true).map (index.hit tree term) := by
    rw [List.filter_map, List.map_map]
    rfl
  have settled : (found.toList.map fun document => (document, judge tree document)).all
      (·.2.isSome) = found.toList.all fun key => (judge tree key).isSome := List.all_map
  rw [← passed, ← settled, conclude]
  change (if _ then _ else _ : DiskM _) tree = _
  cases index.config.useQueryCache && (found.toList.map fun document =>
    (document, judge tree document)).all (·.2.isSome) <;> rfl

/-- Without the query cache nothing is written. -/
theorem conclude_uncached (uncached : index.config.useQueryCache = false) (key : String)
    (term : Option String) (judge : FileTree → DocumentKey → Option Bool)
    (found : SortedSet DocumentKey) (tree : FileTree) :
    index.conclude key term judge found tree =
      ((found.toList.filter fun key => judge tree key = some true).map (index.hit tree term),
        tree) := by
  rw [conclude_eq, uncached]
  rfl

theorem remembered?_eq_none (uncached : index.config.useQueryCache = false) (tree : FileTree)
    (key : String) : index.remembered? tree key = none := by
  rw [remembered?, uncached]
  rfl

/-- The words and the record of each document are read. -/
structure Recalls (index : Index) (documents : List IndexedDocument) (tree : FileTree) : Prop where
  /-- Words are read. -/
  words : ∀ document ∈ documents,
    index.wordlists.words tree document.key = .ok (some document.words)
  /-- Records are read. -/
  records : ∀ document ∈ documents,
    index.metadata.load? tree document.key = some document.record

theorem Represents.recalls (represents : index.Represents location documents tree) :
    index.Recalls documents tree where
  words _ member := represents.keeps.words_eq represents.stands member
  records document member :=
    represents.keeps.load? represents.stands member (represents.fits document member)

namespace Recalls

variable {document : IndexedDocument}

/-- What is left of candidates after verification lists the documents that pass. -/
theorem lists (recalls : index.Recalls documents tree)
    {found : SortedSet DocumentKey} {judge : DocumentKey → Option Bool}
    {verdict : IndexedDocument → Bool}
    (covers : Covers documents (fun document => verdict document = true) found)
    (judges : ∀ document ∈ documents, judge document.key = some (verdict document))
    (term : Option String) :
    Lists documents (fun document => verdict document = true)
      ((found.toList.filter fun key => judge key = some true).map (index.hit tree term)) where
  ascending := by
    rw [List.map_map]
    exact (List.map_id _).symm ▸ found.ascending.sublist List.filter_sublist
  exact key record := by
    constructor
    · rintro ⟨hit, listed, rfl, rfl⟩
      obtain ⟨key, passed, rfl⟩ := List.mem_map.mp listed
      obtain ⟨document, member, rfl, verified⟩ := (covers.mem_filter_iff judges).mp passed
      exact ⟨document, member, verified, rfl, (recalls.records document member).symm⟩
    · rintro ⟨document, member, verified, rfl, rfl⟩
      have passed := (covers.mem_filter_iff judges).mpr ⟨document, member, rfl, verified⟩
      exact ⟨_, List.mem_map_of_mem passed, rfl, recalls.records document member⟩

/-- The words of a document are verified against the stored ones. -/
theorem wordsMatch?_eq (recalls : index.Recalls documents tree) (member : document ∈ documents)
    (required excluded : List String) :
    index.wordsMatch? tree required excluded document.key =
      some (required.all document.hasText && !excluded.any (rulesOut document.words)) := by
  rw [wordsMatch?, recalls.words document member]
  rfl

end Recalls

/-- Candidates for a text of three characters or more cover the documents that have it. -/
theorem covers_text {searcher : Searcher}
    (finds : searcher.index.textReader.Finds tree IndexedDocument.trigrams documents)
    {part : String} (wide : 3 ≤ part.length) :
    Covers documents (fun document => document.hasText part = true)
      (searcher.searchTexts tree (Trigram.ofWord part)).1 := by
  have nonempty : (Trigram.ofWord part).isEmpty = false := by
    rw [Trigram.isEmpty_ofWord, decide_eq_false_iff_not]
    omega
  exact (finds.covers_search nonempty (fun trigram inside => (Trigram.mem_ofWord_iff.mp inside).1)
    searcher.index.config.contentAbortRatio).mono
      fun document _ has trigram => IndexedDocument.ofWord_subset_trigrams has

/-- There are no candidates for a shorter text. -/
theorem candidates_of_short (searcher : Searcher) (tree : FileTree) {term : String}
    (short : ¬ 3 ≤ (lowercase term).length) : (searcher.candidates tree term).1 = .empty := by
  refine PostingsReader.search_of_isEmpty _ _ _ ?_
  rw [Trigram.isEmpty_ofWord, decide_eq_true_eq]
  omega

theorem search_uncached {searcher : Searcher}
    (uncached : searcher.index.config.useQueryCache = false) (term : String) (tree : FileTree) :
    searcher.search term tree =
      ((((searcher.candidates tree term).1.toList.filter fun key =>
            searcher.index.wordsMatch? tree [lowercase term] [] key = some true).map
          (searcher.index.hit tree (some (lowercase term))), (searcher.candidates tree term).2),
        tree) := by
  rw [Searcher.search_eq, remembered?_eq_none uncached]
  simp only [conclude_uncached uncached]

/-- A search for a term lists the documents with a word that contains it. -/
theorem Represents.lists_search (represents : index.Represents location documents tree)
    (uncached : index.config.useQueryCache = false)
    (fits : index.config.maxShardGenerations ≤ Json.max32)
    (within : index.WithinShards IndexedDocument.trigrams documents)
    (searcher : Searcher) (same : searcher.index = index) (term : String) :
    ∃ hits later, searcher.search term tree = ((hits, later), tree) ∧
      Lists documents
        (fun document => 3 ≤ (lowercase term).length ∧ document.hasText (lowercase term) = true)
        hits := by
  subst same
  refine ⟨_, _, search_uncached uncached term tree, ?_⟩
  by_cases wide : 3 ≤ (lowercase term).length
  · have covers : Covers documents (fun document => document.hasText (lowercase term) = true)
        (searcher.candidates tree term).1 := covers_text (represents.findsTexts fits within) wide
    refine (represents.recalls.lists covers (fun document member => ?_) _).congr
      fun document _ => (and_iff_right wide).symm
    rw [represents.recalls.wordsMatch?_eq member]
    simp
  · rw [candidates_of_short searcher tree wide]
    exact lists_nil fun document _ matched => wide matched.1

/-- **Term search is exact.**  After a build that succeeds, a search for a term without the query
cache lists exactly the documents of the crawled files that have not failed in which some word
contains the lowercased term, provided that the term has three characters then. -/
theorem search_built {scheme : KeyScheme} {classifier : Classifier} {crawlRoot : Path}
    {summary : BuildSummary} {built : FileTree}
    (builds : index.Builds scheme classifier crawlRoot location tree summary built)
    (uncached : index.config.useQueryCache = false)
    (within : index.WithinShards IndexedDocument.trigrams
      (index.indexedDocuments scheme classifier crawlRoot tree summary.failed))
    (searcher : Searcher) (same : searcher.index = index) (term : String) :
    (∀ file ∈ index.crawled crawlRoot tree, file ∉ summary.failed →
      (IndexedDocument.ofFile? scheme classifier crawlRoot (index.startOf tree) file).isSome) ∧
    ∃ hits later, searcher.search term built = ((hits, later), built) ∧
      Lists (index.indexedDocuments scheme classifier crawlRoot tree summary.failed)
        (fun document => 3 ≤ (lowercase term).length ∧
          ∃ word ∈ Words.distinct document.text, occursIn (lowercase term) word = true) hits := by
  obtain ⟨represents, complete⟩ := builds.represents
  obtain ⟨hits, later, run, lists⟩ :=
    represents.lists_search uncached builds.generations within searcher same term
  exact ⟨complete, hits, later, run, lists.congr fun document _ =>
    and_congr_right fun _ => IndexedDocument.hasText_iff⟩

/-! ## A sample -/

/-- A tree with an empty folder for an index, and one source file beside it. -/
def sampleTree : FileTree :=
  ((FileTree.empty.put ["index"] (.folder [])).put ["src"] (.folder [])).put ["src", "a.java"]
    (.file "abc".toUTF8)

/-- The index in the folder of the sample. -/
def sampleIndex : Index := { root := ⟨"/index"⟩, config := { useQueryCache := false } }

/-- Keys that are the paths behind two letters. -/
def sampleScheme : KeyScheme := ⟨fun relativePath => "ab" ++ relativePath⟩

theorem wellNamed_sampleTree : sampleTree.WellNamed := by
  have named : FileTree.empty.WellNamed := FileNode.wellNamed_emptyFolder
  exact ((named.put [] (by decide) FileNode.wellNamed_emptyFolder).put [] (by decide)
    FileNode.wellNamed_emptyFolder).put ["src"] (by decide) (FileNode.wellNamed_file _)

theorem hosts_sampleIndex {tree : FileTree} (stands : tree.kind? ["index"] = some .folder)
    (own : List String) : tree.Hosts sampleIndex.root own ["index"] :=
  FileTree.hosts_of_absolute ⟨by decide, by decide⟩ (by decide) (by decide) (by decide) stands own

/-- The index lies in its folder as long as that has no settings. -/
theorem isHosted_sampleIndex_of {tree : FileTree} (stands : tree.kind? ["index"] = some .folder)
    (unset : ∀ name ∈ settingFiles, tree.kind? ["index", name] = none) :
    sampleIndex.IsHosted ["index"] tree where
  hosts := hosts_sampleIndex stands _
  noLinks name member target link := by
    rw [List.singleton_append, unset name member] at link
    cases link

/-- It can be built as long as the folder is empty. -/
theorem isBuildable_sampleIndex_of {tree : FileTree} (named : tree.WellNamed)
    (stands : tree.kind? ["index"] = some .folder)
    (empty : ∀ name ∈ ownNames, tree.kind? ["index", name] = none) :
    sampleIndex.IsBuildable ["index"] tree where
  hosted := isHosted_sampleIndex_of stands fun name setting =>
    empty name (mem_ownNames_of_setting setting)
  named := named
  noFiles folder member := by
    rw [FileTree.HasFile, List.singleton_append, empty folder (mem_ownNames_of_cleared member)]
    rintro ⟨kind, ⟨⟩, -⟩
  admits kind stands' := by
    rw [List.singleton_append, empty formatFile (by decide)] at stands'
    cases stands'

theorem isBuildable_sampleIndex : sampleIndex.IsBuildable ["index"] sampleTree :=
  isBuildable_sampleIndex_of wellNamed_sampleTree rfl (by decide)

theorem texts_sample : (sampleIndex.documentsOf sampleScheme .standard ⟨"/src"⟩ sampleTree
    (sampleIndex.crawled ⟨"/src"⟩ sampleTree)).map IndexedDocument.text = ["abc"] := by
  decide +kernel

theorem types_sample : (sampleIndex.documentsOf sampleScheme .standard ⟨"/src"⟩ sampleTree
    (sampleIndex.crawled ⟨"/src"⟩ sampleTree)).map (fun document =>
      document.record.class? Classifier.fileType) = [some "java"] := by
  decide +kernel

theorem fails_sample : (sampleIndex.crawled ⟨"/src"⟩ sampleTree).filter
    (fails sampleScheme ⟨"/src"⟩ (sampleIndex.startOf sampleTree)) = [] := by
  decide +kernel

/-- The documents of the sample. -/
def sampleDocuments : List IndexedDocument :=
  sampleIndex.indexedDocuments sampleScheme .standard ⟨"/src"⟩ sampleTree []

theorem texts_sampleDocuments : sampleDocuments.map IndexedDocument.text = ["abc"] := by
  rw [sampleDocuments, indexedDocuments, List.filter_eq_self.mpr (by simp)]
  exact texts_sample

theorem exists_mem_sampleDocuments : ∃ document, document ∈ sampleDocuments := by
  have texts := texts_sampleDocuments
  cases documents : sampleDocuments with
  | nil =>
      rw [documents] at texts
      cases texts
  | cons document rest => exact ⟨document, List.mem_cons_self⟩

theorem text_of_mem_sampleDocuments {document : IndexedDocument}
    (member : document ∈ sampleDocuments) : document.text = "abc" := by
  have listed := List.mem_map_of_mem (f := IndexedDocument.text) member
  rw [texts_sampleDocuments] at listed
  exact List.mem_singleton.mp listed

theorem type_of_mem_sampleDocuments {document : IndexedDocument}
    (member : document ∈ sampleDocuments) :
    document.record.class? Classifier.fileType = some "java" := by
  have listed := List.mem_map_of_mem
    (f := fun document : IndexedDocument => document.record.class? Classifier.fileType) member
  rw [sampleDocuments, indexedDocuments, List.filter_eq_self.mpr (by simp), types_sample] at listed
  exact List.mem_singleton.mp listed

theorem hasText_sample {document : IndexedDocument} (member : document ∈ sampleDocuments)
    (part : String) : document.hasText part = someWordHas (Words.distinct "abc") part := by
  rw [IndexedDocument.hasText, IndexedDocument.words, text_of_mem_sampleDocuments member]

theorem mem_trigrams_sample {document : IndexedDocument} (member : document ∈ sampleDocuments) :
    ("abc" : Trigram) ∈ document.trigrams := by
  have has : document.hasText "abc" = true := by
    rw [hasText_sample member]
    decide
  exact IndexedDocument.ofWord_subset_trigrams has
    (Trigram.mem_ofWord_iff.mpr ⟨by decide, List.infix_rfl⟩)

/-- A tree around the index of the sample is built if it has one document and no file fails. -/
theorem exists_builds_of_text {tree : FileTree} {text : String}
    (buildable : sampleIndex.IsBuildable ["index"] tree)
    (texts : (sampleIndex.documentsOf sampleScheme .standard ⟨"/src"⟩ tree
      (sampleIndex.crawled ⟨"/src"⟩ tree)).map IndexedDocument.text = [text])
    (clean : (sampleIndex.crawled ⟨"/src"⟩ tree).filter
      (fails sampleScheme ⟨"/src"⟩ (sampleIndex.startOf tree)) = [])
    (few : (sampleIndex.crawled ⟨"/src"⟩ tree).length ≤ Json.max64) :
    ∃ summary built, summary.failed = [] ∧
      sampleIndex.Builds sampleScheme .standard ⟨"/src"⟩ ["index"] tree summary built := by
  obtain ⟨summary, built, run, failed⟩ :=
    buildable.exists_build Classifier.keepsKeys_standard (by decide) few
  refine ⟨summary, built, failed.trans clean, buildable.hosted, buildable.named,
    Classifier.keepsKeys_standard, by decide, by decide, ?_, run⟩
  generalize sampleIndex.documentsOf _ _ _ _ _ = documents at texts ⊢
  match documents with
  | [] => exact .nil
  | [document] => exact List.pairwise_singleton _ _
  | _ :: _ :: _ => simp at texts

/-- The sample is built. -/
theorem builds_sample : ∃ summary built, summary.failed = [] ∧
    sampleIndex.Builds sampleScheme .standard ⟨"/src"⟩ ["index"] sampleTree summary built :=
  exists_builds_of_text isBuildable_sampleIndex texts_sample fails_sample (by decide +kernel)

theorem length_sampleDocuments : sampleDocuments.length = 1 := by
  rw [← List.length_map (f := IndexedDocument.text), texts_sampleDocuments]
  rfl

/-- The shards hold all trigrams of a single document. -/
theorem withinShards_of_length {documents : List IndexedDocument} (single : documents.length = 1)
    (trigramsOf : IndexedDocument → SortedSet Trigram) :
    sampleIndex.WithinShards trigramsOf documents := fun _ =>
  Nat.le_trans List.countP_le_length (single ▸ by decide)

theorem withinShards_sample (trigramsOf : IndexedDocument → SortedSet Trigram) :
    sampleIndex.WithinShards trigramsOf sampleDocuments :=
  withinShards_of_length length_sampleDocuments trigramsOf

theorem withinShards_of_failed {summary : BuildSummary} (failed : summary.failed = [])
    (trigramsOf : IndexedDocument → SortedSet Trigram) :
    sampleIndex.WithinShards trigramsOf
      (sampleIndex.indexedDocuments sampleScheme .standard ⟨"/src"⟩ sampleTree summary.failed) := by
  rw [failed]
  exact withinShards_sample trigramsOf

theorem search_built_sample : ∃ summary built hits later,
    sampleIndex.Builds sampleScheme .standard ⟨"/src"⟩ ["index"] sampleTree summary built ∧
    Searcher.search { index := sampleIndex } "ABC" built = ((hits, later), built) ∧
      Lists sampleDocuments
        (fun document => 3 ≤ (lowercase "ABC").length ∧
          ∃ word ∈ Words.distinct document.text, occursIn (lowercase "ABC") word = true) hits := by
  obtain ⟨summary, built, failed, builds⟩ := builds_sample
  have within : sampleIndex.WithinShards IndexedDocument.trigrams
      (sampleIndex.indexedDocuments sampleScheme .standard ⟨"/src"⟩ sampleTree summary.failed) := by
    rw [failed]
    exact withinShards_sample _
  obtain ⟨-, hits, later, found, lists⟩ :=
    search_built builds rfl within { index := sampleIndex } rfl "ABC"
  rw [failed] at lists
  exact ⟨summary, built, hits, later, builds, found, lists⟩

end Index
end SourceSearch
