import SourceSearch.Proofs.Lines
import SourceSearch.Proofs.Search.Terms

/-!
# Pieces of words

A run of characters without delimiters and blanks is found in every line that spells it alike when
lowercased.  That holds of each line that the run is a piece of, unless a capital sigma gets another
small form at the end of the run than within the line.
-/

namespace SourceSearch

/-- The words of a document contain a text without delimiters and blanks exactly if the lowercase
form of some line does. -/
theorem IndexedDocument.hasText_iff_exists_line {document : IndexedDocument} {part : String}
    (wide : 3 ≤ part.length) (solid : ∀ c ∈ part.toList, Words.isSolid c = true) :
    document.hasText part = true ↔
      ∃ line ∈ lines document.text, occursIn part (lowercase line) = true :=
  hasText_iff.trans (Words.exists_word_iff wide solid)

namespace Index

variable {index : Index} {location : Location} {tree : FileTree}
  {documents : List IndexedDocument}

/-- A search for a piece of a word lists the documents with a line whose lowercase form contains
that of the piece. -/
theorem Represents.lists_piece (represents : index.Represents location documents tree)
    (uncached : index.config.useQueryCache = false)
    (fits : index.config.maxShardGenerations ≤ Json.max32)
    (within : index.WithinShards IndexedDocument.trigrams documents)
    (searcher : Searcher) (same : searcher.index = index) (piece : String)
    (wide : 3 ≤ piece.length) (solid : ∀ c ∈ piece.toList, Words.isSolid c = true) :
    ∃ hits later, searcher.search piece tree = ((hits, later), tree) ∧
      Lists documents (fun document =>
        ∃ line ∈ lines document.text, occursIn (lowercase piece) (lowercase line) = true) hits := by
  obtain ⟨hits, later, run, lists⟩ :=
    represents.lists_search uncached fits within searcher same piece
  have wide' := Nat.le_trans wide (Words.length_le_lowercase piece)
  refine ⟨hits, later, run, lists.congr fun document _ => ?_⟩
  rw [and_iff_right wide']
  exact IndexedDocument.hasText_iff_exists_line wide' (Words.isSolid_lowercase solid)

/-- **Pieces of words are found where they are lowercased alike.**  After a build that succeeds, a
search without the query cache for a run of three characters or more, none of them a delimiter or a
blank, lists exactly the documents with a line whose lowercase form contains that of the run.  Among
them is every document with a line that the run is a piece of, provided that each capital sigma of
the run has the same small form within the line as in the run alone. -/
theorem pieces_found {scheme : KeyScheme} {classifier : Classifier} {crawlRoot : Path}
    {summary : BuildSummary} {built : FileTree}
    (builds : index.Builds scheme classifier crawlRoot location tree summary built)
    (uncached : index.config.useQueryCache = false)
    (within : index.WithinShards IndexedDocument.trigrams
      (index.indexedDocuments scheme classifier crawlRoot tree summary.failed))
    (searcher : Searcher) (same : searcher.index = index) (piece : String)
    (wide : 3 ≤ piece.length) (solid : ∀ c ∈ piece.toList, Words.isSolid c = true) :
    (∀ file ∈ index.crawled crawlRoot tree, file ∉ summary.failed →
      (IndexedDocument.ofFile? scheme classifier crawlRoot (index.startOf tree) file).isSome) ∧
    ∃ hits later, searcher.search piece built = ((hits, later), built) ∧
      Lists (index.indexedDocuments scheme classifier crawlRoot tree summary.failed)
        (fun document =>
          ∃ line ∈ lines document.text, occursIn (lowercase piece) (lowercase line) = true) hits ∧
      ∀ document ∈ index.indexedDocuments scheme classifier crawlRoot tree summary.failed,
        ∀ line ∈ lines document.text, ∀ before after,
          line.toList = before ++ piece.toList ++ after →
          Text.SigmasAlike before.reverse piece.toList after →
            ∃ hit ∈ hits, hit.documentKey = document.key ∧
              hit.metadata = some document.record := by
  obtain ⟨represents, complete⟩ := builds.represents
  obtain ⟨hits, later, run, lists⟩ :=
    represents.lists_piece uncached builds.generations within searcher same piece wide solid
  refine ⟨complete, hits, later, run, lists, ?_⟩
  intro document member line listed before after cut alike
  exact (lists.exact _ _).mpr
    ⟨document, member, ⟨line, listed, Words.occursIn_lowercase cut alike⟩, rfl, rfl⟩

/-! ## A sigma within a word -/

/-- The sample with a text that has a capital sigma before its last letter, and a token of two
letters. -/
def sigmaTree : FileTree := sampleTree.put ["src", "a.java"] (.file "ΟΔΟΣΑ ab".toUTF8)

theorem wellNamed_sigmaTree : sigmaTree.WellNamed :=
  wellNamed_sampleTree.put ["src"] (by decide) (FileNode.wellNamed_file _)

/-- The documents of the sample with a sigma. -/
def sigmaDocuments : List IndexedDocument :=
  sampleIndex.indexedDocuments sampleScheme .standard ⟨"/src"⟩ sigmaTree []

theorem texts_sigma : (sampleIndex.documentsOf sampleScheme .standard ⟨"/src"⟩ sigmaTree
    (sampleIndex.crawled ⟨"/src"⟩ sigmaTree)).map IndexedDocument.text = ["ΟΔΟΣΑ ab"] := by
  decide +kernel

theorem fails_sigma : (sampleIndex.crawled ⟨"/src"⟩ sigmaTree).filter
    (fails sampleScheme ⟨"/src"⟩ (sampleIndex.startOf sigmaTree)) = [] := by
  decide +kernel

theorem texts_sigmaDocuments : sigmaDocuments.map IndexedDocument.text = ["ΟΔΟΣΑ ab"] := by
  rw [sigmaDocuments, indexedDocuments, List.filter_eq_self.mpr (by simp)]
  exact texts_sigma

theorem text_of_mem_sigmaDocuments {document : IndexedDocument}
    (member : document ∈ sigmaDocuments) : document.text = "ΟΔΟΣΑ ab" := by
  have listed := List.mem_map_of_mem (f := IndexedDocument.text) member
  rw [texts_sigmaDocuments] at listed
  exact List.mem_singleton.mp listed

theorem exists_mem_sigmaDocuments : ∃ document, document ∈ sigmaDocuments := by
  refine List.exists_mem_of_ne_nil _ fun none => ?_
  have texts := texts_sigmaDocuments
  rw [none] at texts
  cases texts

theorem builds_sigma : ∃ summary built, summary.failed = [] ∧
    sampleIndex.Builds sampleScheme .standard ⟨"/src"⟩ ["index"] sigmaTree summary built :=
  exists_builds_of_text (isBuildable_sampleIndex_of wellNamed_sigmaTree rfl (by decide))
    texts_sigma fails_sigma (by decide +kernel)

theorem withinShards_sigma (trigramsOf : IndexedDocument → SortedSet Trigram) :
    sampleIndex.WithinShards trigramsOf sigmaDocuments :=
  withinShards_of_length
    (by rw [← List.length_map (f := IndexedDocument.text), texts_sigmaDocuments]; rfl) trigramsOf

/-- The beginning of a word that ends in a sigma is lost, as it is no end of the word; a later piece
of the word is found. -/
theorem pieces_found_sigma : ∃ summary built, summary.failed = [] ∧
    sampleIndex.Builds sampleScheme .standard ⟨"/src"⟩ ["index"] sigmaTree summary built ∧
    (∃ document ∈ sigmaDocuments, ∃ line ∈ lines document.text, occursIn "ΟΔΟΣ" line = true) ∧
    (∃ later, Searcher.search { index := sampleIndex } "ΟΔΟΣ" built = (([], later), built)) ∧
    ∃ hits later, Searcher.search { index := sampleIndex } "ΔΟΣΑ" built = ((hits, later), built) ∧
      ∀ document ∈ sigmaDocuments, ∃ hit ∈ hits, hit.documentKey = document.key := by
  obtain ⟨summary, built, failed, builds⟩ := builds_sigma
  have within : sampleIndex.WithinShards IndexedDocument.trigrams
      (sampleIndex.indexedDocuments sampleScheme .standard ⟨"/src"⟩ sigmaTree summary.failed) := by
    rw [failed]
    exact withinShards_sigma _
  have line {document : IndexedDocument} (member : document ∈ sigmaDocuments) :
      lines document.text = ["ΟΔΟΣΑ ab"] := by
    rw [text_of_mem_sigmaDocuments member]
    decide
  obtain ⟨-, lost, later, run, lists, -⟩ := pieces_found builds rfl within
    { index := sampleIndex } rfl "ΟΔΟΣ" (by decide) (List.all_eq_true.mp (by decide +kernel))
  obtain ⟨-, hits, later', run', -, found⟩ := pieces_found builds rfl within
    { index := sampleIndex } rfl "ΔΟΣΑ" (by decide) (List.all_eq_true.mp (by decide +kernel))
  rw [failed] at lists found
  refine ⟨summary, built, failed, builds, ?_, ⟨later, ?_⟩, hits, later', run',
    fun document member => ?_⟩
  · obtain ⟨document, member⟩ := exists_mem_sigmaDocuments
    refine ⟨document, member, "ΟΔΟΣΑ ab", ?_, by decide⟩
    rw [line member]
    exact List.mem_singleton_self _
  · have none : lost = [] := lists.eq_nil fun document member matched => by
      obtain ⟨text, listed, occurs⟩ := matched
      rw [line member] at listed
      obtain rfl := List.mem_singleton.mp listed
      exact absurd occurs (by decide +kernel)
    rw [run, none]
  · obtain ⟨hit, listed, is, -⟩ := found document member "ΟΔΟΣΑ ab"
      (by rw [line member]; exact List.mem_singleton_self _) ['Ο'] " ab".toList (by decide)
      (Text.lowercaseBetween_eq_iff.mp (by decide +kernel))
    exact ⟨hit, listed, is⟩

end Index
end SourceSearch
