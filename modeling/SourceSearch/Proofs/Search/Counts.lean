import SourceSearch.Proofs.Search.Served

/-!
# Counts are estimates

The count files beside the postings of trigrams say in which order postings are intersected and
where that ends.  Whatever has become of them, and whatever the ratios are that end an intersection,
the answers are the same.
-/

namespace SourceSearch

/-- The file of a shard does not have the name of a count file. -/
theorem Postings.not_countSuffix_shardEnd (stem : String) (generation : Nat) :
    ¬ countSuffix.toList <:+ (stem ++ shardEnd generation).toList := by
  intro count
  have shard : shardSuffix.toList <:+ (stem ++ shardEnd generation).toList := by
    rw [String.toList_append, toList_shardEnd, ← List.cons_append, ← List.append_assoc]
    exact List.suffix_append _ _
  have nested := List.suffix_of_suffix_length_le shard count (by decide)
  revert nested
  decide

namespace Index

variable {index : Index} {location : Location} {built altered : FileTree}

/-! ## Places of counts -/

/-- The place has the name of a count file and lies in a folder of postings. -/
def IsCountPlace (location place : Location) : Prop :=
  (∃ folder ∈ [textFolder, tagFolder], location ++ [folder] <+: place) ∧
    ∃ name ∈ place.getLast?, Postings.countSuffix.toList <:+ name.toList

theorem IsCountPlace.below {place : Location} (count : IsCountPlace location place) :
    ∃ folder ∈ clearedFolders, location ++ [folder] <+: place := by
  obtain ⟨⟨folder, member, below⟩, -⟩ := count
  have cleared : ∀ folder ∈ [textFolder, tagFolder], folder ∈ clearedFolders := by decide
  exact ⟨folder, cleared folder member, below⟩

theorem not_isCountPlace_shardPlace (location : Location) (folder : String) (trigram : Trigram)
    (generation : Nat) :
    ¬ IsCountPlace location (location ++ folder :: Postings.shardPlace trigram generation) := by
  rintro ⟨-, name, last, ends⟩
  rw [Postings.shardPlace, Postings.placeOf, List.append_cons, ← List.append_assoc,
    List.getLast?_concat, Option.mem_some_iff] at last
  exact Postings.not_countSuffix_shardEnd _ generation (last ▸ ends)

/-! ## What a search reads beside counts -/

section Altered

variable {may : Location → ByteArray → Prop} {places : List Location}

/-- The documents of a trigram are those of before. -/
theorem documents_of_altered_counts (stands : index.Stands location built)
    (differs : FileTree.DiffersAt may built places altered)
    (counts : ∀ place ∈ places, IsCountPlace location place) {folder : String}
    (member : folder ∈ clearedFolders) (deep : depthOf folder = 3) (trigram : Trigram) :
    (index.reader folder).documents altered trigram =
      (index.reader folder).documents built trigram := by
  have stands' := stands.of_differsAt differs fun place listed => (counts place listed).below
  refine congrArg Prod.fst (PostingsReader.load_congr fun generation => ?_)
  rw [stands'.read_shard member deep, stands.read_shard member deep]
  exact differs.fileAt?_eq fun listed =>
    not_isCountPlace_shardPlace location folder trigram generation (counts _ listed)

/-- The documents of a build are served as before. -/
theorem Builds.serves_of_altered_counts {scheme : KeyScheme} {classifier : Classifier}
    {crawlRoot : Path} {tree : FileTree} {summary : BuildSummary}
    (builds : index.Builds scheme classifier crawlRoot location tree summary built)
    (texts : index.WithinShards IndexedDocument.trigrams
      (index.indexedDocuments scheme classifier crawlRoot tree summary.failed))
    (tags : index.WithinShards (fun document => document.record.tagTrigrams)
      (index.indexedDocuments scheme classifier crawlRoot tree summary.failed))
    (differs : FileTree.DiffersAt may built places altered)
    (counts : ∀ place ∈ places, IsCountPlace location place) :
    index.Serves (index.indexedDocuments scheme classifier crawlRoot tree summary.failed)
      altered := by
  have represents := builds.represents.1
  have serves := builds.serves texts tags
  have stands := represents.stands.of_differsAt differs fun place listed =>
    (counts place listed).below
  have agrees : built.AgreesOutside location [textFolder, tagFolder] altered :=
    differs.agrees fun place listed => (counts place listed).1
  have keeps := represents.keeps.of_agrees agrees (by decide)
  have finds {folder : String} (member : folder ∈ clearedFolders) (deep : depthOf folder = 3)
      {trigramsOf : IndexedDocument → SortedSet Trigram}
      (finds : (index.reader folder).Finds built trigramsOf
        (index.indexedDocuments scheme classifier crawlRoot tree summary.failed)) :
      (index.reader folder).Finds altered trigramsOf
        (index.indexedDocuments scheme classifier crawlRoot tree summary.failed) := by
    intro trigram wide key
    rw [documents_of_altered_counts represents.stands differs counts member deep]
    exact finds trigram wide key
  exact {
    words := fun _ member => keeps.words_eq stands member
    records := fun document member => keeps.load? stands member (represents.fits document member)
    texts := finds (by decide) (by decide) serves.texts
    tags := finds (by decide) (by decide) serves.tags
    copies := fun document member => by
      obtain ⟨content, copied, text⟩ :=
        represents.stands.load_eq_some_iff.mp (serves.copies document member)
      refine stands.load_eq_some_iff.mpr ⟨content, ?_, text⟩
      rw [FileTree.copy?, agrees.record? (by decide), ← FileTree.copy?, copied] }

end Altered

/-! ## Answers -/

/-- The same index with other ratios at which intersections end. -/
def withAbortRatios (index : Index) (content metadata : Nat) : Index :=
  { index with
    config := { index.config with contentAbortRatio := content, metadataAbortRatio := metadata } }

/-- Ratios do not matter to what is served. -/
theorem Serves.withAbortRatios {documents : List IndexedDocument} {tree : FileTree}
    (serves : index.Serves documents tree) (content metadata : Nat) :
    (index.withAbortRatios content metadata).Serves documents tree where
  words := serves.words
  records := serves.records
  texts := serves.texts
  tags := serves.tags
  copies := serves.copies

/-- **Counts never change an answer.**  After a build that succeeds, every call is answered alike
whatever has become of the count files and whatever the ratios are that end intersections. -/
theorem answer_of_altered_counts {scheme : KeyScheme} {classifier : Classifier} {crawlRoot : Path}
    {tree : FileTree} {summary : BuildSummary}
    (builds : index.Builds scheme classifier crawlRoot location tree summary built)
    (uncached : index.config.useQueryCache = false)
    (texts : index.WithinShards IndexedDocument.trigrams
      (index.indexedDocuments scheme classifier crawlRoot tree summary.failed))
    (tags : index.WithinShards (fun document => document.record.tagTrigrams)
      (index.indexedDocuments scheme classifier crawlRoot tree summary.failed))
    {places : List Location} (alters : built.Alters (fun _ _ => True) places altered)
    (counts : ∀ place ∈ places, IsCountPlace location place)
    {content content' metadata metadata' : Nat}
    {searcher searcher' : Searcher}
    (ratios : searcher.index = index.withAbortRatios content metadata)
    (ratios' : searcher'.index = index.withAbortRatios content' metadata') (call : Call) :
    (searcher'.answer call altered).1.1 = (searcher.answer call built).1.1 := by
  have before := (builds.serves texts tags).withAbortRatios content metadata
  have after := (builds.serves_of_altered_counts texts tags alters.differsAt counts).withAbortRatios
    content' metadata'
  have off : searcher.index.config.useQueryCache = false := by rw [ratios]; exact uncached
  have off' : searcher'.index.config.useQueryCache = false := by rw [ratios']; exact uncached
  rw [answer_eq_fresh off, answer_eq_fresh off', ratios, ratios']
  exact before.fresh_eq after call

/-- In the sample a count is deleted and the ratios are set to zero. -/
theorem answer_of_altered_counts_sample : ∃ summary built altered,
    sampleIndex.Builds sampleScheme .standard ⟨"/src"⟩ ["index"] sampleTree summary built ∧
      built.Alters (fun _ _ => True) ["index" :: textFolder :: Postings.countPlace "abc"] altered ∧
        altered.kind? ("index" :: textFolder :: Postings.countPlace "abc") = none ∧
          (Searcher.answer { index := sampleIndex.withAbortRatios 0 0 } (.ofTerm "abc")
              altered).1.1 =
            (Searcher.answer { index := sampleIndex } (.ofTerm "abc") built).1.1 := by
  obtain ⟨summary, built, failed, builds⟩ := builds_sample
  have represents := builds.represents.1
  have within := withinShards_of_failed failed
  rw [failed] at represents
  obtain ⟨document, member⟩ := exists_mem_sampleDocuments
  obtain ⟨content, held⟩ := (represents.files_stand member (mem_trigrams_sample member)).2
  -- The place of the count, split before its last name.
  have place : "index" :: textFolder :: Postings.countPlace "abc" =
      ["index", textFolder, "61", "62"] ++ ["61_62_63.reference_count"] := by decide
  have count : IsCountPlace ["index"] ("index" :: textFolder :: Postings.countPlace "abc") := by
    rw [place]
    exact ⟨⟨textFolder, by decide, ⟨_, rfl⟩⟩, "61_62_63.reference_count", rfl, by decide⟩
  rw [List.singleton_append, place] at held
  have alters := (FileTree.Alters.none : built.Alters (fun _ _ => True) [] built).delete held
  rw [← place] at alters
  have ratios : ({ index := sampleIndex } : Searcher).index =
      sampleIndex.withAbortRatios 48 128 := rfl
  refine ⟨summary, built, _, builds, alters, ?_,
    answer_of_altered_counts builds rfl (within _) (within _) alters (by simpa using count) ratios
      rfl (.ofTerm "abc")⟩
  have notFolder : built.kind? (["index", textFolder, "61", "62"] ++
      ["61_62_63.reference_count"]) ≠ some .folder := by
    rw [held]
    simp
  rw [place, FileTree.kind?_erase_of_not_folder (FileTree.kind?_of_append held) notFolder,
    if_pos rfl]

end Index
end SourceSearch
