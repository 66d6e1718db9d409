import SourceSearch.Proofs.Search.Transparency

/-!
# Records that have been lost

Verification has a third outcome beside yes and no: nothing is known of a document whose words or
record cannot be read.  So if records are lost, no verdict is turned round.  A call finds at most
what it would have found, and it leaves an answer in the query cache only if that is the whole
answer.
-/

namespace SourceSearch
namespace Index

variable {index : Index} {location place : Location} {tree damaged built now : FileTree}
  {key : DocumentKey} {call : Call}

/-! ## Places of records -/

/-- The place is that of a record of a kind. -/
def IsRecordPlace (location : Location) (folder suffix : String) (place : Location) : Prop :=
  ∃ key names, Store.place? key suffix = some names ∧ place = location ++ folder :: names

/-- The place is that of the words or of the record of a document. -/
def IsVerifiedPlace (location place : Location) : Prop :=
  IsRecordPlace location wordlistsFolder wordlistSuffix place ∨
    IsRecordPlace location metadataFolder metadataSuffix place

/-- What cannot be read as the words or the record that the place is for. -/
def NoRecord (location place : Location) (content : ByteArray) : Prop :=
  (IsRecordPlace location wordlistsFolder wordlistSuffix place →
    Json.decodeBytes? Json.toTexts? content = none) ∧
  (IsRecordPlace location metadataFolder metadataSuffix place →
    Json.decodeBytes? Metadata.ofJson? content = none)

/-- The folders of words and records. -/
def verifiedFolders : List String := [wordlistsFolder, metadataFolder]

theorem verifiedFolders_subset : ∀ folder ∈ verifiedFolders, folder ∈ clearedFolders := by decide

theorem IsVerifiedPlace.below (verified : IsVerifiedPlace location place) :
    ∃ folder ∈ verifiedFolders, location ++ [folder] <+: place := by
  rcases verified with ⟨-, names, -, rfl⟩ | ⟨-, names, -, rfl⟩
  · exact ⟨wordlistsFolder, by decide, by simp⟩
  · exact ⟨metadataFolder, by decide, by simp⟩

/-- What is left of altered files is read as it was. -/
theorem record?_of_lost {α : Type} {may : Location → ByteArray → Prop} {places : List Location}
    {decode : Json → Option α} {folder suffix : String} {content : ByteArray} {value : α}
    (differs : FileTree.DiffersAt may tree places damaged)
    (unreadable : ∀ place content, IsRecordPlace location folder suffix place →
      may place content → Json.decodeBytes? decode content = none)
    (held : damaged.record? location folder key suffix = some content)
    (decodes : Json.decodeBytes? decode content = some value) :
    tree.record? location folder key suffix = some content := by
  rw [FileTree.record?, Option.bind_eq_some_iff] at held ⊢
  obtain ⟨names, placed, held⟩ := held
  refine ⟨names, placed, ?_⟩
  by_cases lost : location ++ folder :: names ∈ places
  · have undecoded := unreadable _ content ⟨key, names, placed, rfl⟩
      (differs.may_of_fileAt? lost held)
    rw [undecoded] at decodes
    cases decodes
  · rwa [differs.fileAt?_eq lost] at held

section Lost

variable {may : Location → ByteArray → Prop} {places : List Location}
  (differs : FileTree.DiffersAt may tree places damaged)
  (records : ∀ place ∈ places, IsVerifiedPlace location place)

include differs records

theorem agrees_of_lost_records : tree.AgreesOutside location verifiedFolders damaged :=
  differs.agrees fun place listed => (records place listed).below

theorem Stands.of_lost_records (stands : index.Stands location tree) :
    index.Stands location damaged :=
  stands.of_differsAt differs fun place listed => by
    obtain ⟨folder, member, below⟩ := (records place listed).below
    exact ⟨folder, verifiedFolders_subset folder member, below⟩

/-- The postings are those of before, and so are the candidates. -/
theorem Stands.candidates?_of_lost_records (stands : index.Stands location tree) (call : Call) :
    index.candidates? damaged call = index.candidates? tree call := by
  have searched : ∀ folder ∈ [textFolder, tagFolder],
      folder ∈ clearedFolders ∧ folder ∉ verifiedFolders := by decide
  exact candidates?_congr (fun folder member =>
    stands.unlinked.search_of_agrees (agrees_of_lost_records differs records) verifiedFolders_subset
      (searched folder member).1 (searched folder member).2) call

end Lost

/-! ## Verdicts -/

/-- All words and records that are read from a damaged index are those of the index. -/
structure ReadsLess (index : Index) (tree damaged : FileTree) : Prop where
  /-- Words are. -/
  words : ∀ key words, index.wordlists.words damaged key = .ok (some words) →
    index.wordlists.words tree key = .ok (some words)
  /-- Records are. -/
  records : ∀ key record, index.metadata.load? damaged key = some record →
    index.metadata.load? tree key = some record

/-- Words and records that have been lost are not read as others. -/
theorem Stands.readsLess (stands : index.Stands location tree)
    (stands' : index.Stands location damaged) {places : List Location}
    (differs : FileTree.DiffersAt (NoRecord location) tree places damaged) :
    index.ReadsLess tree damaged where
  words key words read := by
    obtain ⟨content, held, decodes⟩ := stands'.words_eq_ok_iff.mp read
    exact stands.words_eq_ok_iff.mpr ⟨content,
      record?_of_lost differs (fun _ _ is lost => lost.1 is) held decodes, decodes⟩
  records key record read := by
    obtain ⟨content, held, decodes⟩ := stands'.load?_eq_some_iff.mp read
    exact stands.load?_eq_some_iff.mpr ⟨content,
      record?_of_lost differs (fun _ _ is lost => lost.2 is) held decodes, decodes⟩

namespace ReadsLess

theorem wordsMatch? (reads : index.ReadsLess tree damaged) {required excluded : List String}
    {verdict : Bool} (judged : index.wordsMatch? damaged required excluded key = some verdict) :
    index.wordsMatch? tree required excluded key = some verdict := by
  rw [Index.wordsMatch?] at judged ⊢
  split at judged
  · rename_i words read
    rw [reads.words key words read]
    exact judged
  · cases judged

theorem tagsMatch? (reads : index.ReadsLess tree damaged)
    {required excluded : List (String × String)} {verdict : Bool}
    (judged : index.tagsMatch? damaged required excluded key = some verdict) :
    index.tagsMatch? tree required excluded key = some verdict := by
  rw [Index.tagsMatch?] at judged ⊢
  split at judged
  · rename_i idle
    rwa [if_pos idle]
  · rename_i busy
    obtain ⟨record, read, same⟩ := Option.map_eq_some_iff.mp judged
    rw [if_neg busy, reads.records key record read, Option.map_some, same]

/-- Class tags are asked for only if the words are right, in both trees alike. -/
theorem satisfies? (reads : index.ReadsLess tree damaged) {query : Query} {verdict : Bool}
    (judged : index.satisfies? damaged query key = some verdict) :
    index.satisfies? tree query key = some verdict := by
  have byWords {decision : Bool}
      (decided : (if query.requiredWords.isEmpty && query.excludedWords.isEmpty then some true
        else index.wordsMatch? damaged query.requiredWords query.excludedWords key) =
          some decision) :
      (if query.requiredWords.isEmpty && query.excludedWords.isEmpty then some true
        else index.wordsMatch? tree query.requiredWords query.excludedWords key) =
          some decision := by
    split at decided
    · rename_i idle
      rwa [if_pos idle]
    · rename_i busy
      rw [if_neg busy]
      exact reads.wordsMatch? decided
  simp only [Index.satisfies?] at judged ⊢
  split at judged
  · rename_i right
    rw [byWords right]
    exact reads.tagsMatch? judged
  · rw [byWords judged]
    cases verdict with
    | false => rfl
    | true => simp_all

/-- No verdict is turned round. -/
theorem judge (reads : index.ReadsLess tree damaged) {verdict : Bool}
    (judged : index.judge damaged call key = some verdict) :
    index.judge tree call key = some verdict := by
  cases call with
  | ofTerm term => exact reads.wordsMatch? judged
  | ofQuery query => exact reads.satisfies? judged

/-- What passes would have passed. -/
theorem passing_sublist (reads : index.ReadsLess tree damaged) (call : Call)
    (found : SortedSet DocumentKey) :
    (index.passing damaged call found).Sublist (index.passing tree call found) :=
  List.monotone_filter_right _ fun key passed => by
    rw [decide_eq_true_eq] at passed ⊢
    exact reads.judge passed

/-- If every candidate could be judged, all that would have passed does. -/
theorem passing_eq (reads : index.ReadsLess tree damaged) {found : SortedSet DocumentKey}
    (finds : index.candidates? damaged call = .ok found)
    (settles : index.settles damaged call = true) :
    index.passing damaged call found = index.passing tree call found := by
  rw [Index.settles, finds, List.all_eq_true] at settles
  refine List.filter_congr fun key member => ?_
  obtain ⟨verdict, judged⟩ := Option.isSome_iff_exists.mp (settles key member)
  rw [judged, reads.judge judged]

end ReadsLess

/-! ## Answers -/

/-- **Lost records add nothing and are not remembered.**  After a build that succeeds words and
records of documents are deleted or overwritten with what cannot be read.  Then every call that
finds no entry in the query cache, whatever else is there, is answered by a part of its answer
before the loss; and what it leaves in the query cache, if anything, is all of that answer. -/
theorem answer_of_lost_records {scheme : KeyScheme} {classifier : Classifier} {crawlRoot : Path}
    {summary : BuildSummary}
    (builds : index.Builds scheme classifier crawlRoot location tree summary built)
    {places : List Location} (alters : built.Alters (NoRecord location) places damaged)
    (records : ∀ place ∈ places, IsVerifiedPlace location place)
    (agrees : damaged.AgreesOutside location [queriesFolder] now)
    (stands : index.Stands location now) {searcher : Searcher} (same : searcher.index = index)
    (compiles : call.compiles = true)
    (forgotten : index.queries.result? now call.key = none) :
    ∃ hits fewer later after,
      (searcher.answer call built).1.1 = .ok hits ∧
      searcher.answer call now = ((.ok fewer, later), after) ∧
      (fewer.map Hit.documentKey).Sublist (hits.map Hit.documentKey) ∧
      ∀ keys, index.queries.result? after call.key = some keys →
        keys = hits.map Hit.documentKey := by
  have represents := builds.represents.1
  have differs := alters.differsAt
  have stands' := represents.stands.of_lost_records differs records
  have unchanged : index.Unchanged location damaged now := ⟨stands', agrees⟩
  have reads := represents.stands.readsLess stands' differs
  obtain ⟨found, finds⟩ := exists_candidates compiles index built
  have finds' := (represents.stands.candidates?_of_lost_records differs records call).trans finds
  obtain ⟨_, _, -, before, -⟩ := represents.stands.answer_of_no_result same finds
    (represents.stands.result?_eq_none represents.noResults call.key)
  obtain ⟨later, after, -, answers, -, -, left⟩ :=
    stands.answer_of_no_result same ((unchanged.candidates? call).trans finds') forgotten
  rw [unchanged.passing] at answers left
  refine ⟨_, _, later, after, congrArg (·.1.1) before, answers, ?_, fun keys stored => ?_⟩
  · rw [map_documentKey_hit, map_documentKey_hit]
    exact reads.passing_sublist call found
  · rw [map_documentKey_hit]
    rw [left, unchanged.settles] at stored
    split at stored
    · rename_i remembers
      rw [Bool.and_eq_true] at remembers
      rw [← Option.some.inj stored]
      exact reads.passing_eq finds' remembers.2
    · cases stored

/-- In the sample the words of the document are overwritten. -/
theorem answer_of_lost_records_sample : ∃ summary built place damaged,
    cachingIndex.Builds sampleScheme .standard ⟨"/src"⟩ ["index"] sampleTree summary built ∧
      IsVerifiedPlace ["index"] place ∧
        built.Alters (NoRecord ["index"]) [place] damaged ∧
          ∃ hits fewer later after,
            (Searcher.answer { index := cachingIndex } (.ofTerm "abc") built).1.1 = .ok hits ∧
              Searcher.answer { index := cachingIndex } (.ofTerm "abc") damaged =
                ((.ok fewer, later), after) ∧
              (fewer.map Hit.documentKey).Sublist (hits.map Hit.documentKey) ∧
              ∀ keys, cachingIndex.queries.result? after (cacheKey "abc") = some keys →
                keys = hits.map Hit.documentKey := by
  obtain ⟨summary, built, failed, builds⟩ := builds_cachingIndex
  have represents := builds.represents.1
  have stands := represents.stands
  rw [indexedDocuments_cachingIndex failed] at represents
  obtain ⟨document, member⟩ := exists_mem_sampleDocuments
  obtain ⟨names, placed, held⟩ :=
    Option.bind_eq_some_iff.mp (represents.keeps.words document member)
  obtain ⟨shard, -, rfl⟩ := Store.place?_eq_some_iff.mp placed
  -- The place of the words, split before its last name.
  have place : ["index"] ++ wordlistsFolder :: [shard, document.key ++ wordlistSuffix] =
      ["index", wordlistsFolder, shard] ++ [document.key ++ wordlistSuffix] := rfl
  have verified : IsVerifiedPlace ["index"]
      (["index", wordlistsFolder, shard] ++ [document.key ++ wordlistSuffix]) :=
    .inl ⟨document.key, _, placed, place⟩
  have unreadable : NoRecord ["index"]
      (["index", wordlistsFolder, shard] ++ [document.key ++ wordlistSuffix]) .empty :=
    ⟨fun _ => by decide, fun _ => by decide⟩
  rw [place] at held
  have alters := (FileTree.Alters.none : built.Alters (NoRecord ["index"]) [] built).overwrite
    (FileTree.fileAt?_eq_some_iff.mp held) unreadable
  have differs := alters.differsAt
  have records := List.forall_mem_singleton.mpr verified
  have stands' := stands.of_lost_records differs records
  have empty := ((agrees_of_lost_records differs records).kind?_below
    (by decide : queriesFolder ∉ verifiedFolders) []).trans represents.noResults
  exact ⟨summary, built, _, _, builds, verified, alters,
    answer_of_lost_records builds alters records (.refl _ _ _) stands' rfl rfl
      (stands'.result?_eq_none empty _)⟩

end Index
end SourceSearch
