import SourceSearch.Proofs.Postings.Consistency
import SourceSearch.Proofs.Search.Terms

/-!
# Sizes after a build

After a build the sizes of all postings are as declared, those of texts as well as those of class
tags.  If shards of a trigram are lost, the comparison of sizes tells: it fails, and it counts the
shards before the first one that is lost and the documents in them.
-/

namespace SourceSearch
namespace Index

variable {index : Index} {location : Location} {tree built damaged : FileTree}
  {documents ordered : List IndexedDocument}

/-- What cannot be read as a shard. -/
def NoShard (_ : Location) (content : ByteArray) : Prop :=
  Json.decodeBytes? StoredShard.ofJson? content = none

/-- The places of some shards of a trigram. -/
def shardPlaces (location : Location) (folder : String) (trigram : Trigram)
    (generations : List Nat) : List Location :=
  generations.map fun generation => location ++ folder :: Postings.shardPlace trigram generation

theorem mem_shardPlaces_iff {folder : String} {trigram : Trigram} {generations : List Nat}
    {generation : Nat} :
    location ++ folder :: Postings.shardPlace trigram generation ∈
        shardPlaces location folder trigram generations ↔ generation ∈ generations := by
  rw [shardPlaces, List.mem_map]
  constructor
  · rintro ⟨other, member, same⟩
    rw [List.append_cancel_left_eq, List.cons.injEq] at same
    exact (Postings.shardPlace_injective same.2).2 ▸ member
  · exact fun member => ⟨generation, member, rfl⟩

/-- Comparing sizes accepts the postings of a namespace and detects every loss of shards. -/
structure ChecksSizes (index : Index) (location : Location) (folder : String)
    (trigramsOf : IndexedDocument → SortedSet Trigram) (documents : List IndexedDocument)
    (tree : FileTree) : Prop where
  /-- The declared size of every trigram is the actual one. -/
  agrees : ∀ trigram, ((index.reader folder).check tree trigram).agrees = true
  /-- The actual size is the number of documents that have the trigram. -/
  counts : ∀ trigram, ((index.reader folder).check tree trigram).actual =
    documents.countP fun document => trigram ∈ trigramsOf document
  /-- If shards have been deleted or overwritten with what is no shard, the sizes differ, and what
  is counted are the shards before the first lost one and their documents. -/
  detects : ∀ trigram generations damaged first,
    tree.Alters NoShard (shardPlaces location folder trigram generations) damaged →
      generations.min? = some first →
        ((index.reader folder).check damaged trigram).agrees = false ∧
        ((index.reader folder).check damaged trigram).shards = first ∧
        ((index.reader folder).check damaged trigram).actual =
          ((List.range first).map ((index.reader folder).shardSize tree trigram)).sum

section Namespace

variable {folder : String} {trigramsOf : IndexedDocument → SortedSet Trigram}

/-- The files of a trigram hold each document that has it once, and are counted. -/
theorem Stands.holdsCounted (stands : index.Stands location tree) (member : folder ∈ clearedFolders)
    (deep : depthOf folder = 3)
    (holds : HoldsPostings location folder index.threshold
      (ordered.map fun document => (document.key, trigramsOf document)) tree)
    (distinct : (ordered.map IndexedDocument.key).Nodup)
    (fits : index.config.maxShardGenerations ≤ Json.max32)
    (within : index.WithinShards trigramsOf ordered) (few : ordered.length ≤ Json.max64)
    (trigram : Trigram) : ∃ ledger, Written location folder tree trigram ledger ∧
      (index.reader folder).HoldsCounted tree trigram ledger ∧
      ledger.total = ordered.countP fun document => trigram ∈ trigramsOf document := by
  obtain ⟨entries, found⟩ := stands.find
  have once : ((ordered.map fun document => (document.key, trigramsOf document)).map
      Prod.fst).Nodup := by
    rwa [List.map_map]
  have written := holds.written trigram
  have filled := filled_ledgersOf index.threshold_pos once trigram
  have bounded : Ledger.Bounded index.threshold (ledgersOf index.threshold
      (ordered.map fun document => (document.key, trigramsOf document)) trigram).flush :=
    ((Ledger.bounded_empty index.threshold_pos).foldl_add _).flush
  have total := filled.total_flush_eq.trans length_keysWith_eq_countP
  refine ⟨_, written, ?_, total⟩
  exact {
    reads := PostingsReader.readsShards_of_written stands.named found holds.layered
      (isName_of_mem (mem_ownNames_of_cleared member)).toIsPlain rfl written fits
    enough := length_flush_le_of_keys index.threshold_pos (within.length_keysWith_le trigram)
    filled := fun shard inside => (bounded.sized shard inside).1
    distinct := filled.nodup_flush (nodup_keysWith once trigram) fun key =>
      holds_ledgersOf_iff.mpr
    count := (stands.read_count member deep trigram).trans written.count
    fits := total ▸ List.countP_le_length.trans few }

/-- Shards that have been lost cannot be read, and all others are read as before. -/
theorem Stands.readRecord_shard_of_lost (stands : index.Stands location tree)
    {places : List Location} (differs : FileTree.DiffersAt NoShard tree places damaged)
    (stands' : index.Stands location damaged) (member : folder ∈ clearedFolders)
    (deep : depthOf folder = 3) (trigram : Trigram) (generation : Nat) :
    (damaged.readRecord StoredShard.ofJson?
        (Postings.shardFile (index.reader folder).base trigram generation)).toOption =
      if location ++ folder :: Postings.shardPlace trigram generation ∈ places then none
      else (tree.readRecord StoredShard.ofJson?
        (Postings.shardFile (index.reader folder).base trigram generation)).toOption := by
  rw [FileTree.toOption_readRecord, FileTree.toOption_readRecord, stands'.read_shard member deep,
    stands.read_shard member deep]
  split
  · rename_i lost
    rw [Option.bind_eq_none_iff]
    exact fun content held => differs.may_of_fileAt? lost held
  · rename_i kept
    rw [differs.fileAt?_eq kept]

/-- Postings of documents with different keys have sizes that are compared as they should. -/
theorem Stands.checksSizes (stands : index.Stands location tree)
    (member : folder ∈ clearedFolders) (deep : depthOf folder = 3)
    (holds : HoldsPostings location folder index.threshold
      (ordered.map fun document => (document.key, trigramsOf document)) tree)
    (distinct : (ordered.map IndexedDocument.key).Nodup)
    (fits : index.config.maxShardGenerations ≤ Json.max32)
    (within : index.WithinShards trigramsOf ordered) (few : ordered.length ≤ Json.max64) :
    index.ChecksSizes location folder trigramsOf ordered tree := by
  have counted := stands.holdsCounted member deep holds distinct fits within few
  refine ⟨fun trigram => ?_, fun trigram => ?_, fun trigram generations damaged first alters
    least => ?_⟩
  · obtain ⟨ledger, -, holds, -⟩ := counted trigram
    exact holds.check_eq.1
  · obtain ⟨ledger, -, holds, total⟩ := counted trigram
    exact holds.check_eq.2.trans total
  · obtain ⟨ledger, written, holds, -⟩ := counted trigram
    obtain ⟨smallest, others⟩ := List.min?_eq_some_iff.mp least
    have differs := alters.differsAt
    have stands' := stands.of_differsAt differs fun place listed => by
      obtain ⟨generation, -, rfl⟩ := List.mem_map.mp listed
      exact ⟨folder, member, by simp⟩
    have reads (generation : Nat) := stands.readRecord_shard_of_lost differs stands' member deep
      trigram generation
    simp only [mem_shardPlaces_iff] at reads
    refine holds.check_of_lost ?_ ?_ ?_ ?_
    · -- The shard has been there.
      obtain ⟨held, stood⟩ := differs.files _ (mem_shardPlaces_iff.mpr smallest)
      have shard := written.shard first
      rw [FileTree.fileAt?_eq_some_iff.mpr stood] at shard
      obtain ⟨keys, inside, -⟩ := Option.map_eq_some_iff.mp shard.symm
      exact (List.getElem?_eq_some_iff.mp inside).1
    · rw [reads, if_pos smallest]
    · intro generation before
      rw [reads, if_neg fun lost => Nat.not_le.mpr before (others generation lost)]
    · rw [stands'.read_count member deep, stands.read_count member deep]
      refine differs.fileAt?_eq fun listed => ?_
      obtain ⟨generation, -, same⟩ := List.mem_map.mp listed
      rw [List.append_cancel_left_eq, List.cons.injEq] at same
      exact Postings.shardPlace_ne_countPlace _ _ _ same.2

theorem ChecksSizes.perm (checks : index.ChecksSizes location folder trigramsOf ordered tree)
    (same : ordered.Perm documents) :
    index.ChecksSizes location folder trigramsOf documents tree where
  agrees := checks.agrees
  counts trigram := (checks.counts trigram).trans (same.countP_eq _)
  detects := checks.detects

end Namespace

/-- **Comparing sizes accepts what was built and detects what is lost.**  After a build that
succeeds, if the shards that are read have room for all documents, the declared size of every text
in either namespace is the number of documents that have it as a trigram.  If shards of a trigram
are lost afterwards, the sizes differ, and what is counted are the shards before the first lost one
and their documents. -/
theorem checksSizes_built {scheme : KeyScheme} {classifier : Classifier} {crawlRoot : Path}
    {summary : BuildSummary}
    (builds : index.Builds scheme classifier crawlRoot location tree summary built)
    (texts : index.WithinShards IndexedDocument.trigrams
      (index.indexedDocuments scheme classifier crawlRoot tree summary.failed))
    (tags : index.WithinShards (fun document => document.record.tagTrigrams)
      (index.indexedDocuments scheme classifier crawlRoot tree summary.failed))
    (few : (index.indexedDocuments scheme classifier crawlRoot tree summary.failed).length ≤
      Json.max64) :
    index.ChecksSizes location textFolder IndexedDocument.trigrams
        (index.indexedDocuments scheme classifier crawlRoot tree summary.failed) built ∧
      index.ChecksSizes location tagFolder (fun document => document.record.tagTrigrams)
        (index.indexedDocuments scheme classifier crawlRoot tree summary.failed) built := by
  have represents := builds.represents.1
  have stands := represents.stands
  obtain ⟨ordered, perm, postings⟩ := represents.tags
  have once : (ordered.map IndexedDocument.key).Nodup :=
    (perm.map _).nodup_iff.mpr represents.distinct
  constructor
  · exact stands.checksSizes (by decide) (by decide) represents.texts represents.distinct
      builds.generations texts few
  · exact (stands.checksSizes (by decide) (by decide) postings once builds.generations
      (tags.perm perm) (perm.length_eq ▸ few)).perm perm

/-- The place of a shard in the sample, split before its last name. -/
theorem shardPlace_sample : ["index"] ++ textFolder :: Postings.shardPlace "abc" 0 =
    ["index", textFolder, "61", "62"] ++ ["61_62_63.0.reference"] := by decide

/-- In the sample the shard is overwritten with nothing. -/
theorem Represents.exists_lost_shard_sample {index : Index} {built : FileTree}
    (represents : index.Represents ["index"] sampleDocuments built) :
    ∃ damaged, built.Alters NoShard (shardPlaces ["index"] textFolder "abc" [0]) damaged := by
  obtain ⟨document, member⟩ := exists_mem_sampleDocuments
  obtain ⟨⟨content, held⟩, -⟩ := represents.files_stand member (mem_trigrams_sample member)
  rw [shardPlace_sample] at held
  have unreadable : NoShard
      (["index", textFolder, "61", "62"] ++ ["61_62_63.0.reference"]) .empty := by
    change Json.decodeBytes? StoredShard.ofJson? .empty = none
    decide
  have alters :=
    (FileTree.Alters.none : built.Alters NoShard [] built).overwrite held unreadable
  rw [← shardPlace_sample] at alters
  exact ⟨_, alters⟩

/-- In the sample a shard is lost. -/
theorem checksSizes_built_sample : ∃ summary built damaged,
    sampleIndex.Builds sampleScheme .standard ⟨"/src"⟩ ["index"] sampleTree summary built ∧
      built.Alters NoShard (shardPlaces ["index"] textFolder "abc" [0]) damaged ∧
        (sampleIndex.textReader.check built "abc").agrees = true ∧
          (sampleIndex.textReader.check damaged "abc").agrees = false ∧
            (sampleIndex.textReader.check damaged "abc").shards = 0 := by
  obtain ⟨summary, built, failed, builds⟩ := builds_sample
  have within := withinShards_of_failed failed
  have few : (sampleIndex.indexedDocuments sampleScheme .standard ⟨"/src"⟩ sampleTree
      summary.failed).length ≤ Json.max64 := by
    rw [failed]
    exact Nat.le_trans (Nat.le_of_eq length_sampleDocuments) (by decide)
  obtain ⟨texts, -⟩ := checksSizes_built builds (within _) (within _) few
  have represents := builds.represents.1
  rw [failed] at represents
  obtain ⟨damaged, alters⟩ := represents.exists_lost_shard_sample
  obtain ⟨differ, shards, -⟩ := texts.detects "abc" [0] damaged 0 alters rfl
  exact ⟨summary, built, damaged, builds, alters, texts.agrees "abc", differ, shards⟩

end Index
end SourceSearch
