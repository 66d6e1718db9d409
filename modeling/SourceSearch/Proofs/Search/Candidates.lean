import SourceSearch.Proofs.Index.Kept
import SourceSearch.Proofs.Search.Intersection
import SourceSearch.Search.Searcher

/-!
# Candidates and results

A search for trigrams in a built index finds keys of documents, among them those of all documents
that have the trigrams.  Verifying such candidates leaves exactly the documents that pass.
-/

namespace SourceSearch

/-- Keys of documents only. -/
def KeysOf (documents : List IndexedDocument) (found : SortedSet DocumentKey) : Prop :=
  ∀ key ∈ found, ∃ document ∈ documents, document.key = key

theorem KeysOf.inter {documents : List IndexedDocument} {found : SortedSet DocumentKey}
    (keys : KeysOf documents found) (more : SortedSet DocumentKey) :
    KeysOf documents (found.inter more) := fun key member =>
  keys key (SortedSet.mem_inter.mp member).1

theorem keysOf_empty (documents : List IndexedDocument) : KeysOf documents .empty :=
  fun _ member => absurd member SortedSet.not_mem_empty

/-- Keys of documents, among which are all that satisfy a condition. -/
structure Covers (documents : List IndexedDocument) (matching : IndexedDocument → Prop)
    (found : SortedSet DocumentKey) : Prop where
  /-- No document that satisfies the condition is lost. -/
  complete : ∀ document ∈ documents, matching document → document.key ∈ found
  /-- There are no other keys than those of documents. -/
  sound : KeysOf documents found

namespace Covers

variable {documents : List IndexedDocument} {matching other : IndexedDocument → Prop}
  {found more : SortedSet DocumentKey}

theorem inter (first : Covers documents matching found) (second : Covers documents other more) :
    Covers documents (fun document => matching document ∧ other document) (found.inter more) where
  complete document member both := SortedSet.mem_inter.mpr
    ⟨first.complete document member both.1, second.complete document member both.2⟩
  sound := first.sound.inter more

theorem mono (covers : Covers documents matching found)
    (weaker : ∀ document ∈ documents, other document → matching document) :
    Covers documents other found where
  complete document member matched :=
    covers.complete document member (weaker document member matched)
  sound := covers.sound

/-- Verifying candidates leaves the documents that pass. -/
theorem mem_filter_iff {judge : DocumentKey → Option Bool} {verdict : IndexedDocument → Bool}
    (covers : Covers documents (fun document => verdict document = true) found)
    (judges : ∀ document ∈ documents, judge document.key = some (verdict document))
    {key : DocumentKey} :
    key ∈ found.toList.filter (fun key => judge key = some true) ↔
      ∃ document ∈ documents, document.key = key ∧ verdict document = true := by
  rw [List.mem_filter, decide_eq_true_eq]
  constructor
  · rintro ⟨member, passed⟩
    obtain ⟨document, held, rfl⟩ := covers.sound key member
    rw [judges document held] at passed
    exact ⟨document, held, rfl, Option.some.inj passed⟩
  · rintro ⟨document, held, rfl, passed⟩
    exact ⟨covers.complete document held passed, by rw [judges document held, passed]⟩

end Covers

namespace PostingsReader

variable {reader : PostingsReader} {tree : FileTree} {documents ordered : List IndexedDocument}
  {trigramsOf : IndexedDocument → SortedSet Trigram} {trigrams : SortedSet Trigram}

/-- The postings of each trigram are the keys of the documents that have it. -/
def Finds (reader : PostingsReader) (tree : FileTree)
    (trigramsOf : IndexedDocument → SortedSet Trigram) (documents : List IndexedDocument) : Prop :=
  ∀ trigram : Trigram, trigram.length = 3 → ∀ key, key ∈ reader.documents tree trigram ↔
    ∃ document ∈ documents, document.key = key ∧ trigram ∈ trigramsOf document

theorem Finds.perm (finds : reader.Finds tree trigramsOf ordered)
    (same : ordered.Perm documents) : reader.Finds tree trigramsOf documents :=
  fun trigram wide key => (finds trigram wide key).trans
    (exists_congr fun _ => and_congr_left fun _ => same.mem_iff)

/-- A search for trigrams covers the documents that have them. -/
theorem Finds.covers_search (finds : reader.Finds tree trigramsOf documents)
    (nonempty : trigrams.isEmpty = false) (wide : ∀ trigram ∈ trigrams, trigram.length = 3)
    (abortRatio : Nat) :
    Covers documents (fun document => ∀ trigram ∈ trigrams, trigram ∈ trigramsOf document)
      (reader.search abortRatio tree trigrams).1 where
  complete document listed has := mem_search nonempty fun trigram inside =>
    (finds trigram (wide trigram inside) _).mpr ⟨document, listed, rfl, has trigram inside⟩
  sound key listed := by
    obtain ⟨trigram, inside, held⟩ := exists_of_mem_search listed
    obtain ⟨document, member, same, -⟩ := (finds trigram (wide trigram inside) key).mp held
    exact ⟨document, member, same⟩

end PostingsReader

namespace Index

variable {index : Index} {location : Location} {tree : FileTree}
  {documents ordered : List IndexedDocument}

/-- No trigram is in more documents than the shards hold that are read of it. -/
def WithinShards (index : Index) (trigramsOf : IndexedDocument → SortedSet Trigram)
    (documents : List IndexedDocument) : Prop :=
  ∀ trigram, documents.countP (fun document => trigram ∈ trigramsOf document) ≤
    index.config.flushThreshold * index.config.maxShardGenerations

theorem WithinShards.perm {trigramsOf : IndexedDocument → SortedSet Trigram}
    (within : index.WithinShards trigramsOf documents) (same : ordered.Perm documents) :
    index.WithinShards trigramsOf ordered := fun trigram =>
  same.countP_eq _ ▸ within trigram

/-- The documents that have a trigram, counted by their keys. -/
theorem length_keysWith_eq_countP {trigramsOf : IndexedDocument → SortedSet Trigram}
    {trigram : Trigram} :
    (keysWith (ordered.map fun document => (document.key, trigramsOf document)) trigram).length =
      ordered.countP fun document => trigram ∈ trigramsOf document := by
  rw [keysWith, List.length_map, ← List.countP_eq_length_filter, List.countP_map]
  rfl

/-- The shards that are read hold all documents that have a trigram. -/
theorem WithinShards.length_keysWith_le {trigramsOf : IndexedDocument → SortedSet Trigram}
    (within : index.WithinShards trigramsOf ordered) (trigram : Trigram) :
    (keysWith (ordered.map fun document => (document.key, trigramsOf document)) trigram).length ≤
      index.threshold * index.config.maxShardGenerations := by
  rw [length_keysWith_eq_countP]
  exact Nat.le_trans (within trigram)
    (Nat.mul_le_mul_right _ (Nat.le_max_left index.config.flushThreshold 1))

/-- The postings of a trigram are keys of documents. -/
theorem Stands.keysOf_documents (stands : index.Stands location tree) {folder : String}
    (member : folder ∈ clearedFolders) {trigramsOf : IndexedDocument → SortedSet Trigram}
    (holds : HoldsPostings location folder index.threshold
      (ordered.map fun document => (document.key, trigramsOf document)) tree)
    (fits : index.config.maxShardGenerations ≤ Json.max32) (trigram : Trigram) :
    KeysOf ordered ((index.reader folder).documents tree trigram) := by
  obtain ⟨entries, found⟩ := stands.find
  have plain := (isName_of_mem (mem_ownNames_of_cleared member)).toIsPlain
  intro key held
  obtain ⟨trigrams, has, -⟩ := mem_keysWith_iff.mp <| holds.mem_keysWith_of_mem stands.named found
    plain rfl fits held
  obtain ⟨document, of, same⟩ := List.mem_map.mp has
  exact ⟨document, of, congrArg Prod.fst same⟩

/-- A search for trigrams finds keys of documents only. -/
theorem Stands.keysOf_search (stands : index.Stands location tree) {folder : String}
    (member : folder ∈ clearedFolders) {trigramsOf : IndexedDocument → SortedSet Trigram}
    (holds : HoldsPostings location folder index.threshold
      (ordered.map fun document => (document.key, trigramsOf document)) tree)
    (fits : index.config.maxShardGenerations ≤ Json.max32) (trigrams : SortedSet Trigram)
    (abortRatio : Nat) :
    KeysOf ordered ((index.reader folder).search abortRatio tree trigrams).1 := by
  intro key listed
  obtain ⟨trigram, -, held⟩ := PostingsReader.exists_of_mem_search listed
  exact stands.keysOf_documents member holds fits trigram key held

/-- A reader finds of each trigram the documents that have it. -/
theorem Stands.finds (stands : index.Stands location tree) {folder : String}
    (member : folder ∈ clearedFolders) {trigramsOf : IndexedDocument → SortedSet Trigram}
    (holds : HoldsShuffled location folder index.threshold
      (ordered.map fun document => (document.key, trigramsOf document)) tree)
    (fits : index.config.maxShardGenerations ≤ Json.max32)
    (within : index.WithinShards trigramsOf ordered) :
    (index.reader folder).Finds tree trigramsOf ordered := by
  obtain ⟨entries, found⟩ := stands.find
  have plain := (isName_of_mem (mem_ownNames_of_cleared member)).toIsPlain
  intro trigram wide key
  rw [holds.mem_documents_iff stands.named found plain rfl fits wide.ge
    (holds.admits index.threshold_pos wide.ge (within.length_keysWith_le trigram)),
    mem_keysWith_iff]
  simp only [List.mem_map, Prod.mk.injEq]
  constructor
  · rintro ⟨held, ⟨document, listed, rfl, rfl⟩, has⟩
    exact ⟨document, listed, rfl, has⟩
  · rintro ⟨document, listed, rfl, has⟩
    exact ⟨_, ⟨document, listed, rfl, rfl⟩, has⟩

namespace Represents

/-- The postings of either namespace are keys of documents. -/
theorem keysOf_documents (represents : index.Represents location documents tree)
    (fits : index.config.maxShardGenerations ≤ Json.max32) {folder : String}
    (member : folder ∈ [textFolder, tagFolder]) (trigram : Trigram) :
    KeysOf documents ((index.reader folder).documents tree trigram) := by
  simp only [List.mem_cons, List.not_mem_nil, or_false] at member
  rcases member with rfl | rfl
  · exact represents.stands.keysOf_documents (by decide) represents.texts fits trigram
  · obtain ⟨ordered, perm, holds⟩ := represents.tags
    intro key held
    obtain ⟨document, listed, same⟩ :=
      represents.stands.keysOf_documents (by decide) holds fits trigram key held
    exact ⟨document, perm.mem_iff.mp listed, same⟩

/-- A search for trigrams of texts finds keys of documents only. -/
theorem keysOf_searchTexts (represents : index.Represents location documents tree)
    (searcher : Searcher) (same : searcher.index = index)
    (fits : index.config.maxShardGenerations ≤ Json.max32) (trigrams : SortedSet Trigram) :
    KeysOf documents (searcher.searchTexts tree trigrams).1 := by
  subst same
  exact represents.stands.keysOf_search (by decide) represents.texts fits _ _

/-- A search for trigrams of class tags finds keys of documents only. -/
theorem keysOf_searchTags (represents : index.Represents location documents tree)
    (searcher : Searcher) (same : searcher.index = index)
    (fits : index.config.maxShardGenerations ≤ Json.max32) (trigrams : SortedSet Trigram) :
    KeysOf documents (searcher.searchTags tree trigrams).1 := by
  subst same
  obtain ⟨ordered, perm, holds⟩ := represents.tags
  intro key member
  obtain ⟨document, listed, same⟩ := represents.stands.keysOf_search (by decide) holds fits
    trigrams searcher.index.config.metadataAbortRatio key member
  exact ⟨document, perm.mem_iff.mp listed, same⟩

/-- The reader of texts finds the documents whose texts have a trigram. -/
theorem findsTexts (represents : index.Represents location documents tree)
    (fits : index.config.maxShardGenerations ≤ Json.max32)
    (within : index.WithinShards IndexedDocument.trigrams documents) :
    index.textReader.Finds tree IndexedDocument.trigrams documents :=
  represents.stands.finds (by decide) represents.texts.shuffled fits within

/-- The reader of class tags finds the documents whose tags have a trigram. -/
theorem findsTags (represents : index.Represents location documents tree)
    (fits : index.config.maxShardGenerations ≤ Json.max32)
    (within : index.WithinShards (fun document => document.record.tagTrigrams) documents) :
    index.tagReader.Finds tree (fun document => document.record.tagTrigrams) documents := by
  obtain ⟨ordered, perm, holds⟩ := represents.tags
  exact (represents.stands.finds (by decide) holds.shuffled fits (within.perm perm)).perm perm

/-- A trigram of a document has a first shard and a count. -/
theorem files_stand (represents : index.Represents location documents tree)
    {document : IndexedDocument} (member : document ∈ documents) {trigram : Trigram}
    (inside : trigram ∈ document.trigrams) :
    (∃ content, tree.kind? (location ++ textFolder :: Postings.shardPlace trigram 0) =
        some (.file content)) ∧
      ∃ content, tree.kind? (location ++ textFolder :: Postings.countPlace trigram) =
        some (.file content) := by
  have written := represents.texts.written trigram
  have holds : (ledgersOf index.threshold (documents.map IndexedDocument.textEntry)
      trigram).Holds document.key :=
    holds_ledgersOf_iff.mpr (mem_keysWith_iff.mpr
      ⟨document.trigrams, List.mem_map_of_mem member, inside⟩)
  obtain ⟨shard, listed, -⟩ := Ledger.holds_flush_iff.mp holds
  obtain ⟨first, rest, shards⟩ := List.exists_cons_of_ne_nil (List.ne_nil_of_mem listed)
  have shardHeld := written.shard 0
  have countHeld := written.count
  rw [shards] at shardHeld countHeld
  exact ⟨⟨_, FileTree.fileAt?_eq_some_iff.mp shardHeld⟩, _,
    FileTree.fileAt?_eq_some_iff.mp countHeld⟩

end Represents
end Index
end SourceSearch
