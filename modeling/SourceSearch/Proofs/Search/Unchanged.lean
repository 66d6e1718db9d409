import SourceSearch.Proofs.FileTree.Unchanged
import SourceSearch.Proofs.Index.Documents
import SourceSearch.Proofs.Search.Intersection
import SourceSearch.Search.Searcher

/-!
# Searches beside the query cache

Whatever happens to the folder with the results of queries, everything else that a search reads of
an index stays, so its candidates, its verdicts and its results are the same as before.
-/

namespace SourceSearch

/-! ## Postings -/

namespace FileTree

variable {tree changed : FileTree} {path : Path} {α : Type}

theorem readRecord_congr (same : changed.read path = tree.read path) (decode : Json → Option α) :
    changed.readRecord decode path = tree.readRecord decode path := by
  rw [readRecord, readRecord, same]

theorem readRecord?_congr (same : changed.read path = tree.read path) (decode : Json → Option α) :
    changed.readRecord? decode path = tree.readRecord? decode path := by
  rw [readRecord?, readRecord?, readRecord_congr same]

end FileTree

namespace Intersection

variable {postings other : Trigram → SortedSet DocumentKey} {abortRatio : Nat}
  {occurrences : List Occurrence}

theorem narrow_congr
    (same : ∀ occurrence ∈ occurrences, other occurrence.trigram = postings occurrence.trigram)
    (documents : SortedSet DocumentKey) :
    narrow other abortRatio documents occurrences =
      narrow postings abortRatio documents occurrences := by
  induction occurrences generalizing documents with
  | nil => rfl
  | cons occurrence rest ih =>
      rw [List.forall_mem_cons] at same
      rw [narrow, narrow, same.1, ih same.2]

theorem ofOccurrences_congr
    (same : ∀ occurrence ∈ occurrences, other occurrence.trigram = postings occurrence.trigram) :
    ofOccurrences other abortRatio occurrences = ofOccurrences postings abortRatio occurrences := by
  cases occurrences with
  | nil => rfl
  | cons seed rest =>
      rw [List.forall_mem_cons] at same
      rw [ofOccurrences, ofOccurrences, same.1, narrow_congr same.2]

end Intersection

namespace PostingsReader

variable {reader : PostingsReader} {tree changed : FileTree} {trigram : Trigram}

/-- The files of a trigram read the same in both trees. -/
def ReadsSame (reader : PostingsReader) (tree changed : FileTree) (trigram : Trigram) : Prop :=
  (∀ generation, changed.read (Postings.shardFile reader.base trigram generation) =
    tree.read (Postings.shardFile reader.base trigram generation)) ∧
  changed.read (Postings.countFile reader.base trigram) =
    tree.read (Postings.countFile reader.base trigram)

theorem ReadsSame.documents (same : reader.ReadsSame tree changed trigram) :
    reader.documents changed trigram = reader.documents tree trigram :=
  congrArg Prod.fst (load_congr fun generation => by rw [same.1 generation])

theorem occurrence_congr (same : changed.read (Postings.countFile reader.base trigram) =
      tree.read (Postings.countFile reader.base trigram)) :
    reader.occurrence changed trigram = reader.occurrence tree trigram := by
  rw [PostingsReader.occurrence, PostingsReader.occurrence, declared, declared,
    FileTree.readRecord?_congr same]

/-- A search depends only on the postings of its trigrams and their assumed sizes. -/
theorem search_congr {trigrams : SortedSet Trigram}
    (documents : ∀ trigram ∈ trigrams,
      reader.documents changed trigram = reader.documents tree trigram)
    (occurrences : ∀ trigram ∈ trigrams,
      reader.occurrence changed trigram = reader.occurrence tree trigram) (abortRatio : Nat) :
    reader.search abortRatio changed trigrams = reader.search abortRatio tree trigrams := by
  have sizes : reader.bySize changed trigrams = reader.bySize tree trigrams := by
    rw [bySize, bySize, List.map_congr_left occurrences]
  have found : Intersection.ofOccurrences (reader.documents changed) abortRatio
        (reader.bySize tree trigrams) =
      Intersection.ofOccurrences (reader.documents tree) abortRatio
        (reader.bySize tree trigrams) := by
    refine Intersection.ofOccurrences_congr fun occurrence member => ?_
    obtain ⟨trigram, inside, rfl⟩ := mem_bySize_iff.mp member
    rw [trigram_occurrence]
    exact documents trigram inside
  rw [search, search, sizes, found]

end PostingsReader

/-! ## Stores -/

namespace Store

variable {store : Store} {tree changed : FileTree} {key suffix : String}

/-- The file of a record reads the same in both trees. -/
def ReadsSame (store : Store) (tree changed : FileTree) (key suffix : String) : Prop :=
  ∀ path, store.path key suffix = .ok path → changed.read path = tree.read path

theorem ReadsSame.get (same : store.ReadsSame tree changed key suffix) :
    store.get changed key suffix = store.get tree key suffix := by
  rw [Store.get, Store.get]
  rcases located : store.path key suffix with failure | path
  · rfl
  · simp only [bind, Except.bind, same path located]

theorem ReadsSame.getRecord {α : Type} (same : store.ReadsSame tree changed key suffix)
    (decode : Json → Option α) :
    store.getRecord changed decode key suffix = store.getRecord tree decode key suffix := by
  rw [Store.getRecord, Store.getRecord]
  rcases located : store.path key suffix with failure | path
  · rfl
  · exact FileTree.readRecord?_congr (same path located) decode

/-- A store in a folder without links does not notice a change in others. -/
theorem readsSame_of_linkless {root : Path} {location : Location} {own : List String}
    {folder : String} (hosts : tree.Hosts root own location)
    (agrees : tree.AgreesOutside location own changed) (other : folder ∉ own)
    (linkless : tree.Linkless location folder) (plain : IsPlain folder)
    (lies : store.root = root / folder) (proper : IsSuffix suffix) (key : String) :
    store.ReadsSame tree changed key suffix := by
  intro path located
  rw [Store.path_eq lies] at located
  split at located
  · rename_i names placed
    cases located
    exact agrees.read_below hosts other linkless (List.forall_mem_cons.mpr
      ⟨plain, isPlain_place proper placed⟩)
  · cases located

end Store

/-! ## Stores of an index -/

theorem MetadataStore.load?_congr {store : MetadataStore} {tree changed : FileTree}
    {key : DocumentKey} (same : store.ReadsSame tree changed key metadataSuffix) :
    store.load? changed key = store.load? tree key := by
  rw [load?, load?, load, load, same.getRecord]

theorem QueryStore.result?_congr {store : QueryStore} {tree changed : FileTree} {key : String}
    (same : store.ReadsSame tree changed key resultSuffix) :
    store.result? changed key = store.result? tree key := by
  rw [result?, result?, same.getRecord]

theorem QueryStore.previews?_congr {store : QueryStore} {tree changed : FileTree} {key : String}
    (same : store.ReadsSame tree changed key previewSuffix) :
    store.previews? changed key = store.previews? tree key := by
  rw [previews?, previews?, same.getRecord]

/-! ## Indexes -/

namespace Index

variable {index : Index} {location : Location} {tree changed : FileTree} {key : DocumentKey}

/-- An index stands, and a tree holds the same but for the results of queries. -/
structure Unchanged (index : Index) (location : Location) (tree changed : FileTree) : Prop where
  /-- The index stands. -/
  stands : index.Stands location tree
  /-- All else is the same. -/
  agrees : tree.AgreesOutside location [queriesFolder] changed

/-! ## What is read of the other folders -/

/-- Some record folders hold no links, and the path to the index does not lead through what it
keeps.  Whatever else is in those folders, what is written there is what is read. -/
structure Unlinked (index : Index) (location : Location) (folders : List String)
    (tree : FileTree) : Prop where
  /-- The path to the index holds good. -/
  hosts : tree.Hosts index.root ownNames location
  /-- There are no links. -/
  linkless : ∀ folder ∈ folders, tree.Linkless location folder
  /-- The folders are record folders. -/
  cleared : ∀ folder ∈ folders, folder ∈ clearedFolders

theorem Stands.unlinked (stands : index.Stands location tree) :
    index.Unlinked location clearedFolders tree where
  hosts := stands.hosted.hosts
  linkless folder member := (stands.layered folder member).linkless
  cleared _ member := member

namespace Unlinked

variable {folders own : List String} {folder : String}

theorem mono {more : List String} (unlinked : index.Unlinked location more tree)
    (subset : ∀ folder ∈ folders, folder ∈ more) : index.Unlinked location folders tree where
  hosts := unlinked.hosts
  linkless folder member := unlinked.linkless folder (subset folder member)
  cleared folder member := unlinked.cleared folder (subset folder member)

theorem isPlain (unlinked : index.Unlinked location folders tree) (member : folder ∈ folders) :
    IsPlain folder :=
  (isName_of_mem (mem_ownNames_of_cleared (unlinked.cleared folder member))).toIsPlain

section Others

variable (unlinked : index.Unlinked location folders tree)
  (agrees : tree.AgreesOutside location own changed)
  (cleared : ∀ name ∈ own, name ∈ clearedFolders)

include unlinked cleared

theorem hosts_of_cleared : tree.Hosts index.root own location :=
  fun later agrees => unlinked.hosts later
    (agrees.mono fun name inside => mem_ownNames_of_cleared (cleared name inside))

include agrees

/-- Folders that have not changed hold no links. -/
theorem of_agrees (others : ∀ folder ∈ folders, folder ∉ own) :
    index.Unlinked location folders changed where
  hosts := unlinked.hosts.of_agrees
    (agrees.mono fun name inside => mem_ownNames_of_cleared (cleared name inside))
  linkless folder member :=
    (unlinked.linkless folder member).of_agrees agrees (others folder member)
  cleared := unlinked.cleared

theorem read_of_agrees (member : folder ∈ folders) (other : folder ∉ own) {names : List String}
    (plain : ∀ name ∈ names, IsPlain name) :
    changed.read (index.root.below (folder :: names)) =
      tree.read (index.root.below (folder :: names)) :=
  agrees.read_below (unlinked.hosts_of_cleared cleared) other (unlinked.linkless folder member)
    (List.forall_mem_cons.mpr ⟨unlinked.isPlain member, plain⟩)

theorem search_of_agrees (member : folder ∈ folders) (other : folder ∉ own)
    (trigrams : SortedSet Trigram) (abortRatio : Nat) :
    (index.reader folder).search abortRatio changed trigrams =
      (index.reader folder).search abortRatio tree trigrams := by
  have same (trigram : Trigram) : (index.reader folder).ReadsSame tree changed trigram := by
    refine ⟨fun generation => ?_, ?_⟩
    · rw [Postings.shardFile_eq]
      exact unlinked.read_of_agrees agrees cleared member other
        (Postings.isPlain_placeOf (Postings.isSuffix_shardEnd generation))
    · rw [Postings.countFile_eq]
      exact unlinked.read_of_agrees agrees cleared member other
        (Postings.isPlain_placeOf Postings.isSuffix_countSuffix)
  exact PostingsReader.search_congr (fun trigram _ => (same trigram).documents)
    (fun trigram _ => PostingsReader.occurrence_congr (same trigram).2) _

theorem readsSame_of_agrees {store : Store} {suffix : String} (member : folder ∈ folders)
    (other : folder ∉ own) (lies : store.root = index.root / folder) (proper : IsSuffix suffix)
    (key : String) : store.ReadsSame tree changed key suffix :=
  Store.readsSame_of_linkless (unlinked.hosts_of_cleared cleared) agrees other
    (unlinked.linkless folder member) (unlinked.isPlain member) lies proper key

/-- The records of documents do not notice a change elsewhere. -/
theorem load?_of_agrees (member : metadataFolder ∈ folders) (other : metadataFolder ∉ own)
    (key : DocumentKey) : index.metadata.load? changed key = index.metadata.load? tree key :=
  MetadataStore.load?_congr
    (unlinked.readsSame_of_agrees agrees cleared member other rfl (isSuffix_stored (by simp)) key)

end Others

end Unlinked

/-- All that is kept of documents beside their postings is read the same in both trees. -/
structure KeepsRecords (index : Index) (tree changed : FileTree) : Prop where
  /-- Words are. -/
  words : ∀ key, index.wordlists.words changed key = index.wordlists.words tree key
  /-- Records are. -/
  load? : ∀ key, index.metadata.load? changed key = index.metadata.load? tree key
  /-- Copies are. -/
  load : ∀ key, index.documents.load changed key = index.documents.load tree key

/-- Folders that hold no records may change. -/
theorem Unlinked.keepsRecords {own : List String}
    (unlinked : index.Unlinked location clearedFolders tree)
    (agrees : tree.AgreesOutside location own changed)
    (cleared : ∀ name ∈ own, name ∈ clearedFolders)
    (apart : ∀ folder ∈ [documentsFolder, wordlistsFolder, metadataFolder], folder ∉ own) :
    index.KeepsRecords tree changed where
  words key :=
    (unlinked.readsSame_of_agrees agrees cleared (by decide) (apart wordlistsFolder (by simp)) rfl
      (isSuffix_stored (by simp)) key).getRecord _
  load? key :=
    unlinked.load?_of_agrees agrees cleared (by decide) (apart metadataFolder (by simp)) key
  load key := by
    have same : index.documents.ReadsSame tree changed key contentSuffix :=
      unlinked.readsSame_of_agrees agrees cleared (by decide) (apart documentsFolder (by simp)) rfl
        (isSuffix_stored (by simp)) key
    rw [DocumentStore.load, DocumentStore.load, same.get]

/-! ## Verdicts and results -/

namespace KeepsRecords

theorem wordsMatch? (keeps : index.KeepsRecords tree changed) (required excluded : List String) :
    index.wordsMatch? changed required excluded = index.wordsMatch? tree required excluded := by
  funext key
  rw [Index.wordsMatch?, Index.wordsMatch?, keeps.words]

theorem satisfies? (keeps : index.KeepsRecords tree changed) (query : Query) :
    index.satisfies? changed query = index.satisfies? tree query := by
  funext key
  simp only [Index.satisfies?, Index.tagsMatch?, keeps.wordsMatch?, keeps.load?]

theorem hit (keeps : index.KeepsRecords tree changed) (term : Option String) :
    index.hit changed term = index.hit tree term := by
  funext key
  simp only [Index.hit, Index.preview, keeps.load?, keeps.load]

end KeepsRecords

/-- Remembered results depend on the records of documents beside what is remembered. -/
theorem rememberedResults_congr
    (load? : ∀ key, index.metadata.load? changed key = index.metadata.load? tree key)
    (previews : Previews) (documents : List DocumentKey) :
    index.rememberedResults changed previews documents =
      index.rememberedResults tree previews documents := by
  induction documents generalizing previews with
  | nil => rfl
  | cons key rest ih => rw [rememberedResults, rememberedResults, ih, load?]

theorem remembered?_congr (result : index.queries.result? changed key =
      index.queries.result? tree key)
    (previews : index.queries.previews? changed key = index.queries.previews? tree key)
    (load? : ∀ key, index.metadata.load? changed key = index.metadata.load? tree key) :
    index.remembered? changed key = index.remembered? tree key := by
  rw [remembered?, remembered?, result, previews, funext (rememberedResults_congr load? _)]

/-- Searches do not notice what happens to the query cache. -/
theorem Unlinked.search_beside_queries (unlinked : index.Unlinked location clearedFolders tree)
    (agrees : tree.AgreesOutside location [queriesFolder] changed) {folder : String}
    (member : folder ∈ [textFolder, tagFolder]) (trigrams : SortedSet Trigram) (abortRatio : Nat) :
    (index.reader folder).search abortRatio changed trigrams =
      (index.reader folder).search abortRatio tree trigrams := by
  have searched : ∀ folder ∈ [textFolder, tagFolder],
      folder ∈ clearedFolders ∧ folder ∉ [queriesFolder] := by decide
  exact unlinked.search_of_agrees agrees (by decide) (searched folder member).1
    (searched folder member).2 trigrams abortRatio

namespace Unchanged

theorem search (unchanged : index.Unchanged location tree changed) {folder : String}
    (member : folder ∈ [textFolder, tagFolder]) (trigrams : SortedSet Trigram) (abortRatio : Nat) :
    (index.reader folder).search abortRatio changed trigrams =
      (index.reader folder).search abortRatio tree trigrams :=
  unchanged.stands.unlinked.search_beside_queries unchanged.agrees member trigrams abortRatio

theorem keepsRecords (unchanged : index.Unchanged location tree changed) :
    index.KeepsRecords tree changed :=
  unchanged.stands.unlinked.keepsRecords unchanged.agrees (by decide) (by decide)

end Unchanged
end Index
end SourceSearch
