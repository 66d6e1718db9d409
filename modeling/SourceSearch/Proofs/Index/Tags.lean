import SourceSearch.Proofs.Index.Documents

/-!
# The second pass

The keys of all records are listed, and the class tags of each record are indexed.  So the postings
of class tags are those of the documents that the first pass has kept, in the order of their keys.
-/

namespace SourceSearch

namespace TaskM

@[simp]
theorem runOn_lift {α : Type} (part : DiskM α) (tree : FileTree) :
    (liftM part : TaskM α).runOn tree = (.ok (part tree).1, (part tree).2) := rfl

/-- A part of a task succeeds as it does alone. -/
theorem within_ok_iff {α : Type} {task : String} {part : TaskM α} {tree after : FileTree}
    {value : α} :
    (within task part).runOn tree = (.ok value, after) ↔ part.runOn tree = (.ok value, after) := by
  rw [runOn_within]
  rcases part.runOn tree with ⟨failure | held, changed⟩ <;> simp

end TaskM

namespace Index

variable {index : Index} {location : Location} {before between after tree : FileTree}
  {documents : List IndexedDocument} {key : DocumentKey}

/-! ## Reading what is kept -/

theorem Stands.reads (stands : index.Stands location tree) (folder suffix : String)
    (member : folder ∈ clearedFolders) (deep : depthOf folder = 2) (proper : IsSuffix suffix)
    (key : DocumentKey) : Store.Reads tree index.root location folder key suffix := by
  obtain ⟨entries, found⟩ := stands.find
  exact Store.reads_of_wellNamed stands.named found (deep ▸ stands.layered folder member)
    (isName_of_mem (mem_ownNames_of_cleared member)).toIsPlain proper key

/-- A record is loaded if there is one and it decodes. -/
theorem Stands.load?_eq_some_iff (stands : index.Stands location tree) {record : Metadata} :
    index.metadata.load? tree key = some record ↔
      ∃ content, tree.documentRecord? location key = some content ∧
        Json.decodeBytes? Metadata.ofJson? content = some record := by
  have reads := stands.reads metadataFolder metadataSuffix (by decide) (by decide)
    (isSuffix_stored (by simp)) key
  have lies : index.metadata.root = index.root / metadataFolder := rfl
  rw [FileTree.documentRecord?, ← Store.getRecord_eq_some_iff lies reads, MetadataStore.load?,
    MetadataStore.load]
  cases index.metadata.getRecord tree Metadata.ofJson? key metadataSuffix <;> simp

/-- A word list is read if there is one and it decodes. -/
theorem Stands.words_eq_ok_iff (stands : index.Stands location tree) {words : List String} :
    index.wordlists.words tree key = .ok (some words) ↔
      ∃ content, tree.wordsRecord? location key = some content ∧
        Json.decodeBytes? Json.toTexts? content = some words := by
  have reads := stands.reads wordlistsFolder wordlistSuffix (by decide) (by decide)
    (isSuffix_stored (by simp)) key
  exact Store.getRecord_eq_some_iff rfl reads

/-- The record of a document is loaded. -/
theorem KeepsDocuments.load? (keeps : KeepsDocuments location documents tree)
    (stands : index.Stands location tree) {document : IndexedDocument}
    (member : document ∈ documents) (fits : document.record.Fits) :
    index.metadata.load? tree document.key = some document.record := by
  refine stands.load?_eq_some_iff.mpr ⟨_, keeps.records document member, ?_⟩
  rw [Json.decodeBytes?_toBytes _ (Metadata.wellFormed_toJson _)]
  exact Metadata.ofJson?_toJson fits

/-- The words of a document are read. -/
theorem KeepsDocuments.words_eq (keeps : KeepsDocuments location documents tree)
    (stands : index.Stands location tree) {document : IndexedDocument}
    (member : document ∈ documents) :
    index.wordlists.words tree document.key = .ok (some document.words) := by
  refine stands.words_eq_ok_iff.mpr ⟨_, keeps.words document member, ?_⟩
  rw [Json.decodeBytes?_toBytes _ (Json.wellFormed_ofTexts _)]
  exact Json.toTexts?_ofTexts _

/-! ## Saving -/

theorem runOn_saveWriter (task : String) (writer : PostingsWriter) :
    (saveWriter task writer).runOn tree =
      match writer.save tree with
      | ((.ok _, _), after) => (.ok (), after)
      | ((.error cause, _), after) => (.error (.during task cause), after) := by
  rw [saveWriter, TaskM.runOn_within]
  have saved : TaskM.runOn (ExceptT.mk (Prod.fst <$> writer.save)) tree =
      ((writer.save tree).1.1, (writer.save tree).2) := rfl
  rw [saved]
  rcases writer.save tree with ⟨⟨failure | ⟨⟩, later⟩, after⟩ <;> rfl

theorem saveWriter_ok_iff {task : String} {writer : PostingsWriter} :
    (saveWriter task writer).runOn tree = (.ok (), after) ↔
      ∃ later, writer.save tree = ((.ok (), later), after) := by
  rw [runOn_saveWriter]
  rcases writer.save tree with ⟨⟨failure | ⟨⟩, later⟩, changed⟩
  · constructor
    · rintro ⟨⟩
    · rintro ⟨_, ⟨⟩⟩
  · constructor
    · rintro ⟨⟩
      exact ⟨later, rfl⟩
    · rintro ⟨_, ⟨⟩⟩
      rfl

/-- A save that succeeds leaves the postings of all documents in the folder. -/
theorem holdsPostings_of_saveWriter {root : Path} {own : List String} {folder task : String}
    {threshold : Nat} (site : Namespace root own location folder before)
    {entries : List PostingsEntry} {writer : PostingsWriter}
    (keeps : Keeps root location folder threshold (ledgersOf threshold entries) writer before)
    (run : (saveWriter task writer).runOn before = (.ok (), after)) :
    FileTree.StaysIn location folder 3 before after ∧
      HoldsPostings location folder threshold entries after := by
  obtain ⟨later, saved⟩ := saveWriter_ok_iff.mp run
  obtain ⟨stays, kept⟩ := keeps.save site saved
  obtain ⟨clean, kept⟩ := kept rfl
  exact ⟨stays, stays.layered site.layered, kept.written clean⟩

/-- It leaves the index standing. -/
theorem Stands.saveWriter (stands : index.Stands location before) {folder task : String}
    (member : folder ∈ clearedFolders) (deep : depthOf folder = 3)
    {entries : List PostingsEntry} {writer : PostingsWriter}
    (keeps : Keeps index.root location folder index.threshold (ledgersOf index.threshold entries)
      writer before)
    (run : (saveWriter task writer).runOn before = (.ok (), after)) :
    index.Stands location after ∧ before.AgreesOutside location [folder] after ∧
      HoldsPostings location folder index.threshold entries after := by
  obtain ⟨stays, holds⟩ := holdsPostings_of_saveWriter (stands.site member deep) keeps run
  exact ⟨stands.step member (deep ▸ stays), stays.agrees, holds⟩

/-- A save succeeds if all shards can be written. -/
theorem Stands.exists_saved (stands : index.Stands location before) {folder : String}
    (member : folder ∈ clearedFolders) (deep : depthOf folder = 3)
    {entries : List PostingsEntry} {writer : PostingsWriter}
    (keeps : Keeps index.root location folder index.threshold (ledgersOf index.threshold entries)
      writer before)
    (writable : PostingsAreWritable folder index.threshold entries) (task : String) :
    ∃ after, (Index.saveWriter task writer).runOn before = (.ok (), after) := by
  obtain ⟨later, after, saves⟩ := keeps.save_ok (stands.site member deep) writable
  exact ⟨after, saveWriter_ok_iff.mpr ⟨later, saves⟩⟩

/-! ## Tags -/

theorem addTags_eq {record : Metadata} {progress : PostingsWriter × Nat}
    (loads : index.metadata.load? tree key = some record) :
    index.addTags progress key tree =
      let added := progress.1.addDocument key record.tagTrigrams.toList tree
      ((added.1, progress.2 + 1), added.2) := by
  change StateT.run (index.addTags progress key) tree = _
  rw [addTags, StateT.run_bind, StateT.run_get, pure_bind, loads]
  rfl

theorem addTags_of_none {progress : PostingsWriter × Nat}
    (lost : index.metadata.load? tree key = none) :
    index.addTags progress key tree = (progress, tree) := by
  change StateT.run (index.addTags progress key) tree = _
  rw [addTags, StateT.run_bind, StateT.run_get, pure_bind, lost]
  rfl

theorem length_of_mem_tagTrigrams {record : Metadata} :
    ∀ trigram ∈ record.tagTrigrams.toList, 3 ≤ trigram.length := fun _ member =>
  Nat.le_of_eq (Trigram.length_of_mem_ofWords member).symm

/-- The class tags of the records that can be read, by key. -/
def tagEntries (index : Index) (tree : FileTree) (keys : List DocumentKey) : List PostingsEntry :=
  keys.filterMap fun key =>
    (index.metadata.load? tree key).map fun record => (key, record.tagTrigrams)

theorem tagEntries_cons_of_some {keys : List DocumentKey} {record : Metadata}
    (loads : index.metadata.load? tree key = some record) :
    index.tagEntries tree (key :: keys) =
      (key, record.tagTrigrams) :: index.tagEntries tree keys := by
  rw [tagEntries, List.filterMap_cons, loads]
  rfl

theorem tagEntries_cons_of_none {keys : List DocumentKey}
    (lost : index.metadata.load? tree key = none) :
    index.tagEntries tree (key :: keys) = index.tagEntries tree keys := by
  rw [tagEntries, List.filterMap_cons, lost]
  rfl

theorem tagEntries_congr {changed : FileTree} {keys : List DocumentKey}
    (same : ∀ key ∈ keys, index.metadata.load? changed key = index.metadata.load? tree key) :
    index.tagEntries changed keys = index.tagEntries tree keys :=
  List.filterMap_congr fun key member => by rw [same key member]

/-- Tags are collected key by key.  A record that can be read counts, any other is passed over. -/
theorem foldlM_addTags {own : List String} {keys : List DocumentKey} (done : List PostingsEntry)
    {progress later : PostingsWriter × Nat}
    (site : Namespace index.root own location tagFolder before)
    (same : ∀ changed, FileTree.StaysIn location tagFolder 3 before changed →
      ∀ key ∈ keys, index.metadata.load? changed key = index.metadata.load? before key)
    (postings : Keeps index.root location tagFolder index.threshold
      (ledgersOf index.threshold done) progress.1 before)
    (run : (keys.foldlM index.addTags progress : DiskM (PostingsWriter × Nat)) before =
      (later, after)) :
    FileTree.StaysIn location tagFolder 3 before after ∧
      Keeps index.root location tagFolder index.threshold
        (ledgersOf index.threshold (done ++ index.tagEntries before keys)) later.1 after ∧
      later.2 = progress.2 + (index.tagEntries before keys).length := by
  induction keys generalizing done progress before with
  | nil =>
      cases run
      rw [tagEntries, List.filterMap_nil, List.append_nil]
      exact ⟨.refl _, postings, rfl⟩
  | cons key keys ih =>
      rw [DiskM.foldlM_cons] at run
      cases loads : index.metadata.load? before key with
      | none =>
          rw [addTags_of_none loads] at run
          rw [tagEntries_cons_of_none loads]
          exact ih done site (fun changed stays key member =>
            same changed stays key (List.mem_cons_of_mem _ member)) postings run
      | some record =>
          rw [addTags_eq loads] at run
          rcases added : progress.1.addDocument key record.tagTrigrams.toList before
            with ⟨writer, between⟩
          simp only [added] at run
          obtain ⟨stays, postings'⟩ := postings.addDocument site length_of_mem_tagTrigrams added
          have unchanged : ∀ key ∈ keys,
              index.metadata.load? between key = index.metadata.load? before key :=
            fun key member => same between stays key (List.mem_cons_of_mem _ member)
          have next : ledgersOf index.threshold (done ++ [(key, record.tagTrigrams)]) =
              (ledgersOf index.threshold done).addDocument index.threshold key
                record.tagTrigrams.toList := ledgersOf_append_singleton _
          obtain ⟨stays', whole, count⟩ := ih (done ++ [(key, record.tagTrigrams)])
            (site.step stays)
            (fun changed stays' key member =>
              (same changed (stays.trans stays') key (List.mem_cons_of_mem _ member)).trans
                (unchanged key member).symm)
            (by rw [next]; exact postings') run
          rw [tagEntries_congr unchanged] at whole count
          rw [tagEntries_cons_of_some loads]
          refine ⟨stays.trans stays', by rwa [List.append_cons], ?_⟩
          rw [count, List.length_cons]
          omega

/-- What a pass that succeeds has done. -/
theorem buildTags_ok_iff {summary result : BuildSummary} :
    (index.buildTags summary).runOn before = (.ok result, after) ↔
      ∃ cleared keys collected between,
        index.clearTags.runOn before = (.ok (), cleared) ∧
        index.metadata.keys cleared = .ok keys ∧
        index.addAllTags keys cleared = (collected, between) ∧
        (saveWriter "Failed to write metadata postings" collected.1).runOn between =
          (.ok (), after) ∧
        result = { summary with
          metadataDocuments := summary.metadataDocuments + collected.2
          metadataTrigrams := collected.1.size } := by
  constructor
  · intro run
    obtain ⟨_, cleared, clear, lists⟩ := TaskM.bind_ok_iff.mp run
    obtain ⟨keys, _, listed, collects⟩ := TaskM.bind_ok_iff.mp lists
    obtain ⟨collected, between, collect, saves⟩ := TaskM.bind_ok_iff.mp collects
    obtain ⟨_, _, save, done⟩ := TaskM.bind_ok_iff.mp saves
    rw [TaskM.within_ok_iff, TaskM.runOn_examine, Prod.mk.injEq] at listed
    obtain ⟨listed, rfl⟩ := listed
    rw [TaskM.runOn_lift, Prod.mk.injEq, Except.ok.injEq] at collect
    rw [TaskM.runOn_pure, Prod.mk.injEq, Except.ok.injEq] at done
    obtain ⟨rfl, rfl⟩ := done
    exact ⟨cleared, keys, collected, between, clear, listed, Prod.ext collect.1 collect.2, save,
      rfl⟩
  · rintro ⟨cleared, keys, collected, between, clear, listed, collect, save, rfl⟩
    refine TaskM.bind_ok_iff.mpr ⟨_, cleared, clear, TaskM.bind_ok_iff.mpr ⟨keys, cleared, ?_,
      TaskM.bind_ok_iff.mpr ⟨collected, between, ?_, TaskM.bind_ok_iff.mpr
        ⟨_, after, save, rfl⟩⟩⟩⟩
    · rw [TaskM.within_ok_iff, TaskM.runOn_examine, listed]
    · rw [TaskM.runOn_lift, collect]

/-- What can be read of documents are their tags. -/
theorem KeepsDocuments.tagEntries_eq (keeps : KeepsDocuments location documents tree)
    (stands : index.Stands location tree) {ordered : List IndexedDocument}
    (subset : ∀ document ∈ ordered, document ∈ documents)
    (fits : ∀ document ∈ documents, document.record.Fits) :
    index.tagEntries tree (ordered.map IndexedDocument.key) =
      ordered.map IndexedDocument.tagEntry := by
  induction ordered with
  | nil => rfl
  | cons document ordered ih =>
      rw [List.forall_mem_cons] at subset
      rw [List.map_cons, List.map_cons,
        tagEntries_cons_of_some (keeps.load? stands subset.1 (fits document subset.1)),
        ih subset.2]
      rfl

/-- Listed keys are those of documents in some order. -/
theorem exists_map_key {keys : List DocumentKey}
    (known : ∀ key ∈ keys, key ∈ documents.map IndexedDocument.key) :
    ∃ ordered : List IndexedDocument, ordered.map IndexedDocument.key = keys ∧
      ∀ document ∈ ordered, document ∈ documents := by
  induction keys with
  | nil => exact ⟨[], rfl, by simp⟩
  | cons key keys ih =>
      rw [List.forall_mem_cons] at known
      obtain ⟨document, member, rfl⟩ := List.mem_map.mp known.1
      obtain ⟨ordered, rfl, subset⟩ := ih known.2
      exact ⟨document :: ordered, rfl, List.forall_mem_cons.mpr ⟨member, subset⟩⟩

/-- Documents with different keys are known by their keys. -/
theorem eq_of_key_eq (distinct : (documents.map IndexedDocument.key).Nodup)
    {first second : IndexedDocument} (member : first ∈ documents) (member' : second ∈ documents)
    (same : first.key = second.key) : first = second := by
  induction documents with
  | nil => cases member
  | cons document rest ih =>
      rw [List.map_cons, List.nodup_cons] at distinct
      rcases List.mem_cons.mp member with rfl | inside
      · rcases List.mem_cons.mp member' with rfl | inside'
        · rfl
        · exact absurd (same ▸ List.mem_map_of_mem inside') distinct.1
      · rcases List.mem_cons.mp member' with rfl | inside'
        · exact absurd (same ▸ List.mem_map_of_mem inside) distinct.1
        · exact ih distinct.2 inside inside'

theorem nodup_of_nodup_key (distinct : (documents.map IndexedDocument.key).Nodup) :
    documents.Nodup :=
  (List.pairwise_map.mp distinct).imp fun different same => different (congrArg _ same)

/-- Keys that are exactly those of some documents list them, in another order. -/
theorem exists_perm (distinct : (documents.map IndexedDocument.key).Nodup)
    {keys : List DocumentKey} (once : keys.Nodup)
    (same : ∀ key, key ∈ keys ↔ key ∈ documents.map IndexedDocument.key) :
    ∃ ordered : List IndexedDocument, ordered.map IndexedDocument.key = keys ∧
      ordered.Perm documents := by
  obtain ⟨ordered, rfl, subset⟩ := exists_map_key fun key => (same key).mp
  refine ⟨ordered, rfl, (List.perm_ext_iff_of_nodup (nodup_of_nodup_key once)
    (nodup_of_nodup_key distinct)).mpr fun document => ⟨subset document, fun member => ?_⟩⟩
  obtain ⟨other, listed, eq⟩ :=
    List.mem_map.mp ((same document.key).mpr (List.mem_map_of_mem member))
  rwa [eq_of_key_eq distinct (subset other listed) member eq] at listed

/-- The keys of the records are those of the documents, in order. -/
theorem KeepsDocuments.keys_eq_ok (keeps : KeepsDocuments location documents tree)
    (stands : index.Stands location tree) {keys : List DocumentKey}
    (listed : index.metadata.keys tree = .ok keys) :
    keys.Pairwise (· < ·) ∧ ∀ key, key ∈ keys ↔ key ∈ documents.map IndexedDocument.key := by
  obtain ⟨entries, found⟩ := stands.find
  obtain ⟨ascending, exact⟩ := Store.keys_spec stands.named found
    (stands.layered metadataFolder (by decide)) (isName_of_mem (by decide)) rfl keeps.tidy listed
  refine ⟨ascending, fun key => ?_⟩
  rw [exact]
  refine ⟨keeps.known key, fun member => ?_⟩
  obtain ⟨document, held, rfl⟩ := List.mem_map.mp member
  exact Option.isSome_of_eq_some (keeps.records document held)

theorem nodup_of_ascending {keys : List DocumentKey} (ascending : keys.Pairwise (· < ·)) :
    keys.Nodup := by
  refine ascending.imp ?_
  rintro key _ less rfl
  exact String.lt_irrefl key less

/-- There is one order of documents in which their keys ascend. -/
theorem eq_of_ascending {first second : List IndexedDocument} (perm : first.Perm second)
    (ascending : (first.map IndexedDocument.key).Pairwise (· < ·))
    (ascending' : (second.map IndexedDocument.key).Pairwise (· < ·)) : first = second := by
  rw [List.pairwise_map] at ascending ascending'
  exact perm.eq_of_pairwise (fun _ _ _ _ less greater => absurd greater (String.lt_asymm less))
    ascending ascending'

/-- The postings of the class tags of documents are there, in the order of the keys. -/
def HoldsTags (location : Location) (threshold : Nat) (documents : List IndexedDocument)
    (tree : FileTree) : Prop :=
  ∃ ordered : List IndexedDocument, ordered.Perm documents ∧
    (ordered.map IndexedDocument.key).Pairwise (· < ·) ∧
    HoldsPostings location tagFolder threshold (ordered.map IndexedDocument.tagEntry) tree

/-- Wherever they are there, their files are the same. -/
theorem HoldsTags.fileAt?_eq {threshold : Nat}
    (holds : HoldsTags location threshold documents before)
    (holds' : HoldsTags location threshold documents after) (trigram : Trigram) :
    (∀ generation,
      after.fileAt? (location ++ tagFolder :: Postings.shardPlace trigram generation) =
        before.fileAt? (location ++ tagFolder :: Postings.shardPlace trigram generation)) ∧
      after.fileAt? (location ++ tagFolder :: Postings.countPlace trigram) =
        before.fileAt? (location ++ tagFolder :: Postings.countPlace trigram) := by
  obtain ⟨ordered, perm, ascending, holds⟩ := holds
  obtain ⟨ordered', perm', ascending', holds'⟩ := holds'
  obtain rfl := eq_of_ascending (perm.trans perm'.symm) ascending ascending'
  have written := holds.written trigram
  have written' := holds'.written trigram
  exact ⟨fun generation => (written'.shard generation).trans (written.shard generation).symm,
    written'.count.trans written.count.symm⟩

theorem HoldsTags.of_agrees {threshold : Nat} {own : List String}
    (holds : HoldsTags location threshold documents before)
    (agrees : before.AgreesOutside location own after) (apart : tagFolder ∉ own) :
    HoldsTags location threshold documents after := by
  obtain ⟨ordered, perm, ascending, holds⟩ := holds
  exact ⟨ordered, perm, ascending, holds.of_agrees agrees apart⟩

/-- The second pass up to its save: the tags of all documents are collected in the order of their
keys. -/
structure CollectsTags (index : Index) (location : Location) (documents : List IndexedDocument)
    (before : FileTree) (ordered : List IndexedDocument) (writer : PostingsWriter)
    (collected : FileTree) : Prop where
  /-- It is all the documents. -/
  perm : ordered.Perm documents
  /-- Keys ascend. -/
  ascending : (ordered.map IndexedDocument.key).Pairwise (· < ·)
  /-- The index stands. -/
  stands : index.Stands location collected
  /-- Nothing else changes. -/
  agrees : before.AgreesOutside location [tagFolder] collected
  /-- The writer has the postings. -/
  postings : Keeps index.root location tagFolder index.threshold
    (ledgersOf index.threshold (ordered.map IndexedDocument.tagEntry)) writer collected
  /-- What is left to do is to save them. -/
  runs : ∀ summary result after, (index.buildTags summary).runOn before = (.ok result, after) ↔
    (Index.saveWriter "Failed to write metadata postings" writer).runOn collected =
        (.ok (), after) ∧
      result = { summary with
        metadataDocuments := summary.metadataDocuments + documents.length
        metadataTrigrams := writer.size }

/-- Removing the postings of class tags leaves all else as it is. -/
theorem Stands.clearTags (stands : index.Stands location before) {cleared : FileTree}
    (clear : index.clearTags.runOn before = (.ok (), cleared)) :
    index.Stands location cleared ∧ before.AgreesOutside location [tagFolder] cleared ∧
      cleared.kind? (location ++ [tagFolder]) = none := by
  obtain ⟨agrees, named, gone⟩ :=
    FileTree.removeFolder_hosted stands.hosted.hosts (isName_of_mem (by decide)) clear
  exact ⟨stands.step (by decide) ⟨agrees, fun _ => FileTree.layered_of_none gone, named⟩, agrees,
    gone⟩

/-- The keys of the records list the documents.  Their tags can be read, whatever becomes of the
postings of class tags. -/
theorem KeepsDocuments.listed (keeps : KeepsDocuments location documents tree)
    (stands : index.Stands location tree)
    (distinct : (documents.map IndexedDocument.key).Nodup)
    (fits : ∀ document ∈ documents, document.record.Fits) {keys : List DocumentKey}
    (listed : index.metadata.keys tree = .ok keys) :
    (∃ ordered : List IndexedDocument, ordered.map IndexedDocument.key = keys ∧
      ordered.Perm documents ∧ keys.Pairwise (· < ·) ∧
        index.tagEntries tree keys = ordered.map IndexedDocument.tagEntry) ∧
    ∀ changed, FileTree.StaysIn location tagFolder 3 tree changed →
      ∀ key ∈ keys, index.metadata.load? changed key = index.metadata.load? tree key := by
  obtain ⟨ascending, same⟩ := keeps.keys_eq_ok stands listed
  obtain ⟨ordered, rfl, perm⟩ := exists_perm distinct (nodup_of_ascending ascending) same
  have subset : ∀ document ∈ ordered, document ∈ documents := fun _ => perm.mem_iff.mp
  refine ⟨⟨ordered, rfl, perm, ascending, keeps.tagEntries_eq stands subset fits⟩,
    fun changed stays key member => ?_⟩
  obtain ⟨document, listed, rfl⟩ := List.mem_map.mp member
  have held := subset document listed
  rw [(keeps.of_agrees stays.agrees (by decide)).load? (stands.step (by decide) stays) held
    (fits document held), keeps.load? stands held (fits document held)]

/-- The second pass always comes as far as its save. -/
theorem Stands.exists_collected (stands : index.Stands location before)
    (keeps : KeepsDocuments location documents before)
    (distinct : (documents.map IndexedDocument.key).Nodup)
    (fits : ∀ document ∈ documents, document.record.Fits) :
    ∃ ordered writer collected, index.CollectsTags location documents before ordered writer
      collected := by
  obtain ⟨cleared, clear⟩ := FileTree.exists_removed stands.hosted.hosts
    (isName_of_mem (by decide : tagFolder ∈ ownNames)) (stands.notFile (by decide))
  obtain ⟨stands, agrees, gone⟩ := stands.clearTags clear
  have keeps := keeps.of_agrees agrees (by decide)
  obtain ⟨keys, listed⟩ : ∃ keys, index.metadata.keys cleared = .ok keys :=
    Store.exists_keys stands.named stands.hosted.hosts
      (stands.layered metadataFolder (by decide)) (isName_of_mem (by decide)) rfl
  obtain ⟨⟨ordered, rfl, perm, ascending, entries⟩, known⟩ :=
    keeps.listed stands distinct fits listed
  rcases collect : index.addAllTags (ordered.map IndexedDocument.key) cleared
    with ⟨⟨writer, count⟩, collected⟩
  obtain ⟨stays, postings, counted⟩ := foldlM_addTags [] (stands.site (by decide) (by decide))
    known (keeps_new (FileTree.fileAt?_of_none gone) _) collect
  rw [entries] at postings counted
  obtain rfl : count = documents.length := by
    rw [← perm.length_eq, ← Nat.zero_add ordered.length, ← List.length_map IndexedDocument.tagEntry]
    exact counted
  refine ⟨ordered, writer, collected, perm, ascending, stands.step (by decide) stays,
    agrees.trans stays.agrees, postings, fun summary result after => ?_⟩
  rw [buildTags_ok_iff]
  constructor
  · rintro ⟨cleared', keys', collected', between', clear', listed', collect', save, rfl⟩
    cases clear.symm.trans clear'
    cases listed.symm.trans listed'
    cases collect.symm.trans collect'
    exact ⟨save, rfl⟩
  · rintro ⟨save, rfl⟩
    exact ⟨cleared, _, (writer, documents.length), collected, clear, listed, collect, save, rfl⟩

/-- The second pass leaves the postings of the class tags of all documents, and counts them. -/
theorem Stands.buildTags (stands : index.Stands location before)
    (keeps : KeepsDocuments location documents before)
    (distinct : (documents.map IndexedDocument.key).Nodup)
    (fits : ∀ document ∈ documents, document.record.Fits) {summary result : BuildSummary}
    (run : (index.buildTags summary).runOn before = (.ok result, after)) :
    index.Stands location after ∧ before.AgreesOutside location [tagFolder] after ∧
      result = { summary with
        metadataDocuments := summary.metadataDocuments + documents.length
        metadataTrigrams := (trigramsOf (documents.map IndexedDocument.tagEntry)).size } ∧
        HoldsTags location index.threshold documents after := by
  obtain ⟨ordered, writer, collected, collects⟩ := stands.exists_collected keeps distinct fits
  obtain ⟨save, rfl⟩ := (collects.runs summary result after).mp run
  obtain ⟨stands, agrees, holds⟩ :=
    collects.stands.saveWriter (by decide) (by decide) collects.postings save
  have trigrams : trigramsOf (ordered.map IndexedDocument.tagEntry) =
      trigramsOf (documents.map IndexedDocument.tagEntry) := by
    refine SortedSet.ext_mem fun trigram => ?_
    rw [mem_trigramsOf_iff, mem_trigramsOf_iff]
    exact exists_congr fun entry => and_congr_left fun _ => (collects.perm.map _).mem_iff
  refine ⟨stands, collects.agrees.trans agrees, ?_, ordered, collects.perm, collects.ascending,
    holds⟩
  rw [collects.postings.size_eq, trigrams]

/-- Where the postings are there, all of them can be written. -/
theorem HoldsTags.areWritable {threshold : Nat}
    (holds : HoldsTags location threshold documents tree) (named : tree.WellNamed)
    {ordered : List IndexedDocument} (perm : ordered.Perm documents)
    (ascending : (ordered.map IndexedDocument.key).Pairwise (· < ·)) :
    PostingsAreWritable tagFolder threshold (ordered.map IndexedDocument.tagEntry) := by
  -- The tags are collected in the order in which they were written before.
  obtain ⟨ordered', perm', ascending', tags⟩ := holds
  obtain rfl := eq_of_ascending (perm.trans perm'.symm) ascending ascending'
  exact tags.areWritable named

/-- It succeeds if all postings can be written. -/
theorem Stands.exists_buildTags (stands : index.Stands location before)
    (keeps : KeepsDocuments location documents before)
    (distinct : (documents.map IndexedDocument.key).Nodup)
    (fits : ∀ document ∈ documents, document.record.Fits)
    (writable : ∀ ordered : List IndexedDocument, ordered.Perm documents →
      (ordered.map IndexedDocument.key).Pairwise (· < ·) →
        PostingsAreWritable tagFolder index.threshold (ordered.map IndexedDocument.tagEntry))
    (summary : BuildSummary) :
    ∃ result after, (index.buildTags summary).runOn before = (.ok result, after) := by
  obtain ⟨ordered, writer, collected, collects⟩ := stands.exists_collected keeps distinct fits
  obtain ⟨after, save⟩ := collects.stands.exists_saved (by decide) (by decide) collects.postings
    (writable ordered collects.perm collects.ascending) "Failed to write metadata postings"
  exact ⟨_, after, (collects.runs summary _ after).mpr ⟨save, rfl⟩⟩

end Index
end SourceSearch
