import SourceSearch.Proofs.Crawl.Listed
import SourceSearch.Proofs.FileTree.Unchanged
import SourceSearch.Proofs.Index.Stands
import SourceSearch.Proofs.Postings.Contents
import SourceSearch.Proofs.Store.Keys
import SourceSearch.Proofs.Trigram

/-!
# Documents of an index

What a build keeps of one file, where that lies in an index that stands, and the steps that store
it.  Words, records and copies of documents stay as long as nothing touches their folders.
-/

namespace SourceSearch

/-- What a build keeps of a file, besides copies. -/
structure IndexedDocument where
  /-- The key. -/
  key : DocumentKey
  /-- The text, invalid bytes replaced. -/
  text : String
  /-- The record. -/
  record : Metadata

namespace IndexedDocument

/-- The distinct words of the text. -/
def words (document : IndexedDocument) : List String := Words.distinct document.text

/-- The trigrams of the text. -/
def trigrams (document : IndexedDocument) : SortedSet Trigram := Trigram.ofWords document.words

/-- The document in the postings of texts. -/
def textEntry (document : IndexedDocument) : PostingsEntry := (document.key, document.trigrams)

/-- The document in the postings of class tags. -/
def tagEntry (document : IndexedDocument) : PostingsEntry :=
  (document.key, document.record.tagTrigrams)

/-- The document of a file: its record is tagged by its path and then by its words. -/
def ofContent (classifier : Classifier) (file : Path) (id : DocumentIdentity)
    (content : ByteArray) : IndexedDocument :=
  let text := Text.ofBytesLossy content
  let byPath := classifier.byPath file (Metadata.new id content.size)
  let counted := { byPath with lineCount := (lines text).length }
  ⟨id.key, text, classifier.byWords (Words.distinct text) counted⟩

/-- The document of a file that lies below the crawl root and can be read. -/
def ofFile? (scheme : KeyScheme) (classifier : Classifier) (crawlRoot : Path) (tree : FileTree)
    (file : Path) : Option IndexedDocument :=
  match DocumentIdentity.ofPath file crawlRoot scheme, tree.read file with
  | .ok id, .ok content => some (ofContent classifier file id content)
  | _, _ => none

end IndexedDocument

namespace FileTree

variable {tree changed : FileTree} {location : Location} {own : List String}

/-- The record with the words of a document. -/
def wordsRecord? (tree : FileTree) (location : Location) (key : DocumentKey) : Option ByteArray :=
  tree.record? location wordlistsFolder key wordlistSuffix

/-- The copy of a document. -/
def copy? (tree : FileTree) (location : Location) (key : DocumentKey) : Option ByteArray :=
  tree.record? location documentsFolder key contentSuffix

/-- The record of a document. -/
def documentRecord? (tree : FileTree) (location : Location) (key : DocumentKey) :
    Option ByteArray :=
  tree.record? location metadataFolder key metadataSuffix

/-- What stands in a tree without the given folders stands in every tree that has them added. -/
theorem AgreesOutside.grows (agrees : tree.AgreesOutside location own changed)
    (cleared : ∀ name ∈ own, tree.kind? (location ++ [name]) = none) {place : Location}
    {kind : NodeKind} (stands : tree.kind? place = some kind) :
    changed.kind? place = some kind := by
  rw [agrees.2 place, stands]
  rintro name member ⟨rest, rfl⟩
  rw [kind?_append_of_none (cleared name member)] at stands
  cases stands

/-- A file is found where it was before folders were added. -/
theorem AgreesOutside.find_file (agrees : tree.AgreesOutside location own changed)
    (cleared : ∀ name ∈ own, tree.kind? (location ++ [name]) = none) {path : Path}
    (leads : tree.LeadsToFile path) : changed.find path = tree.find path := by
  obtain ⟨place, node, found, isFile⟩ := leads
  obtain ⟨sound, walk, stands⟩ := find_iff.mp found
  have sameStart : changed.startOf path = tree.startOf path := by
    rw [startOf, startOf, agrees.1]
  obtain ⟨node', stands', kind⟩ :=
    Option.map_eq_some_iff.mp (agrees.grows cleared (kind?_of_at? stands))
  obtain rfl := FileNode.eq_of_kind_of_isFile isFile kind
  rw [found]
  exact find_iff.mpr ⟨sound, sameStart ▸ walk.grow fun _ _ => agrees.grows cleared, stands'⟩

/-- So it reads the same. -/
theorem AgreesOutside.read_file (agrees : tree.AgreesOutside location own changed)
    (cleared : ∀ name ∈ own, tree.kind? (location ++ [name]) = none) {path : Path}
    (leads : tree.LeadsToFile path) : changed.read path = tree.read path := by
  rw [read, read, agrees.find_file cleared leads]

end FileTree

namespace Index

variable {index : Index} {location : Location} {tree before after : FileTree}
  {documents : List IndexedDocument} {key : DocumentKey} {scheme : KeyScheme}
  {classifier : Classifier} {crawlRoot file : Path}

/-! ## Postings -/

/-- The folder of a namespace in a tree where the index stands. -/
theorem Stands.site (stands : index.Stands location tree) {folder : String}
    (member : folder ∈ clearedFolders) (deep : depthOf folder = 3) :
    Namespace index.root ownNames location folder tree where
  hosts := stands.hosted.hosts
  member := mem_ownNames_of_cleared member
  plain := (isName_of_mem (mem_ownNames_of_cleared member)).toIsPlain
  layered := deep ▸ stands.layered folder member

/-- A shard of the index reads as the file at its place. -/
theorem Stands.read_shard (stands : index.Stands location tree) {folder : String}
    (member : folder ∈ clearedFolders) (deep : depthOf folder = 3) (trigram : Trigram)
    (generation : Nat) :
    (tree.read (Postings.shardFile (index.reader folder).base trigram generation)).toOption =
      tree.fileAt? (location ++ folder :: Postings.shardPlace trigram generation) := by
  obtain ⟨entries, found⟩ := stands.find
  exact FileTree.read_shard stands.named found (stands.site member deep).layered.linkless
    (isName_of_mem (mem_ownNames_of_cleared member)).toIsPlain trigram generation

/-- A count of the index reads as the file at its place. -/
theorem Stands.read_count (stands : index.Stands location tree) {folder : String}
    (member : folder ∈ clearedFolders) (deep : depthOf folder = 3) (trigram : Trigram) :
    (tree.read (Postings.countFile (index.reader folder).base trigram)).toOption =
      tree.fileAt? (location ++ folder :: Postings.countPlace trigram) := by
  obtain ⟨entries, found⟩ := stands.find
  exact FileTree.read_count stands.named found (stands.site member deep).layered.linkless
    (isName_of_mem (mem_ownNames_of_cleared member)).toIsPlain trigram

/-- The count of a trigram of three characters is read, or else it is missing. -/
theorem Stands.read_countFile (stands : index.Stands location tree) {folder : String}
    (member : folder ∈ clearedFolders) (deep : depthOf folder = 3) {trigram : Trigram}
    (three : trigram.length = 3) :
    tree.read (Postings.countFile (index.reader folder).base trigram) =
      (tree.fileAt? (location ++ folder :: Postings.countPlace trigram)).elim (.error .missing)
        .ok := by
  obtain ⟨entries, found⟩ := stands.find
  rw [Postings.countFile_eq]
  exact FileTree.read_below_eq_elim found (deep ▸ stands.layered folder member)
    (Postings.length_placeOf three.ge _)
    (List.forall_mem_cons.mpr ⟨isName_of_mem (mem_ownNames_of_cleared member),
      Postings.isName_countPlace three⟩)

/-- The number of keys that make a shard. -/
def threshold (index : Index) : Nat := max index.config.flushThreshold 1

theorem threshold_pos (index : Index) : 0 < index.threshold := by
  rw [threshold]
  omega

theorem wide_textEntry (document : IndexedDocument) :
    ∀ trigram ∈ document.textEntry.2.toList, 3 ≤ trigram.length := fun _ member =>
  Nat.le_of_eq (Trigram.length_of_mem_ofWords member).symm

/-! ## Records -/

/-- The folders with texts and what was extracted from them. -/
def textStores : List String := [documentsFolder, wordlistsFolder]

/-- The folders that a document leaves records in. -/
def documentStores : List String := metadataFolder :: textStores

/-- The record folder of documents holds nothing else. -/
abbrev IsTidy (location : Location) (tree : FileTree) : Prop :=
  Store.Tidy tree location metadataFolder metadataSuffix

/-- The folders that change while files are indexed. -/
def contentFolders : List String := textFolder :: documentStores

theorem contentFolders_subset : contentFolders ⊆ clearedFolders := by decide

theorem documentStores_subset : documentStores ⊆ clearedFolders := by decide

/-- Put a record into a store of the index. -/
theorem Stands.put (stands : index.Stands location before) {store : Store} (folder : String)
    {suffix : String} (member : folder ∈ clearedFolders) (deep : depthOf folder = 2)
    (lies : store.root = index.root / folder) (proper : IsSuffix suffix) {content : ByteArray}
    {outcome : Except Failure Unit}
    (run : (store.put key suffix content).runOn before = (outcome, after)) :
    index.Stands location after ∧
      Store.PutsRecord location folder key suffix content before after outcome.isOk := by
  have own := mem_ownNames_of_cleared member
  have puts := Store.putsRecord stands.hosted.hosts own (deep ▸ stands.layered folder member) lies
    (isName_of_mem own).toIsPlain proper run
  exact ⟨stands.step member (deep ▸ puts.stays), puts⟩

theorem isSuffix_stored {suffix : String}
    (member : suffix ∈ [contentSuffix, wordlistSuffix, trigramsSuffix, frequenciesSuffix,
      metadataSuffix]) : IsSuffix suffix := by
  simp only [List.mem_cons, List.not_mem_nil, or_false] at member
  rcases member with rfl | rfl | rfl | rfl | rfl <;> exact ⟨⟨_, rfl⟩, by decide, by decide⟩

/-- Words and records of documents are kept, and no other records. -/
structure KeepsDocuments (location : Location) (documents : List IndexedDocument)
    (tree : FileTree) : Prop where
  /-- There are no other files among the records. -/
  tidy : IsTidy location tree
  /-- The words of each document are there. -/
  words : ∀ document ∈ documents,
    tree.wordsRecord? location document.key = some (Json.ofTexts document.words).toBytes
  /-- The record of each document is there. -/
  records : ∀ document ∈ documents,
    tree.documentRecord? location document.key = some document.record.toJson.toBytes
  /-- Each record is one of a document. -/
  known : ∀ key, (tree.documentRecord? location key).isSome →
    key ∈ documents.map IndexedDocument.key

theorem KeepsDocuments.of_agrees (keeps : KeepsDocuments location documents before)
    {own : List String} (agrees : before.AgreesOutside location own after)
    (apart : ∀ folder ∈ documentStores, folder ∉ own) :
    KeepsDocuments location documents after := by
  have words (key : DocumentKey) :
      after.wordsRecord? location key = before.wordsRecord? location key :=
    agrees.record? (apart _ (by simp [documentStores, textStores])) key _
  have records (key : DocumentKey) :
      after.documentRecord? location key = before.documentRecord? location key :=
    agrees.record? (apart _ (by simp [documentStores])) key _
  refine ⟨fun names content stands => ?_, fun document member => ?_, fun document member => ?_,
    fun key known => ?_⟩
  · rw [agrees.fileAt?_below (apart _ (by simp [documentStores]))] at stands
    exact keeps.tidy names content stands
  · exact (words _).trans (keeps.words document member)
  · exact (records _).trans (keeps.records document member)
  · rw [records] at known
    exact keeps.known key known

/-- The lines of copies have numbers that can be written. -/
def HasNumberedCopies (location : Location) (tree : FileTree) : Prop :=
  ∀ key content, tree.copy? location key = some content →
    (lines (Text.ofBytesLossy content)).length ≤ Json.max64

theorem HasNumberedCopies.of_agrees (numbered : HasNumberedCopies location before)
    {own : List String} (agrees : before.AgreesOutside location own after)
    (apart : documentsFolder ∉ own) : HasNumberedCopies location after :=
  fun key content copied => numbered key content ((agrees.record? apart key _).symm.trans copied)

/-! ## Storing a file -/

/-- Keep the text of a document. -/
def storeText (index : Index) (key : DocumentKey) (content : ByteArray) : TaskM Unit := do
  index.documents.save key content
  index.wordlists.save key (Extraction.ofText (Text.ofBytesLossy content))

/-- Keep a document: its text, then its record. -/
def keepDocument (index : Index) (document : IndexedDocument) (content : ByteArray) :
    TaskM (DocumentKey × SortedSet Trigram) := do
  index.storeText document.key content
  index.metadata.save document.record
  return document.textEntry

/-- Storing a file keeps its document, if it lies below the crawl root and can be read. -/
theorem storeDocument_eq (tree : FileTree) :
    (index.storeDocument scheme classifier crawlRoot file).runOn tree =
      match DocumentIdentity.ofPath file crawlRoot scheme, tree.read file with
      | .error failure, _ => (.error failure, tree)
      | .ok _, .error fault => (.error (.file file fault), tree)
      | .ok id, .ok content =>
          (index.keepDocument (IndexedDocument.ofContent classifier file id content) content).runOn
            tree := by
  rw [storeDocument, TaskM.runOn_bind, TaskM.runOn_examine]
  cases DocumentIdentity.ofPath file crawlRoot scheme with
  | error failure => rfl
  | ok id =>
      simp only
      rw [TaskM.runOn_bind, TaskM.runOn_examine]
      cases tree.read file with
      | error fault => rfl
      | ok content =>
          simp only [Except.mapError, keepDocument, storeText, bind_assoc,
            IndexedDocument.ofContent, IndexedDocument.textEntry, IndexedDocument.trigrams,
            IndexedDocument.words, Extraction.ofText]

/-- A file that fails adds no postings. -/
theorem addFile_eq (progress : Progress) (file : Path) (tree : FileTree) :
    index.addFile scheme classifier crawlRoot progress file tree =
      match (index.storeDocument scheme classifier crawlRoot file).runOn tree with
      | (.ok entry, after) =>
          let added := progress.writer.addDocument entry.1 entry.2.toList after
          ({ progress with writer := added.1 }, added.2)
      | (.error _, after) => ({ progress with failed := file :: progress.failed }, after) := by
  rw [addFile]
  change StateT.bind (index.storeDocument scheme classifier crawlRoot file).run _ tree = _
  rw [StateT.bind, TaskM.runOn, StateT.run]
  rcases (index.storeDocument scheme classifier crawlRoot file).run tree
    with ⟨failure | ⟨key, trigrams⟩, after⟩ <;> rfl

end Index
end SourceSearch
