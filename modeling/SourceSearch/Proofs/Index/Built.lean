import SourceSearch.Proofs.Index.Tags
import SourceSearch.Proofs.Text

/-!
# Built indexes

What it says that an index is exactly that of some documents: their words, their records, and the
postings of their texts and class tags.  A build prepares the index, lists the files below the crawl
root, and passes over them.
-/

namespace SourceSearch

/-- A classifier leaves the key of a record alone, and the numbers within their fields. -/
structure Classifier.KeepsKeys (classifier : Classifier) : Prop where
  /-- The key stays when a path is tagged. -/
  keyByPath : ∀ path record, (classifier.byPath path record).documentKey = record.documentKey
  /-- The key stays when words are tagged. -/
  keyByWords : ∀ words record, (classifier.byWords words record).documentKey = record.documentKey
  /-- Numbers fit after a path is tagged. -/
  fitsByPath : ∀ path record, record.Fits → (classifier.byPath path record).Fits
  /-- Numbers fit after words are tagged. -/
  fitsByWords : ∀ words record, record.Fits → (classifier.byWords words record).Fits

/-- The standard classifier changes classes only. -/
theorem Classifier.keepsKeys_standard : Classifier.standard.KeepsKeys where
  keyByPath path record := by
    rw [standard]
    dsimp only
    split <;> rfl
  keyByWords words record := by
    rw [standard]
    dsimp only
    split <;> rfl
  fitsByPath path record fits := by
    rw [standard]
    dsimp only
    split <;> exact fits
  fitsByWords words record fits := by
    rw [standard]
    dsimp only
    split <;> exact fits

namespace IndexedDocument

variable {classifier : Classifier} {scheme : KeyScheme} {crawlRoot file : Path} {tree : FileTree}
  {document : IndexedDocument}

theorem ofFile?_eq_some_iff :
    ofFile? scheme classifier crawlRoot tree file = some document ↔
      ∃ id content, DocumentIdentity.ofPath file crawlRoot scheme = .ok id ∧
        tree.read file = .ok content ∧ document = ofContent classifier file id content := by
  rw [ofFile?]
  cases DocumentIdentity.ofPath file crawlRoot scheme <;> cases tree.read file <;>
    simp [eq_comm]

theorem documentKey_ofContent (keeps : classifier.KeepsKeys) (file : Path) (id : DocumentIdentity)
    (content : ByteArray) :
    (ofContent classifier file id content).record.documentKey = id.key := by
  rw [ofContent]
  exact (keeps.keyByWords _ _).trans (keeps.keyByPath _ _)

theorem fits_ofContent (keeps : classifier.KeepsKeys) (file : Path) (id : DocumentIdentity)
    {content : ByteArray} (small : content.size ≤ Json.max64) :
    (ofContent classifier file id content).record.Fits := by
  rw [ofContent]
  have byPath : (classifier.byPath file (Metadata.new id content.size)).Fits :=
    keeps.fitsByPath file _ ⟨small, Nat.zero_le _⟩
  exact keeps.fitsByWords _ _
    ⟨byPath.1, Nat.le_trans (length_lines_ofBytesLossy_le content) small⟩

end IndexedDocument

namespace Index

variable {index : Index} {location : Location} {tree start built : FileTree}
  {scheme : KeyScheme} {classifier : Classifier} {crawlRoot : Path}

/-- The tree that a build crawls, which has no records. -/
def startOf (index : Index) (tree : FileTree) : FileTree := (index.prepare.runOn tree).2

/-- The files that a build finds. -/
def crawled (index : Index) (crawlRoot : Path) (tree : FileTree) : List Path :=
  match index.crawler (index.startOf tree) crawlRoot with
  | .ok crawler => crawler.crawl (index.startOf tree)
  | .error _ => []

/-- The documents of some of the files that a build finds. -/
def documentsOf (index : Index) (scheme : KeyScheme) (classifier : Classifier) (crawlRoot : Path)
    (tree : FileTree) (files : List Path) : List IndexedDocument :=
  files.filterMap (IndexedDocument.ofFile? scheme classifier crawlRoot (index.startOf tree))

/-- The documents of the files that have not failed. -/
def indexedDocuments (index : Index) (scheme : KeyScheme) (classifier : Classifier)
    (crawlRoot : Path) (tree : FileTree) (failed : List Path) : List IndexedDocument :=
  index.documentsOf scheme classifier crawlRoot tree
    ((index.crawled crawlRoot tree).filter (· ∉ failed))

/-- The index at a location is exactly that of some documents. -/
structure Represents (index : Index) (location : Location) (documents : List IndexedDocument)
    (tree : FileTree) : Prop where
  /-- The index stands. -/
  stands : index.Stands location tree
  /-- Keys are different. -/
  distinct : (documents.map IndexedDocument.key).Nodup
  /-- Numbers of records fit. -/
  fits : ∀ document ∈ documents, document.record.Fits
  /-- Words and records are there. -/
  keeps : KeepsDocuments location documents tree
  /-- Copies have numbered lines. -/
  copies : HasNumberedCopies location tree
  /-- The query cache is empty. -/
  noResults : tree.kind? (location ++ [queriesFolder]) = none
  /-- The postings of texts are there. -/
  texts : HoldsPostings location textFolder index.threshold
    (documents.map IndexedDocument.textEntry) tree
  /-- The postings of class tags are there, in some order. -/
  tags : ∃ ordered : List IndexedDocument, ordered.Perm documents ∧
    HoldsPostings location tagFolder index.threshold (ordered.map IndexedDocument.tagEntry) tree

/-- The fingerprint is written beside the records, where a file or nothing stands. -/
theorem Stands.writeFormat (stands : index.Stands location tree) {after : FileTree}
    (run : index.writeFormat.runOn tree = (.ok (), after)) :
    tree.AdmitsFile (location ++ [formatFile]) ∧ index.Stands location after ∧
      tree.AgreesOutside location [formatFile] after ∧
      after.kind? (location ++ [formatFile]) = some (.file formatFingerprint.toUTF8) := by
  have apart : ∀ folder ∈ clearedFolders, folder ∉ [formatFile] := by decide
  have setting : formatFile ∈ settingFiles := by decide
  rw [Index.writeFormat, TaskM.runOn_change] at run
  split at run
  · rename_i changed written
    cases run
    obtain ⟨hosted, agrees, named, file⟩ := stands.hosted.write setting written
    exact ⟨FileTree.admitsFile_of_write stands.hosted.hosts
        (isName_of_mem (mem_ownNames_of_setting setting)) (stands.hosted.noLinks _ setting) written,
      ⟨hosted, named stands.named, fun folder member =>
        (stands.layered folder member).of_agrees agrees (apart folder member)⟩, agrees, file⟩
  · cases run

theorem Stands.exists_marked (stands : index.Stands location tree)
    (admits : tree.AdmitsFile (location ++ [formatFile])) :
    ∃ after, index.writeFormat.runOn tree = (.ok (), after) := by
  have written := FileTree.write_single stands.hosted.hosts (isName_of_mem (by decide)) admits
    formatFingerprint.toUTF8
  exact ⟨_, by rw [Index.writeFormat, TaskM.runOn_change, written]⟩

/-- A crawler starts at its root, lists what its patterns admit, and goes by the settings. -/
theorem fields_of_matching {patterns : List String} {config : Config} {crawler : Crawler}
    (made : Crawler.matching crawlRoot patterns config = .ok crawler) :
    crawler.root = crawlRoot ∧ crawler.maxFileSize = config.maxFileSize ∧
      crawler.followSymlinks = config.followSymlinks ∧
      Crawler.parsePatterns patterns = .ok crawler.sources := by
  rw [Crawler.matching] at made
  cases sources : Crawler.parsePatterns patterns with
  | error failure =>
      rw [sources] at made
      cases made
  | ok sources' =>
      cases archives : Crawler.parsePatterns Crawler.archivePatterns with
      | error failure =>
          rw [sources, archives] at made
          cases made
      | ok archives' =>
          rw [sources, archives] at made
          cases made
          exact ⟨rfl, rfl, rfl, rfl⟩

/-- So does the crawler of a build, whatever it stays out of. -/
theorem fields_of_crawler {crawler : Crawler}
    (made : index.crawler start crawlRoot = .ok crawler) :
    crawler.root = crawlRoot ∧ crawler.maxFileSize = index.config.maxFileSize ∧
      crawler.followSymlinks = index.config.followSymlinks ∧
      Crawler.parsePatterns Crawler.sourcePatterns = .ok crawler.sources := by
  rw [Index.crawler, Crawler.new] at made
  cases matching : Crawler.matching crawlRoot Crawler.sourcePatterns index.config with
  | error failure =>
      rw [matching] at made
      cases made
  | ok plain =>
      rw [matching] at made
      cases made
      have fields := fields_of_matching matching
      cases index.pathInCrawl? start crawlRoot <;> exact fields

/-- A file that is crawled is as small as the settings ask for. -/
theorem size_le_of_crawl {crawler : Crawler} (made : index.crawler start crawlRoot = .ok crawler)
    {file : Path} (listed : file ∈ crawler.crawl start) {content : ByteArray}
    (readable : start.read file = .ok content) : content.size ≤ index.config.maxFileSize := by
  rw [Crawler.crawl, List.mem_mergeSort, Crawler.files, List.mem_filter, Crawler.admits] at listed
  have admitted := listed.2
  split at admitted
  · rw [Bool.and_eq_true, Crawler.admitsSize, FileTree.size?_of_read readable,
      (fields_of_crawler made).2.1] at admitted
    simpa using admitted.2
  · cases admitted

theorem crawled_eq {crawler : Crawler}
    (made : index.crawler (index.startOf tree) crawlRoot = .ok crawler) :
    index.crawled crawlRoot tree = crawler.crawl (index.startOf tree) := by
  simp only [crawled, made]

/-- What a build does with the files that it finds: both passes and the fingerprint. -/
def passes (index : Index) (scheme : KeyScheme) (classifier : Classifier) (crawlRoot : Path)
    (files : List Path) : TaskM BuildSummary := do
  let progress ← index.addFiles scheme classifier crawlRoot files
  saveWriter "Failed to write content postings" progress.writer
  let summary ← index.buildTags {
    indexedDocuments := files.length - progress.failed.length
    failed := progress.failed.reverse
    contentTrigrams := progress.writer.size }
  index.writeFormat
  return summary

/-- A build prepares the index, crawls, and passes over the files that it has found. -/
theorem build_ok_iff {summary : BuildSummary} :
    (index.build scheme classifier crawlRoot).runOn tree = (.ok summary, built) ↔
      ∃ start crawler, index.prepare.runOn tree = (.ok (), start) ∧
        index.crawler start crawlRoot = .ok crawler ∧
          (index.passes scheme classifier crawlRoot (crawler.crawl start)).runOn start =
            (.ok summary, built) := by
  constructor
  · intro run
    obtain ⟨_, configured, initial, run⟩ := TaskM.bind_ok_iff.mp run
    obtain ⟨_, start, clear, run⟩ := TaskM.bind_ok_iff.mp run
    obtain ⟨crawler, _, made, run⟩ := TaskM.bind_ok_iff.mp run
    obtain ⟨files, _, crawl, run⟩ := TaskM.bind_ok_iff.mp run
    rw [TaskM.runOn_examine, Prod.mk.injEq] at made
    obtain ⟨made, rfl⟩ := made
    rw [TaskM.runOn_observe] at crawl
    cases crawl
    exact ⟨start, crawler, TaskM.bind_ok_iff.mpr ⟨_, configured, initial, clear⟩, made, run⟩
  · rintro ⟨start, crawler, prepares, made, run⟩
    obtain ⟨_, configured, initial, clear⟩ := TaskM.bind_ok_iff.mp prepares
    refine TaskM.bind_ok_iff.mpr ⟨_, configured, initial, TaskM.bind_ok_iff.mpr
      ⟨_, start, clear, TaskM.bind_ok_iff.mpr ⟨crawler, start, ?_, TaskM.bind_ok_iff.mpr
        ⟨_, start, rfl, run⟩⟩⟩⟩
    rw [TaskM.runOn_examine, made]

/-- A build that succeeds, of an index in a folder of its own, whose settings are within the range
of their types, and which gives the files that it finds different keys. -/
structure Builds (index : Index) (scheme : KeyScheme) (classifier : Classifier)
    (crawlRoot : Path) (location : Location) (tree : FileTree) (summary : BuildSummary)
    (built : FileTree) : Prop where
  /-- The index lies at a location. -/
  hosted : index.IsHosted location tree
  /-- Names are proper. -/
  named : tree.WellNamed
  /-- Records keep their keys. -/
  keepsKeys : classifier.KeepsKeys
  /-- Sizes of files have 64 bits. -/
  sizes : index.config.maxFileSize ≤ Json.max64
  /-- Generations of shards have 32 bits. -/
  generations : index.config.maxShardGenerations ≤ Json.max32
  /-- Keys are different. -/
  distinct : ((index.documentsOf scheme classifier crawlRoot tree
    (index.crawled crawlRoot tree)).map IndexedDocument.key).Nodup
  /-- The build succeeds. -/
  succeeds : (index.build scheme classifier crawlRoot).runOn tree = (.ok summary, built)

end Index
end SourceSearch
