import SourceSearch.Proofs.Index.Built

/-!
# Files of documents

Storing a file fails, and then no file has changed, or puts the five records of its document and
changes no other file.  Which of the two happens depends on the file and its key alone, and not on
what is stored already; so does every file in the stores of documents after a list of files.
-/

namespace SourceSearch

/-! ## Records by their places -/

/-- The contents of files by their places. -/
abbrev Files := Location → Option ByteArray

/-- A record of a store of the index. -/
structure StoredRecord where
  /-- The folder of the store. -/
  folder : String
  /-- The key. -/
  key : DocumentKey
  /-- The suffix. -/
  suffix : String
  /-- The bytes. -/
  content : ByteArray

namespace StoredRecord

variable {location : Location} {record : StoredRecord} {files : Files}

/-- Where the record lies below the index folder, if its key is admitted. -/
def place? (record : StoredRecord) (location : Location) : Option Location :=
  (Store.place? record.key record.suffix).map fun names => location ++ record.folder :: names

/-- Files with the record put at its place. -/
def putIn (location : Location) (files : Files) (record : StoredRecord) : Files := fun place =>
  if record.place? location = some place then some record.content else files place

/-- Files with records put one after another. -/
def putAll (location : Location) (files : Files) (records : List StoredRecord) : Files :=
  records.foldl (putIn location) files

theorem place?_eq_some_iff {place : Location} :
    record.place? location = some place ↔ ∃ names,
      Store.place? record.key record.suffix = some names ∧
        place = location ++ record.folder :: names := by
  rw [StoredRecord.place?, Option.map_eq_some_iff]
  simp only [eq_comm]

theorem putIn_congr {other : Files} {place : Location} (same : files place = other place) :
    putIn location files record place = putIn location other record place := by
  rw [putIn, putIn, same]

/-- What is put shows at a place as it does beside other files that agree there. -/
theorem putAll_congr {other : Files} {place : Location} {records : List StoredRecord}
    (same : files place = other place) :
    putAll location files records place = putAll location other records place := by
  induction records generalizing files other with
  | nil => exact same
  | cons record records ih => exact ih (putIn_congr same)

/-- The content under a key of a store. -/
def contentIn (location : Location) (files : Files) (folder key suffix : String) :
    Option ByteArray :=
  (Store.place? key suffix).bind fun names => files (location ++ folder :: names)

/-- A record that is put is the one under its key, and all others stay that have another key, or lie
in another folder, or have a suffix of another ending. -/
theorem contentIn_putIn {folder key suffix : String}
    (apart : folder = record.folder → suffix = record.suffix ∨
      Store.SuffixesApart record.suffix suffix) :
    contentIn location (putIn location files record) folder key suffix =
      if folder = record.folder ∧ suffix = record.suffix ∧ key = record.key ∧
        (Store.place? key suffix).isSome then some record.content
      else contentIn location files folder key suffix := by
  rw [contentIn, contentIn]
  cases placed : Store.place? key suffix with
  | none => simp
  | some names =>
      simp only [Option.bind_some, putIn, place?_eq_some_iff, Option.isSome_some, and_true]
      refine if_congr ?_ rfl rfl
      constructor
      · rintro ⟨others, held, same⟩
        obtain ⟨rfl, rfl⟩ : folder = record.folder ∧ names = others := by simpa using same
        rcases apart rfl with rfl | apart
        · exact ⟨rfl, rfl, Store.place?_injective placed held⟩
        · exact absurd placed (Store.place?_ne_of_apart apart held)
      · rintro ⟨rfl, rfl, rfl⟩
        exact ⟨names, placed, rfl⟩

end StoredRecord

/-! ## Keys that are stored -/

namespace Store

/-- Records under a key can be stored: the key is admitted, and with the longest suffix of all it
makes a proper name. -/
def accepts (key : DocumentKey) : Bool :=
  match place? key contentSuffix with
  | some names => names.all fun name => IsName name
  | none => false

/-- The suffixes of what is stored of documents. -/
def documentSuffixes : List String :=
  [contentSuffix, wordlistSuffix, trigramsSuffix, frequenciesSuffix, metadataSuffix]

theorem accepts_iff {key : DocumentKey} :
    accepts key = true ↔
      ∃ names, place? key contentSuffix = some names ∧ ∀ name ∈ names, IsName name := by
  rw [accepts]
  cases place? key contentSuffix <;> simp

/-- A key that is stored with the longest suffix is stored with all. -/
theorem place?_of_accepts {key : DocumentKey} (accepted : accepts key = true) {suffix : String}
    (member : suffix ∈ documentSuffixes) :
    ∃ names, place? key suffix = some names ∧ ∀ name ∈ names, IsName name := by
  obtain ⟨names, placed, proper⟩ := accepts_iff.mp accepted
  obtain ⟨shard, admitted, rfl⟩ := place?_eq_some_iff.mp placed
  have longest : suffix.utf8ByteSize ≤ contentSuffix.utf8ByteSize ∧ '\x00' ∉ suffix.toList ∧
      IsSuffix suffix := by
    refine ⟨?_, ?_, Index.isSuffix_stored member⟩ <;>
    · simp only [documentSuffixes, List.mem_cons, List.not_mem_nil, or_false] at member
      rcases member with rfl | rfl | rfl | rfl | rfl <;> decide
  have file := proper (key ++ contentSuffix) (by simp)
  refine ⟨[shard, key ++ suffix], place?_eq_some_iff.mpr ⟨shard, admitted, rfl⟩, ?_⟩
  simp only [List.forall_mem_cons]
  refine ⟨proper shard (by simp), ⟨?_, ?_, ?_⟩, by simp⟩
  · exact longest.2.2.isPlain_append (folder?_admits admitted).2.2
  · have clean := file.noNul
    rw [String.toList_append, List.mem_append, not_or] at clean ⊢
    exact ⟨clean.1, longest.2.1⟩
  · have short := file.short
    rw [String.utf8ByteSize_append] at short ⊢
    omega

end Store

namespace IndexedDocument

/-- The records of a document with the bytes of its file, in the order in which they are put. -/
def records (document : IndexedDocument) (content : ByteArray) : List StoredRecord := [
  ⟨documentsFolder, document.key, contentSuffix, content⟩,
  ⟨wordlistsFolder, document.key, wordlistSuffix, (Json.ofTexts document.words).toBytes⟩,
  ⟨wordlistsFolder, document.key, trigramsSuffix, (Json.ofTexts document.trigrams.toList).toBytes⟩,
  ⟨wordlistsFolder, document.key, frequenciesSuffix,
    (Json.ofMap .ofNat (Extraction.ofText document.text).frequencies).toBytes⟩,
  ⟨metadataFolder, document.key, metadataSuffix, document.record.toJson.toBytes⟩]

end IndexedDocument

namespace Index

variable {index : Index} {location : Location} {tree start before between after : FileTree}
  {scheme : KeyScheme} {classifier : Classifier} {crawlRoot file : Path}

/-- Put records one after another. -/
def putRecords (index : Index) : List StoredRecord → TaskM Unit
  | [] => return ()
  | record :: rest => do
      (Store.mk (index.root / record.folder)).put record.key record.suffix record.content
      index.putRecords rest

/-- A record that can be stored: it belongs into a store, and its names are proper. -/
structure IsStorable (record : StoredRecord) : Prop where
  /-- It goes into a store. -/
  member : record.folder ∈ clearedFolders
  /-- Stores have records at this depth. -/
  deep : depthOf record.folder = 2
  /-- The suffix is proper. -/
  proper : IsSuffix record.suffix
  /-- The names are proper. -/
  placed : ∃ names, Store.place? record.key record.suffix = some names ∧
    ∀ name ∈ names, IsName name

/-- What lies in a store of documents lies two names below it. -/
theorem cleared_of_documentStore {folder : String} (member : folder ∈ documentStores) :
    folder ∈ clearedFolders ∧ depthOf folder = 2 := by
  revert folder
  decide

theorem isStorable_of_mem_records {document : IndexedDocument} {content : ByteArray}
    (accepted : Store.accepts document.key = true) {record : StoredRecord}
    (member : record ∈ document.records content) :
    IsStorable record ∧ record.folder ∈ documentStores := by
  have kept : record.folder ∈ documentStores ∧ record.suffix ∈ Store.documentSuffixes ∧
      record.key = document.key := by
    simp only [IndexedDocument.records, List.mem_cons, List.not_mem_nil, or_false] at member
    rcases member with rfl | rfl | rfl | rfl | rfl <;>
      simp [documentStores, textStores, Store.documentSuffixes]
  obtain ⟨known, suffix, keyed⟩ := kept
  obtain ⟨cleared, deep⟩ := cleared_of_documentStore known
  refine ⟨⟨cleared, deep, isSuffix_stored suffix, ?_⟩, known⟩
  rw [keyed]
  exact Store.place?_of_accepts accepted suffix

/-- One record is put into a store of the index. -/
theorem Stands.putStorable (stands : index.Stands location before) {record : StoredRecord}
    (storable : IsStorable record) {outcome : Except Failure Unit}
    (run : ((Store.mk (index.root / record.folder)).put record.key record.suffix
      record.content).runOn before = (outcome, after)) :
    outcome = .ok () ∧ index.Stands location after ∧
      before.AgreesOutside location [record.folder] after ∧
      after.fileAt? = StoredRecord.putIn location before.fileAt? record := by
  obtain ⟨names, placed, proper⟩ := storable.placed
  obtain ⟨stands', puts⟩ :=
    stands.put record.folder storable.member storable.deep rfl storable.proper run
  have succeeded := puts.succeeds names placed (List.forall_mem_cons.mpr
    ⟨isName_of_mem (mem_ownNames_of_cleared storable.member), proper⟩)
  cases outcome with
  | error failure => cases succeeded
  | ok =>
      refine ⟨rfl, stands', puts.stays.agrees, funext fun place => ?_⟩
      simp only [puts.files, StoredRecord.putIn, StoredRecord.place?_eq_some_iff]
      exact if_congr (and_iff_right succeeded) rfl rfl

/-- Records that can be stored are put one after another. -/
theorem Stands.putRecords (stands : index.Stands location before) {records : List StoredRecord}
    (storable : ∀ record ∈ records, IsStorable record ∧ record.folder ∈ documentStores)
    {outcome : Except Failure Unit}
    (run : (index.putRecords records).runOn before = (outcome, after)) :
    outcome = .ok () ∧ index.Stands location after ∧
      before.AgreesOutside location documentStores after ∧
      after.fileAt? = StoredRecord.putAll location before.fileAt? records := by
  induction records generalizing before with
  | nil =>
      cases run
      exact ⟨rfl, stands, .refl _ _ _, rfl⟩
  | cons record records ih =>
      rw [List.forall_mem_cons] at storable
      rw [Index.putRecords, TaskM.runOn_bind] at run
      rcases first : ((Store.mk (index.root / record.folder)).put record.key record.suffix
        record.content).runOn before with ⟨result, between⟩
      obtain ⟨rfl, stands', agrees, files⟩ := stands.putStorable storable.1.1 first
      rw [first] at run
      obtain ⟨succeeded, stands'', agrees', files'⟩ := ih stands' storable.2 run
      refine ⟨succeeded, stands'', (agrees.mono ?_).trans agrees', files'.trans ?_⟩
      · simpa using storable.1.2
      · rw [files]
        rfl

/-! ## Storing a file -/

/-- What a build stores of a file, with the bytes of the file: nothing if the file does not lie
below the crawl root, cannot be read, or has a key that is not accepted. -/
def stored? (scheme : KeyScheme) (classifier : Classifier) (crawlRoot : Path) (tree : FileTree)
    (file : Path) : Option (IndexedDocument × ByteArray) :=
  match DocumentIdentity.ofPath file crawlRoot scheme, tree.read file with
  | .ok id, .ok content =>
      if Store.accepts id.key then
        some (IndexedDocument.ofContent classifier file id content, content)
      else none
  | _, _ => none

theorem stored?_eq_some_iff {document : IndexedDocument} {content : ByteArray} :
    stored? scheme classifier crawlRoot tree file = some (document, content) ↔
      ∃ id, DocumentIdentity.ofPath file crawlRoot scheme = .ok id ∧
        tree.read file = .ok content ∧ Store.accepts id.key = true ∧
          document = IndexedDocument.ofContent classifier file id content := by
  rw [stored?]
  cases DocumentIdentity.ofPath file crawlRoot scheme with
  | error failure => simp
  | ok id =>
      cases tree.read file with
      | error fault => simp
      | ok held =>
          by_cases accepted : Store.accepts id.key = true
          · simp only [accepted, if_true, Option.some.injEq, Prod.mk.injEq, Except.ok.injEq,
              exists_eq_left', true_and]
            constructor
            · rintro ⟨kept, rfl⟩
              exact ⟨rfl, kept.symm⟩
            · rintro ⟨rfl, kept⟩
              exact ⟨kept.symm, rfl⟩
          · simp [accepted]

theorem accepts_of_stored? {deposit : IndexedDocument × ByteArray}
    (is : stored? scheme classifier crawlRoot tree file = some deposit) :
    Store.accepts deposit.1.key = true := by
  obtain ⟨id, -, -, accepted, made⟩ := stored?_eq_some_iff.mp is
  rw [show deposit.1 = _ from made]
  exact accepted

/-- What is stored of a file is the document of the file. -/
theorem ofFile?_of_stored? {document : IndexedDocument} {content : ByteArray}
    (is : stored? scheme classifier crawlRoot tree file = some (document, content)) :
    IndexedDocument.ofFile? scheme classifier crawlRoot tree file = some document := by
  obtain ⟨id, identity, readable, -, same⟩ := stored?_eq_some_iff.mp is
  exact IndexedDocument.ofFile?_eq_some_iff.mpr ⟨id, content, identity, readable, same⟩

theorem stored?_congr (same : before.read file = tree.read file) :
    stored? scheme classifier crawlRoot before file =
      stored? scheme classifier crawlRoot tree file := by
  rw [stored?, stored?, same]

/-- A key that is not accepted is refused with the copy of the document, which is put first. -/
theorem Stands.putRefused (stands : index.Stands location before) {key : DocumentKey}
    (refused : Store.accepts key = false) {content : ByteArray} {outcome : Except Failure Unit}
    (run : (index.documents.save key content).runOn before = (outcome, after)) :
    (∃ failure, outcome = .error failure) ∧ index.Stands location after ∧
      before.AgreesOutside location documentStores after ∧ after.fileAt? = before.fileAt? := by
  have proper : IsSuffix contentSuffix := isSuffix_stored (by simp)
  obtain ⟨stands', puts⟩ := stands.put documentsFolder (by decide) (by decide) rfl proper run
  have agrees : before.AgreesOutside location documentStores after :=
    puts.stays.agrees.mono (by decide)
  cases outcome with
  | error failure =>
      exact ⟨⟨failure, rfl⟩, stands', agrees, funext fun place => (puts.files place).trans
        (if_neg (by simp [Except.isOk, Except.toBool]))⟩
  | ok =>
      -- The file would stand at names that a well-named tree does not have.
      obtain ⟨names, placed⟩ := Option.isSome_iff_exists.mp (puts.admitted rfl)
      have written : after.fileAt? (location ++ documentsFolder :: names) = some content :=
        (puts.files _).trans (if_pos ⟨rfl, names, placed, rfl⟩)
      have kind := FileTree.fileAt?_eq_some_iff.mp written
      have accepted : Store.accepts key = true := by
        refine Store.accepts_iff.mpr ⟨names, placed, fun name member => ?_⟩
        obtain ⟨front, rest, split⟩ := List.append_of_mem member
        rw [split, ← List.cons_append, ← List.append_assoc] at kind
        exact stands'.named.isName kind
      rw [refused] at accepted
      cases accepted

/-- Keeping a document puts its records. -/
theorem keepDocument_eq {document : IndexedDocument} {content : ByteArray}
    (text : document.text = Text.ofBytesLossy content)
    (keyed : document.record.documentKey = document.key) :
    index.keepDocument document content = do
      index.putRecords (document.records content)
      return document.textEntry := by
  simp only [keepDocument, storeText, IndexedDocument.records, putRecords, MetadataStore.save,
    keyed, DocumentStore.save, WordlistStore.save, WordlistStore.saveWords,
    WordlistStore.saveTrigrams, WordlistStore.saveFrequencies, Store.putRecord, bind_assoc,
    pure_bind, ← text]
  rfl

/-- A step that stores what there is of a file: either there is nothing, the step fails and no file
changes, or the records are put and the step succeeds. -/
structure Stores (index : Index) (location : Location)
    (stored : Option (IndexedDocument × ByteArray)) (before after : FileTree)
    (outcome : Except Failure (DocumentKey × SortedSet Trigram)) : Prop where
  /-- The index still stands. -/
  stands : index.Stands location after
  /-- Nothing changes outside of the stores of documents. -/
  agrees : before.AgreesOutside location documentStores after
  /-- The outcome is that of the document. -/
  outcome_eq : outcome.toOption = stored.map fun entry => entry.1.textEntry
  /-- The files are those of before and the records of the document. -/
  files : after.fileAt? = StoredRecord.putAll location before.fileAt?
    (stored.elim [] fun entry => entry.1.records entry.2)

/-- Storing a file does what there is to do of the file, whatever is stored already. -/
theorem Stands.stores (stands : index.Stands location before) (keeps : classifier.KeepsKeys)
    {outcome : Except Failure (DocumentKey × SortedSet Trigram)}
    (run : (index.storeDocument scheme classifier crawlRoot file).runOn before =
      (outcome, after)) :
    index.Stores location (stored? scheme classifier crawlRoot before file) before after
      outcome := by
  rw [storeDocument_eq] at run
  rw [stored?]
  cases identity : DocumentIdentity.ofPath file crawlRoot scheme with
  | error failure =>
      rw [identity] at run
      cases run
      exact ⟨stands, .refl _ _ _, rfl, rfl⟩
  | ok id =>
      cases readable : before.read file with
      | error fault =>
          rw [identity, readable] at run
          cases run
          exact ⟨stands, .refl _ _ _, rfl, rfl⟩
      | ok content =>
          rw [identity, readable] at run
          simp only at run ⊢
          by_cases accepted : Store.accepts id.key = true
          · rw [keepDocument_eq rfl (IndexedDocument.documentKey_ofContent keeps file id content),
              TaskM.runOn_bind] at run
            rcases first : (index.putRecords
              ((IndexedDocument.ofContent classifier file id content).records content)).runOn
                before with ⟨result, between⟩
            obtain ⟨rfl, stands', agrees, files⟩ := stands.putRecords
              (fun record => isStorable_of_mem_records accepted) first
            rw [first] at run
            cases run
            simp only [if_pos accepted]
            exact ⟨stands', agrees, rfl, files⟩
          · rw [Index.keepDocument, Index.storeText, bind_assoc, TaskM.runOn_bind] at run
            rcases first : (index.documents.save
              (IndexedDocument.ofContent classifier file id content).key content).runOn before
                with ⟨result, between⟩
            obtain ⟨⟨failure, rfl⟩, stands', agrees, files⟩ :=
              stands.putRefused (Bool.eq_false_iff.mpr accepted) first
            rw [first] at run
            cases run
            simp only [if_neg accepted]
            exact ⟨stands', agrees, rfl, files⟩

end Index
end SourceSearch
