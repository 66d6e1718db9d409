import SourceSearch.Proofs.Index.Files
import SourceSearch.Proofs.Postings.Writable

/-!
# What a first pass keeps

A first pass fails for exactly those files of which there is nothing to store.  Of the others it
keeps all records, where a document that has the key of an earlier one takes its place.  So what is
kept under a key is what was stored last under it.
-/

namespace SourceSearch

/-! ## Documents that take each other's place -/

/-- The documents that are stored one after another, each with the bytes of its file. -/
abbrev Deposits := List (IndexedDocument × ByteArray)

namespace Deposits

variable {deposits : Deposits} {entry : IndexedDocument × ByteArray} {key : DocumentKey}

/-- The keys of the documents. -/
def keys (deposits : Deposits) : List DocumentKey := deposits.map fun entry => entry.1.key

/-- The document that was stored last under a key. -/
def latest? (deposits : Deposits) (key : DocumentKey) : Option (IndexedDocument × ByteArray) :=
  (deposits.filter fun entry => entry.1.key = key).getLast?

/-- The documents whose place no later one takes. -/
def survivors : Deposits → Deposits
  | [] => []
  | entry :: rest => if entry.1.key ∈ keys rest then survivors rest else entry :: survivors rest

/-- The records of all documents. -/
def records (deposits : Deposits) : List StoredRecord :=
  deposits.flatMap fun entry => entry.1.records entry.2

theorem mem_keys_iff : key ∈ keys deposits ↔ ∃ entry ∈ deposits, entry.1.key = key := List.mem_map

theorem latest?_eq_none_iff : latest? deposits key = none ↔ key ∉ keys deposits := by
  rw [latest?, List.getLast?_eq_none_iff, List.filter_eq_nil_iff, mem_keys_iff]
  simp

theorem key_of_latest? (is : latest? deposits key = some entry) :
    entry ∈ deposits ∧ entry.1.key = key := by
  simpa using List.mem_filter.mp (List.mem_of_getLast? is)

theorem latest?_cons (entry : IndexedDocument × ByteArray) (rest : Deposits) (key : DocumentKey) :
    latest? (entry :: rest) key =
      (latest? rest key).or (if entry.1.key = key then some entry else none) := by
  rw [latest?, latest?, List.filter_cons]
  split
  · rename_i same
    rw [if_pos (by simpa using same), List.getLast?_cons]
    cases (rest.filter fun entry => entry.1.key = key).getLast? <;> rfl
  · rename_i different
    rw [if_neg (by simpa using different), Option.or_none]

theorem survivors_sublist : (survivors deposits).Sublist deposits := by
  induction deposits with
  | nil => exact .refl _
  | cons entry rest ih =>
      rw [survivors]
      split
      · exact ih.cons _
      · exact ih.cons_cons _

/-- The survivors are the documents that were stored last under their keys. -/
theorem mem_survivors_iff :
    entry ∈ survivors deposits ↔ latest? deposits entry.1.key = some entry := by
  induction deposits with
  | nil => simp [survivors, latest?]
  | cons first rest ih =>
      rw [survivors, latest?_cons]
      by_cases again : first.1.key ∈ keys rest
      · rw [if_pos again, ih]
        cases later : latest? rest entry.1.key with
        | some other => rw [Option.some_or]
        | none =>
            rw [Option.none_or, if_neg]
            exact fun same => latest?_eq_none_iff.mp later (same ▸ again)
      · rw [if_neg again, List.mem_cons, ih]
        by_cases same : first.1.key = entry.1.key
        · rw [latest?_eq_none_iff.mpr (same ▸ again), Option.none_or, if_pos same]
          simp [eq_comm]
        · rw [if_neg same, Option.or_none, or_iff_right]
          rintro rfl
          exact same rfl

theorem mem_keys_survivors_iff : key ∈ keys (survivors deposits) ↔ key ∈ keys deposits := by
  refine ⟨fun member => ?_, fun member => ?_⟩
  · obtain ⟨entry, inside, rfl⟩ := mem_keys_iff.mp member
    exact mem_keys_iff.mpr ⟨entry, survivors_sublist.subset inside, rfl⟩
  · cases is : latest? deposits key with
    | none => exact absurd member (latest?_eq_none_iff.mp is)
    | some entry =>
        obtain ⟨-, rfl⟩ := key_of_latest? is
        exact mem_keys_iff.mpr ⟨entry, mem_survivors_iff.mpr is, rfl⟩

theorem nodup_keys_survivors : (keys (survivors deposits)).Nodup := by
  induction deposits with
  | nil => exact List.nodup_nil
  | cons entry rest ih =>
      rw [survivors]
      split
      · exact ih
      · rename_i fresh
        exact List.nodup_cons.mpr ⟨fun again => fresh (mem_keys_survivors_iff.mp again), ih⟩

/-- So the documents that survive have different keys. -/
theorem nodup_key_survivors :
    (((survivors deposits).map Prod.fst).map IndexedDocument.key).Nodup := by
  rw [List.map_map]
  exact nodup_keys_survivors

/-- Their numbers fit if all do. -/
theorem fits_survivors (fits : ∀ entry ∈ deposits, entry.1.record.Fits) :
    ∀ document ∈ (survivors deposits).map Prod.fst, document.record.Fits := by
  intro document member
  obtain ⟨entry, survives, rfl⟩ := List.mem_map.mp member
  exact fits entry (survivors_sublist.subset survives)

/-- Documents with different keys all survive. -/
theorem survivors_eq_self (distinct : (keys deposits).Nodup) : survivors deposits = deposits := by
  induction deposits with
  | nil => rfl
  | cons entry rest ih =>
      have ⟨fresh, distinct⟩ := List.nodup_cons.mp distinct
      rw [survivors, if_neg (by exact fresh), ih distinct]

theorem latest?_of_mem (distinct : (keys deposits).Nodup) (member : entry ∈ deposits) :
    latest? deposits entry.1.key = some entry := by
  rw [← mem_survivors_iff, survivors_eq_self distinct]
  exact member

end Deposits

namespace StoredRecord

variable {location : Location} {files : Files} {records : List StoredRecord}
  {folder key suffix : String}

/-- The last record under a key of a store is the one that is found there. -/
theorem contentIn_putAll (apart : ∀ record ∈ records, folder = record.folder →
      suffix = record.suffix ∨ Store.SuffixesApart record.suffix suffix)
    (admitted : (Store.place? key suffix).isSome) :
    contentIn location (putAll location files records) folder key suffix =
      ((records.filter fun record => folder = record.folder ∧ suffix = record.suffix ∧
        key = record.key).getLast?.map content).or
        (contentIn location files folder key suffix) := by
  induction records generalizing files with
  | nil => rfl
  | cons record records ih =>
      rw [List.forall_mem_cons] at apart
      change contentIn location (putAll location (putIn location files record) records) _ _ _ = _
      rw [ih apart.2, contentIn_putIn apart.1, List.filter_cons]
      simp only [admitted, and_true, decide_eq_true_eq]
      split
      · rw [List.getLast?_cons, Option.map_some, Option.some_or]
        cases (records.filter _).getLast? <;> rfl
      · rfl

/-- What stands at a place was there before or is a record that was put there. -/
theorem eq_or_exists_of_putAll {place : Location} {held : ByteArray}
    (is : putAll location files records place = some held) :
    files place = some held ∨ ∃ record ∈ records, record.place? location = some place := by
  induction records generalizing files with
  | nil => exact .inl is
  | cons record records ih =>
      rcases ih is with before | ⟨other, member, there⟩
      · by_cases there : record.place? location = some place
        · exact .inr ⟨record, List.mem_cons_self, there⟩
        · rw [putIn, if_neg there] at before
          exact .inl before
      · exact .inr ⟨other, List.mem_cons_of_mem _ member, there⟩

theorem putAll_append (more : List StoredRecord) :
    putAll location files (records ++ more) =
      putAll location (putAll location files records) more :=
  List.foldl_append

end StoredRecord

/-- No suffix of what is stored of documents ends in another one. -/
theorem Store.apart_of_mem_documentSuffixes {suffix other : String}
    (member : suffix ∈ Store.documentSuffixes) (member' : other ∈ Store.documentSuffixes) :
    suffix = other ∨ Store.SuffixesApart other suffix := by
  have all : ∀ suffix ∈ Store.documentSuffixes, ∀ other ∈ Store.documentSuffixes, suffix = other ∨
      ¬ other.toList <:+ suffix.toList ∧ ¬ suffix.toList <:+ other.toList := by decide
  exact all suffix member other member'

namespace Deposits

variable {location : Location} {files : Files} {deposits : Deposits} {key : DocumentKey}
  {folder suffix : String} {content : IndexedDocument × ByteArray → ByteArray}

/-! ## Records of one kind -/

/-- One kind of record that every document has, by its store and suffix. -/
structure IsKind (folder suffix : String)
    (content : IndexedDocument × ByteArray → ByteArray) : Prop where
  /-- The suffix is one of those in use. -/
  known : suffix ∈ Store.documentSuffixes
  /-- A document has one such record. -/
  filter_eq : ∀ (entry : IndexedDocument × ByteArray) (key : DocumentKey),
    ((entry.1.records entry.2).filter fun record => folder = record.folder ∧
        suffix = record.suffix ∧ key = record.key) =
      if entry.1.key = key then [⟨folder, entry.1.key, suffix, content entry⟩] else []

theorem isKind_copy : IsKind documentsFolder contentSuffix Prod.snd where
  known := by decide
  filter_eq entry key := by
    by_cases same : key = entry.1.key
    · subst same
      simp [IndexedDocument.records, documentsFolder, wordlistsFolder, metadataFolder]
    · simp [IndexedDocument.records, same, Ne.symm same]

theorem isKind_words :
    IsKind wordlistsFolder wordlistSuffix fun entry => (Json.ofTexts entry.1.words).toBytes where
  known := by decide
  filter_eq entry key := by
    by_cases same : key = entry.1.key
    · subst same
      simp [IndexedDocument.records, documentsFolder, wordlistsFolder, metadataFolder,
        wordlistSuffix, trigramsSuffix, frequenciesSuffix]
    · simp [IndexedDocument.records, same, Ne.symm same]

theorem isKind_record :
    IsKind metadataFolder metadataSuffix fun entry => entry.1.record.toJson.toBytes where
  known := by decide
  filter_eq entry key := by
    by_cases same : key = entry.1.key
    · subst same
      simp [IndexedDocument.records, documentsFolder, wordlistsFolder, metadataFolder]
    · simp [IndexedDocument.records, same, Ne.symm same]

theorem suffix_of_mem_records {record : StoredRecord} (member : record ∈ records deposits) :
    record.suffix ∈ Store.documentSuffixes := by
  obtain ⟨entry, -, inside⟩ := List.mem_flatMap.mp member
  simp only [IndexedDocument.records, List.mem_cons, List.not_mem_nil, or_false] at inside
  rcases inside with rfl | rfl | rfl | rfl | rfl <;> simp [Store.documentSuffixes]

theorem suffix_of_metadataFolder {record : StoredRecord} (member : record ∈ records deposits)
    (inside : record.folder = metadataFolder) : record.suffix = metadataSuffix := by
  obtain ⟨entry, -, listed⟩ := List.mem_flatMap.mp member
  simp only [IndexedDocument.records, List.mem_cons, List.not_mem_nil, or_false] at listed
  rcases listed with rfl | rfl | rfl | rfl | rfl <;>
    simp_all [documentsFolder, wordlistsFolder, metadataFolder]

/-- Of each kind, the record under a key is the one of the document that was stored last. -/
theorem IsKind.contentIn_putAll (kind : IsKind folder suffix content)
    (admitted : (Store.place? key suffix).isSome) :
    StoredRecord.contentIn location (StoredRecord.putAll location files (records deposits)) folder
        key suffix =
      ((latest? deposits key).map content).or
        (StoredRecord.contentIn location files folder key suffix) := by
  rw [StoredRecord.contentIn_putAll (fun record member _ =>
    Store.apart_of_mem_documentSuffixes kind.known (suffix_of_mem_records member)) admitted]
  congr 1
  have filtered : (records deposits).filter (fun record => folder = record.folder ∧
      suffix = record.suffix ∧ key = record.key) =
      (deposits.filter fun entry => entry.1.key = key).map fun entry =>
        ⟨folder, entry.1.key, suffix, content entry⟩ := by
    rw [records, List.filter_flatMap]
    simp only [kind.filter_eq]
    induction deposits with
    | nil => rfl
    | cons entry rest ih =>
        rw [List.flatMap_cons, ih, List.filter_cons]
        by_cases same : entry.1.key = key <;> simp [same]
  rw [filtered, List.getLast?_map, latest?, Option.map_map]
  rfl

end Deposits

namespace Index

variable {index : Index} {location : Location} {start before between after tree : FileTree}
  {scheme : KeyScheme} {classifier : Classifier} {crawlRoot : Path} {deposits : Deposits}
  {writer : PostingsWriter}

/-! ## One file after another -/

/-- After some files the stores of documents hold what was stored of them, and nothing else that was
not there at the start; the writer has the postings. -/
structure Filed (index : Index) (location : Location) (start : FileTree) (deposits : Deposits)
    (writer : PostingsWriter) (tree : FileTree) : Prop where
  /-- The index stands. -/
  stands : index.Stands location tree
  /-- Nothing changes outside of these folders. -/
  agrees : start.AgreesOutside location contentFolders tree
  /-- Records are there. -/
  files : ∀ folder ∈ documentStores, ∀ names,
    tree.fileAt? (location ++ folder :: names) =
      StoredRecord.putAll location start.fileAt? deposits.records (location ++ folder :: names)
  /-- The writer has the postings. -/
  postings : Keeps index.root location textFolder index.threshold
    (ledgersOf index.threshold (deposits.map fun entry => entry.1.textEntry)) writer tree

theorem filed_nil (stands : index.Stands location start)
    (cleared : ∀ folder ∈ clearedFolders, start.kind? (location ++ [folder]) = none) :
    index.Filed location start [] index.textWriter start where
  stands := stands
  agrees := .refl _ _ _
  files _ _ _ := rfl
  postings := keeps_new (FileTree.fileAt?_of_none (cleared _ (by decide))) _

/-- One file fails if there is nothing to store of it, and else it is stored. -/
theorem Filed.addFile {progress later : Progress} {file : Path}
    (filed : index.Filed location start deposits progress.writer before)
    (keeps : classifier.KeepsKeys)
    (same : stored? scheme classifier crawlRoot before file =
      stored? scheme classifier crawlRoot start file)
    (run : index.addFile scheme classifier crawlRoot progress file before = (later, after)) :
    later.failed = (if (stored? scheme classifier crawlRoot start file).isNone
        then file :: progress.failed else progress.failed) ∧
      index.Filed location start
        (deposits ++ (stored? scheme classifier crawlRoot start file).toList) later.writer
          after := by
  rw [addFile_eq] at run
  rcases store : (index.storeDocument scheme classifier crawlRoot file).runOn before
    with ⟨outcome, between⟩
  have step := filed.stands.stores keeps store
  rw [same] at step
  rw [store] at run
  have agrees := filed.agrees.trans (step.agrees.mono (by simp [contentFolders]))
  have postings := filed.postings.of_agrees step.agrees (by decide)
  cases is : stored? scheme classifier crawlRoot start file with
  | none =>
      obtain ⟨failure, rfl⟩ : ∃ failure, outcome = .error failure := by
        have failed := step.outcome_eq
        rw [is] at failed
        cases outcome with
        | error failure => exact ⟨failure, rfl⟩
        | ok entry => cases failed
      cases run
      refine ⟨rfl, step.stands, agrees, fun folder member names => ?_, ?_⟩
      · rw [step.files, is, Option.toList_none, List.append_nil]
        exact filed.files folder member names
      · rw [Option.toList_none, List.append_nil]
        exact postings
  | some entry =>
      obtain rfl : outcome = .ok entry.1.textEntry := by
        have kept := step.outcome_eq
        rw [is] at kept
        cases outcome with
        | error failure => cases kept
        | ok stored => exact congrArg _ (Option.some.inj kept)
      rcases added : progress.writer.addDocument entry.1.textEntry.1
        entry.1.textEntry.2.toList between with ⟨writer, last⟩
      simp only [added] at run
      cases run
      obtain ⟨stays, postings⟩ := postings.addDocument
        (step.stands.site (by decide) (by decide)) (wide_textEntry entry.1) added
      refine ⟨rfl, step.stands.step (by decide) stays,
        agrees.trans (stays.agrees.mono (by decide)), fun folder member names => ?_, ?_⟩
      · have other : folder ∉ [textFolder] := by
          revert folder
          decide
        rw [stays.agrees.fileAt?_below other, step.files, is, Option.toList_some, Deposits.records,
          List.flatMap_append, StoredRecord.putAll_append, List.flatMap_singleton]
        exact StoredRecord.putAll_congr (filed.files folder member names)
      · rw [Option.toList_some, List.map_append, List.map_singleton,
          ledgersOf_append_singleton]
        exact postings

/-- What there is to store of each of some files does not depend on what is stored already. -/
def AreSteady (scheme : KeyScheme) (classifier : Classifier) (crawlRoot : Path)
    (location : Location) (start : FileTree) (files : List Path) : Prop :=
  ∀ file ∈ files, ∀ changed, start.AgreesOutside location contentFolders changed →
    stored? scheme classifier crawlRoot changed file =
      stored? scheme classifier crawlRoot start file

/-- Files are stored one after another, and those fail of which there is nothing to store. -/
theorem Filed.foldlM_addFile (progress : Progress) {later : Progress} {files : List Path}
    (filed : index.Filed location start deposits progress.writer before)
    (keeps : classifier.KeepsKeys)
    (steady : AreSteady scheme classifier crawlRoot location start files)
    (run : (files.foldlM (index.addFile scheme classifier crawlRoot) progress :
      DiskM Progress) before = (later, after)) :
    later.failed = (files.filter fun file =>
        (stored? scheme classifier crawlRoot start file).isNone).reverse ++ progress.failed ∧
      index.Filed location start
        (deposits ++ files.filterMap (stored? scheme classifier crawlRoot start)) later.writer
          after := by
  induction files generalizing progress deposits before with
  | nil =>
      cases run
      exact ⟨rfl, by rwa [List.filterMap_nil, List.append_nil]⟩
  | cons file files ih =>
      rw [AreSteady, List.forall_mem_cons] at steady
      rw [DiskM.foldlM_cons] at run
      rcases step : index.addFile scheme classifier crawlRoot progress file before
        with ⟨next, between⟩
      rw [step] at run
      obtain ⟨failed, filed'⟩ := filed.addFile keeps (steady.1 before filed.agrees) step
      obtain ⟨rest, whole⟩ := ih next filed' steady.2 run
      rw [List.append_assoc] at whole
      cases is : stored? scheme classifier crawlRoot start file with
      | none =>
          rw [is] at failed whole
          rw [List.filterMap_cons_none is, List.filter_cons_of_pos (by simp [is]), rest, failed]
          exact ⟨by simp, whole⟩
      | some entry =>
          rw [is] at failed whole
          rw [List.filterMap_cons_some is, List.filter_cons_of_neg (by simp [is]), rest, failed]
          exact ⟨by simp, whole⟩

/-! ## What is there in the end -/

/-- The stores of documents hold the records of some documents and nothing else. -/
def HoldsFiles (location : Location) (deposits : Deposits) (tree : FileTree) : Prop :=
  ∀ folder ∈ documentStores, ∀ names, tree.fileAt? (location ++ folder :: names) =
    StoredRecord.putAll location (fun _ => none) deposits.records (location ++ folder :: names)

namespace HoldsFiles

theorem of_agrees (holds : HoldsFiles location deposits before) {own : List String}
    (agrees : before.AgreesOutside location own after)
    (apart : ∀ folder ∈ documentStores, folder ∉ own) : HoldsFiles location deposits after :=
  fun folder member names => by
    rw [agrees.fileAt?_below (apart folder member), holds folder member]

/-- Under every key the record of a kind is that of the document that was stored last under it. -/
theorem record?_eq (holds : HoldsFiles location deposits tree)
    (accepted : ∀ entry ∈ deposits, Store.accepts entry.1.key = true) {folder suffix : String}
    {content : IndexedDocument × ByteArray → ByteArray}
    (kind : Deposits.IsKind folder suffix content) (member : folder ∈ documentStores)
    (key : DocumentKey) :
    tree.record? location folder key suffix = (deposits.latest? key).map content := by
  have whole : tree.record? location folder key suffix = StoredRecord.contentIn location
      (StoredRecord.putAll location (fun _ => none) deposits.records) folder key suffix := by
    rw [FileTree.record?, StoredRecord.contentIn]
    cases Store.place? key suffix with
    | none => rfl
    | some names => exact holds folder member names
  rw [whole]
  cases placed : Store.place? key suffix with
  | some names =>
      rw [kind.contentIn_putAll (Option.isSome_of_eq_some placed), StoredRecord.contentIn, placed]
      exact Option.or_none
  | none =>
      -- A key without a place is not accepted, so nothing was stored under it.
      rw [StoredRecord.contentIn, placed]
      cases is : deposits.latest? key with
      | none => rfl
      | some entry =>
          obtain ⟨inside, rfl⟩ := Deposits.key_of_latest? is
          obtain ⟨names, somewhere, -⟩ := Store.place?_of_accepts (accepted entry inside) kind.known
          rw [placed] at somewhere
          cases somewhere

/-- Words and records are those of the documents that survive. -/
theorem keepsDocuments (holds : HoldsFiles location deposits tree)
    (accepted : ∀ entry ∈ deposits, Store.accepts entry.1.key = true) :
    KeepsDocuments location (deposits.survivors.map Prod.fst) tree where
  tidy names content held := by
    rw [holds metadataFolder (by decide)] at held
    rcases StoredRecord.eq_or_exists_of_putAll held with before | ⟨record, member, placed⟩
    · cases before
    · obtain ⟨others, placed, same⟩ := StoredRecord.place?_eq_some_iff.mp placed
      obtain ⟨folder, rfl⟩ : metadataFolder = record.folder ∧ names = others := by
        simpa using same
      have suffix := Deposits.suffix_of_metadataFolder member folder.symm
      exact ⟨record.key, suffix ▸ placed⟩
  words document member := by
    obtain ⟨entry, survives, rfl⟩ := List.mem_map.mp member
    rw [FileTree.wordsRecord?, holds.record?_eq accepted Deposits.isKind_words (by decide),
      Deposits.mem_survivors_iff.mp survives]
    rfl
  records document member := by
    obtain ⟨entry, survives, rfl⟩ := List.mem_map.mp member
    rw [FileTree.documentRecord?, holds.record?_eq accepted Deposits.isKind_record (by decide),
      Deposits.mem_survivors_iff.mp survives]
    rfl
  known key held := by
    rw [FileTree.documentRecord?, holds.record?_eq accepted Deposits.isKind_record (by decide),
      Option.isSome_map] at held
    have member : key ∈ deposits.survivors.keys := by
      rw [Deposits.mem_keys_survivors_iff]
      by_contra absent
      rw [Deposits.latest?_eq_none_iff.mpr absent] at held
      cases held
    rw [List.map_map]
    exact member

end HoldsFiles

/-- Nothing else is in the stores if they were empty at the start. -/
theorem Filed.holdsFiles (filed : index.Filed location start deposits writer tree)
    (cleared : ∀ folder ∈ clearedFolders, start.kind? (location ++ [folder]) = none) :
    HoldsFiles location deposits tree := fun folder member names => by
  rw [filed.files folder member names]
  exact StoredRecord.putAll_congr
    (FileTree.fileAt?_of_none (cleared folder (documentStores_subset member)) names)

/-- What the first pass over files leaves of a prepared tree. -/
theorem Prepared.filed {files : List Path} {progress : Progress} {stored : FileTree}
    (prepared : index.Prepared location tree start) (keeps : classifier.KeepsKeys)
    (steady : AreSteady scheme classifier crawlRoot location start files)
    (indexes : index.addFiles scheme classifier crawlRoot files start = (progress, stored)) :
    progress.failed.reverse = (files.filter fun file =>
        (stored? scheme classifier crawlRoot start file).isNone) ∧
      index.Filed location start (files.filterMap (stored? scheme classifier crawlRoot start))
        progress.writer stored := by
  obtain ⟨failed, filed⟩ := (filed_nil prepared.stands prepared.cleared).foldlM_addFile ⟨_, []⟩
    keeps steady (by exact indexes)
  rw [List.nil_append] at filed
  refine ⟨?_, filed⟩
  rw [failed, List.append_nil, List.reverse_reverse]

/-- What a build deposits can be stored and read again. -/
structure AreSound (deposits : Deposits) : Prop where
  /-- Keys are accepted. -/
  accepted : ∀ entry ∈ deposits, Store.accepts entry.1.key = true
  /-- Numbers of records fit. -/
  fits : ∀ entry ∈ deposits, entry.1.record.Fits
  /-- So do the numbers of lines. -/
  numbered : ∀ entry ∈ deposits, (lines (Text.ofBytesLossy entry.2)).length ≤ Json.max64

/-- Files that both passes go over: none depends on what is stored already, and what there is to
store of them can be read again. -/
structure ArePassable (scheme : KeyScheme) (classifier : Classifier) (crawlRoot : Path)
    (location : Location) (start : FileTree) (files : List Path) : Prop where
  /-- Files do not depend on the passes. -/
  steady : AreSteady scheme classifier crawlRoot location start files
  /-- What is stored is sound. -/
  sound : AreSound (files.filterMap (stored? scheme classifier crawlRoot start))

/-- What is stored of a file of at most 64 bits in size is sound. -/
theorem areSound_of_sizes (scheme : KeyScheme) (keeps : classifier.KeepsKeys) {files : List Path}
    (small : ∀ file ∈ files, ∀ content, start.read file = .ok content →
      content.size ≤ Json.max64) :
    AreSound (files.filterMap (stored? scheme classifier crawlRoot start)) := by
  suffices ∀ entry ∈ files.filterMap (stored? scheme classifier crawlRoot start),
      Store.accepts entry.1.key = true ∧ entry.1.record.Fits ∧
        (lines (Text.ofBytesLossy entry.2)).length ≤ Json.max64 from
    ⟨fun entry member => (this entry member).1, fun entry member => (this entry member).2.1,
      fun entry member => (this entry member).2.2⟩
  intro entry member
  obtain ⟨file, listed, is⟩ := List.mem_filterMap.mp member
  obtain ⟨id, -, readable, accepted, eq⟩ := stored?_eq_some_iff.mp is
  have bound := small file listed _ readable
  rw [eq]
  exact ⟨accepted, IndexedDocument.fits_ofContent keeps file id bound,
    (length_lines_ofBytesLossy_le entry.2).trans bound⟩

/-- The files that a crawl of a prepared tree has listed can be gone over. -/
theorem Prepared.arePassable_crawl {crawler : Crawler}
    (prepared : index.Prepared location tree start)
    (made : index.crawler start crawlRoot = .ok crawler) (keeps : classifier.KeepsKeys)
    (small : index.config.maxFileSize ≤ Json.max64) :
    ArePassable scheme classifier crawlRoot location start (crawler.crawl start) where
  steady file listed changed agrees := by
    have gone : ∀ folder ∈ contentFolders, start.kind? (location ++ [folder]) = none :=
      fun folder member => prepared.cleared folder (contentFolders_subset member)
    exact stored?_congr
      (agrees.read_file gone (Crawler.leadsToFile_crawl prepared.stands.named listed))
  sound := areSound_of_sizes scheme keeps fun _ listed _ readable =>
    (size_le_of_crawl made listed readable).trans small

/-- An index of what was deposited: the stores hold its records, each namespace its postings, and
there are no results of queries. -/
structure HoldsDeposits (index : Index) (location : Location) (deposits : Deposits)
    (built : FileTree) : Prop where
  /-- The index stands. -/
  stands : index.Stands location built
  /-- Records are there. -/
  files : HoldsFiles location deposits built
  /-- The query cache is empty. -/
  noResults : built.kind? (location ++ [queriesFolder]) = none
  /-- The postings of texts are there. -/
  texts : HoldsPostings location textFolder index.threshold
    (deposits.map fun entry => entry.1.textEntry) built
  /-- The postings of class tags are there, in the order of the keys. -/
  tags : ∃ ordered : List IndexedDocument, ordered.Perm (deposits.survivors.map Prod.fst) ∧
    (ordered.map IndexedDocument.key).Pairwise (· < ·) ∧
    HoldsPostings location tagFolder index.threshold (ordered.map IndexedDocument.tagEntry) built

/-- An index of what was deposited, whatever the order was in which documents were added: the stores
hold its records, each namespace its postings, and there are no results of queries. -/
structure HoldsShuffledDeposits (index : Index) (location : Location) (deposits : Deposits)
    (built : FileTree) : Prop where
  /-- The index stands. -/
  stands : index.Stands location built
  /-- Records are there. -/
  files : HoldsFiles location deposits built
  /-- The query cache is empty. -/
  noResults : built.kind? (location ++ [queriesFolder]) = none
  /-- The postings of texts are there. -/
  texts : HoldsShuffled location textFolder index.threshold
    (deposits.map fun entry => entry.1.textEntry) built
  /-- The postings of class tags are there. -/
  tags : HoldsShuffled location tagFolder index.threshold
    ((deposits.survivors.map Prod.fst).map IndexedDocument.tagEntry) built

theorem HoldsDeposits.shuffled (holds : index.HoldsDeposits location deposits tree) :
    index.HoldsShuffledDeposits location deposits tree where
  stands := holds.stands
  files := holds.files
  noResults := holds.noResults
  texts := holds.texts.shuffled
  tags := by
    obtain ⟨ordered, perm, -, tags⟩ := holds.tags
    exact tags.shuffled.perm (perm.map _)

/-- The copies of sound deposits have numbered lines. -/
theorem HoldsShuffledDeposits.hasNumberedCopies
    (holds : index.HoldsShuffledDeposits location deposits tree) (sound : AreSound deposits) :
    HasNumberedCopies location tree := by
  intro key content copied
  rw [FileTree.copy?, holds.files.record?_eq sound.accepted Deposits.isKind_copy (by decide),
    Option.map_eq_some_iff] at copied
  obtain ⟨entry, is, rfl⟩ := copied
  exact sound.numbered entry (Deposits.key_of_latest? is).1

/-- The summary of a build that deposits something of some files and fails for others. -/
def summaryOf (files failed : List Path) (deposits : Deposits) : BuildSummary where
  indexedDocuments := files.length - failed.length
  metadataDocuments := deposits.survivors.length
  failed := failed
  contentTrigrams := (trigramsOf (deposits.map fun entry => entry.1.textEntry)).size
  metadataTrigrams :=
    (trigramsOf ((deposits.survivors.map Prod.fst).map IndexedDocument.tagEntry)).size

/-- Both passes over files leave an index of what there is to store of them, and sum up exactly
that.  All else stays as it is but for the fingerprint. -/
theorem Prepared.passes_over {files : List Path} {summary : BuildSummary} {built : FileTree}
    (prepared : index.Prepared location tree start) (keeps : classifier.KeepsKeys)
    (passable : ArePassable scheme classifier crawlRoot location start files)
    (run : (index.passes scheme classifier crawlRoot files).runOn start = (.ok summary, built)) :
    index.HoldsDeposits location (files.filterMap (stored? scheme classifier crawlRoot start))
        built ∧
      start.AgreesOutside location (formatFile :: clearedFolders) built ∧
      start.AdmitsFile (location ++ [formatFile]) ∧
      built.kind? (location ++ [formatFile]) = some (.file formatFingerprint.toUTF8) ∧
      summary = summaryOf files
        (files.filter fun file => (stored? scheme classifier crawlRoot start file).isNone)
        (files.filterMap (stored? scheme classifier crawlRoot start)) := by
  obtain ⟨progress, stored, texts, run⟩ := TaskM.bind_ok_iff.mp run
  obtain ⟨_, saved, save, run⟩ := TaskM.bind_ok_iff.mp run
  obtain ⟨result, tagged, tags, run⟩ := TaskM.bind_ok_iff.mp run
  obtain ⟨_, formatted, format, run⟩ := TaskM.bind_ok_iff.mp run
  cases run
  rw [TaskM.runOn_lift] at texts
  rcases indexes : index.addFiles scheme classifier crawlRoot files start
    with ⟨progress', stored'⟩
  rw [indexes] at texts
  cases texts
  obtain ⟨failed, filed⟩ := prepared.filed keeps passable.steady indexes
  obtain ⟨accepted, fits, -⟩ := passable.sound
  have holds := filed.holdsFiles prepared.cleared
  obtain ⟨stands, agrees, texts⟩ :=
    filed.stands.saveWriter (by decide) (by decide) filed.postings save
  have holds := holds.of_agrees agrees (by decide)
  obtain ⟨stands, agrees', rfl, ordered, perm, ascending, tags⟩ :=
    stands.buildTags (holds.keepsDocuments accepted)
      Deposits.nodup_key_survivors (Deposits.fits_survivors fits) tags
  obtain ⟨admits, stands, agrees'', mark⟩ := stands.writeFormat format
  have all := (filed.agrees.mono contentFolders_subset).trans
    ((agrees.mono (by decide)).trans (agrees'.mono (by decide)))
  have whole := (all.mono (List.subset_cons_self formatFile _)).trans (agrees''.mono (by simp))
  refine ⟨?_, whole, all.symm.admitsFile (by decide) admits, mark, ?_⟩
  · exact {
      stands
      files := (holds.of_agrees agrees' (by decide)).of_agrees agrees'' (by decide)
      noResults := by
        rw [agrees''.kind?_below (by decide) [], agrees'.kind?_below (by decide) [],
          agrees.kind?_below (by decide) [], filed.agrees.kind?_below (by decide) []]
        exact prepared.cleared _ (by decide)
      texts := (texts.of_agrees agrees' (by decide)).of_agrees agrees'' (by decide)
      tags := ⟨ordered, perm, ascending, tags.of_agrees agrees'' (by decide)⟩ }
  · rw [summaryOf, ← failed, List.length_reverse, filed.postings.size_eq, List.length_map,
      Nat.zero_add]

/-- So do both passes over the files that a crawl has listed. -/
theorem Prepared.passes {crawler : Crawler} {summary : BuildSummary} {built : FileTree}
    (prepared : index.Prepared location tree start)
    (made : index.crawler start crawlRoot = .ok crawler) (keeps : classifier.KeepsKeys)
    (small : index.config.maxFileSize ≤ Json.max64)
    (run : (index.passes scheme classifier crawlRoot (crawler.crawl start)).runOn start =
      (.ok summary, built)) :
    index.HoldsDeposits location
        ((crawler.crawl start).filterMap (stored? scheme classifier crawlRoot start)) built ∧
      start.AgreesOutside location (formatFile :: clearedFolders) built ∧
      start.AdmitsFile (location ++ [formatFile]) ∧
      built.kind? (location ++ [formatFile]) = some (.file formatFingerprint.toUTF8) ∧
      summary = summaryOf (crawler.crawl start)
        ((crawler.crawl start).filter fun file =>
          (stored? scheme classifier crawlRoot start file).isNone)
        ((crawler.crawl start).filterMap (stored? scheme classifier crawlRoot start)) :=
  prepared.passes_over keeps (prepared.arePassable_crawl made keeps small) run

/-- All postings of what was deposited can be written. -/
structure AreWritable (index : Index) (deposits : Deposits) : Prop where
  /-- Those of texts. -/
  texts : PostingsAreWritable textFolder index.threshold
    (deposits.map fun entry => entry.1.textEntry)
  /-- Those of class tags, in the order of the keys. -/
  tags : ∀ ordered : List IndexedDocument, ordered.Perm (deposits.survivors.map Prod.fst) →
    (ordered.map IndexedDocument.key).Pairwise (· < ·) →
      PostingsAreWritable tagFolder index.threshold (ordered.map IndexedDocument.tagEntry)

/-- They can be if some tree holds them. -/
theorem HoldsDeposits.areWritable (holds : index.HoldsDeposits location deposits tree) :
    index.AreWritable deposits where
  texts := holds.texts.areWritable holds.stands.named
  tags _ := HoldsTags.areWritable holds.tags holds.stands.named

theorem length_of_mem_textEntry (document : IndexedDocument) :
    ∀ trigram ∈ document.textEntry.2, trigram.length = 3 := fun _ inside =>
  Trigram.length_of_mem_ofWords inside

theorem length_of_mem_tagEntry (document : IndexedDocument) :
    ∀ trigram ∈ document.tagEntry.2, trigram.length = 3 := fun _ inside =>
  Trigram.length_of_mem_ofWords inside

/-- They can always be, as long as the documents can be counted. -/
theorem areWritable_of_length (index : Index) (few : deposits.length ≤ Json.max64) :
    index.AreWritable deposits where
  texts := postingsAreWritable (isName_of_mem (by decide)) _
    (List.forall_mem_map.mpr fun entry _ => length_of_mem_textEntry entry.1)
    (by rwa [List.length_map])
  tags ordered perm _ := postingsAreWritable (isName_of_mem (by decide)) _
    (List.forall_mem_map.mpr fun document _ => length_of_mem_tagEntry document) (by
      rw [List.length_map, perm.length_eq, List.length_map]
      exact Deposits.survivors_sublist.length_le.trans few)

/-- Both passes succeed if all postings can be written, and the fingerprint. -/
theorem Prepared.exists_passes_over {files : List Path}
    (prepared : index.Prepared location tree start) (keeps : classifier.KeepsKeys)
    (passable : ArePassable scheme classifier crawlRoot location start files)
    (admits : start.AdmitsFile (location ++ [formatFile]))
    (writable : index.AreWritable (files.filterMap (stored? scheme classifier crawlRoot start))) :
    ∃ summary built,
      (index.passes scheme classifier crawlRoot files).runOn start = (.ok summary, built) := by
  obtain ⟨accepted, fits, -⟩ := passable.sound
  rcases indexes : index.addFiles scheme classifier crawlRoot files start
    with ⟨progress, stored⟩
  obtain ⟨-, filed⟩ := prepared.filed keeps passable.steady indexes
  obtain ⟨saved, save⟩ := filed.stands.exists_saved (by decide) (by decide) filed.postings
    writable.texts "Failed to write content postings"
  obtain ⟨stands, agrees, -⟩ :=
    filed.stands.saveWriter (by decide) (by decide) filed.postings save
  have kept :=
    ((filed.holdsFiles prepared.cleared).of_agrees agrees (by decide)).keepsDocuments accepted
  have fits := Deposits.fits_survivors fits
  obtain ⟨summary, tagged, tags⟩ :=
    stands.exists_buildTags kept Deposits.nodup_key_survivors fits writable.tags _
  obtain ⟨stands', agrees', -⟩ := stands.buildTags kept Deposits.nodup_key_survivors fits tags
  have all := (filed.agrees.mono contentFolders_subset).trans
    ((agrees.mono (by decide)).trans (agrees'.mono (by decide)))
  obtain ⟨built, format⟩ := stands'.exists_marked (all.admitsFile (by decide) admits)
  refine ⟨summary, built, TaskM.bind_ok_iff.mpr ⟨progress, stored, ?_, TaskM.bind_ok_iff.mpr
    ⟨(), saved, save, TaskM.bind_ok_iff.mpr ⟨summary, tagged, tags, TaskM.bind_ok_iff.mpr
      ⟨(), built, format, rfl⟩⟩⟩⟩⟩
  rw [TaskM.runOn_lift, indexes]

/-- What a build stores, file by file. -/
def deposited (index : Index) (scheme : KeyScheme) (classifier : Classifier) (crawlRoot : Path)
    (tree : FileTree) : Deposits :=
  (index.crawled crawlRoot tree).filterMap
    (stored? scheme classifier crawlRoot (index.startOf tree))

/-- The stores of documents keep what was stored last under each key. -/
structure Kept (index : Index) (location : Location) (deposits : Deposits) (built : FileTree) :
    Prop where
  /-- The index stands. -/
  stands : index.Stands location built
  /-- Numbers of records fit. -/
  fits : ∀ entry ∈ deposits, entry.1.record.Fits
  /-- Words and records are those of the documents that survive. -/
  keeps : KeepsDocuments location (deposits.survivors.map Prod.fst) built
  /-- So are the copies. -/
  copies : ∀ key, built.copy? location key = (deposits.latest? key).map Prod.snd

/-- A build that succeeds leaves an index of what there is to store of the files that it finds, and
sums up exactly that. -/
theorem holdsDeposits_of_build (hosted : index.IsHosted location tree) (named : tree.WellNamed)
    (keeps : classifier.KeepsKeys) (small : index.config.maxFileSize ≤ Json.max64)
    {summary : BuildSummary} {built : FileTree}
    (run : (index.build scheme classifier crawlRoot).runOn tree = (.ok summary, built)) :
    index.HoldsDeposits location (index.deposited scheme classifier crawlRoot tree) built ∧
      AreSound (index.deposited scheme classifier crawlRoot tree) ∧
      summary = summaryOf (index.crawled crawlRoot tree)
        ((index.crawled crawlRoot tree).filter fun file =>
          (stored? scheme classifier crawlRoot (index.startOf tree) file).isNone)
        (index.deposited scheme classifier crawlRoot tree) := by
  obtain ⟨start, crawler, prepares, made, run⟩ := build_ok_iff.mp run
  obtain rfl : index.startOf tree = start := congrArg Prod.snd prepares
  have prepared := Index.prepared hosted named prepares
  obtain ⟨holds, -, -, -, sums⟩ := prepared.passes made keeps small run
  rw [deposited, crawled_eq made]
  exact ⟨holds, (prepared.arePassable_crawl made keeps small).sound, sums⟩

/-- A build that succeeds keeps what there is to store of the files that it finds, fails for the
others, and counts both files and records. -/
theorem kept_of_build (hosted : index.IsHosted location tree) (named : tree.WellNamed)
    (keeps : classifier.KeepsKeys) (small : index.config.maxFileSize ≤ Json.max64)
    {summary : BuildSummary} {built : FileTree}
    (run : (index.build scheme classifier crawlRoot).runOn tree = (.ok summary, built)) :
    index.Kept location (index.deposited scheme classifier crawlRoot tree) built ∧
      summary.failed = (index.crawled crawlRoot tree).filter (fun file =>
        (stored? scheme classifier crawlRoot (index.startOf tree) file).isNone) ∧
      summary.indexedDocuments =
        (index.crawled crawlRoot tree).length - summary.failed.length ∧
      summary.metadataDocuments =
        (index.deposited scheme classifier crawlRoot tree).survivors.length := by
  obtain ⟨holds, sound, rfl⟩ := holdsDeposits_of_build hosted named keeps small run
  exact ⟨{
      stands := holds.stands
      fits := sound.fits
      keeps := holds.files.keepsDocuments sound.accepted
      copies := holds.files.record?_eq sound.accepted Deposits.isKind_copy (by decide) },
    rfl, rfl, rfl⟩

/-! ## Documents with different keys -/

section Distinct

variable {summary : BuildSummary} {built : FileTree}

/-- What is stored of the files that have not failed are their documents. -/
theorem Builds.map_deposited
    (builds : index.Builds scheme classifier crawlRoot location tree summary built) :
    (index.deposited scheme classifier crawlRoot tree).map Prod.fst =
      index.indexedDocuments scheme classifier crawlRoot tree summary.failed := by
  obtain ⟨-, failures, -⟩ :=
    kept_of_build builds.hosted builds.named builds.keepsKeys builds.sizes builds.succeeds
  rw [deposited, indexedDocuments, documentsOf, List.map_filterMap, List.filterMap_filter]
  refine List.filterMap_congr fun file listed => ?_
  rw [failures]
  cases is : stored? scheme classifier crawlRoot (index.startOf tree) file with
  | none => simp [listed, is]
  | some entry => simp [is, ofFile?_of_stored? is]

/-- Their keys are different, so none takes the place of another one. -/
theorem Builds.nodup_keys
    (builds : index.Builds scheme classifier crawlRoot location tree summary built) :
    (index.deposited scheme classifier crawlRoot tree).keys.Nodup := by
  have same : (index.deposited scheme classifier crawlRoot tree).keys =
      (index.indexedDocuments scheme classifier crawlRoot tree summary.failed).map
        IndexedDocument.key := by
    rw [← builds.map_deposited, List.map_map]
    rfl
  rw [same]
  exact builds.distinct.sublist ((List.filter_sublist.filterMap _).map _)

/-- A build that succeeds leaves the index of the documents that have not failed, and every file
that has not failed is one. -/
theorem Builds.represents
    (builds : index.Builds scheme classifier crawlRoot location tree summary built) :
    index.Represents location
        (index.indexedDocuments scheme classifier crawlRoot tree summary.failed) built ∧
      ∀ file ∈ index.crawled crawlRoot tree, file ∉ summary.failed →
        (IndexedDocument.ofFile? scheme classifier crawlRoot (index.startOf tree) file).isSome := by
  obtain ⟨holds, sound, sums⟩ := holdsDeposits_of_build builds.hosted builds.named builds.keepsKeys
    builds.sizes builds.succeeds
  have all := Deposits.survivors_eq_self builds.nodup_keys
  have distinct : (((index.deposited scheme classifier crawlRoot tree).survivors.map Prod.fst).map
      IndexedDocument.key).Nodup := Deposits.nodup_key_survivors
  have fits := Deposits.fits_survivors sound.fits
  have keeps := holds.files.keepsDocuments sound.accepted
  obtain ⟨ordered, perm, -, tags⟩ := holds.tags
  rw [all] at distinct fits keeps perm
  rw [← builds.map_deposited]
  refine ⟨{
      stands := holds.stands
      distinct
      fits
      keeps
      copies := holds.shuffled.hasNumberedCopies sound
      noResults := holds.noResults
      texts := by
        rw [List.map_map]
        exact holds.texts
      tags := ⟨ordered, perm, tags⟩ }, fun file listed succeeded => ?_⟩
  rw [sums] at succeeded
  cases is : stored? scheme classifier crawlRoot (index.startOf tree) file with
  | none => exact absurd (List.mem_filter.mpr ⟨listed, by simp [is]⟩) succeeded
  | some entry => exact Option.isSome_of_eq_some (ofFile?_of_stored? is)

end Distinct

end Index
end SourceSearch
