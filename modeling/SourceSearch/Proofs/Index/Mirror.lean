import Mathlib.Data.Set.Card
import SourceSearch.Proofs.Postings.Consistency
import SourceSearch.Proofs.Search.Terms
import SourceSearch.Proofs.Search.Unchanged
import SourceSearch.Proofs.Store.Listing

/-!
# Class tags mirror the records

The second pass needs no build before it.  Whatever records there are, readable or not, and whatever
postings of class tags were there before, a pass that succeeds leaves exactly the postings of the
class values of the records that can be read.  A record is counted once for each subfolder that has
an entry of its name.
-/

namespace SourceSearch

/-- A set that is listed without repetition has as many elements as the list. -/
theorem encard_eq_length {α : Type} {s : Set α} {l : List α} (distinct : l.Nodup)
    (same : ∀ a, a ∈ l ↔ a ∈ s) : s.encard = l.length := by
  classical
  have listed : s = (l.toFinset : Set α) := by
    ext a
    rw [Finset.mem_coe, List.mem_toFinset, same]
  rw [listed, Set.encard_coe_eq_coe_finsetCard, List.toFinset_card_of_nodup distinct]

namespace Index

variable {index : Index} {location : Location} {tree before after changed : FileTree}
  {key : DocumentKey} {trigram : Trigram}

/-! ## Records -/

/-- A subfolder of the record folder has an entry that is named like the record of a key. -/
def Files (index : Index) (tree : FileTree) (shard : String) (key : DocumentKey) : Prop :=
  index.metadata.Files tree metadataSuffix shard key

/-- The record of a key can be read, and a trigram is in the lowercase value of one of its
classes. -/
def Carries (index : Index) (tree : FileTree) (key : DocumentKey) (trigram : Trigram) : Prop :=
  ∃ record, index.metadata.load? tree key = some record ∧
    ∃ value ∈ record.classes.values,
      trigram.length = 3 ∧ trigram.toList <:+: (lowercase value).toList

/-- A record that can be read has its name in one subfolder only. -/
def FiledOnce (index : Index) (tree : FileTree) : Prop :=
  ∀ key shard other, (index.metadata.load? tree key).isSome → index.Files tree shard key →
    index.Files tree other key → shard = other

/-- No file for the first generation that readers do not look at. -/
def WithinGenerations (index : Index) (location : Location) (tree : FileTree) (trigram : Trigram) :
    Prop :=
  tree.fileAt? (location ++ tagFolder ::
    Postings.shardPlace trigram index.config.maxShardGenerations) = none

/-- The postings of class tags have nothing to do with what is listed and read of the records: no
link leads from there into their folder. -/
structure RecordsApart (index : Index) (location : Location) (tree : FileTree) : Prop where
  /-- The same entries are listed. -/
  files : ∀ changed : FileTree, changed.WellNamed →
    tree.AgreesOutside location [tagFolder] changed →
      ∀ shard key, index.Files changed shard key ↔ index.Files tree shard key
  /-- The same records are read. -/
  load? : ∀ changed : FileTree, changed.WellNamed →
    tree.AgreesOutside location [tagFolder] changed →
      ∀ key, index.metadata.load? changed key = index.metadata.load? tree key

/-- It is so if there are no links among the records. -/
theorem recordsApart_of_linkless (hosts : tree.Hosts index.root [tagFolder] location)
    (named : tree.WellNamed) (linkless : tree.Linkless location metadataFolder) :
    index.RecordsApart location tree where
  files changed named' agrees shard key := by
    have lies : index.metadata.root = index.root / metadataFolder := rfl
    have plain : IsPlain metadataFolder := (isName_of_mem (by decide)).toIsPlain
    have other : metadataFolder ∉ [tagFolder] := by decide
    obtain ⟨_, found⟩ := hosts.find
    obtain ⟨_, found'⟩ := hosts changed agrees
    rw [Files, Files, Store.files_iff named found linkless plain lies,
      Store.files_iff named' found' (linkless.of_agrees agrees other) plain lies,
      agrees.kind?_below other]
  load? _ _ agrees key :=
    MetadataStore.load?_congr (Store.readsSame_of_linkless hosts agrees (by decide) linkless
      (isName_of_mem (by decide)).toIsPlain rfl (isSuffix_stored (by simp)) key)

/-- A record that can be read has its name in some subfolder. -/
theorem exists_files (hosts : tree.Hosts index.root [tagFolder] location)
    (readable : (index.metadata.load? tree key).isSome) : ∃ shard, index.Files tree shard key := by
  obtain ⟨_, found⟩ := hosts.find
  have given : index.metadata.root.text ≠ "" :=
    Path.join_text_ne_empty (isName_of_mem (by decide) : IsName metadataFolder).toIsPlain
  obtain ⟨record, loads⟩ := Option.isSome_iff_exists.mp readable
  rw [MetadataStore.load?, MetadataStore.load, Store.getRecord] at loads
  cases located : index.metadata.path key metadataSuffix with
  | error failure =>
      rw [located] at loads
      cases loads
  | ok path =>
      simp only [located, bind, Except.bind, FileTree.readRecord?, FileTree.readRecord] at loads
      cases readable : tree.read path with
      | ok content =>
          exact Store.files_of_read given (isSuffix_stored (by simp)) located readable
      | error fault => cases fault <;> simp [readable] at loads

/-- So its key is listed. -/
theorem mem_keys {filings : List (String × DocumentKey)} {keys : List DocumentKey}
    (hosts : tree.Hosts index.root [tagFolder] location)
    (exact : ∀ filing, filing ∈ filings ↔ index.Files tree filing.1 filing.2)
    (perm : (filings.map Prod.snd).Perm keys)
    (readable : (index.metadata.load? tree key).isSome) : key ∈ keys := by
  obtain ⟨shard, files⟩ := exists_files hosts readable
  rw [← perm.mem_iff, List.mem_map]
  exact ⟨(shard, key), (exact _).mpr files, rfl⟩

/-! ## The pass -/

/-- A trigram is a class tag of a record if it is in the lowercase value of a class. -/
theorem mem_tagTrigrams_iff {record : Metadata} :
    trigram ∈ record.tagTrigrams ↔ ∃ value ∈ record.classes.values,
      trigram.length = 3 ∧ trigram.toList <:+: (lowercase value).toList := by
  rw [Metadata.tagTrigrams, Trigram.mem_ofWords_iff]
  simp only [List.mem_map, exists_exists_and_eq_and, Trigram.mem_ofWord_iff]

/-- The keys of the records that can be read, in order. -/
theorem map_fst_tagEntries (keys : List DocumentKey) :
    (index.tagEntries tree keys).map Prod.fst =
      keys.filter fun key => (index.metadata.load? tree key).isSome := by
  induction keys with
  | nil => rfl
  | cons key keys ih =>
      cases loads : index.metadata.load? tree key with
      | none =>
          rw [tagEntries_cons_of_none loads, List.filter_cons_of_neg (by simp [loads]), ih]
      | some record =>
          rw [tagEntries_cons_of_some loads, List.filter_cons_of_pos (by simp [loads]),
            List.map_cons, ih]

theorem isSome_of_carries (carries : index.Carries tree key trigram) :
    (index.metadata.load? tree key).isSome := by
  obtain ⟨record, loads, -⟩ := carries
  exact Option.isSome_of_eq_some loads

/-- Of these, the keys of the records that carry a trigram. -/
theorem keysWith_tagEntries [DecidablePred fun key => index.Carries tree key trigram]
    (keys : List DocumentKey) :
    keysWith (index.tagEntries tree keys) trigram =
      keys.filter fun key => index.Carries tree key trigram := by
  induction keys with
  | nil => rfl
  | cons key keys ih =>
      cases loads : index.metadata.load? tree key with
      | none =>
          have lacks : ¬ index.Carries tree key trigram := by simp [Carries, loads]
          rw [tagEntries_cons_of_none loads, List.filter_cons_of_neg (by simpa using lacks), ih]
      | some record =>
          have same : trigram ∈ record.tagTrigrams ↔ index.Carries tree key trigram := by
            simp [Carries, loads, mem_tagTrigrams_iff]
          rw [tagEntries_cons_of_some loads]
          by_cases has : trigram ∈ record.tagTrigrams
          · rw [List.filter_cons_of_pos (by simpa using same.mp has), ← ih, keysWith,
              List.filter_cons_of_pos (by simpa using has)]
            rfl
          · rw [List.filter_cons_of_neg (by simpa using mt same.mpr has), ← ih, keysWith,
              List.filter_cons_of_neg (by simpa using has)]
            rfl

/-- What a pass that succeeds leaves, by the entries of the record folder. -/
structure Tagged (index : Index) (location : Location) (before : FileTree)
    (filings : List (String × DocumentKey)) (keys : List DocumentKey) (result : BuildSummary)
    (after : FileTree) : Prop where
  /-- No entry is listed twice. -/
  distinct : filings.Nodup
  /-- All are listed. -/
  exact : ∀ filing, filing ∈ filings ↔ index.Files before filing.1 filing.2
  /-- Their keys are gone through in some order. -/
  perm : (filings.map Prod.snd).Perm keys
  /-- Names are proper. -/
  named : after.WellNamed
  /-- Nothing else changes. -/
  agrees : before.AgreesOutside location [tagFolder] after
  /-- The postings are those of the records that can be read. -/
  holds : HoldsPostings location tagFolder index.threshold (index.tagEntries before keys) after
  /-- These records are counted, and so are their trigrams. -/
  counts : result = {
    metadataDocuments := (index.tagEntries before keys).length
    metadataTrigrams := (trigramsOf (index.tagEntries before keys)).size }

theorem exists_tagged (hosts : before.Hosts index.root [tagFolder] location)
    (named : before.WellNamed) (apart : index.RecordsApart location before) {result : BuildSummary}
    (run : (index.buildTags {}).runOn before = (.ok result, after)) :
    ∃ filings keys, index.Tagged location before filings keys result after := by
  obtain ⟨cleared, keys, collected, between, clear, listed, collect, save, rfl⟩ :=
    buildTags_ok_iff.mp run
  -- The old postings are gone, and the records are as before.
  have proper : IsName tagFolder := isName_of_mem (by decide)
  obtain ⟨agrees, named', gone⟩ := FileTree.removeFolder_hosted hosts proper clear
  replace named' := named' named
  have site : Namespace index.root [tagFolder] location tagFolder cleared :=
    ⟨hosts.of_agrees agrees, List.mem_singleton_self _, proper.toIsPlain,
      FileTree.layered_of_none gone⟩
  obtain ⟨filings, distinct, exact, perm⟩ := Store.exists_filings named' listed
  have unchanged : ∀ changed, FileTree.StaysIn location tagFolder 3 cleared changed →
      ∀ key ∈ keys, index.metadata.load? changed key = index.metadata.load? cleared key := by
    intro changed stays key _
    rw [apart.load? changed (stays.named named') (agrees.trans stays.agrees),
      apart.load? cleared named' agrees]
  obtain ⟨stays, postings, counted⟩ := foldlM_addTags [] site unchanged
    (keeps_new (FileTree.fileAt?_of_none gone) _) collect
  have same : index.tagEntries cleared keys = index.tagEntries before keys :=
    tagEntries_congr fun key _ => apart.load? cleared named' agrees key
  rw [List.nil_append, same] at postings
  rw [same, Nat.zero_add] at counted
  obtain ⟨saves, holds⟩ := holdsPostings_of_saveWriter (site.step stays) postings save
  refine ⟨filings, keys, ?_⟩
  exact {
    distinct, perm, holds
    exact := fun filing =>
      (exact filing).trans (apart.files cleared named' agrees filing.1 filing.2)
    named := saves.named (stays.named named')
    agrees := agrees.trans (stays.agrees.trans saves.agrees)
    counts := by rw [counted, postings.size_eq, Nat.zero_add] }

namespace Tagged

variable {filings : List (String × DocumentKey)} {keys : List DocumentKey} {result : BuildSummary}

/-- Keys are listed once for each entry. -/
theorem encard_files (tagged : index.Tagged location before filings keys result after)
    (among : DocumentKey → Bool) :
    {filing : String × DocumentKey | index.Files before filing.1 filing.2 ∧
      among filing.2}.encard = (keys.filter among).length := by
  rw [encard_eq_length (tagged.distinct.filter fun filing => among filing.2) fun filing => by
    simp [tagged.exact], ← (tagged.perm.filter among).length_eq, List.filter_map, List.length_map]
  rfl

/-- Where records that can be read are filed once, their keys are listed once. -/
theorem nodup_filter (tagged : index.Tagged location before filings keys result after)
    (once : index.FiledOnce before) {among : DocumentKey → Bool}
    (readable : ∀ key, among key → (index.metadata.load? before key).isSome) :
    (keys.filter among).Nodup := by
  rw [← (tagged.perm.filter among).nodup_iff, List.filter_map]
  refine (tagged.distinct.filter _).map_on ?_
  rintro ⟨shard, key⟩ member ⟨other, _⟩ member' rfl
  simp only [List.mem_filter, tagged.exact, Function.comp_apply] at member member'
  rw [once key shard other (readable key member.2) member.1 member'.1]

theorem encard_keys (tagged : index.Tagged location before filings keys result after)
    (hosts : before.Hosts index.root [tagFolder] location) (once : index.FiledOnce before)
    {among : DocumentKey → Bool}
    (readable : ∀ key, among key → (index.metadata.load? before key).isSome) :
    {key | among key}.encard = (keys.filter among).length := by
  refine encard_eq_length (tagged.nodup_filter once readable) fun key => ?_
  simp only [List.mem_filter, Set.mem_ofPred_eq, and_iff_right_iff_imp]
  exact fun member => mem_keys hosts tagged.exact tagged.perm (readable key member)

theorem mem_keysWith_iff (tagged : index.Tagged location before filings keys result after)
    (hosts : before.Hosts index.root [tagFolder] location) :
    key ∈ keysWith (index.tagEntries before keys) trigram ↔ index.Carries before key trigram := by
  classical
  rw [keysWith_tagEntries, List.mem_filter, decide_eq_true_eq, and_iff_right_iff_imp]
  rintro ⟨record, loads, -⟩
  exact mem_keys hosts tagged.exact tagged.perm (Option.isSome_of_eq_some loads)

/-- The reader finds the keys that carry a trigram if it goes far enough. -/
theorem mem_documents_iff (tagged : index.Tagged location before filings keys result after)
    (hosts : before.Hosts index.root [tagFolder] location)
    (fits : index.config.maxShardGenerations ≤ Json.max32)
    (within : index.WithinGenerations location after trigram) :
    key ∈ index.tagReader.documents after trigram ↔ index.Carries before key trigram := by
  obtain ⟨_, found⟩ := (hosts.of_agrees tagged.agrees).find
  have plain : IsPlain tagFolder := (isName_of_mem (by decide)).toIsPlain
  have written := tagged.holds.written trigram
  have enough := (written.shard index.config.maxShardGenerations).symm.trans within
  rw [Option.map_eq_none_iff, List.getElem?_eq_none_iff] at enough
  rw [PostingsReader.mem_documents_iff tagged.named found tagged.holds.layered plain rfl written
    fits enough, holds_ledgersOf_iff, tagged.mem_keysWith_iff hosts]

/-- It does so where there is room for all entries with the name of a record that carries it. -/
theorem withinGenerations (tagged : index.Tagged location before filings keys result after)
    (room : {filing : String × DocumentKey | index.Files before filing.1 filing.2 ∧
      index.Carries before filing.2 trigram}.encard ≤
        (index.threshold * index.config.maxShardGenerations : Nat)) :
    index.WithinGenerations location after trigram := by
  classical
  have entries := tagged.encard_files fun key => index.Carries before key trigram
  simp only [decide_eq_true_eq] at entries
  rw [entries, ← keysWith_tagEntries, Nat.cast_le] at room
  rw [WithinGenerations, (tagged.holds.written trigram).shard, ledgersOf,
    List.getElem?_eq_none (length_flush_le_of_keys index.threshold_pos room), Option.map_none]

/-- The readable records are counted with their entries. -/
theorem metadataDocuments_eq (tagged : index.Tagged location before filings keys result after) :
    result.metadataDocuments =
      (keys.filter fun key => (index.metadata.load? before key).isSome).length := by
  rw [tagged.counts, ← map_fst_tagEntries, List.length_map]

/-- The trigrams that records carry are counted. -/
theorem encard_trigrams (tagged : index.Tagged location before filings keys result after)
    (hosts : before.Hosts index.root [tagFolder] location) :
    {trigram | ∃ key, index.Carries before key trigram}.encard = result.metadataTrigrams := by
  rw [tagged.counts]
  refine encard_eq_length (trigramsOf _).nodup fun trigram => ?_
  rw [SortedSet.mem_toList, mem_trigramsOf_iff, Set.mem_ofPred_eq]
  constructor
  · rintro ⟨⟨key, trigrams⟩, member, inside⟩
    exact ⟨key, (tagged.mem_keysWith_iff hosts).mp (SourceSearch.mem_keysWith_iff.mpr
      ⟨trigrams, member, inside⟩)⟩
  · rintro ⟨key, carries⟩
    obtain ⟨trigrams, member, inside⟩ :=
      SourceSearch.mem_keysWith_iff.mp ((tagged.mem_keysWith_iff hosts).mpr carries)
    exact ⟨(key, trigrams), member, inside⟩

/-- The keys that carry a trigram are declared, if each is filed once. -/
theorem getD_declared (tagged : index.Tagged location before filings keys result after)
    (hosts : before.Hosts index.root [tagFolder] location) (once : index.FiledOnce before)
    (few : {key | index.Carries before key trigram}.encard ≤ Json.max64) :
    {key | index.Carries before key trigram}.encard =
      (index.tagReader.declared after trigram).toOption.join.getD 0 := by
  classical
  obtain ⟨_, found⟩ := (hosts.of_agrees tagged.agrees).find
  have plain : IsPlain tagFolder := (isName_of_mem (by decide)).toIsPlain
  have written := tagged.holds.written trigram
  have distinct : ((index.tagEntries before keys).map Prod.fst).Nodup := by
    rw [map_fst_tagEntries]
    exact tagged.nodup_filter once fun _ => id
  have total := (filled_ledgersOf index.threshold_pos distinct trigram).total_flush_eq
  have carriers := tagged.encard_keys hosts once
    fun key (carries : decide (index.Carries before key trigram) = true) =>
      isSome_of_carries (of_decide_eq_true carries)
  simp only [decide_eq_true_eq] at carriers
  rw [← keysWith_tagEntries, ← total] at carriers
  rw [carriers] at few
  have declares : (index.tagReader.declared after trigram).toOption.join.getD 0 = _ :=
    PostingsReader.getD_declared
      (written.read_count tagged.named found tagged.holds.layered plain) (Nat.cast_le.mp few)
  rw [carriers, declares]

end Tagged

/-- The postings of class tags are those of the stored records, and the summary counts them. -/
structure Mirrors (index : Index) (location : Location) (before : FileTree) (result : BuildSummary)
    (after : FileTree) : Prop where
  /-- A key is in the postings of a trigram if its record can be read and carries the trigram. -/
  documents : ∀ trigram, index.WithinGenerations location after trigram → ∀ key,
    key ∈ index.tagReader.documents after trigram ↔ index.Carries before key trigram
  /-- The reader goes as far as it has to, unless more keys carry the trigram than it has room
  for. -/
  within : ∀ trigram, {filing : String × DocumentKey | index.Files before filing.1 filing.2 ∧
      index.Carries before filing.2 trigram}.encard ≤
        (index.threshold * index.config.maxShardGenerations : Nat) →
    index.WithinGenerations location after trigram
  /-- Every entry with the name of a record that can be read counts. -/
  entries : {filing : String × DocumentKey | index.Files before filing.1 filing.2 ∧
    (index.metadata.load? before filing.2).isSome}.encard = result.metadataDocuments
  /-- So the records that can be read are counted, if each is filed once. -/
  records : index.FiledOnce before →
    {key | (index.metadata.load? before key).isSome}.encard = result.metadataDocuments
  /-- Every trigram that some record carries counts. -/
  trigrams : {trigram | ∃ key, index.Carries before key trigram}.encard = result.metadataTrigrams
  /-- The declared number of a trigram is that of the keys whose records carry it, where no
  declared number means none. -/
  declared : index.FiledOnce before → ∀ trigram,
    {key | index.Carries before key trigram}.encard ≤ Json.max64 →
      {key | index.Carries before key trigram}.encard =
        (index.tagReader.declared after trigram).toOption.join.getD 0
  /-- Nothing else changes. -/
  agrees : before.AgreesOutside location [tagFolder] after

/-- A pass that succeeds mirrors the records, whatever was there before. -/
theorem buildTags_mirrors (hosts : before.Hosts index.root [tagFolder] location)
    (named : before.WellNamed) (apart : index.RecordsApart location before)
    (fits : index.config.maxShardGenerations ≤ Json.max32) {result : BuildSummary}
    (run : (index.buildTags {}).runOn before = (.ok result, after)) :
    index.Mirrors location before result after := by
  obtain ⟨filings, keys, tagged⟩ := exists_tagged hosts named apart run
  exact {
    documents := fun trigram within key => tagged.mem_documents_iff hosts fits within
    within := fun trigram room => tagged.withinGenerations room
    entries := by
      rw [tagged.metadataDocuments_eq]
      exact tagged.encard_files fun key => (index.metadata.load? before key).isSome
    records := fun once => by
      rw [tagged.metadataDocuments_eq]
      exact tagged.encard_keys hosts once fun _ => id
    trigrams := tagged.encard_trigrams hosts
    declared := fun once trigram few => tagged.getD_declared hosts once few
    agrees := tagged.agrees }

/-! ## Samples -/

/-- A pass succeeds if its save does. -/
theorem exists_buildTags {cleared : FileTree} {keys : List DocumentKey} {documents trigrams : Nat}
    (clear : index.clearTags.runOn before = (.ok (), cleared))
    (listed : index.metadata.keys cleared = .ok keys)
    (saves : ((saveWriter "Failed to write metadata postings"
      (index.addAllTags keys cleared).1.1).runOn (index.addAllTags keys cleared).2).1.toOption =
        some ())
    (counts : ((index.addAllTags keys cleared).1.2, (index.addAllTags keys cleared).1.1.size) =
      (documents, trigrams)) :
    ∃ result after, (index.buildTags {}).runOn before = (.ok result, after) ∧
      (result.metadataDocuments, result.metadataTrigrams) = (documents, trigrams) := by
  rcases save : (saveWriter "Failed to write metadata postings"
    (index.addAllTags keys cleared).1.1).runOn (index.addAllTags keys cleared).2
    with ⟨failure | ⟨⟩, after⟩
  · rw [save] at saves
    cases saves
  · refine ⟨_, after, buildTags_ok_iff.mpr ⟨cleared, keys, _, _, clear, listed, rfl, save, rfl⟩, ?_⟩
    rw [Nat.zero_add]
    exact counts

/-- A record with one class. -/
def taggedRecord : ByteArray := "[\"abc\",\"a\",\"a\",1,1,\x7b\"k\":\"Tag\"\x7d]".toUTF8

/-- A tree with one record. -/
def recordTree : FileTree :=
  ((sampleTree.put ["index", metadataFolder] (.folder [])).put ["index", metadataFolder, "ab"]
    (.folder [])).put ["index", metadataFolder, "ab", "abc.metadata"] (.file taggedRecord)

/-- There is another one, which is damaged, and something is left in the folder of the postings. -/
def damagedTree : FileTree :=
  ((recordTree.put ["index", metadataFolder, "ab", "abd.metadata"] (.file "x".toUTF8)).put
    ["index", tagFolder] (.folder [])).put ["index", tagFolder, "record"] (.file "x".toUTF8)

/-- There is a namesake of the record in another subfolder. -/
def strayTree : FileTree :=
  (recordTree.put ["index", metadataFolder, "zz"] (.folder [])).put
    ["index", metadataFolder, "zz", "abc.metadata"] (.file "x".toUTF8)

/-- There is a link that leads from the records into the folder of the postings. -/
def linkedRecordTree : FileTree :=
  ((recordTree.put ["index", tagFolder] (.folder [])).put ["index", tagFolder, "record"]
    (.file taggedRecord)).put ["index", metadataFolder, "ab", "abd.metadata"]
      (.link ⟨"/index/inverseMetadataTrigram.index/record"⟩)

theorem keys_damagedTree_erase :
    sampleIndex.metadata.keys (damagedTree.erase ["index", tagFolder]) = .ok ["abc", "abd"] :=
  Store.keys_eq_ok (by decide +kernel : _ = some ["ab"]) (by decide +kernel) (by decide +kernel)

theorem keys_strayTree : sampleIndex.metadata.keys strayTree = .ok ["abc", "abc"] :=
  Store.keys_eq_ok (by decide +kernel : _ = some ["ab", "zz"]) (by decide +kernel)
    (by decide +kernel)

theorem keys_linkedRecordTree : sampleIndex.metadata.keys linkedRecordTree = .ok ["abc", "abd"] :=
  Store.keys_eq_ok (by decide +kernel : _ = some ["ab"]) (by decide +kernel) (by decide +kernel)

theorem keys_linkedRecordTree_erase :
    sampleIndex.metadata.keys (linkedRecordTree.erase ["index", tagFolder]) = .ok ["abc", "abd"] :=
  Store.keys_eq_ok (by decide +kernel : _ = some ["ab"]) (by decide +kernel) (by decide +kernel)

theorem wellNamed_recordTree : recordTree.WellNamed :=
  ((wellNamed_sampleTree.put ["index"] (by decide) FileNode.wellNamed_emptyFolder).put
    ["index", metadataFolder] (by decide) FileNode.wellNamed_emptyFolder).put
    ["index", metadataFolder, "ab"] (by decide) (FileNode.wellNamed_file _)

theorem wellNamed_damagedTree : damagedTree.WellNamed :=
  ((wellNamed_recordTree.put ["index", metadataFolder, "ab"] (by decide)
    (FileNode.wellNamed_file _)).put ["index"] (by decide) FileNode.wellNamed_emptyFolder).put
    ["index", tagFolder] (by decide) (FileNode.wellNamed_file _)

theorem wellNamed_strayTree : strayTree.WellNamed :=
  (wellNamed_recordTree.put ["index", metadataFolder] (by decide)
    FileNode.wellNamed_emptyFolder).put ["index", metadataFolder, "zz"] (by decide)
    (FileNode.wellNamed_file _)

theorem wellNamed_linkedRecordTree : linkedRecordTree.WellNamed :=
  ((wellNamed_recordTree.put ["index"] (by decide) FileNode.wellNamed_emptyFolder).put
    ["index", tagFolder] (by decide) (FileNode.wellNamed_file _)).put
    ["index", metadataFolder, "ab"] (by decide) (FileNode.wellNamed_link _)

theorem linkless_damagedTree : damagedTree.Linkless ["index"] metadataFolder := by
  have bare : sampleTree.Linkless ["index"] metadataFolder :=
    (FileTree.layered_of_none rfl : sampleTree.Layered _ _ 0).linkless
  have filed : recordTree.Linkless ["index"] metadataFolder :=
    ((bare.putEmptyFolder ["index"] rfl rfl).putEmptyFolder ["index", metadataFolder] rfl
      rfl).putFile ["index", metadataFolder, "ab"] rfl rfl _
  exact ((filed.putFile ["index", metadataFolder, "ab"] rfl rfl _).putEmptyFolder ["index"] rfl
    rfl).putFile ["index", tagFolder] rfl rfl _

/-- Of two records one is damaged, and the folder of the postings is not empty. -/
theorem buildTags_mirrors_sample : ∃ result after,
    (sampleIndex.buildTags {}).runOn damagedTree = (.ok result, after) ∧
      (result.metadataDocuments, result.metadataTrigrams) = (1, 1) ∧
      sampleIndex.Mirrors ["index"] damagedTree result after := by
  obtain ⟨result, after, run, counts⟩ : ∃ result after,
      (sampleIndex.buildTags {}).runOn damagedTree = (.ok result, after) ∧
        (result.metadataDocuments, result.metadataTrigrams) = (1, 1) :=
    exists_buildTags rfl keys_damagedTree_erase (by decide +kernel) (by decide +kernel)
  have hosts : damagedTree.Hosts sampleIndex.root [tagFolder] ["index"] := hosts_sampleIndex rfl _
  exact ⟨result, after, run, counts, buildTags_mirrors hosts wellNamed_damagedTree
    (recordsApart_of_linkless hosts wellNamed_damagedTree linkless_damagedTree) (by decide) run⟩

/-- As many records can be read as there are keys, repetitions apart, if that goes for all of
them. -/
theorem encard_readable {keys distinct : List DocumentKey}
    (hosts : tree.Hosts index.root [tagFolder] location) (named : tree.WellNamed)
    (listed : index.metadata.keys tree = .ok keys)
    (all : ∀ key ∈ keys, (index.metadata.load? tree key).isSome) (once : distinct.Nodup)
    (same : ∀ key, key ∈ distinct ↔ key ∈ keys) :
    {key | (index.metadata.load? tree key).isSome}.encard = distinct.length := by
  obtain ⟨filings, -, exact, perm⟩ := Store.exists_filings named listed
  exact encard_eq_length once fun key =>
    (same key).trans ⟨all key, fun readable => mem_keys hosts exact perm readable⟩

/-- A record with a namesake counts twice, and one behind a link does not count if the postings are
cleared from under it. -/
theorem metadataDocuments_ne_readable :
    (∃ result after, (sampleIndex.buildTags {}).runOn strayTree = (.ok result, after) ∧
      result.metadataDocuments = 2 ∧
      {key | (sampleIndex.metadata.load? strayTree key).isSome}.encard = 1) ∧
    ∃ result after, (sampleIndex.buildTags {}).runOn linkedRecordTree = (.ok result, after) ∧
      result.metadataDocuments = 1 ∧
      {key | (sampleIndex.metadata.load? linkedRecordTree key).isSome}.encard = 2 := by
  constructor
  · obtain ⟨result, after, run, counts⟩ : ∃ result after,
        (sampleIndex.buildTags {}).runOn strayTree = (.ok result, after) ∧
          (result.metadataDocuments, result.metadataTrigrams) = (2, 1) :=
      exists_buildTags rfl keys_strayTree (by decide +kernel) (by decide +kernel)
    refine ⟨result, after, run, (Prod.mk.inj counts).1, ?_⟩
    exact encard_readable (hosts_sampleIndex rfl _) wellNamed_strayTree keys_strayTree
      (by decide +kernel) (List.nodup_singleton "abc") (by simp)
  · obtain ⟨result, after, run, counts⟩ : ∃ result after,
        (sampleIndex.buildTags {}).runOn linkedRecordTree = (.ok result, after) ∧
          (result.metadataDocuments, result.metadataTrigrams) = (1, 1) :=
      exists_buildTags rfl keys_linkedRecordTree_erase (by decide +kernel) (by decide +kernel)
    refine ⟨result, after, run, (Prod.mk.inj counts).1, ?_⟩
    exact encard_readable (hosts_sampleIndex rfl _) wellNamed_linkedRecordTree keys_linkedRecordTree
      (by decide +kernel) (by decide : ["abc", "abd"].Nodup) (by simp)

end Index
end SourceSearch
