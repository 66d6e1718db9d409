import SourceSearch.Proofs.Index.Buildable
import SourceSearch.Proofs.Index.Rebuild

/-!
# Files that fail

A file that fails leaves no trace in an index, and the build goes on.  What becomes of the other
files is what becomes of them where the files that fail are not found at all.
-/

namespace SourceSearch
namespace Index

variable {index : Index} {location : Location} {tree other start built : FileTree}
  {scheme : KeyScheme} {classifier : Classifier} {crawlRoot file : Path} {files : List Path}

/-! ## Keys of files -/

/-- The keys of files, as far as their paths lie below the crawl root. -/
def keysOf (scheme : KeyScheme) (crawlRoot : Path) (files : List Path) : List DocumentKey :=
  files.filterMap fun file =>
    (DocumentIdentity.ofPath file crawlRoot scheme).toOption.map DocumentIdentity.key

theorem mem_keysOf {id : DocumentIdentity} (listed : file ∈ files)
    (is : DocumentIdentity.ofPath file crawlRoot scheme = .ok id) :
    id.key ∈ keysOf scheme crawlRoot files :=
  List.mem_filterMap.mpr ⟨file, listed, by rw [is]; rfl⟩

/-- Files are known by their keys if those are different. -/
theorem eq_of_mem_keysOf (distinct : (keysOf scheme crawlRoot files).Nodup) {file' : Path}
    {id id' : DocumentIdentity} (listed : file ∈ files) (listed' : file' ∈ files)
    (is : DocumentIdentity.ofPath file crawlRoot scheme = .ok id)
    (is' : DocumentIdentity.ofPath file' crawlRoot scheme = .ok id') (same : id.key = id'.key) :
    file = file' := by
  induction files with
  | nil => cases listed
  | cons first files ih =>
      -- The first file is one of the two only if it is both, as its key does not come again.
      have fresh {one : Path} {its : DocumentIdentity}
          (is : DocumentIdentity.ofPath one crawlRoot scheme = .ok its) (first_eq : first = one) :
          its.key ∉ keysOf scheme crawlRoot files := by
        subst first_eq
        rw [keysOf, List.filterMap_cons_some (b := its.key) (by rw [is]; rfl)] at distinct
        exact (List.nodup_cons.mp distinct).1
      rcases List.mem_cons.mp listed with first_eq | later
      · rcases List.mem_cons.mp listed' with first_eq' | later'
        · rw [first_eq, first_eq']
        · exact absurd (same ▸ mem_keysOf later' is') (fresh is first_eq.symm)
      · rcases List.mem_cons.mp listed' with first_eq' | later'
        · exact absurd (same ▸ mem_keysOf later is) (fresh is' first_eq'.symm)
        · refine ih (distinct.sublist ?_) later later'
          exact (List.sublist_cons_self first files).filterMap _

/-- The key of a file that fails is not one under which something is stored. -/
theorem not_mem_keys_of_fails (distinct : (keysOf scheme crawlRoot files).Nodup)
    (listed : file ∈ files) (failed : fails scheme crawlRoot start file = true)
    {id : DocumentIdentity} (is : DocumentIdentity.ofPath file crawlRoot scheme = .ok id) :
    id.key ∉ Deposits.keys (files.filterMap (stored? scheme classifier crawlRoot start)) := by
  intro member
  obtain ⟨entry, deposited, key⟩ := Deposits.mem_keys_iff.mp member
  obtain ⟨file', listed', stored⟩ := List.mem_filterMap.mp deposited
  obtain ⟨id', is', -, -, document⟩ := stored?_eq_some_iff.mp stored
  have same : id.key = id'.key := by
    rw [← key, document]
    rfl
  obtain rfl := eq_of_mem_keysOf distinct listed listed' is is' same
  rw [← isNone_stored? scheme classifier, stored] at failed
  cases failed

/-! ## No trace of a key -/

/-- What is not stored under a key is in no postings list. -/
theorem HoldsDeposits.not_mem_documents {deposits : Deposits}
    (holds : index.HoldsDeposits location deposits built) {key : DocumentKey}
    (absent : key ∉ Deposits.keys deposits) {folder : String}
    (member : folder ∈ [textFolder, tagFolder]) {reader : PostingsReader}
    (base : reader.base = index.root / folder) (fits : reader.maxGenerations ≤ Json.max32)
    (trigram : Trigram) : key ∉ reader.documents built trigram := by
  obtain ⟨entries, found⟩ := holds.stands.find
  have plain {folder : String} (member : folder ∈ clearedFolders) : IsPlain folder :=
    (isName_of_mem (mem_ownNames_of_cleared member)).toIsPlain
  intro listed
  rcases List.mem_pair.mp member with rfl | rfl
  · obtain ⟨trigrams, entry, -⟩ := mem_keysWith_iff.mp (holds.texts.mem_keysWith_of_mem
      holds.stands.named found (plain (by decide)) base fits listed)
    obtain ⟨deposit, deposited, same⟩ := List.mem_map.mp entry
    exact absent (Deposits.mem_keys_iff.mpr ⟨deposit, deposited, congrArg Prod.fst same⟩)
  · obtain ⟨ordered, perm, -, tags⟩ := holds.tags
    obtain ⟨trigrams, entry, -⟩ := mem_keysWith_iff.mp (tags.mem_keysWith_of_mem
      holds.stands.named found (plain (by decide)) base fits listed)
    obtain ⟨document, among, same⟩ := List.mem_map.mp entry
    obtain ⟨deposit, survives, rfl⟩ := List.mem_map.mp (perm.mem_iff.mp among)
    exact absent (Deposits.mem_keys_iff.mpr
      ⟨deposit, Deposits.survivors_sublist.subset survives, congrArg Prod.fst same⟩)

/-- It has no record. -/
theorem HoldsDeposits.documentRecord?_eq_none {deposits : Deposits}
    (holds : index.HoldsDeposits location deposits built) (sound : AreSound deposits)
    {key : DocumentKey} (absent : key ∉ Deposits.keys deposits) :
    built.documentRecord? location key = none := by
  rw [FileTree.documentRecord?, holds.files.record?_eq sound.accepted Deposits.isKind_record
    (by decide), Deposits.latest?_eq_none_iff.mpr absent]
  rfl

/-! ## Files that are found -/

/-- A file cannot be read at the start of a build, and nothing that a build stores changes that. -/
def IsUnreadable (index : Index) (location : Location) (tree : FileTree) (file : Path) : Prop :=
  ∀ changed, (index.startOf tree).AgreesOutside location contentFolders changed →
    ∃ fault, changed.read file = .error fault

/-- Files can be gone over if each is one that a build finds or cannot be read. -/
theorem IsBuildable.arePassable (buildable : index.IsBuildable location tree) (scheme : KeyScheme)
    (keeps : classifier.KeepsKeys) (small : index.config.maxFileSize ≤ Json.max64)
    (found : ∀ file ∈ files,
      file ∈ index.crawled crawlRoot tree ∨ index.IsUnreadable location tree file) :
    ArePassable scheme classifier crawlRoot location (index.startOf tree) files := by
  have crawled := buildable.arePassable_crawled keeps small scheme crawlRoot
  have none {changed : FileTree} {file : Path} {fault : Fault}
      (unreadable : changed.read file = .error fault) :
      stored? scheme classifier crawlRoot changed file = none := by
    rw [← Option.isNone_iff_eq_none, isNone_stored?]
    exact fails_of_unreadable unreadable
  obtain ⟨crawler, made⟩ := index.exists_crawler (index.startOf tree) crawlRoot
  refine ⟨fun file listed changed agrees => ?_, areSound_of_sizes scheme keeps
    fun file listed content readable => ?_⟩
  · rcases found file listed with listed | unreadable
    · exact crawled.steady file listed changed agrees
    · obtain ⟨fault, now⟩ := unreadable changed agrees
      obtain ⟨fault', before⟩ := unreadable _ (.refl _ _ _)
      rw [none now, none before]
  · rcases found file listed with listed | unreadable
    · rw [crawled_eq made] at listed
      exact (size_le_of_crawl made listed readable).trans small
    · obtain ⟨fault, before⟩ := unreadable _ (.refl _ _ _)
      rw [readable] at before
      cases before

/-- Indexes with the same settings start with the same. -/
theorem Prepared.config_eq {start' : FileTree} (prepared : index.Prepared location tree start)
    (prepared' : index.Prepared location other start')
    (config : other.kind? (location ++ [Config.fileName]) =
      tree.kind? (location ++ [Config.fileName])) :
    start'.kind? (location ++ [Config.fileName]) = start.kind? (location ++ [Config.fileName]) := by
  by_cases missing : tree.kind? (location ++ [Config.fileName]) = none
  · rw [prepared.initial missing, prepared'.initial (config.trans missing)]
  · rw [(prepared.keeps missing).kind?_below (by decide) [],
      (prepared'.keeps (config ▸ missing)).kind?_below (by decide) [], config]

/-- A build of a buildable index that finds just the files that do not fail, with the same contents,
fails for none and stores the same. -/
theorem IsBuildable.exists_build_of_others (buildable : index.IsBuildable location other)
    (keeps : classifier.KeepsKeys) (small : index.config.maxFileSize ≤ Json.max64)
    (few : files.length ≤ Json.max64)
    (crawls : index.crawled crawlRoot other =
      files.filter fun file => !fails scheme crawlRoot start file)
    (reads : ∀ file ∈ index.crawled crawlRoot other,
      (index.startOf other).read file = start.read file) :
    ∃ summary built, (index.build scheme classifier crawlRoot).runOn other = (.ok summary, built) ∧
      summary.failed = [] ∧
      index.HoldsDeposits location (files.filterMap (stored? scheme classifier crawlRoot start))
        built ∧
      built.kind? (location ++ [formatFile]) = some (.file formatFingerprint.toUTF8) ∧
      built.kind? (location ++ [Config.fileName]) =
        (index.startOf other).kind? (location ++ [Config.fileName]) := by
  have passable := buildable.arePassable_crawled keeps small scheme crawlRoot
  obtain ⟨summary, built, run⟩ :=
    buildable.exists_passes keeps passable (crawls ▸ (List.length_filter_le _ _).trans few)
  obtain ⟨holds, agrees, -, mark, sums⟩ := buildable.prepared.2.1.passes_over keeps passable run
  have stores : ∀ file ∈ index.crawled crawlRoot other,
      stored? scheme classifier crawlRoot (index.startOf other) file =
        stored? scheme classifier crawlRoot start file := fun file listed =>
    stored?_congr (reads file listed)
  refine ⟨summary, built, buildable.build_of_passes run, ?_, ?_, mark,
    agrees.kind?_below (by decide) []⟩
  · rw [sums, summaryOf, List.filter_eq_nil_iff]
    intro file listed
    rw [stores file listed, isNone_stored?]
    rw [crawls, List.mem_filter] at listed
    simpa using listed.2
  · rw [List.filterMap_congr stores, crawls, filterMap_stored?] at holds
    exact holds

/-- What both passes over files come to, whichever of them fail. -/
structure Isolates (index : Index) (scheme : KeyScheme) (classifier : Classifier)
    (crawlRoot : Path) (location : Location) (tree : FileTree) (files : List Path)
    (summary : BuildSummary) (built : FileTree) : Prop where
  /-- The files that fail are named in their order. -/
  failed : summary.failed = files.filter (fails scheme crawlRoot (index.startOf tree))
  /-- All others are counted. -/
  counted : summary.indexedDocuments + summary.failed.length = files.length
  /-- So are the different trigrams of their texts. -/
  trigrams : summary.contentTrigrams =
    (trigramsOf ((index.documentsOf scheme classifier crawlRoot tree
      (files.filter fun file => !fails scheme crawlRoot (index.startOf tree) file)).map
        IndexedDocument.textEntry)).size
  /-- Under the key of a file that fails there is no record. -/
  noRecord : ∀ file ∈ summary.failed, ∀ id,
    DocumentIdentity.ofPath file crawlRoot scheme = .ok id →
      built.documentRecord? location id.key = none
  /-- No postings list of either namespace has the key. -/
  noPostings : ∀ file ∈ summary.failed, ∀ id,
    DocumentIdentity.ofPath file crawlRoot scheme = .ok id →
      ∀ folder ∈ [textFolder, tagFolder], ∀ reader : PostingsReader,
        reader.base = index.root / folder → reader.maxGenerations ≤ Json.max32 →
          ∀ trigram, id.key ∉ reader.documents built trigram
  /-- A build that finds just the other files, in a tree that has them, comes to the same index. -/
  alike : ∀ other, index.IsBuildable location other →
    other.kind? (location ++ [Config.fileName]) = tree.kind? (location ++ [Config.fileName]) →
    index.crawled crawlRoot other =
      files.filter (fun file => !fails scheme crawlRoot (index.startOf tree) file) →
    (∀ file ∈ index.crawled crawlRoot other,
      (index.startOf other).read file = (index.startOf tree).read file) →
    ∃ summary' built',
      (index.build scheme classifier crawlRoot).runOn other = (.ok summary', built') ∧
        summary'.failed = [] ∧ index.SameIndex location built built'

/-- **A file that fails fails alone.**  Of some files with different keys let each be one that the
crawl of a buildable index finds, or one that cannot be read.  Both passes over them succeed, and so
does the build if they are all that its crawl finds; and those that fail leave no trace but their
names in the summary. -/
theorem failures_isolated (buildable : index.IsBuildable location tree) (scheme : KeyScheme)
    (keeps : classifier.KeepsKeys) (small : index.config.maxFileSize ≤ Json.max64)
    (found : ∀ file ∈ files,
      file ∈ index.crawled crawlRoot tree ∨ index.IsUnreadable location tree file)
    (few : files.length ≤ Json.max64) (distinct : (keysOf scheme crawlRoot files).Nodup) :
    ∃ summary built,
      (index.passes scheme classifier crawlRoot files).runOn (index.startOf tree) =
        (.ok summary, built) ∧
      (files = index.crawled crawlRoot tree →
        (index.build scheme classifier crawlRoot).runOn tree = (.ok summary, built)) ∧
      index.Isolates scheme classifier crawlRoot location tree files summary built := by
  have passable := buildable.arePassable scheme keeps small found
  obtain ⟨-, prepared, -⟩ := buildable.prepared
  obtain ⟨summary, built, run⟩ := buildable.exists_passes keeps passable few
  obtain ⟨holds, agrees, -, mark, sums⟩ := prepared.passes_over keeps passable run
  have failed : summary.failed = files.filter (fails scheme crawlRoot (index.startOf tree)) := by
    rw [sums, summaryOf]
    exact List.filter_congr fun file _ => isNone_stored? _ _ _ _ file
  have absent {file : Path} (member : file ∈ summary.failed) {id : DocumentIdentity}
      (is : DocumentIdentity.ofPath file crawlRoot scheme = .ok id) :
      id.key ∉ Deposits.keys
        (files.filterMap (stored? scheme classifier crawlRoot (index.startOf tree))) := by
    rw [failed, List.mem_filter] at member
    exact not_mem_keys_of_fails distinct member.1 member.2 is
  refine ⟨summary, built, run, fun all => buildable.build_of_passes (all ▸ run), {
    failed
    counted := ?_
    trigrams := ?_
    noRecord := fun file member id is =>
      holds.documentRecord?_eq_none passable.sound (absent member is)
    noPostings := fun file member id is folder inside reader base fits =>
      holds.not_mem_documents (absent member is) inside base fits
    alike := fun other buildable' config crawls reads => ?_ }⟩
  · have part : summary.failed.length ≤ files.length := failed ▸ List.length_filter_le _ _
    have counted : summary.indexedDocuments = files.length - summary.failed.length := by
      rw [sums, summaryOf]
    omega
  · rw [documentsOf, ← map_filterMap_stored?, List.map_map, sums]
    rfl
  · obtain ⟨summary', built', build, clean, holds', mark', kept⟩ :=
      buildable'.exists_build_of_others keeps small few crawls reads
    refine ⟨summary', built', build, clean, holds.same holds'
      (List.forall_mem_cons.mpr ⟨?_, List.forall_mem_singleton.mpr (mark'.trans mark.symm)⟩)⟩
    rw [agrees.kind?_below (by decide) [], kept, prepared.config_eq buildable'.prepared.2.1 config]

/-! ## A sample -/

/-- The sample with a second source file and one that may not be opened. -/
def mixedTree : FileTree :=
  (sampleTree.put ["src", "b.java"] (.file "abd".toUTF8)).put ["src", "c.java"] (.sealed 3)

/-- The keys of the sample, where that of the second file is refused. -/
def pickyScheme : KeyScheme where
  key relativePath := if relativePath = "b.java" then "x" else "ab" ++ relativePath

/-- The files that the crawl of it finds. -/
def mixedFiles : List Path := [⟨"/src/a.java"⟩, ⟨"/src/b.java"⟩, ⟨"/src/c.java"⟩]

theorem isBuildable_mixedTree : sampleIndex.IsBuildable ["index"] mixedTree :=
  isBuildable_sampleIndex_of
    ((wellNamed_sampleTree.put ["src"] (by decide) (FileNode.wellNamed_file _)).put ["src"]
      (by decide) (FileNode.wellNamed_sealed _)) rfl (by decide)

theorem crawled_mixedTree : sampleIndex.crawled ⟨"/src"⟩ mixedTree = mixedFiles := by
  obtain ⟨crawler, made, files⟩ : ∃ crawler,
      sampleIndex.crawler (sampleIndex.startOf mixedTree) ⟨"/src"⟩ = .ok crawler ∧
        crawler.files (sampleIndex.startOf mixedTree) = mixedFiles :=
    ⟨_, rfl, by decide +kernel⟩
  rw [crawled_eq made, Crawler.crawl, files]
  exact List.mergeSort_of_pairwise (by decide +kernel)

theorem crawled_sampleTree : sampleIndex.crawled ⟨"/src"⟩ sampleTree = [⟨"/src/a.java"⟩] := by
  obtain ⟨crawler, made, files⟩ : ∃ crawler,
      sampleIndex.crawler (sampleIndex.startOf sampleTree) ⟨"/src"⟩ = .ok crawler ∧
        crawler.files (sampleIndex.startOf sampleTree) = [⟨"/src/a.java"⟩] :=
    ⟨_, rfl, by decide +kernel⟩
  rw [crawled_eq made, Crawler.crawl, files]
  exact List.mergeSort_of_pairwise (List.pairwise_singleton _ _)

/-- Nothing stands where one more file would be, whatever a build stores. -/
theorem isUnreadable_mixedTree : sampleIndex.IsUnreadable ["index"] mixedTree ⟨"/src/d.java"⟩ := by
  intro changed agrees
  have kept {place : Location} (outside : ¬ ["index"] <+: place) :
      changed.kind? place = mixedTree.kind? place := by
    rw [agrees.2 place fun name _ inside => outside ((List.prefix_append _ [name]).trans inside),
      isBuildable_mixedTree.prepared.2.1.agrees.2 place fun name _ inside =>
        outside ((List.prefix_append _ [name]).trans inside)]
  have folder : changed.kind? ["src"] = some .folder := (kept (by decide)).trans rfl
  have vacant : changed.kind? ["src", "d.java"] = none := (kept (by decide)).trans rfl
  have proper : FileTree.IsLookedUp "src" ∧ FileTree.IsLookedUp "d.java" :=
    ⟨⟨by decide, by decide, by decide⟩, by decide, by decide, by decide⟩
  have walk : changed.resolve ⟨"/src/d.java"⟩ true = .ok (.vacant ["src"] "d.java") := by
    rw [FileTree.resolve_of_isSound _ ⟨by decide, by decide⟩]
    change changed.walkWithin true maxLinks [] ["src", "d.java"] = _
    rw [FileTree.walkWithin_step maxLinks proper.1 folder (by simp)]
    exact FileTree.walkWithin_missing maxLinks folder proper.2 vacant []
  exact ⟨.missing, by rw [FileTree.read, FileTree.find, walk]⟩

/-- The second file fails as its key is refused, the third one as it may not be opened, and so does
a fourth one that is not there; the first one is indexed as it is alone. -/
theorem failures_isolated_sample : ∃ summary built summary' built' summary'' built'',
    (sampleIndex.build pickyScheme .standard ⟨"/src"⟩).runOn mixedTree = (.ok summary, built) ∧
    summary.failed = [⟨"/src/b.java"⟩, ⟨"/src/c.java"⟩] ∧
    (sampleIndex.build pickyScheme .standard ⟨"/src"⟩).runOn sampleTree = (.ok summary', built') ∧
    sampleIndex.SameIndex ["index"] built built' ∧
    (sampleIndex.passes pickyScheme .standard ⟨"/src"⟩ (mixedFiles ++ [⟨"/src/d.java"⟩])).runOn
        (sampleIndex.startOf mixedTree) = (.ok summary'', built'') ∧
    summary''.failed = [⟨"/src/b.java"⟩, ⟨"/src/c.java"⟩, ⟨"/src/d.java"⟩] := by
  have distinct : (keysOf pickyScheme ⟨"/src"⟩ (mixedFiles ++ [⟨"/src/d.java"⟩])).Nodup := by
    decide +kernel
  obtain ⟨summary, built, -, build, isolates⟩ := failures_isolated isBuildable_mixedTree
    pickyScheme Classifier.keepsKeys_standard (by decide)
    (fun file listed => .inl (crawled_mixedTree ▸ listed)) (by decide)
    (distinct.sublist ((List.sublist_append_left _ _).filterMap _))
  have found : ∀ file ∈ mixedFiles ++ [⟨"/src/d.java"⟩],
      file ∈ sampleIndex.crawled ⟨"/src"⟩ mixedTree ∨
        sampleIndex.IsUnreadable ["index"] mixedTree file := by
    rw [crawled_mixedTree, List.forall_mem_append]
    exact ⟨fun file listed => .inl listed,
      List.forall_mem_singleton.mpr (.inr isUnreadable_mixedTree)⟩
  obtain ⟨summary'', built'', passes, -, isolates''⟩ := failures_isolated isBuildable_mixedTree
    pickyScheme Classifier.keepsKeys_standard (by decide) found (by decide) distinct
  obtain ⟨summary', built', build', -, same⟩ := isolates.alike sampleTree
    isBuildable_sampleIndex rfl (by rw [crawled_sampleTree]; decide +kernel)
    (by rw [crawled_sampleTree]; decide +kernel)
  refine ⟨summary, built, summary', built', summary'', built'', build crawled_mixedTree.symm, ?_,
    build', same, passes, ?_⟩
  · rw [isolates.failed]
    decide +kernel
  · rw [isolates''.failed]
    decide +kernel

end Index
end SourceSearch
