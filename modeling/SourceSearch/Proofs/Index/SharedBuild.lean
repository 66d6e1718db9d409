import SourceSearch.Proofs.Index.AtWork
import SourceSearch.Proofs.Index.Collector

/-!
# Builds by several threads

A build does its first pass with as many threads as the settings ask for, and each writer has its
own threads that write shards.  Whatever the order is in which all these go on, the build comes to
what a build comes to that does one thing after another: the same summary, the same records, the
same documents under each trigram, and the same counts.  Only which documents of a trigram share a
shard may differ.
-/

namespace SourceSearch

/-- One thread saves, until all have returned. -/
def SharedWriter.Saves {threads workers : Nat} (threshold : Nat) (workerOf : Trigram → Fin workers)
    (base : Path) (writer done : SharedWriter threads workers) : Prop :=
  ∃ saver told, (writer.call saver .save).Run threshold workerOf base told done ∧ done.Returned

/-- A pool goes along with a save. -/
theorem SharedWriter.Saves.flushesBy {threads workers threshold : Nat}
    {workerOf : Trigram → Fin workers} {base : Path} {writer done : SharedWriter threads workers}
    {pool : FlushPool threads workers} (flushes : writer.FlushesBy base pool)
    (saves : writer.Saves threshold workerOf base done) :
    ∃ events next, pool.OrderlyRun workerOf events next ∧ done.FlushesBy base next := by
  obtain ⟨saver, told, run, -⟩ := saves
  exact run.flushesBy (flushes.assign saver [.save])

namespace Index

/-- The first pass over files: threads store them, until all are stored or have failed, and then one
of them saves. -/
structure SharedTexts (index : Index) (scheme : KeyScheme) (classifier : Classifier)
    (crawlRoot : Path) (threads : Nat) (files : List Path) (start : FileTree) where
  /-- Each trigram has its worker. -/
  workerOf : Trigram → Fin index.config.workers
  /-- The threads when the last file is done. -/
  crew : Crew threads index.config.workers
  /-- They have come there step by step. -/
  run : ∃ told, (Crew.start files start).Run index scheme classifier crawlRoot workerOf told crew
  /-- All is done. -/
  finished : crew.Finished
  /-- The writer after the save. -/
  done : SharedWriter threads index.config.workers
  /-- It has been saved. -/
  saves : crew.writer.Saves index.threshold workerOf (index.root / textFolder) done

/-- The second pass: one thread collects the class tags of all records, and then saves. -/
structure SharedTags (index : Index) (before : FileTree) where
  /-- The files when the old postings are removed. -/
  cleared : FileTree
  /-- They are removed. -/
  clears : index.clearTags.runOn before = (.ok (), cleared)
  /-- The keys of the records. -/
  keys : List DocumentKey
  /-- They are listed. -/
  lists : index.metadata.keys cleared = .ok keys
  /-- Each trigram has its worker. -/
  workerOf : Trigram → Fin index.config.workers
  /-- The thread when the last record is done. -/
  collector : Collector index.config.workers
  /-- It has come there step by step. -/
  run : ∃ told, (Collector.start keys cleared).Run index workerOf told collector
  /-- All is done. -/
  finished : collector.Finished
  /-- The writer after the save. -/
  done : SharedWriter 1 index.config.workers
  /-- It has been saved. -/
  saves : collector.writer.Saves index.threshold workerOf (index.root / tagFolder) done

/-- A build by several threads, none of whose writes fails. -/
structure SharedBuild (index : Index) (scheme : KeyScheme) (classifier : Classifier)
    (crawlRoot : Path) (tree : FileTree) where
  /-- The number of threads that index files. -/
  threads : Nat
  /-- It is what the settings ask for. -/
  asked : ∀ count, index.config.threads? = some count → threads = count
  /-- The files before the first pass. -/
  start : FileTree
  /-- The index is prepared. -/
  prepares : index.prepare.runOn tree = (.ok (), start)
  /-- Lists the files. -/
  crawler : Crawler
  /-- It stays out of the index. -/
  made : index.crawler start crawlRoot = .ok crawler
  /-- The first pass. -/
  texts : index.SharedTexts scheme classifier crawlRoot threads (crawler.crawl start) start
  /-- The second pass. -/
  tags : index.SharedTags texts.done.pool.tree
  /-- The files in the end. -/
  built : FileTree
  /-- The fingerprint is written last. -/
  marks : index.writeFormat.runOn tags.done.pool.tree = (.ok (), built)

namespace SharedBuild

variable {index : Index} {scheme : KeyScheme} {classifier : Classifier} {crawlRoot : Path}
  {tree : FileTree}

/-- The files that have failed, in the order in which they were listed. -/
def failed (shared : index.SharedBuild scheme classifier crawlRoot tree) : List Path :=
  (shared.crawler.crawl shared.start).filter (· ∈ shared.texts.crew.failed)

/-- What it sums up. -/
def summary (shared : index.SharedBuild scheme classifier crawlRoot tree) : BuildSummary where
  indexedDocuments := (shared.crawler.crawl shared.start).length - shared.failed.length
  metadataDocuments := shared.tags.collector.entries.length
  failed := shared.failed
  contentTrigrams := shared.texts.done.collection.handles.size
  metadataTrigrams := shared.tags.done.collection.handles.size

end SharedBuild

variable {index : Index} {location : Location} {scheme : KeyScheme} {classifier : Classifier}
  {crawlRoot : Path} {threads : Nat} {files : List Path} {tree start before after : FileTree}
  {deposits : Deposits}

/-! ## What the passes come to -/

/-- The pools of both passes can do what the writers do, and meet no failure. -/
theorem SharedTexts.flushesBy
    (texts : index.SharedTexts scheme classifier crawlRoot threads files start) :
    ∃ events pool,
      (FlushPool.start (index.root / textFolder) start).OrderlyRun texts.workerOf events pool ∧
        texts.done.FlushesBy (index.root / textFolder) pool := by
  obtain ⟨told, run⟩ := texts.run
  obtain ⟨events, between, first, flushes⟩ :=
    run.flushesBy (SharedWriter.flushesBy_start (fun _ => []) start _)
  obtain ⟨more, pool, second, flushes⟩ := texts.saves.flushesBy flushes
  exact ⟨_, pool, first.trans second, flushes⟩

theorem SharedTags.flushesBy (tags : index.SharedTags before) :
    ∃ events pool,
      (FlushPool.start (index.root / tagFolder) tags.cleared).OrderlyRun tags.workerOf events
          pool ∧
        tags.done.FlushesBy (index.root / tagFolder) pool := by
  obtain ⟨told, run⟩ := tags.run
  obtain ⟨events, between, first, flushes⟩ :=
    run.flushesBy (SharedWriter.flushesBy_start (fun _ => []) tags.cleared _)
  obtain ⟨more, pool, second, flushes⟩ := tags.saves.flushesBy flushes
  exact ⟨_, pool, first.trans second, flushes⟩

/-- What the first pass over files leaves. -/
structure SharedTexts.Leaves
    (texts : index.SharedTexts scheme classifier crawlRoot threads files start)
    (location : Location) : Prop where
  /-- The index stands. -/
  stands : index.Stands location texts.done.pool.tree
  /-- Nothing changes outside of these folders. -/
  agrees : start.AgreesOutside location contentFolders texts.done.pool.tree
  /-- The stores hold what there is to store of the files. -/
  stores : HoldsFiles location (files.filterMap (stored? scheme classifier crawlRoot start))
    texts.done.pool.tree
  /-- The postings are there. -/
  postings : HoldsShuffled location textFolder index.threshold
    ((files.filterMap (stored? scheme classifier crawlRoot start)).map fun entry =>
      entry.1.textEntry) texts.done.pool.tree
  /-- Those have failed of which there is nothing to store. -/
  failed : ∀ file ∈ files,
    file ∈ texts.crew.failed ↔ (stored? scheme classifier crawlRoot start file).isNone
  /-- The writer knows the trigrams. -/
  trigrams : texts.done.collection.handles.size =
    (trigramsOf ((files.filterMap (stored? scheme classifier crawlRoot start)).map fun entry =>
      entry.1.textEntry)).size

theorem SharedTexts.leaves
    (texts : index.SharedTexts scheme classifier crawlRoot threads files start)
    (prepared : index.Prepared location tree start)
    (steady : AreSteady scheme classifier crawlRoot location start files)
    (distinct : Deposits.keys
      (files.filterMap (stored? scheme classifier crawlRoot start)) |>.Nodup) :
    texts.Leaves location := by
  obtain ⟨told, run⟩ := texts.run
  obtain ⟨saver, told', save, returned⟩ := texts.saves
  have work := (Crew.atWork_start prepared texts.workerOf files).run steady distinct run
  have all := (work.perm_deposits texts.finished).map fun entry => entry.1.textEntry
  obtain ⟨stays, postings, trigrams⟩ :=
    (work.collecting.perm all).saved texts.finished.returned save returned
  exact {
    stands := work.stands.step (by decide) stays
    agrees := work.agrees.trans (stays.agrees.mono (by decide))
    stores := (work.holdsFiles texts.finished distinct).of_agrees stays.agrees (by decide)
    postings
    failed := fun file listed => work.mem_failed_iff texts.finished listed
    trigrams }

/-- What the second pass leaves. -/
structure SharedTags.Leaves (tags : index.SharedTags before) (location : Location)
    (documents : List IndexedDocument) : Prop where
  /-- The index stands. -/
  stands : index.Stands location tags.done.pool.tree
  /-- Nothing else changes. -/
  agrees : before.AgreesOutside location [tagFolder] tags.done.pool.tree
  /-- The postings are there. -/
  postings : HoldsShuffled location tagFolder index.threshold
    (documents.map IndexedDocument.tagEntry) tags.done.pool.tree
  /-- All documents are counted. -/
  counted : tags.collector.entries.length = documents.length
  /-- The writer knows the trigrams. -/
  trigrams : tags.done.collection.handles.size =
    (trigramsOf (documents.map IndexedDocument.tagEntry)).size

theorem SharedTags.leaves {documents : List IndexedDocument} (tags : index.SharedTags before)
    (stands : index.Stands location before) (keeps : KeepsDocuments location documents before)
    (distinct : (documents.map IndexedDocument.key).Nodup)
    (fits : ∀ document ∈ documents, document.record.Fits) : tags.Leaves location documents := by
  obtain ⟨told, run⟩ := tags.run
  obtain ⟨saver, told', save, returned⟩ := tags.saves
  obtain ⟨stands, agrees, gone⟩ := stands.clearTags tags.clears
  obtain ⟨⟨ordered, -, perm, -, listed⟩, steady⟩ :=
    (keeps.of_agrees agrees (by decide)).listed stands distinct fits tags.lists
  have member : tagFolder ∈ clearedFolders := by decide
  have work := (Collector.atWork_start (stands.site member (by decide)) stands.named
    (FileTree.fileAt?_of_none gone) tags.keys tags.workerOf).run steady run
  have all : tags.collector.entries.Perm (documents.map IndexedDocument.tagEntry) := by
    refine (List.reverse_perm _).symm.trans ?_
    rw [work.reverse_entries tags.finished, listed]
    exact perm.map _
  obtain ⟨stays, postings, trigrams⟩ :=
    (work.collecting.perm all).saved tags.finished.returned save returned
  have stays := work.stays.trans stays
  exact {
    stands := stands.step member stays
    agrees := agrees.trans stays.agrees
    postings
    counted := all.length_eq.trans (List.length_map _)
    trigrams }

/-! ## What a build comes to -/

/-- A build by several threads leaves an index of what there is to store of the files that it finds,
and sums up exactly that. -/
theorem SharedBuild.holds (shared : index.SharedBuild scheme classifier crawlRoot tree)
    (hosted : index.IsHosted location tree) (named : tree.WellNamed) (keeps : classifier.KeepsKeys)
    (small : index.config.maxFileSize ≤ Json.max64)
    (distinct : (index.deposited scheme classifier crawlRoot tree).keys.Nodup) :
    index.HoldsShuffledDeposits location (index.deposited scheme classifier crawlRoot tree)
        shared.built ∧
      (index.startOf tree).AgreesOutside location (formatFile :: clearedFolders) shared.built ∧
      shared.built.kind? (location ++ [formatFile]) = some (.file formatFingerprint.toUTF8) ∧
      shared.summary = summaryOf (index.crawled crawlRoot tree)
        ((index.crawled crawlRoot tree).filter fun file =>
          (stored? scheme classifier crawlRoot (index.startOf tree) file).isNone)
        (index.deposited scheme classifier crawlRoot tree) := by
  obtain ⟨threads, -, start, prepares, crawler, made, texts, tags, built, marks⟩ := shared
  obtain rfl : index.startOf tree = start := congrArg Prod.snd prepares
  have prepared := Index.prepared hosted named prepares
  rw [deposited, crawled_eq made] at distinct ⊢
  have passable : ArePassable scheme classifier crawlRoot location (index.startOf tree)
      (crawler.crawl (index.startOf tree)) := prepared.arePassable_crawl made keeps small
  have first := texts.leaves prepared passable.steady distinct
  have second := tags.leaves first.stands (first.stores.keepsDocuments passable.sound.accepted)
    Deposits.nodup_key_survivors (Deposits.fits_survivors passable.sound.fits)
  obtain ⟨-, stands, agrees, mark⟩ := second.stands.writeFormat marks
  have all := (first.agrees.mono contentFolders_subset).trans (second.agrees.mono (by decide))
  have whole := (all.mono (List.subset_cons_self formatFile _)).trans (agrees.mono (by simp))
  refine ⟨{
      stands
      files := (first.stores.of_agrees second.agrees (by decide)).of_agrees agrees (by decide)
      noResults := by
        rw [agrees.kind?_below (by decide) [], second.agrees.kind?_below (by decide) [],
          first.agrees.kind?_below (by decide) []]
        exact prepared.cleared _ (by decide)
      texts := (first.postings.of_agrees second.agrees (by decide)).of_agrees agrees (by decide)
      tags := second.postings.of_agrees agrees (by decide) }, whole, mark, ?_⟩
  have failed : (crawler.crawl (index.startOf tree)).filter (· ∈ texts.crew.failed) =
      (crawler.crawl (index.startOf tree)).filter fun file =>
        (stored? scheme classifier crawlRoot (index.startOf tree) file).isNone :=
    List.filter_congr fun file listed => by
      rw [Bool.eq_iff_iff, decide_eq_true_eq]
      exact first.failed file listed
  rw [SharedBuild.summary, SharedBuild.failed, summaryOf, failed, first.trigrams, second.trigrams,
    second.counted, List.length_map]

/-! ## The same index -/

/-- Two trees hold the same index but for the shards in which the documents of a trigram are: the
same documents, the same postings and counts, the same settings, and no results of queries. -/
structure AlikeIndex (index : Index) (location : Location) (first second : FileTree) : Prop where
  /-- All copies, extractions and records are the same. -/
  files : ∀ folder ∈ documentStores, ∀ names,
    second.fileAt? (location ++ folder :: names) = first.fileAt? (location ++ folder :: names)
  /-- The counts of every trigram of either namespace are the same. -/
  counts : ∀ folder ∈ [textFolder, tagFolder], ∀ trigram : Trigram, 3 ≤ trigram.length →
    second.fileAt? (location ++ folder :: Postings.countPlace trigram) =
      first.fileAt? (location ++ folder :: Postings.countPlace trigram)
  /-- There are as many shards. -/
  shards : ∀ folder ∈ [textFolder, tagFolder], ∀ trigram : Trigram, 3 ≤ trigram.length →
    ∀ generation,
      (second.fileAt? (location ++ folder :: Postings.shardPlace trigram generation)).isSome =
        (first.fileAt? (location ++ folder :: Postings.shardPlace trigram generation)).isSome
  /-- Readers that admit all of them find the same documents. -/
  documents : ∀ folder ∈ [textFolder, tagFolder], ∀ trigram : Trigram, 3 ≤ trigram.length →
    ∀ reader : PostingsReader, reader.base = index.root / folder →
      reader.maxGenerations ≤ Json.max32 →
      first.fileAt? (location ++ folder :: Postings.shardPlace trigram reader.maxGenerations) =
        none → reader.documents second trigram = reader.documents first trigram
  /-- Settings and fingerprint are the same. -/
  settings : ∀ name ∈ settingFiles,
    second.kind? (location ++ [name]) = first.kind? (location ++ [name])
  /-- The query cache of the one is empty. -/
  noResults : first.kind? (location ++ [queriesFolder]) = none
  /-- So is that of the other. -/
  noResults' : second.kind? (location ++ [queriesFolder]) = none

/-- Wherever the same documents were added, in whatever order, readers that admit all shards find
the same. -/
theorem documents_eq_of_holdsShuffled {first second : FileTree} {folder : String}
    {entries : List PostingsEntry} (stands : index.Stands location first)
    (stands' : index.Stands location second) (plain : IsPlain folder)
    (holds : HoldsShuffled location folder index.threshold entries first)
    (holds' : HoldsShuffled location folder index.threshold entries second)
    (distinct : (entries.map Prod.fst).Nodup) {reader : PostingsReader}
    (base : reader.base = index.root / folder) (fits : reader.maxGenerations ≤ Json.max32)
    {trigram : Trigram} (wide : 3 ≤ trigram.length)
    (admits : first.fileAt?
      (location ++ folder :: Postings.shardPlace trigram reader.maxGenerations) = none) :
    reader.documents second trigram = reader.documents first trigram := by
  obtain ⟨others, found⟩ := stands.find
  obtain ⟨others', found'⟩ := stands'.find
  have admits' : second.fileAt?
      (location ++ folder :: Postings.shardPlace trigram reader.maxGenerations) = none := by
    have same := (holds.count_eq holds' index.threshold_pos distinct wide).2 reader.maxGenerations
    rw [admits] at same
    exact Option.isNone_iff_eq_none.mp (Option.isSome_eq_false_iff.mp same)
  refine SortedSet.ext_mem fun key => ?_
  rw [holds.mem_documents_iff stands.named found plain base fits wide admits,
    holds'.mem_documents_iff stands'.named found' plain base fits wide admits']

/-- Indexes of the same documents with different keys are alike. -/
theorem HoldsShuffledDeposits.alike {first second : FileTree}
    (holds : index.HoldsShuffledDeposits location deposits first)
    (holds' : index.HoldsShuffledDeposits location deposits second)
    (distinct : deposits.keys.Nodup)
    (settings : ∀ name ∈ settingFiles,
      second.kind? (location ++ [name]) = first.kind? (location ++ [name])) :
    index.AlikeIndex location first second := by
  have postings : ∀ folder ∈ [textFolder, tagFolder], ∃ entries : List PostingsEntry,
      (entries.map Prod.fst).Nodup ∧ IsPlain folder ∧
        HoldsShuffled location folder index.threshold entries first ∧
        HoldsShuffled location folder index.threshold entries second := by
    intro folder member
    have plain {folder : String} (member : folder ∈ clearedFolders) : IsPlain folder :=
      (isName_of_mem (mem_ownNames_of_cleared member)).toIsPlain
    rcases List.mem_pair.mp member with rfl | rfl
    · refine ⟨_, ?_, plain (by decide), holds.texts, holds'.texts⟩
      rw [List.map_map]
      exact distinct
    · refine ⟨_, ?_, plain (by decide), holds.tags, holds'.tags⟩
      rw [List.map_map]
      exact Deposits.nodup_key_survivors
  exact {
    files := fun folder member names =>
      (holds'.files folder member names).trans (holds.files folder member names).symm
    counts := fun folder member trigram wide => by
      obtain ⟨entries, once, -, texts, texts'⟩ := postings folder member
      exact (texts.count_eq texts' index.threshold_pos once wide).1
    shards := fun folder member trigram wide => by
      obtain ⟨entries, once, -, texts, texts'⟩ := postings folder member
      exact (texts.count_eq texts' index.threshold_pos once wide).2
    documents := fun folder member trigram wide reader base fits => by
      obtain ⟨entries, once, plain, texts, texts'⟩ := postings folder member
      exact documents_eq_of_holdsShuffled holds.stands holds'.stands plain texts texts' once base
        fits wide
    settings
    noResults := holds.noResults
    noResults' := holds'.noResults }

/-- **Builds by threads come to the same.**  Whatever the number of threads and workers, and
whatever the order in which they go on, a build by threads none of whose writes fails sums up what a
build sums up that does one thing after another, and leaves the same index but for the shards in
which the documents of a trigram are. -/
theorem SharedBuild.alike {summary : BuildSummary} {built : FileTree}
    (builds : index.Builds scheme classifier crawlRoot location tree summary built)
    (shared : index.SharedBuild scheme classifier crawlRoot tree) :
    shared.summary = summary ∧ index.AlikeIndex location built shared.built := by
  obtain ⟨holds', agrees', mark', sums'⟩ :=
    shared.holds builds.hosted builds.named builds.keepsKeys builds.sizes builds.nodup_keys
  obtain ⟨start, crawler, prepares, made, run⟩ := build_ok_iff.mp builds.succeeds
  obtain rfl : index.startOf tree = start := congrArg Prod.snd prepares
  obtain ⟨holds, agrees, -, mark, sums⟩ :=
    (Index.prepared builds.hosted builds.named prepares).passes made builds.keepsKeys builds.sizes
      run
  rw [deposited, crawled_eq made] at holds' sums'
  have distinct := builds.nodup_keys
  rw [deposited, crawled_eq made] at distinct
  refine ⟨sums'.trans sums.symm, holds.shuffled.alike holds' distinct ?_⟩
  have config : Config.fileName ∉ formatFile :: clearedFolders := by decide
  exact List.forall_mem_cons.mpr ⟨(agrees'.kind?_below config []).trans
    (agrees.kind?_below config []).symm, List.forall_mem_singleton.mpr (mark'.trans mark.symm)⟩

end Index
end SourceSearch
