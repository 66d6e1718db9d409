import SourceSearch.Proofs.Search.Served
import SourceSearch.Proofs.Words

/-!
# Settings that tune an index

Two builds of one tree whose settings crawl alike index the same documents.  They give every call
the same answer if the shards that are read hold all postings.  The bound of generations is no mere
tuning: as soon as it leaves out a posting, some call has another answer.
-/

namespace SourceSearch

/-- Whatever trigram a text has, it is in lowercase. -/
theorem IndexedDocument.lowercase_of_mem_trigrams {document : IndexedDocument} {trigram : Trigram}
    (inside : trigram ∈ document.trigrams) : lowercase trigram = trigram := by
  obtain ⟨word, member, part⟩ := Trigram.mem_ofWords_iff.mp inside
  obtain ⟨line, within⟩ := Words.exists_of_mem_distinct member
  exact lowercase_of_part ((Trigram.mem_ofWord_iff.mp part).2.trans within)

/-- A trigram of the class tags of a record is in the lowercase value of a class. -/
theorem Metadata.exists_of_mem_tagTrigrams {record : Metadata} {trigram : Trigram}
    (inside : trigram ∈ record.tagTrigrams) : lowercase trigram = trigram ∧
      ∃ name value, record.class? name = some value ∧
        occursIn trigram (lowercase value) = true := by
  obtain ⟨word, member, part⟩ := Trigram.mem_ofWords_iff.mp inside
  obtain ⟨value, listed, rfl⟩ := List.mem_map.mp member
  obtain ⟨⟨name, value⟩, held, rfl⟩ := List.mem_map.mp listed
  have within := (Trigram.mem_ofWord_iff.mp part).2
  have lower : trigram.toList <:+: Text.lowercase value.toList := by
    rwa [lowercase, String.toList_ofList] at within
  exact ⟨lowercase_of_part lower, name, value, SortedMap.find?_eq_some_iff.mpr held,
    occursIn_iff.mpr within⟩

namespace Index

variable {index first second : Index} {location : Location} {tree built built' : FileTree}
  {scheme : KeyScheme} {classifier : Classifier} {crawlRoot : Path}
  {summary summary' : BuildSummary}

/-! ## Room for postings -/

/-- A reader that finds every document by every trigram reads shards that hold all of them. -/
theorem Stands.withinShards (stands : index.Stands location tree) {folder : String}
    (member : folder ∈ clearedFolders) {trigramsOf : IndexedDocument → SortedSet Trigram}
    {documents : List IndexedDocument}
    (holds : HoldsPostings location folder index.threshold
      (documents.map fun document => (document.key, trigramsOf document)) tree)
    (distinct : (documents.map IndexedDocument.key).Nodup)
    (positive : 0 < index.config.flushThreshold)
    (fits : index.config.maxShardGenerations ≤ Json.max32)
    (complete : ∀ document ∈ documents, ∀ trigram ∈ trigramsOf document,
      document.key ∈ (index.reader folder).documents tree trigram) :
    index.WithinShards trigramsOf documents := by
  intro trigram
  obtain ⟨entries, found⟩ := stands.find
  have plain := (isName_of_mem (mem_ownNames_of_cleared member)).toIsPlain
  have once : ((documents.map fun document => (document.key, trigramsOf document)).map
      Prod.fst).Nodup := by
    rwa [List.map_map]
  rw [← length_keysWith_eq_countP]
  have base : (index.reader folder).base = index.root / folder := rfl
  obtain ⟨-, reads⟩ := PostingsReader.load_spec stands.named found holds.layered plain base
    (holds.written trigram) fits
  have sized : Ledger.Sized index.threshold
      ((ledgersOf index.threshold (documents.map fun document =>
        (document.key, trigramsOf document)) trigram).flush.shards.take
          index.config.maxShardGenerations) := fun shard inside =>
    ((Ledger.bounded_empty index.threshold_pos).foldl_add _).flush.sized shard
      (List.mem_of_mem_take inside)
  have bound := Ledger.length_le_of_sized sized (nodup_keysWith once trigram) fun key has => by
    obtain ⟨trigrams, entry, inside⟩ := mem_keysWith_iff.mp has
    obtain ⟨document, held, same⟩ := List.mem_map.mp entry
    cases same
    exact (reads document.key).mp (complete document held trigram inside)
  have threshold : index.threshold = index.config.flushThreshold := Nat.max_eq_left positive
  rw [threshold] at bound
  exact Nat.le_trans bound (Nat.mul_le_mul_left _ (List.length_take_le _ _))

/-! ## Calls that ask for one trigram -/

/-- The answer of a call that can be evaluated is what passes of its candidates. -/
theorem fresh_of_candidates? {call : Call} {found : SortedSet DocumentKey}
    (finds : index.candidates? tree call = .ok found) :
    index.fresh tree call = .ok ((index.passing tree call found).map
      (index.hit tree call.shown?)) := by
  rw [fresh_eq, finds, Except.map]

/-- A hit is a candidate. -/
theorem mem_of_fresh {call : Call} {found : SortedSet DocumentKey}
    (finds : index.candidates? tree call = .ok found) {hits : List Hit}
    (answers : index.fresh tree call = .ok hits) {hit : Hit} (listed : hit ∈ hits) :
    hit.documentKey ∈ found := by
  rw [fresh_of_candidates? finds] at answers
  obtain rfl := Except.ok.inj answers
  obtain ⟨key, passed, rfl⟩ := List.mem_map.mp listed
  exact (List.mem_filter.mp passed).1

/-- The candidates for a class tag are found by its trigrams. -/
theorem candidates?_tag (index : Index) (tree : FileTree) (name : String) {value : String}
    (some : (Trigram.ofWord (lowercase value)).isEmpty = false) :
    index.candidates? tree (.ofQuery (.tag name value)) =
      .ok (index.tagReader.search index.config.metadataAbortRatio tree
        (Trigram.ofWord (lowercase value))).1 := by
  have compiled : (Query.tag name value).filter =
      .ok (.trigrams .empty (Trigram.ofWord (lowercase value))) := rfl
  have mentions : (Query.tag name value).mentionsTag = true := rfl
  have open' : (SortedSet.empty : SortedSet Trigram).isEmpty = true := rfl
  rw [candidates?, compiled, Except.map, mentions, Searcher.filtered]
  simp only [TrigramFilter.content, TrigramFilter.metadata, open', some, Bool.not_false,
    Bool.and_true, if_true, Searcher.searchTags]

variable {trigram : Trigram}

/-- A trigram in lowercase has itself as its only trigram. -/
theorem ofWord_of_lowercase (wide : trigram.length = 3) (lower : lowercase trigram = trigram) :
    (Trigram.ofWord (lowercase trigram)).isEmpty = false ∧
      ∀ other ∈ Trigram.ofWord (lowercase trigram), other = trigram := by
  rw [lower, Trigram.isEmpty_ofWord, decide_eq_false_iff_not]
  exact ⟨by omega, fun other => Trigram.eq_of_mem_ofWord wide⟩

/-- Whatever is found by a trigram as a term is in its postings. -/
theorem mem_documents_of_fresh_ofTerm (wide : trigram.length = 3)
    (lower : lowercase trigram = trigram) {hits : List Hit}
    (answers : index.fresh tree (.ofTerm trigram) = .ok hits) {hit : Hit} (listed : hit ∈ hits) :
    hit.documentKey ∈ index.textReader.documents tree trigram := by
  obtain ⟨other, inside, held⟩ :=
    PostingsReader.exists_of_mem_search (mem_of_fresh rfl answers listed)
  rwa [(ofWord_of_lowercase wide lower).2 other inside] at held

/-- Whatever is found by a trigram as a class tag is in its postings. -/
theorem mem_documents_of_fresh_ofTag (wide : trigram.length = 3)
    (lower : lowercase trigram = trigram) {name : String} {hits : List Hit}
    (answers : index.fresh tree (.ofQuery (.tag name trigram)) = .ok hits) {hit : Hit}
    (listed : hit ∈ hits) : hit.documentKey ∈ index.tagReader.documents tree trigram := by
  obtain ⟨some, single⟩ := ofWord_of_lowercase wide lower
  obtain ⟨other, inside, held⟩ := PostingsReader.exists_of_mem_search
    (mem_of_fresh (index.candidates?_tag tree name some) answers listed)
  rwa [single other inside] at held

/-- A document with a trigram is found by it as a term. -/
theorem Serves.exists_hit_ofTerm {documents : List IndexedDocument}
    (serves : index.Serves documents tree) {document : IndexedDocument}
    (member : document ∈ documents) (inside : trigram ∈ document.trigrams) :
    ∃ hits, index.fresh tree (.ofTerm trigram) = .ok hits ∧
      ∃ hit ∈ hits, hit.documentKey = document.key := by
  have lower := IndexedDocument.lowercase_of_mem_trigrams inside
  have wide : 3 ≤ (lowercase trigram).length := by
    rw [lower]
    exact Nat.le_of_eq (Trigram.length_of_mem_ofWords inside).symm
  have has : document.hasText (lowercase trigram) = true := by
    obtain ⟨word, held, part⟩ := Trigram.mem_ofWords_iff.mp inside
    rw [lower]
    exact List.any_eq_true.mpr ⟨word, held, occursIn_iff.mpr (Trigram.mem_ofWord_iff.mp part).2⟩
  refine ⟨_, fresh_of_candidates? rfl, _, List.mem_map_of_mem ?_, rfl⟩
  exact ((serves.covers_candidates wide).mem_filter_iff (serves.judge_ofTerm trigram)).mpr
    ⟨document, member, rfl, has⟩

/-- A document whose tags have a trigram is found by it as a class tag. -/
theorem Serves.exists_hit_ofTag {documents : List IndexedDocument}
    (serves : index.Serves documents tree) {document : IndexedDocument}
    (member : document ∈ documents) (inside : trigram ∈ document.record.tagTrigrams) :
    ∃ name hits, index.fresh tree (.ofQuery (.tag name trigram)) = .ok hits ∧
      ∃ hit ∈ hits, hit.documentKey = document.key := by
  obtain ⟨lower, name, value, is, occurs⟩ := Metadata.exists_of_mem_tagTrigrams inside
  obtain ⟨some, -⟩ := ofWord_of_lowercase (Trigram.length_of_mem_ofWords inside) lower
  have carried : carries document.record (name, lowercase trigram) = true := by
    rw [IndexedDocument.carries_iff, lower]
    exact ⟨value, is, occurs⟩
  have satisfied : document.satisfies (.tag name trigram) = true := by
    have single : document.satisfies (.tag name trigram) = ((true && !false) &&
        ((carries document.record (name, lowercase trigram) && true) && !false)) := rfl
    rw [single, carried]
    rfl
  have compiled : (Query.tag name trigram).filter =
      .ok (.trigrams .empty (Trigram.ofWord (lowercase trigram))) := rfl
  have nonempty : (TrigramFilter.trigrams .empty
      (Trigram.ofWord (lowercase trigram))).isEmpty = false := by
    rw [TrigramFilter.isEmpty, TrigramFilter.metadata, some, Bool.and_false]
  have covers := serves.covers_filtered compiled nonempty
  have judges : ∀ document ∈ documents,
      index.judge tree (.ofQuery (.tag name trigram)) document.key =
        .some (document.satisfies (.tag name trigram)) := fun document member => by
    rw [judge, serves.satisfies?_eq member]
  have candidates : index.candidates? tree (.ofQuery (.tag name trigram)) =
      .ok (Searcher.filtered { index } tree (.trigrams .empty (Trigram.ofWord (lowercase trigram)))
        (Query.tag name trigram).mentionsTag).1 := by
    rw [candidates?, compiled, Except.map]
  have passed := (covers.mem_filter_iff judges).mpr ⟨document, member, rfl, satisfied⟩
  have answers := fresh_of_candidates? candidates
  exact ⟨name, _, answers, _, List.mem_map_of_mem passed, rfl⟩

/-! ## Two builds of a tree -/

/-- Two indexes in the same place that crawl alike: the same files, in the same size, by the same
links.  All other settings may differ. -/
structure CrawlsLike (first second : Index) : Prop where
  /-- The folder is the same. -/
  root : second.root = first.root
  /-- The largest size is the same. -/
  maxFileSize : second.config.maxFileSize = first.config.maxFileSize
  /-- Links are followed by both or by none. -/
  followSymlinks : second.config.followSymlinks = first.config.followSymlinks

namespace CrawlsLike

theorem startOf_eq (alike : first.CrawlsLike second) (tree : FileTree) :
    second.startOf tree = first.startOf tree := by
  rw [startOf, startOf, prepare, prepare, clear, clear, alike.root]

theorem crawler_eq (alike : first.CrawlsLike second) (tree : FileTree) (crawlRoot : Path) :
    second.crawler tree crawlRoot = first.crawler tree crawlRoot := by
  rw [crawler, crawler, pathInCrawl?, pathInCrawl?, Crawler.new, Crawler.new, Crawler.matching,
    Crawler.matching, alike.root, alike.maxFileSize, alike.followSymlinks]

theorem crawled_eq (alike : first.CrawlsLike second) (crawlRoot : Path) (tree : FileTree) :
    second.crawled crawlRoot tree = first.crawled crawlRoot tree := by
  rw [crawled, crawled, alike.startOf_eq, alike.crawler_eq]

/-- What is read of the shards does not matter to a build. -/
theorem build_eq (alike : first.CrawlsLike second)
    (threshold : second.config.flushThreshold = first.config.flushThreshold) (scheme : KeyScheme)
    (classifier : Classifier) (crawlRoot : Path) :
    second.build scheme classifier crawlRoot = first.build scheme classifier crawlRoot := by
  have crawlers := fun tree => alike.crawler_eq tree crawlRoot
  obtain ⟨root, config⟩ := first
  obtain ⟨root', config'⟩ := second
  obtain rfl : root' = root := alike.root
  have texts : textWriter ⟨root', config'⟩ = textWriter ⟨root', config⟩ :=
    congrArg (PostingsWriter.new (root' / textFolder)) threshold
  have tags : tagWriter ⟨root', config'⟩ = tagWriter ⟨root', config⟩ :=
    congrArg (PostingsWriter.new (root' / tagFolder)) threshold
  have files (files : List Path) : addFiles ⟨root', config'⟩ scheme classifier crawlRoot files =
      addFiles ⟨root', config⟩ scheme classifier crawlRoot files := by
    rw [addFiles, addFiles, texts]
    rfl
  have records (summary : BuildSummary) : buildTags ⟨root', config'⟩ summary =
      buildTags ⟨root', config⟩ summary := by
    have all (keys : List DocumentKey) : addAllTags ⟨root', config'⟩ keys =
        addAllTags ⟨root', config⟩ keys := by
      rw [addAllTags, addAllTags, tags]
      rfl
    simp only [buildTags, all]
    rfl
  simp only [build, crawlers, files, records]
  rfl

/-- The second build is one as well, if the first is. -/
theorem builds (alike : first.CrawlsLike second)
    (builds : first.Builds scheme classifier crawlRoot location tree summary built)
    (generations : second.config.maxShardGenerations ≤ Json.max32)
    (run : (second.build scheme classifier crawlRoot).runOn tree = (.ok summary', built')) :
    second.Builds scheme classifier crawlRoot location tree summary' built' where
  hosted := ⟨alike.root ▸ builds.hosted.hosts, builds.hosted.noLinks⟩
  named := builds.named
  keepsKeys := builds.keepsKeys
  sizes := alike.maxFileSize ▸ builds.sizes
  generations := generations
  distinct := by
    rw [documentsOf, alike.crawled_eq, alike.startOf_eq]
    exact builds.distinct
  succeeds := run

/-- Both builds index the same documents. -/
theorem indexedDocuments_eq (alike : first.CrawlsLike second)
    (builds : first.Builds scheme classifier crawlRoot location tree summary built)
    (builds' : second.Builds scheme classifier crawlRoot location tree summary' built') :
    second.indexedDocuments scheme classifier crawlRoot tree summary'.failed =
      first.indexedDocuments scheme classifier crawlRoot tree summary.failed := by
  rw [← builds.map_deposited, ← builds'.map_deposited, deposited, deposited, alike.crawled_eq,
    alike.startOf_eq]

end CrawlsLike

/-- If both give the same answers and the first misses no posting, then the second reads shards that
hold all postings of texts. -/
theorem Serves.withinShards_texts {documents : List IndexedDocument}
    (serves : first.Serves documents built)
    (represents : second.Represents location documents built')
    (generations : second.config.maxShardGenerations ≤ Json.max32)
    (positive : 0 < second.config.flushThreshold)
    (same : ∀ call, second.fresh built' call = first.fresh built call) :
    second.WithinShards IndexedDocument.trigrams documents := by
  have postings := represents.texts
  refine represents.stands.withinShards (by decide) postings represents.distinct positive
    generations ?_
  intro document member trigram inside
  obtain ⟨hits, answers, hit, listed, key⟩ := serves.exists_hit_ofTerm member inside
  rw [← key]
  exact mem_documents_of_fresh_ofTerm (Trigram.length_of_mem_ofWords inside)
    (IndexedDocument.lowercase_of_mem_trigrams inside) ((same _).trans answers) listed

/-- The same for class tags. -/
theorem Serves.withinShards_tags {documents : List IndexedDocument}
    (serves : first.Serves documents built)
    (represents : second.Represents location documents built')
    (generations : second.config.maxShardGenerations ≤ Json.max32)
    (positive : 0 < second.config.flushThreshold)
    (same : ∀ call, second.fresh built' call = first.fresh built call) :
    second.WithinShards (fun document => document.record.tagTrigrams) documents := by
  obtain ⟨ordered, perm, postings⟩ := represents.tags
  have distinct := (perm.map IndexedDocument.key).nodup_iff.mpr represents.distinct
  refine WithinShards.perm (represents.stands.withinShards (by decide) postings distinct positive
    generations ?_) perm.symm
  intro document listed trigram inside
  obtain ⟨name, hits, answers, hit, found, key⟩ :=
    serves.exists_hit_ofTag (perm.subset listed) inside
  obtain ⟨lower, -⟩ := Metadata.exists_of_mem_tagTrigrams inside
  rw [← key]
  exact mem_documents_of_fresh_ofTag (Trigram.length_of_mem_ofWords inside) lower
    ((same _).trans answers) found

/-- **Tuning is transparent as long as no posting is left out.**  Let the second of two indexes
crawl like the first, without the query cache, and let the first read all that it writes.  Both
give every call the same answer exactly if the second reads all that it writes as well: no trigram
is in more documents than fit into the greatest number of shards that it reads. -/
theorem tuning_transparent_iff (alike : first.CrawlsLike second)
    (accepted : second.config.validate = .ok ())
    (generations : second.config.maxShardGenerations ≤ Json.max32)
    (builds : first.Builds scheme classifier crawlRoot location tree summary built)
    (run : (second.build scheme classifier crawlRoot).runOn tree = (.ok summary', built'))
    (texts : first.WithinShards IndexedDocument.trigrams
      (first.indexedDocuments scheme classifier crawlRoot tree summary.failed))
    (tags : first.WithinShards (fun document => document.record.tagTrigrams)
      (first.indexedDocuments scheme classifier crawlRoot tree summary.failed))
    (uncached : first.config.useQueryCache = false)
    (uncached' : second.config.useQueryCache = false) {searcher searcher' : Searcher}
    (same : searcher.index = first) (same' : searcher'.index = second) :
    (∀ call, (searcher'.answer call built').1.1 = (searcher.answer call built).1.1) ↔
      second.WithinShards IndexedDocument.trigrams
          (first.indexedDocuments scheme classifier crawlRoot tree summary.failed) ∧
        second.WithinShards (fun document => document.record.tagTrigrams)
          (first.indexedDocuments scheme classifier crawlRoot tree summary.failed) := by
  subst same same'
  have builds' := alike.builds builds generations run
  have serves := builds.serves texts tags
  have indexed := alike.indexedDocuments_eq builds builds'
  simp only [answer_eq_fresh uncached, answer_eq_fresh uncached']
  constructor
  · intro agree
    have represents := builds'.represents.1
    rw [indexed] at represents
    have positive : 0 < searcher'.index.config.flushThreshold := by
      rw [Config.validate] at accepted
      split at accepted
      · cases accepted
      · omega
    exact ⟨serves.withinShards_texts represents generations positive agree,
      serves.withinShards_tags represents generations positive agree⟩
  · rintro ⟨texts', tags'⟩
    rw [← indexed] at texts' tags'
    have serves' := builds'.serves texts' tags'
    rw [indexed] at serves'
    exact serves.fresh_eq serves'

/-! ## A sample -/

/-- The sample with the same shards, of which some are read, and without patience for large
postings. -/
def cappedIndex (generations : Nat) : Index :=
  { sampleIndex with
    config := { sampleIndex.config with
      contentAbortRatio := 0, metadataAbortRatio := 0, maxShardGenerations := generations } }

theorem crawlsLike_cappedIndex (generations : Nat) :
    sampleIndex.CrawlsLike (cappedIndex generations) := ⟨rfl, rfl, rfl⟩

/-- One document fits into one shard.  So in the sample it is enough to read one, but whoever reads
none answers a call differently. -/
theorem tuning_transparent_iff_sample : ∃ summary built,
    sampleIndex.Builds sampleScheme .standard ⟨"/src"⟩ ["index"] sampleTree summary built ∧
      (∀ generations, (cappedIndex generations).config.validate = .ok () ∧
        ((cappedIndex generations).build sampleScheme .standard ⟨"/src"⟩).runOn sampleTree =
          (.ok summary, built)) ∧
      (∀ call, (Searcher.answer { index := cappedIndex 1 } call built).1.1 =
        (Searcher.answer { index := sampleIndex } call built).1.1) ∧
      ∃ call, (Searcher.answer { index := cappedIndex 0 } call built).1.1 ≠
        (Searcher.answer { index := sampleIndex } call built).1.1 := by
  obtain ⟨summary, built, failed, builds⟩ := builds_sample
  have run (generations : Nat) : ((cappedIndex generations).build sampleScheme .standard
      ⟨"/src"⟩).runOn sampleTree = (.ok summary, built) := by
    rw [(crawlsLike_cappedIndex generations).build_eq rfl]
    exact builds.succeeds
  have within := withinShards_of_failed failed
  refine ⟨summary, built, builds, fun generations => ⟨rfl, run generations⟩, ?_, ?_⟩
  · have within' (trigramsOf : IndexedDocument → SortedSet Trigram) :
        (cappedIndex 1).WithinShards trigramsOf (sampleIndex.indexedDocuments sampleScheme
          .standard ⟨"/src"⟩ sampleTree summary.failed) := by
      rw [failed]
      exact fun _ => List.countP_le_length.trans
        ((Nat.le_of_eq length_sampleDocuments).trans (by decide))
    exact (tuning_transparent_iff (crawlsLike_cappedIndex 1) rfl (by decide) builds (run 1)
      (within _) (within _) rfl rfl rfl rfl).mpr ⟨within' _, within' _⟩
  · refine not_forall.mp fun agree => ?_
    obtain ⟨within', -⟩ := (tuning_transparent_iff (crawlsLike_cappedIndex 0) rfl (by decide)
      builds (run 0) (within _) (within _) rfl rfl rfl rfl).mp agree
    -- The document has the trigram, for which there is no room.
    rw [failed] at within'
    obtain ⟨document, member⟩ := exists_mem_sampleDocuments
    have counted : 0 < sampleDocuments.countP (fun document => "abc" ∈ document.trigrams) :=
      List.countP_pos_iff.mpr ⟨document, member, decide_eq_true (mem_trigrams_sample member)⟩
    have room := within' "abc"
    exact absurd room (Nat.not_le.mpr counted)

end Index
end SourceSearch
