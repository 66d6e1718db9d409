import SourceSearch.Proofs.Index.Consistency
import SourceSearch.Proofs.Search.Lookups
import SourceSearch.Proofs.Search.Reach
import SourceSearch.Proofs.Search.Served
import SourceSearch.Proofs.Search.Transparency

/-!
# Shards that have been lost

Postings are read up to the first shard that cannot be read, and nothing tells that some are
missing.  Verification sees only the candidates that are left, and it can judge all of them.  So
every call leaves its answer in the query cache, and that is the whole answer exactly if the loss
does not show in it: each of its documents is still found by all trigrams that the search reads.
-/

namespace SourceSearch

namespace Index

variable {index : Index} {location place : Location} {tree damaged built now : FileTree}
  {key : DocumentKey} {call : Call} {found : SortedSet DocumentKey}

/-! ## What a call reaches -/

/-- A document is in the postings of every trigram that the searches of a call read. -/
def Reaches (index : Index) (tree : FileTree) (call : Call) (key : DocumentKey) : Prop :=
  ∀ lookup ∈ call.lookups, ∀ trigram ∈ lookup.trigrams,
    trigram ∉ (index.lookUp tree lookup).2.skipped →
      key ∈ (index.reader lookup.folder).documents tree trigram

/-- The candidates for a call are the documents that it reaches, if it looks for trigrams. -/
theorem mem_candidates_iff_reaches (finds : index.candidates? tree call = .ok found) :
    key ∈ found ↔
      (call.lookups ≠ [] ∧ ∀ lookup ∈ call.lookups, lookup.trigrams ≠ .empty) ∧
        index.Reaches tree call key := by
  rw [mem_candidates_iff finds, and_assoc, Reaches, ← forall₂_and]
  exact and_congr_right fun _ => forall₂_congr fun _ _ => PostingsReader.mem_search_iff

/-! ## Reading what is left -/

/-- The place is that of a shard. -/
def IsShardPlace (location place : Location) : Prop :=
  ∃ folder ∈ [textFolder, tagFolder], ∃ trigram generation,
    place = location ++ folder :: Postings.shardPlace trigram generation

theorem IsShardPlace.below (shard : IsShardPlace location place) :
    ∃ folder ∈ [textFolder, tagFolder], location ++ [folder] <+: place := by
  obtain ⟨folder, member, trigram, generation, rfl⟩ := shard
  exact ⟨folder, member, by simp⟩

theorem postings_subset : ∀ folder ∈ [textFolder, tagFolder],
    folder ∈ clearedFolders ∧ depthOf folder = 3 := by decide

section Lost

variable {places : List Location} (differs : FileTree.DiffersAt NoShard tree places damaged)
  (shards : ∀ place ∈ places, IsShardPlace location place)

include differs shards

theorem agrees_of_lost_shards : tree.AgreesOutside location [textFolder, tagFolder] damaged :=
  differs.agrees fun place listed => (shards place listed).below

theorem Stands.of_lost_shards (stands : index.Stands location tree) :
    index.Stands location damaged :=
  stands.of_differsAt differs fun place listed => by
    obtain ⟨folder, member, below⟩ := (shards place listed).below
    exact ⟨folder, (postings_subset folder member).1, below⟩

/-- Documents may be missing from the postings of a trigram, but none is added. -/
theorem Stands.documents_of_lost_shards (stands : index.Stands location tree) {folder : String}
    (member : folder ∈ [textFolder, tagFolder]) {trigram : Trigram}
    (held : key ∈ (index.reader folder).documents damaged trigram) :
    key ∈ (index.reader folder).documents tree trigram := by
  obtain ⟨cleared, deep⟩ := postings_subset folder member
  refine PostingsReader.mem_loadFrom_of_less (fun generation shard read => ?_) _ _ held
  have reads := stands.readRecord_shard_of_lost differs (stands.of_lost_shards differs shards)
    cleared deep trigram generation
  rw [Store.toOption_eq_some_iff.mpr read] at reads
  split at reads
  · cases reads
  · exact Store.toOption_eq_some_iff.mp reads.symm

/-- What is kept of documents beside their postings is there. -/
theorem Stands.keepsRecords_of_lost_shards (stands : index.Stands location tree) :
    index.KeepsRecords tree damaged :=
  stands.unlinked.keepsRecords (agrees_of_lost_shards differs shards)
    (fun folder member => (postings_subset folder member).1) (by decide)

/-- The candidates that are left are keys of documents. -/
theorem Represents.keysOf_of_lost_shards {documents : List IndexedDocument}
    (represents : index.Represents location documents tree)
    (fits : index.config.maxShardGenerations ≤ Json.max32)
    (finds : index.candidates? damaged call = .ok found) : KeysOf documents found := by
  intro key member
  obtain ⟨some, all⟩ := (mem_candidates_iff finds).mp member
  obtain ⟨lookup, listed⟩ := List.exists_mem_of_ne_nil _ some
  obtain ⟨trigram, -, held⟩ := PostingsReader.exists_of_mem_search (all lookup listed)
  have folder := folder_of_mem_lookups listed
  exact represents.keysOf_documents fits folder trigram key
    (represents.stands.documents_of_lost_shards differs shards folder held)

end Lost

/-! ## What passes of it -/

section Passing

variable {documents : List IndexedDocument} {left : SortedSet DocumentKey}

/-- A document that passes is among the candidates, if it is among those of any tree. -/
theorem Serves.mem_of_passes (serves : index.Serves documents tree)
    (finds : index.candidates? tree call = .ok found)
    (finds' : index.candidates? damaged call = .ok left) {document : IndexedDocument}
    (listed : document ∈ documents) (member : document.key ∈ left)
    (passes : index.judge tree call document.key = some true) : document.key ∈ found := by
  cases call with
  | ofTerm term =>
      cases finds
      cases finds'
      by_cases wide : 3 ≤ (lowercase term).length
      · rw [serves.judge_ofTerm term document listed] at passes
        exact (serves.covers_candidates wide).complete document listed (Option.some.inj passes)
      · rw [candidates_of_short _ damaged wide] at member
        exact absurd member SortedSet.not_mem_empty
  | ofQuery query =>
      rw [candidates?] at finds finds'
      cases compiled : query.filter with
      | error failure =>
          rw [compiled] at finds
          cases finds
      | ok filter =>
          rw [compiled, Except.map, Except.ok.injEq] at finds finds'
          subst finds finds'
          cases empty : filter.isEmpty with
          | true =>
              rw [filtered_of_isEmpty _ damaged empty] at member
              exact absurd member SortedSet.not_mem_empty
          | false =>
              have verdict : index.judge tree (.ofQuery query) document.key =
                  some (document.satisfies query) := serves.satisfies?_eq listed
              rw [verdict] at passes
              exact (serves.covers_filtered compiled empty).complete document listed
                (Option.some.inj passes)

/-- What passes is what would have passed and is still a candidate. -/
theorem Serves.mem_passing_iff (serves : index.Serves documents tree)
    (keeps : index.KeepsRecords tree damaged) (finds : index.candidates? tree call = .ok found)
    (finds' : index.candidates? damaged call = .ok left) (keys : KeysOf documents left) :
    key ∈ index.passing damaged call left ↔ key ∈ index.passing tree call found ∧ key ∈ left := by
  rw [keeps.passing, passing, passing, List.mem_filter, List.mem_filter, SortedSet.mem_toList,
    SortedSet.mem_toList, decide_eq_true_eq]
  constructor
  · rintro ⟨member, passes⟩
    obtain ⟨document, listed, rfl⟩ := keys key member
    exact ⟨⟨serves.mem_of_passes finds finds' listed member passes, passes⟩, member⟩
  · rintro ⟨⟨-, passes⟩, member⟩
    exact ⟨member, passes⟩

end Passing

/-! ## Answers -/

/-- **Lost shards are remembered.**  After a build that succeeds shards are overwritten with what
cannot be read or deleted.  Then every call that finds no entry in the query cache leaves its
answer there.  That are the documents of its answer before the loss which are still in the postings
of all trigrams that are read, so it is the whole answer exactly if all of them are.  As long as
the entry stands, the call is answered by it, whatever becomes of the shards. -/
theorem answer_of_lost_shards {scheme : KeyScheme} {classifier : Classifier} {crawlRoot : Path}
    {summary : BuildSummary}
    (builds : index.Builds scheme classifier crawlRoot location tree summary built)
    (caches : index.config.useQueryCache = true)
    (texts : index.WithinShards IndexedDocument.trigrams
      (index.indexedDocuments scheme classifier crawlRoot tree summary.failed))
    (tags : index.WithinShards (fun document => document.record.tagTrigrams)
      (index.indexedDocuments scheme classifier crawlRoot tree summary.failed))
    {places : List Location} (alters : built.Alters NoShard places damaged)
    (shards : ∀ place ∈ places, IsShardPlace location place)
    (agrees : damaged.AgreesOutside location [queriesFolder] now)
    (stands : index.Stands location now) {searcher : Searcher} (same : searcher.index = index)
    (compiles : call.compiles = true)
    (forgotten : index.queries.result? now call.key = none) :
    ∃ hits fewer later after,
      (searcher.answer call built).1.1 = .ok hits ∧
      searcher.answer call now = ((.ok fewer, later), after) ∧
      index.queries.result? after call.key = some (fewer.map Hit.documentKey) ∧
      (∀ key, key ∈ fewer.map Hit.documentKey ↔
        key ∈ hits.map Hit.documentKey ∧ index.Reaches damaged call key) ∧
      (fewer.map Hit.documentKey = hits.map Hit.documentKey ↔
        ∀ hit ∈ hits, index.Reaches damaged call hit.documentKey) ∧
      ∀ repaired, index.queries.result? repaired call.key = some (fewer.map Hit.documentKey) →
        ∃ again, (searcher.answer call repaired).1.1 = .ok again ∧
          again.map Hit.documentKey = fewer.map Hit.documentKey := by
  have represents := builds.represents.1
  have serves := builds.serves texts tags
  have differs := alters.differsAt
  have keeps := represents.stands.keepsRecords_of_lost_shards differs shards
  have unchanged : index.Unchanged location damaged now :=
    ⟨represents.stands.of_lost_shards differs shards, agrees⟩
  obtain ⟨found, finds⟩ := exists_candidates compiles index built
  obtain ⟨left, finds'⟩ := exists_candidates compiles index damaged
  have keys := represents.keysOf_of_lost_shards differs shards builds.generations finds'
  have settles := (keeps.recalls serves.toRecalls).settles finds' keys
  obtain ⟨_, _, -, before, -⟩ := represents.stands.answer_of_no_result same finds
    (represents.stands.result?_eq_none represents.noResults call.key)
  obtain ⟨later, after, -, answers, -, -, stored⟩ :=
    stands.answer_of_no_result same ((unchanged.candidates? call).trans finds') forgotten
  rw [unchanged.passing] at answers stored
  rw [caches, unchanged.settles, settles, Bool.and_self, if_pos rfl] at stored
  have members (key : DocumentKey) : key ∈ index.passing damaged call left ↔
      key ∈ index.passing built call found ∧ index.Reaches damaged call key := by
    rw [serves.mem_passing_iff keeps finds finds' keys, mem_candidates_iff_reaches finds']
    refine and_congr_right fun passed => and_iff_right ?_
    have candidate := SortedSet.mem_toList.mp (List.mem_filter.mp passed).1
    exact ((mem_candidates_iff_reaches finds).mp candidate).1
  refine ⟨_, _, later, after, congrArg (·.1.1) before, answers, ?_, ?_, ?_,
    fun repaired entry => ?_⟩
  · rw [map_documentKey_hit, stored]
  · rw [map_documentKey_hit, map_documentKey_hit]
    exact members
  · rw [map_documentKey_hit, map_documentKey_hit, List.forall_mem_map]
    constructor
    · exact fun whole key passed => ((members key).mp (whole ▸ passed)).2
    · refine fun reached => (left.ascending.sublist List.filter_sublist).eq_of_mem_iff
        (found.ascending.sublist List.filter_sublist) fun key => ?_
      exact (members key).trans (and_iff_left_of_imp (reached key))
  · obtain ⟨again, run, recalled⟩ := answer_of_result same caches compiles entry
    exact ⟨again, congrArg (·.1.1) run, recalled⟩

/-- In the sample the only shard of a trigram is overwritten, and after that it is remembered that
no document has it. -/
theorem answer_of_lost_shards_sample : ∃ summary built place damaged,
    cachingIndex.Builds sampleScheme .standard ⟨"/src"⟩ ["index"] sampleTree summary built ∧
      IsShardPlace ["index"] place ∧
        built.Alters NoShard [place] damaged ∧
          ∃ hits later after,
            (Searcher.answer { index := cachingIndex } (.ofTerm "abc") built).1.1 = .ok hits ∧
              hits ≠ [] ∧
              Searcher.answer { index := cachingIndex } (.ofTerm "abc") damaged =
                ((.ok [], later), after) ∧
              cachingIndex.queries.result? after (cacheKey "abc") = some [] := by
  obtain ⟨summary, built, failed, builds⟩ := builds_cachingIndex
  have represents := builds.represents.1
  have stands := represents.stands
  rw [indexedDocuments_cachingIndex failed] at represents
  have within (trigramsOf : IndexedDocument → SortedSet Trigram) :
      cachingIndex.WithinShards trigramsOf (cachingIndex.indexedDocuments sampleScheme .standard
        ⟨"/src"⟩ sampleTree summary.failed) := by
    rw [indexedDocuments_cachingIndex failed]
    exact withinShards_sample trigramsOf
  obtain ⟨damaged, alters⟩ := represents.exists_lost_shard_sample
  have shard : IsShardPlace ["index"] (["index"] ++ textFolder :: Postings.shardPlace "abc" 0) :=
    ⟨textFolder, by simp, "abc", 0, rfl⟩
  have shards := List.forall_mem_singleton.mpr shard
  have differs := alters.differsAt
  have stands' := stands.of_lost_shards differs shards
  have empty := ((agrees_of_lost_shards differs shards).kind?_below
    (by decide : queriesFolder ∉ [textFolder, tagFolder]) []).trans represents.noResults
  have same : ({ index := cachingIndex } : Searcher).index = cachingIndex := rfl
  have compiles : (Call.ofTerm "abc").compiles = true := rfl
  obtain ⟨hits, fewer, later, after, before, answers, stored, members, -⟩ :=
    answer_of_lost_shards builds rfl (within _) (within _) alters shards (.refl _ _ _) stands' same
      compiles (stands'.result?_eq_none empty _)
  -- No document is in the postings of the only trigram.
  have lost := stands.readRecord_shard_of_lost differs stands'
    (by decide : textFolder ∈ clearedFolders) (by decide) "abc" 0
  rw [if_pos (mem_shardPlaces_iff.mpr List.mem_cons_self)] at lost
  have nothing : fewer = [] := by
    rw [← List.map_eq_nil_iff (f := Hit.documentKey), List.eq_nil_iff_forall_not_mem]
    intro key listed
    have lower : lowercase "abc" = "abc" := by decide
    have lookup : ⟨textFolder, Trigram.ofWord "abc"⟩ ∈ (Call.ofTerm "abc").lookups := by
      rw [Call.lookups, lower]
      exact List.mem_cons_self
    have some : Trigram.ofWord "abc" ≠ .empty := by decide
    obtain ⟨trigram, inside, read⟩ := PostingsReader.exists_not_skipped some
    have found := ((members key).mp listed).2 _ lookup trigram inside read
    rw [Trigram.eq_of_mem_ofWord rfl inside, PostingsReader.documents_eq_empty lost] at found
    exact SortedSet.not_mem_empty found
  subst nothing
  refine ⟨summary, built, _, damaged, builds, shard, alters, hits, later, after, before, ?_,
    answers, stored⟩
  -- Before the loss the document is found.
  obtain ⟨found, bare, some⟩ := fresh_term_sample represents
  rw [(represents.isReady rfl).answer_eq same, bare, Except.ok.injEq] at before
  exact before ▸ some

end Index
end SourceSearch
