import SourceSearch.Proofs.Index.SharedBuild
import SourceSearch.Proofs.Search.Recall
import SourceSearch.Proofs.Search.Served

/-!
# Searching what threads have built

A run of calls is answered from what the index serves and from the answers that it has remembered,
and an answer is remembered whenever a call compiles.  So in two trees that serve the same documents
a run is answered in the same way, with or without the query cache.  A build by threads serves the
documents of a build that does one thing after another.  So no answer tells the one from the other,
as long as all shards are read.
-/

namespace SourceSearch
namespace Index

variable {index : Index} {location : Location} {tree otherTree : FileTree} {searcher : Searcher}
  {documents : List IndexedDocument} {call : Call}

/-! ## Runs without the query cache -/

/-- Without the query cache calls leave everything as it is. -/
theorem serve_uncached (uncached : index.config.useQueryCache = false)
    (same : searcher.index = index) (calls : List Call) (tree : FileTree) :
    ∃ later, later.index = index ∧ searcher.serve calls tree = (later, tree) := by
  induction calls generalizing searcher with
  | nil => exact ⟨searcher, same, rfl⟩
  | cons call rest ih =>
      subst same
      obtain ⟨next, kept, answers⟩ := answer_uncached uncached call tree
      obtain ⟨later, kept', serves⟩ := ih kept
      refine ⟨later, kept', ?_⟩
      change ((searcher.answer call tree).1.2.serve rest) (searcher.answer call tree).2 = _
      rw [answers, serves]

/-- Without the query cache no call depends on earlier ones. -/
theorem answerAfter_uncached (uncached : index.config.useQueryCache = false)
    (same : searcher.index = index) (earlier : List Call) (call : Call) (tree : FileTree) :
    (searcher.answerAfter earlier call tree).1 = index.fresh tree call := by
  obtain ⟨later, kept, serves⟩ := serve_uncached uncached same earlier tree
  change ((searcher.serve earlier tree).1.answer call (searcher.serve earlier tree).2).1.1 = _
  rw [serves, answer_eq_fresh (kept.symm ▸ uncached), kept]

/-! ## Runs in trees that serve the same documents -/

namespace Serves

/-- The candidates of every call are documents. -/
theorem keysOf_candidates (serves : index.Serves documents tree) {found : SortedSet DocumentKey}
    (finds : index.candidates? tree call = .ok found) : KeysOf documents found := by
  cases call with
  | ofTerm term =>
      cases finds
      by_cases wide : 3 ≤ (lowercase term).length
      · exact (serves.covers_candidates wide).sound
      · rw [candidates_of_short _ tree wide]
        exact keysOf_empty documents
  | ofQuery query =>
      rw [candidates?] at finds
      cases compiled : query.filter with
      | error failure =>
          rw [compiled] at finds
          cases finds
      | ok filter =>
          rw [compiled, Except.map, Except.ok.injEq] at finds
          subst finds
          cases empty : filter.isEmpty with
          | true =>
              rw [filtered_of_isEmpty _ tree empty]
              exact keysOf_empty documents
          | false => exact (serves.covers_filtered compiled empty).sound

/-- Exactly those calls leave an answer that compile. -/
theorem settles_eq (serves : index.Serves documents tree) (call : Call) :
    index.settles tree call = call.compiles := by
  cases compiles : call.compiles with
  | true =>
      obtain ⟨found, finds⟩ := exists_candidates compiles index tree
      exact serves.toRecalls.settles finds (serves.keysOf_candidates finds)
  | false =>
      obtain ⟨failure, fails⟩ := exists_error compiles
      rw [settles, fails]

/-- The answer to a call comes from the same earlier call. -/
theorem source_eq (serves : index.Serves documents tree)
    (serves' : index.Serves documents otherTree) (earlier : List Call) (call : Call) :
    index.source otherTree earlier call = index.source tree earlier call := by
  have recalls (key : String) :
      index.rememberedCall otherTree earlier key = index.rememberedCall tree earlier key := by
    rw [rememberedCall, rememberedCall]
    simp only [serves.settles_eq, serves'.settles_eq]
  rw [source, source, recalls]
  cases compiles : call.compiles with
  | true =>
      obtain ⟨found, finds⟩ := exists_candidates compiles index tree
      obtain ⟨found', finds'⟩ := exists_candidates compiles index otherTree
      rw [finds, finds']
  | false =>
      obtain ⟨failure, fails⟩ := exists_error compiles
      rw [fails, fails]

/-- **Same documents, same runs.**  After the same calls a call is answered in the same way. -/
theorem answerAfter_eq (serves : index.Serves documents tree)
    (serves' : index.Serves documents otherTree)
    (ready : index.config.useQueryCache = true → index.IsReady location tree)
    (ready' : index.config.useQueryCache = true → index.IsReady location otherTree)
    (same : searcher.index = index) (earlier : List Call) (call : Call) :
    (searcher.answerAfter earlier call otherTree).1 =
      (searcher.answerAfter earlier call tree).1 := by
  cases caches : index.config.useQueryCache with
  | true =>
      rw [(ready caches).answerAfter_eq same, (ready' caches).answerAfter_eq same,
        serves.source_eq serves', serves.fresh_eq serves']
  | false =>
      rw [answerAfter_uncached caches same, answerAfter_uncached caches same,
        serves.fresh_eq serves']

end Serves

/-! ## Builds by threads -/

/-- An index of deposits has an empty query cache. -/
theorem HoldsShuffledDeposits.isReady {deposits : Deposits}
    (holds : index.HoldsShuffledDeposits location deposits tree) (sound : AreSound deposits)
    (caches : index.config.useQueryCache = true) : index.IsReady location tree where
  stands := holds.stands
  caches := caches
  empty key := FileTree.record?_of_none holds.noResults key _
  copies := holds.hasNumberedCopies sound

variable {scheme : KeyScheme} {classifier : Classifier} {crawlRoot : Path}
  {summary : BuildSummary} {built : FileTree}

/-- A build by threads serves the documents that a build serves which does one thing after
another. -/
theorem SharedBuild.serves
    (builds : index.Builds scheme classifier crawlRoot location tree summary built)
    (shared : index.SharedBuild scheme classifier crawlRoot tree)
    (texts : index.WithinShards IndexedDocument.trigrams
      (index.indexedDocuments scheme classifier crawlRoot tree summary.failed))
    (tags : index.WithinShards (fun document => document.record.tagTrigrams)
      (index.indexedDocuments scheme classifier crawlRoot tree summary.failed)) :
    index.Serves (index.indexedDocuments scheme classifier crawlRoot tree summary.failed)
      shared.built := by
  obtain ⟨-, sound, -⟩ := holdsDeposits_of_build builds.hosted builds.named builds.keepsKeys
    builds.sizes builds.succeeds
  obtain ⟨holds, -⟩ :=
    shared.holds builds.hosted builds.named builds.keepsKeys builds.sizes builds.nodup_keys
  rw [← builds.map_deposited] at texts tags ⊢
  exact holds.serves sound builds.nodup_keys (fun _ => text_of_stored) builds.generations texts tags

/-- **No answer tells who has built.**  Whatever the number of threads and workers, and whatever the
order in which they go on, every run of calls is answered from what threads have built as from what
is built one thing after another, with or without the query cache. -/
theorem SharedBuild.answerAfter_eq
    (builds : index.Builds scheme classifier crawlRoot location tree summary built)
    (shared : index.SharedBuild scheme classifier crawlRoot tree)
    (texts : index.WithinShards IndexedDocument.trigrams
      (index.indexedDocuments scheme classifier crawlRoot tree summary.failed))
    (tags : index.WithinShards (fun document => document.record.tagTrigrams)
      (index.indexedDocuments scheme classifier crawlRoot tree summary.failed))
    (same : searcher.index = index) (earlier : List Call) (call : Call) :
    (searcher.answerAfter earlier call shared.built).1 =
      (searcher.answerAfter earlier call built).1 := by
  obtain ⟨holds, sound, -⟩ := holdsDeposits_of_build builds.hosted builds.named builds.keepsKeys
    builds.sizes builds.succeeds
  obtain ⟨holds', -⟩ :=
    shared.holds builds.hosted builds.named builds.keepsKeys builds.sizes builds.nodup_keys
  exact (builds.serves texts tags).answerAfter_eq (shared.serves builds texts tags)
    (holds.shuffled.isReady sound) (holds'.isReady sound) same earlier call

end Index
end SourceSearch
