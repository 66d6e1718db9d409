import SourceSearch.Proofs.Search.Transparency

/-!
# Calls that are repeated

A call that finds nothing in the query cache is answered from the index as it is, damaged or not.
If every candidate could be judged, its answer is kept, and when the call is repeated it is answered
by what was kept; else nothing has changed, and it is answered from the same index once more.  Only
the records of documents are read beside an answer that was kept, so it outlives all changes to
postings, words and copies.
-/

namespace SourceSearch
namespace Index

variable {index : Index} {location : Location} {tree after changed : FileTree}
  {searcher later : Searcher} {call : Call} {key : String} {hits : List Hit}

/-- The folders that are read for an answer that was kept. -/
def keptFolders : List String := [queriesFolder, metadataFolder]

/-- The folders that are not read for it any more. -/
def spentFolders : List String := [textFolder, tagFolder, wordlistsFolder, documentsFolder]

/-- The index can keep answers, whatever its records and shards hold. -/
structure CanKeep (index : Index) (location : Location) (tree : FileTree) : Prop
    extends index.Unlinked location keptFolders tree where
  /-- Answers are kept. -/
  caches : index.config.useQueryCache = true
  /-- The lines of texts can be numbered in a record. -/
  numbered : index.HasNumberedTexts tree

/-- No write fails that keeps the answer to a call. -/
def CanWrite (index : Index) (tree : FileTree) (call : Call) : Prop :=
  ∀ hits, index.settles tree call = true → index.fresh tree call = .ok hits →
    ((index.rememberTask call.key hits).runOn tree).1 = .ok ()

/-- An answer is kept under a key: both of its records are there, and they give it back. -/
structure IsKept (index : Index) (location : Location) (key : String) (hits : List Hit)
    (tree : FileTree) : Prop
    extends index.Unlinked location keptFolders tree where
  /-- Its documents are read. -/
  result : index.queries.result? tree key = some (hits.map Hit.documentKey)
  /-- Its previews are read. -/
  previews : index.queries.previews? tree key = some (previewsOf hits)
  /-- It is found. -/
  remembered : index.remembered? tree key = some hits

theorem Stands.canKeep (stands : index.Stands location tree)
    (copies : HasNumberedCopies location tree) (caches : index.config.useQueryCache = true) :
    index.CanKeep location tree where
  toUnlinked := stands.unlinked.mono (by decide)
  caches := caches
  numbered := stands.hasNumberedTexts copies

theorem Stands.canWrite (stands : index.Stands location tree) (call : Call) :
    index.CanWrite tree call := by
  intro hits _ _
  obtain ⟨after, run, -⟩ := stands.runOn_rememberTask call.text hits
  exact congrArg Prod.fst run

/-! ## Keeping an answer -/

namespace Unlinked

variable (unlinked : index.Unlinked location keptFolders tree)

include unlinked

theorem readsQuery {suffix : String} (member : suffix ∈ [resultSuffix, previewSuffix])
    (query : String) :
    Store.Reads tree index.root location queriesFolder (cacheKey query) suffix := by
  obtain ⟨entries, found⟩ := unlinked.hosts.find
  obtain ⟨names, placed, proper⟩ :=
    (Digest.isHexKey_cacheKey query).place? (isShortSuffix_remembered member)
  refine Store.reads_of_isName found (unlinked.linkless queriesFolder (by decide))
    fun others same => ?_
  obtain rfl := Option.some.inj (placed.symm.trans same)
  exact List.forall_mem_cons.mpr ⟨isName_of_mem (by decide), proper⟩

/-- What is kept is found after any change to the folders that are not read any more. -/
theorem remembered?_of_agrees (agrees : tree.AgreesOutside location spentFolders changed)
    (key : String) : index.remembered? changed key = index.remembered? tree key := by
  have cleared : ∀ folder ∈ spentFolders, folder ∈ clearedFolders := by decide
  have same {suffix : String} (member : suffix ∈ [resultSuffix, previewSuffix]) :
      index.queries.ReadsSame tree changed key suffix :=
    unlinked.readsSame_of_agrees agrees cleared (by decide) (by decide) rfl
      (isShortSuffix_remembered member).toIsSuffix key
  exact remembered?_congr (QueryStore.result?_congr (same (by simp)))
    (QueryStore.previews?_congr (same (by simp)))
    (unlinked.load?_of_agrees agrees cleared (by decide) (by decide))

/-- Writes that succeed record an answer. -/
theorem recorded_of_written {query : String}
    (run : (index.rememberTask (cacheKey query) hits).runOn tree = (.ok (), after)) :
    index.Unlinked location keptFolders after ∧
      Recorded location (cacheKey query) hits tree after := by
  obtain ⟨_, between, first, second⟩ := TaskM.bind_ok_iff.mp run
  have own : queriesFolder ∈ ownNames := by decide
  have plain := (isName_of_mem own).toIsPlain
  obtain ⟨agrees, linkless, sets⟩ := Store.setsRecord unlinked.hosts own
    (unlinked.linkless queriesFolder (by decide)) rfl plain
    (isShortSuffix_remembered (by simp)).toIsSuffix first
  have hosts := unlinked.hosts.of_agrees (agrees.mono (by simpa using own))
  obtain ⟨agrees', linkless', sets'⟩ := Store.setsRecord hosts own linkless rfl plain
    (isShortSuffix_remembered (by simp)).toIsSuffix second
  have whole := agrees.trans agrees'
  refine ⟨⟨hosts.of_agrees (agrees'.mono (by simpa using own)), ?_, unlinked.cleared⟩,
    recorded_of_sets whole sets sets'⟩
  simp only [keptFolders, List.forall_mem_cons]
  exact ⟨linkless',
    (unlinked.linkless metadataFolder (by decide)).of_agrees whole (by decide), by simp⟩

end Unlinked

/-- **Keeping.**  An answer that is written is found under its key: the documents in their order,
with their previews and the records that they had. -/
theorem CanKeep.isKept (can : index.CanKeep location tree) {query : String}
    {term : Option String} {keys : List DocumentKey} (distinct : keys.Nodup)
    (run : (index.rememberTask (cacheKey query) (keys.map (index.hit tree term))).runOn tree =
      (.ok (), after)) :
    index.IsKept location (cacheKey query) (keys.map (index.hit tree term)) after := by
  obtain ⟨unlinked, recorded⟩ := can.recorded_of_written run
  have result : index.queries.result? after (cacheKey query) = some _ :=
    (result?_eq_of_reads (unlinked.readsQuery (by simp) query)).trans recorded.cached?_result
  have previews : index.queries.previews? after (cacheKey query) = some _ :=
    (previews?_eq_of_reads (unlinked.readsQuery (by simp) query)).trans
      (recorded.cached?_previews can.numbered)
  refine ⟨unlinked, result, previews, ?_⟩
  rw [remembered?, if_pos can.caches, result, previews, Option.map_some, Option.getD_some,
    map_documentKey_hit,
    rememberedResults_congr
      (can.load?_of_agrees recorded.agrees (by decide) (by decide) (by decide)),
    rememberedResults_eq distinct fun key member => getD_find?_previewsOf member]

/-! ## Asking again -/

/-- A call without an entry is answered as without the query cache, and its answer is kept exactly
if every candidate could be judged; else nothing changes. -/
theorem CanKeep.answer_elim (can : index.CanKeep location tree) (same : searcher.index = index)
    (unknown : index.queries.result? tree call.key = none) (written : index.CanWrite tree call) :
    ∃ later after,
      searcher.answer call tree = ((index.fresh tree call, later), after) ∧ later.index = index ∧
      ((index.settles tree call = false ∧ after = tree) ∨
        ∃ hits, index.fresh tree call = .ok hits ∧
          tree.AgreesOutside location [queriesFolder] after ∧
          index.IsKept location call.key hits after) := by
  subst same
  cases finds : searcher.index.candidates? tree call with
  | error failure =>
      refine ⟨searcher, tree, ?_, rfl, .inl ⟨?_, rfl⟩⟩
      · rw [answer_of_error searcher finds, fresh_eq, finds, Except.map]
      · rw [settles, finds]
  | ok found =>
      obtain ⟨later, kept, answers⟩ :=
        answer_of_forgotten searcher finds (remembered?_of_no_result unknown)
      have fresh : searcher.index.fresh tree call =
          .ok ((searcher.index.passing tree call found).map
            (searcher.index.hit tree call.shown?)) := by rw [fresh_eq, finds, Except.map]
      rw [can.caches, Bool.true_and, remember_eq] at answers
      cases settles : searcher.index.settles tree call with
      | false =>
          rw [settles, if_neg Bool.false_ne_true] at answers
          exact ⟨later, tree, answers.trans (by rw [fresh]), kept, .inl ⟨rfl, rfl⟩⟩
      | true =>
          have succeeded := written _ settles fresh
          rcases run : (searcher.index.rememberTask call.key
            ((searcher.index.passing tree call found).map
              (searcher.index.hit tree call.shown?))).runOn tree with ⟨outcome, after⟩
          rw [run] at succeeded
          obtain rfl : outcome = .ok () := succeeded
          rw [settles, if_pos rfl, run] at answers
          exact ⟨later, after, answers.trans (by rw [fresh]), kept, .inr ⟨_, fresh,
            (can.recorded_of_written run).2.agrees,
            can.isKept (found.nodup.sublist List.filter_sublist) run⟩⟩

/-- A kept answer is given, whatever has changed in the folders that are not read any more. -/
theorem IsKept.answer_eq (kept : index.IsKept location call.key hits tree)
    (same : searcher.index = index) (compiles : call.compiles = true)
    (agrees : tree.AgreesOutside location spentFolders changed) :
    (searcher.answer call changed).1.1 = .ok hits := by
  subst same
  obtain ⟨found, finds⟩ := exists_candidates compiles searcher.index changed
  rw [answer_of_remembered finds ((kept.remembered?_of_agrees agrees _).trans kept.remembered)]

/-- **Repeated calls.**  An index, damaged or not, has no entry for a call.  If no write of the
answer fails, the same call is given an equal answer right afterwards.  If the answer was kept, it
is given as well after any change to postings, words and copies. -/
theorem CanKeep.answer_again (can : index.CanKeep location tree) (same : searcher.index = index)
    (unknown : index.queries.result? tree call.key = none) (written : index.CanWrite tree call)
    {answer : Except Failure (List Hit)}
    (first : searcher.answer call tree = ((answer, later), after)) :
    (later.answer call after).1.1 = answer ∧
      ((index.queries.result? after call.key).isSome → ∀ changed,
        after.AgreesOutside location spentFolders changed →
          (later.answer call changed).1.1 = answer) := by
  obtain ⟨_, _, answers, later_index, settled⟩ := can.answer_elim same unknown written
  cases first.symm.trans answers
  rcases settled with ⟨-, rfl⟩ | ⟨hits, fresh, -, kept⟩
  · obtain ⟨_, _, again, -⟩ := can.answer_elim later_index unknown written
    refine ⟨by rw [again], fun stored => ?_⟩
    rw [unknown] at stored
    cases stored
  · have compiles := compiles_of_fresh fresh
    have answered (changed : FileTree)
        (agrees : after.AgreesOutside location spentFolders changed) :
        (later.answer call changed).1.1 = index.fresh tree call :=
      (kept.answer_eq later_index compiles agrees).trans fresh.symm
    exact ⟨answered after (.refl _ _ _), fun _ => answered⟩

/-- In the sample the answer to the first search is kept. -/
theorem exists_kept_sample {built : FileTree}
    (represents : cachingIndex.Represents ["index"] sampleDocuments built) :
    ∃ hits later after, cachingIndex.fresh built (.ofTerm "abc") = .ok hits ∧
      Searcher.answer { index := cachingIndex } (.ofTerm "abc") built =
        ((.ok hits, later), after) ∧
      cachingIndex.IsKept ["index"] (Call.ofTerm "abc").key hits after := by
  have stands := represents.stands
  have can := stands.canKeep represents.copies rfl
  have same : Searcher.index { index := cachingIndex } = cachingIndex := rfl
  have unknown := stands.result?_eq_none represents.noResults (Call.ofTerm "abc").key
  have settles : cachingIndex.settles built (.ofTerm "abc") = true :=
    represents.settles_ofTerm (by decide) (withinShards_sample _) "abc"
  obtain ⟨later, after, first, -, settled⟩ := can.answer_elim same unknown (stands.canWrite _)
  obtain ⟨hits, fresh, -, kept⟩ :=
    settled.resolve_left fun unsettled => Bool.false_ne_true (unsettled.1.symm.trans settles)
  exact ⟨hits, later, after, fresh, first.trans (by rw [fresh]), kept⟩

theorem answer_again_sample : ∃ built answer later after,
    cachingIndex.CanKeep ["index"] built ∧
      cachingIndex.queries.result? built (Call.ofTerm "abc").key = none ∧
      cachingIndex.CanWrite built (.ofTerm "abc") ∧
      Searcher.answer { index := cachingIndex } (.ofTerm "abc") built = ((answer, later), after) ∧
      (later.answer (.ofTerm "abc") after).1.1 = answer ∧
      (cachingIndex.queries.result? after (Call.ofTerm "abc").key).isSome ∧
      ∀ changed, after.AgreesOutside ["index"] spentFolders changed →
        (later.answer (.ofTerm "abc") changed).1.1 = answer := by
  obtain ⟨built, represents⟩ := represents_cachingIndex
  have stands := represents.stands
  have can := stands.canKeep represents.copies rfl
  have same : Searcher.index { index := cachingIndex } = cachingIndex := rfl
  have unknown := stands.result?_eq_none represents.noResults (Call.ofTerm "abc").key
  obtain ⟨hits, later, after, -, first, kept⟩ := exists_kept_sample represents
  have stored : (cachingIndex.queries.result? after (Call.ofTerm "abc").key).isSome := by
    rw [kept.result, Option.isSome_some]
  obtain ⟨again, lasting⟩ := can.answer_again same unknown (stands.canWrite _) first
  exact ⟨built, .ok hits, later, after, can, unknown, stands.canWrite _, first, again, stored,
    lasting stored⟩

end Index
end SourceSearch
