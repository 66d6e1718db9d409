import SourceSearch.Proofs.Search.LostRecords
import SourceSearch.Proofs.Search.Repeated
import SourceSearch.Proofs.Search.Served

/-!
# Damaged entries of the query cache

The answer to a call is kept in two records: its documents and their previews.  If the documents
cannot be read, the search is run again and nothing is lost but time.  If only the previews cannot
be read, the search is not run again: the documents are given with their records, and without the
previews that they had.
-/

namespace SourceSearch

/-- A result as it is given when its preview was not remembered. -/
def Hit.unshown (hit : Hit) : Hit := { hit with preview := .empty }

theorem Hit.map_unshown_eq_iff {hits : List Hit} :
    hits.map Hit.unshown = hits ↔ ∀ hit ∈ hits, hit.preview = .empty := by
  have each : hits.map Hit.unshown = hits.map id ↔ ∀ hit ∈ hits, hit.unshown = hit :=
    List.map_inj_left
  rw [List.map_id] at each
  refine each.trans (forall₂_congr fun hit _ => ⟨fun same => ?_, fun empty => ?_⟩)
  · exact (congrArg Hit.preview same).symm
  · rw [unshown, ← empty]

namespace FileTree

variable {tree damaged : FileTree} {may : Location → ByteArray → Prop} {places : List Location}
  {location : Location} {folder : String}

/-- No file that is altered becomes a link. -/
theorem DiffersAt.linkless (differs : DiffersAt may tree places damaged)
    (linkless : tree.Linkless location folder) : damaged.Linkless location folder := by
  intro names target link
  by_cases member : location ++ folder :: names ∈ places
  · obtain ⟨content, -, file⟩ := differs.left _ member _ link
    cases file
  · rw [differs.kept _ member] at link
    exact linkless names target link

end FileTree

namespace Index

variable {index : Index} {location : Location} {tree after kept damaged : FileTree}
  {searcher later : Searcher} {call : Call} {key query : String} {hits : List Hit}

/-! ## Damage -/

/-- An entry has been damaged, whatever has become of other entries: each of its two records is read
as before, or it cannot be read. -/
structure Damages (index : Index) (location : Location) (key : String)
    (kept damaged : FileTree) : Prop where
  /-- Nothing but the query cache has changed. -/
  agrees : kept.AgreesOutside location [queriesFolder] damaged
  /-- The documents. -/
  result : index.queries.result? damaged key = none ∨
    index.queries.result? damaged key = index.queries.result? kept key
  /-- The previews. -/
  previews : index.queries.previews? damaged key = none ∨
    index.queries.previews? damaged key = index.queries.previews? kept key

/-- What can be read neither as documents nor as previews where these have their place. -/
def NoEntry (location place : Location) (content : ByteArray) : Prop :=
  (IsRecordPlace location queriesFolder resultSuffix place →
    Json.decodeBytes? Json.toTexts? content = none) ∧
  (IsRecordPlace location queriesFolder previewSuffix place →
    Json.decodeBytes? QueryStore.decodePreviews? content = none)

section Altered

variable {may : Location → ByteArray → Prop} {places : List Location}
  (differs : FileTree.DiffersAt may kept places damaged) {suffix : String}

include differs

theorem record?_of_notMem (apart : ∀ names, Store.place? key suffix = some names →
      location ++ queriesFolder :: names ∉ places) :
    damaged.record? location queriesFolder key suffix =
      kept.record? location queriesFolder key suffix := by
  rw [FileTree.record?, FileTree.record?]
  cases placed : Store.place? key suffix with
  | none => rfl
  | some names => exact differs.fileAt?_eq (apart names placed)

variable {α : Type} {decode : Json → Option α}
  (unreadable : ∀ place content, IsRecordPlace location queriesFolder suffix place →
    may place content → Json.decodeBytes? decode content = none)

include unreadable

/-- Nothing else is read from what is left. -/
theorem cached?_of_lost :
    cached? location damaged decode key suffix = none ∨
      cached? location damaged decode key suffix = cached? location kept decode key suffix := by
  cases read : cached? location damaged decode key suffix with
  | none => exact .inl rfl
  | some value =>
      obtain ⟨content, held, decodes⟩ := Option.bind_eq_some_iff.mp read
      refine .inr ?_
      rw [cached?, record?_of_lost differs unreadable held decodes, Option.bind_some, decodes]

/-- Nothing is read where it was altered. -/
theorem cached?_of_mem {names : List String} (placed : Store.place? key suffix = some names)
    (member : location ++ queriesFolder :: names ∈ places) :
    cached? location damaged decode key suffix = none := by
  rw [cached?, FileTree.record?, placed, Option.bind_some, Option.bind_eq_none_iff]
  intro content held
  exact unreadable _ content ⟨key, names, placed, rfl⟩ (differs.may_of_fileAt? member held)

end Altered

/-- Files of the query cache that are deleted, or overwritten with what cannot be read, damage the
entries that they belong to. -/
theorem Unlinked.damages (unlinked : index.Unlinked location keptFolders kept)
    {places : List Location} (alters : kept.Alters (NoEntry location) places damaged)
    (entries : ∀ place ∈ places, location ++ [queriesFolder] <+: place) (query : String) :
    index.Damages location (cacheKey query) kept damaged ∧
      index.Unlinked location keptFolders damaged := by
  have differs := alters.differsAt
  have agrees : kept.AgreesOutside location [queriesFolder] damaged :=
    differs.agrees fun place member => ⟨queriesFolder, by simp, entries place member⟩
  have unlinked' : index.Unlinked location keptFolders damaged := {
    hosts := unlinked.hosts.of_agrees (agrees.mono (by decide))
    linkless := fun folder member => differs.linkless (unlinked.linkless folder member)
    cleared := unlinked.cleared }
  refine ⟨⟨agrees, ?_, ?_⟩, unlinked'⟩
  · rw [result?_eq_of_reads (unlinked'.readsQuery (by simp) query),
      result?_eq_of_reads (unlinked.readsQuery (by simp) query)]
    exact cached?_of_lost differs fun _ _ place lost => lost.1 place
  · rw [previews?_eq_of_reads (unlinked'.readsQuery (by simp) query),
      previews?_eq_of_reads (unlinked.readsQuery (by simp) query)]
    exact cached?_of_lost differs fun _ _ place lost => lost.2 place

/-- The previews of an entry can be lost while its documents stay. -/
theorem IsKept.exists_unshown (kept : index.IsKept location (cacheKey query) hits after) :
    ∃ damaged, index.Damages location (cacheKey query) after damaged ∧
      (index.queries.result? damaged (cacheKey query)).isSome ∧
      index.queries.previews? damaged (cacheKey query) = none := by
  have previews := kept.previews
  rw [previews?_eq_of_reads (kept.readsQuery (by simp) query), cached?, FileTree.record?]
    at previews
  obtain ⟨content, held, -⟩ := Option.bind_eq_some_iff.mp previews
  obtain ⟨names, placed, file⟩ := Option.bind_eq_some_iff.mp held
  obtain ⟨shard, -, rfl⟩ := Store.place?_eq_some_iff.mp placed
  -- The place of the previews, split before its last name.
  have split : location ++ queriesFolder :: [shard, cacheKey query ++ previewSuffix] =
      (location ++ [queriesFolder, shard]) ++ [cacheKey query ++ previewSuffix] := by simp
  have alters := (FileTree.Alters.none : after.Alters (NoEntry location) [] after).delete
    (FileTree.fileAt?_eq_some_iff.mp (split ▸ file))
  rw [← split] at alters
  obtain ⟨damages, unlinked⟩ := kept.damages alters (by simp) query
  refine ⟨_, damages, ?_, ?_⟩
  · rw [result?_eq_of_reads (unlinked.readsQuery (by simp) query), cached?,
      record?_of_notMem alters.differsAt, ← cached?,
      ← result?_eq_of_reads (kept.readsQuery (by simp) query), kept.result, Option.isSome_some]
    intro names result same
    rw [List.mem_singleton, List.append_cancel_left_eq, List.cons.injEq] at same
    exact Store.place?_ne_of_apart suffixesApart_remembered.2 placed (same.2 ▸ result)
  · rw [previews?_eq_of_reads (unlinked.readsQuery (by simp) query)]
    exact cached?_of_mem alters.differsAt (fun _ _ place lost => lost.2 place) placed
      (List.mem_singleton_self _)

/-! ## Answers from what is left -/

/-- Where nothing but the query cache has changed, a search that is run again finds the same. -/
theorem Unlinked.fresh_eq (unlinked : index.Unlinked location clearedFolders tree)
    (agrees : tree.AgreesOutside location [queriesFolder] damaged) (call : Call) :
    index.fresh damaged call = index.fresh tree call := by
  have keeps := unlinked.keepsRecords agrees (by decide) (by decide)
  have finds :=
    candidates?_congr (fun _ member => unlinked.search_beside_queries agrees member) call
  rw [Index.fresh_eq, Index.fresh_eq, finds, keeps.passing, keeps.hit]

/-- Without previews the same documents are remembered. -/
theorem map_unshown_rememberedResults (previews : Previews) (keys : List DocumentKey) :
    (index.rememberedResults tree previews keys).map Hit.unshown =
      index.rememberedResults tree .empty keys := by
  induction keys generalizing previews with
  | nil => rfl
  | cons key rest ih =>
      rw [rememberedResults, rememberedResults, List.map_cons, ih]
      rfl

/-- What is remembered of an answer whose entry has been damaged. -/
theorem IsKept.remembered?_of_damages (kept : index.IsKept location key hits after)
    (caches : index.config.useQueryCache = true)
    (damages : index.Damages location key after damaged) :
    index.remembered? damaged key =
      (index.queries.result? damaged key).map fun _ =>
        if (index.queries.previews? damaged key).isSome then hits else hits.map Hit.unshown := by
  have remembered := kept.remembered
  rw [remembered?, if_pos caches, kept.result, kept.previews, Option.map_some, Option.getD_some,
    Option.some.injEq] at remembered
  rw [remembered?, if_pos caches]
  rcases damages.result with lost | same
  · rw [lost, Option.map_none, Option.map_none]
  · rw [same, kept.result, Option.map_some, Option.map_some, rememberedResults_congr
      (kept.load?_of_agrees damages.agrees (by decide) (by decide) (by decide))]
    rcases damages.previews with lost | same
    · rw [lost, Option.getD_none, ← map_unshown_rememberedResults (previewsOf hits), remembered,
        if_neg (by simp)]
    · rw [same, kept.previews, Option.getD_some, remembered, if_pos (by simp)]

/-- A call that has no entry is answered as without the query cache. -/
theorem answer_of_unknown (same : searcher.index = index)
    (unknown : index.queries.result? tree call.key = none) :
    (searcher.answer call tree).1.1 = index.fresh tree call := by
  subst same
  rw [fresh_eq]
  cases finds : searcher.index.candidates? tree call with
  | error failure => rw [answer_of_error searcher finds, Except.map]
  | ok found =>
      obtain ⟨_, -, answers⟩ :=
        answer_of_forgotten searcher finds (remembered?_of_no_result unknown)
      rw [answers, Except.map]

/-- **Damaged entries.**  The answer to a call was kept, and its entry is damaged afterwards while
the index stays.  If the documents of the entry cannot be read, the call is answered as without the
query cache.  If only its previews cannot be read, it is answered by the same documents without
previews: so the damage costs time only, exactly unless some document had a preview. -/
theorem CanKeep.answer_of_damages (can : index.CanKeep location tree)
    (unlinked : index.Unlinked location clearedFolders tree) (same : searcher.index = index)
    (unknown : index.queries.result? tree call.key = none) (written : index.CanWrite tree call)
    (first : searcher.answer call tree = ((.ok hits, later), after))
    (stored : (index.queries.result? after call.key).isSome)
    (damages : index.Damages location call.key after damaged) :
    index.fresh damaged call = .ok hits ∧
      (later.answer call damaged).1.1 =
        .ok (if (index.queries.result? damaged call.key).isSome ∧
            index.queries.previews? damaged call.key = none then hits.map Hit.unshown else hits) ∧
      ((later.answer call damaged).1.1 = index.fresh damaged call ↔
        index.queries.result? damaged call.key = none ∨
          (index.queries.previews? damaged call.key).isSome ∨
            ∀ hit ∈ hits, hit.preview = .empty) := by
  obtain ⟨_, _, answers, later_index, settled⟩ := can.answer_elim same unknown written
  obtain ⟨outcome, rfl⟩ := Prod.mk.inj (first.symm.trans answers)
  obtain ⟨fresh, rfl⟩ := Prod.mk.inj outcome
  rcases settled with ⟨-, rfl⟩ | ⟨others, fresh', agrees, kept⟩
  · rw [unknown] at stored
    cases stored
  obtain rfl : hits = others := Except.ok.inj (fresh.trans fresh')
  have again : index.fresh damaged call = .ok hits :=
    (unlinked.fresh_eq (agrees.trans damages.agrees) call).trans fresh'
  have remembered := kept.remembered?_of_damages can.caches damages
  have answered : (later.answer call damaged).1.1 =
      .ok (if (index.queries.result? damaged call.key).isSome ∧
        index.queries.previews? damaged call.key = none then hits.map Hit.unshown else hits) := by
    cases result : index.queries.result? damaged call.key with
    | none => rw [answer_of_unknown later_index result, again, if_neg (by simp)]
    | some keys =>
        obtain ⟨found, finds⟩ :=
          exists_candidates (compiles_of_fresh fresh') later.index damaged
        rw [result, Option.map_some, ← later_index] at remembered
        rw [answer_of_remembered finds remembered, later_index]
        cases index.queries.previews? damaged call.key <;> simp
  refine ⟨again, answered, ?_⟩
  rw [answered, again, Except.ok.injEq]
  split
  · rename_i unshown
    rw [Hit.map_unshown_eq_iff]
    simp [unshown.2, Option.isSome_iff_ne_none.mp unshown.1]
  · rename_i shown
    refine iff_of_true rfl ?_
    rw [not_and, Option.isSome_iff_ne_none] at shown
    by_cases result : index.queries.result? damaged call.key = none
    · exact .inl result
    · exact .inr (.inl (Option.isSome_iff_ne_none.mpr (shown result)))

/-- In the sample the results of a search are previewed. -/
theorem exists_preview_sample {built : FileTree}
    (represents : cachingIndex.Represents ["index"] sampleDocuments built)
    (serves : cachingIndex.Serves sampleDocuments built)
    (fresh : cachingIndex.fresh built (.ofTerm "abc") = .ok hits) :
    ∃ hit ∈ hits, hit.preview ≠ .empty := by
  obtain ⟨listed, answers, lists⟩ :=
    represents.lists_fresh_ofTerm (by decide) (withinShards_sample _) "abc"
  obtain rfl : hits = listed := Except.ok.inj (fresh.symm.trans answers)
  obtain ⟨document, member⟩ := exists_mem_sampleDocuments
  obtain ⟨hit, inside, same, -⟩ := (lists.exact document.key (some document.record)).mpr
    ⟨document, member, ⟨by decide, by rw [hasText_sample member]; decide⟩, rfl, rfl⟩
  refine ⟨hit, inside, ?_⟩
  rw [Index.fresh_eq, candidates?, Except.map, Except.ok.injEq] at fresh
  rw [← fresh] at inside
  obtain ⟨key, -, rfl⟩ := List.mem_map.mp inside
  obtain rfl : key = document.key := same
  have shown : (cachingIndex.hit built (Call.ofTerm "abc").shown? document.key).preview =
      cachingIndex.preview built (lowercase "abc") document.key := rfl
  rw [shown, preview, serves.copies document member, text_of_mem_sampleDocuments member]
  decide

/-- In the sample the previews of the answer to a search are lost. -/
theorem answer_of_damages_sample : ∃ built hits later after damaged,
    cachingIndex.CanKeep ["index"] built ∧
      cachingIndex.Unlinked ["index"] clearedFolders built ∧
      cachingIndex.queries.result? built (Call.ofTerm "abc").key = none ∧
      cachingIndex.CanWrite built (.ofTerm "abc") ∧
      Searcher.answer { index := cachingIndex } (.ofTerm "abc") built =
        ((.ok hits, later), after) ∧
      (cachingIndex.queries.result? after (Call.ofTerm "abc").key).isSome ∧
      cachingIndex.Damages ["index"] (Call.ofTerm "abc").key after damaged ∧
      (later.answer (.ofTerm "abc") damaged).1.1 = .ok (hits.map Hit.unshown) ∧
      (later.answer (.ofTerm "abc") damaged).1.1 ≠ cachingIndex.fresh damaged (.ofTerm "abc") := by
  obtain ⟨summary, built, failed, builds⟩ := builds_cachingIndex
  have represents := builds.represents.1
  have served := indexedDocuments_cachingIndex failed
  rw [served] at represents
  have serves := builds.serves (served ▸ withinShards_sample _) (served ▸ withinShards_sample _)
  rw [served] at serves
  have stands := represents.stands
  have can := stands.canKeep represents.copies rfl
  have same : Searcher.index { index := cachingIndex } = cachingIndex := rfl
  have unknown := stands.result?_eq_none represents.noResults (Call.ofTerm "abc").key
  obtain ⟨hits, later, after, fresh, first, kept⟩ := exists_kept_sample represents
  have stored : (cachingIndex.queries.result? after (Call.ofTerm "abc").key).isSome := by
    rw [kept.result, Option.isSome_some]
  obtain ⟨damaged, damages, result, unread⟩ : ∃ damaged,
      cachingIndex.Damages ["index"] (Call.ofTerm "abc").key after damaged ∧
        (cachingIndex.queries.result? damaged (Call.ofTerm "abc").key).isSome ∧
        cachingIndex.queries.previews? damaged (Call.ofTerm "abc").key = none :=
    kept.exists_unshown
  obtain ⟨again, answer, timeOnly⟩ := can.answer_of_damages stands.unlinked same unknown
    (stands.canWrite _) first stored damages
  refine ⟨built, hits, later, after, damaged, can, stands.unlinked, unknown, stands.canWrite _,
    first, stored, damages, answer.trans (by rw [if_pos ⟨result, unread⟩]), fun equal => ?_⟩
  obtain ⟨hit, inside, shown⟩ := exists_preview_sample represents serves fresh
  rcases timeOnly.mp equal with lost | read | empty
  · rw [lost] at result
    cases result
  · rw [unread] at read
    cases read
  · exact shown (empty hit inside)

end Index
end SourceSearch
