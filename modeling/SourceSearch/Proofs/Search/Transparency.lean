import SourceSearch.Proofs.Search.Recall

/-!
# When the query cache is transparent

The key of a call is a digest of its text with blanks and case evened out, but a search looks for
the term as it is, and class tags are told apart by case.  So calls with one key may have different
answers, and then the first of them answers for all.  A run is answered as without the cache exactly
if calls that meet under a key have the same answer.
-/

namespace SourceSearch

/-- A property of each entry and all entries before it is one of ordered pairs. -/
theorem pairwise_iff_split {α : Type} {r : α → α → Prop} {l : List α} :
    l.Pairwise r ↔ ∀ front a back, l = front ++ a :: back → ∀ first ∈ front, r first a := by
  constructor
  · rintro pairwise front a back rfl first member
    exact (List.pairwise_append.mp pairwise).2.2 first member a List.mem_cons_self
  · intro split
    induction l with
    | nil => exact .nil
    | cons first rest ih =>
        refine .cons (fun a member => ?_) (ih fun front a back whole other member => ?_)
        · obtain ⟨front, back, whole⟩ := List.append_of_mem member
          exact split (first :: front) a back (by rw [whole]; rfl) first List.mem_cons_self
        · exact split (first :: front) a back (by rw [whole]; rfl) other
            (List.mem_cons_of_mem _ member)

theorem cacheKey_congr {first later : String} (same : cacheText first = cacheText later) :
    cacheKey first = cacheKey later := by
  rw [cacheKey, same, cacheKey]

/-- The documents of an answer with their records, without previews. -/
def withoutPreviews (answer : Except Failure (List Hit)) :
    Except Failure (List (DocumentKey × Option Metadata)) :=
  answer.map (List.map fun hit => (hit.documentKey, hit.metadata))

namespace Index

variable {index : Index} {location : Location} {tree : FileTree} {searcher : Searcher}
  {front : List Call} {call : Call}

/-- The calls of a run are answered as without the query cache. -/
def Transparent (searcher : Searcher) (tree : FileTree) (calls : List Call) : Prop :=
  ∀ front call back, calls = front ++ call :: back →
    (searcher.answerAfter front call tree).1 = searcher.index.fresh tree call

theorem rememberedCall_append (later : List Call) (key : String) :
    index.rememberedCall tree (front ++ later) key =
      (index.rememberedCall tree front key).or (index.rememberedCall tree later key) :=
  List.find?_append

theorem rememberedCall_cons_of_settles (settles : index.settles tree call = true)
    (rest : List Call) : index.rememberedCall tree (call :: rest) call.key = some call :=
  List.find?_cons_of_pos (by rw [settles]; simp)

theorem isOk_candidates_of_settles (settles : index.settles tree call = true) :
    (index.candidates? tree call).isOk = true := by
  rw [Index.settles] at settles
  cases finds : index.candidates? tree call with
  | ok found => rfl
  | error failure =>
      rw [finds] at settles
      cases settles

theorem source_of_rememberedCall {first : Call} (finds : (index.candidates? tree call).isOk = true)
    (recalled : index.rememberedCall tree front call.key = some first) :
    index.source tree front call = first := by
  rw [source, recalled]
  cases found : index.candidates? tree call with
  | ok documents => rfl
  | error failure =>
      rw [found] at finds
      cases finds

theorem source_cases (index : Index) (tree : FileTree) (front : List Call) (call : Call) :
    index.source tree front call = call ∨ (index.candidates? tree call).isOk = true ∧
      index.rememberedCall tree front call.key = some (index.source tree front call) := by
  rw [source]
  cases index.candidates? tree call with
  | error failure => exact .inl rfl
  | ok found =>
      cases recalled : index.rememberedCall tree front call.key with
      | none => exact .inl rfl
      | some first => exact .inr ⟨rfl, rfl⟩

/-- A run is transparent exactly if calls have the same answer that meet under a key. -/
theorem IsReady.transparent_iff (ready : index.IsReady location tree)
    (same : searcher.index = index) (calls : List Call) :
    Transparent searcher tree calls ↔
      calls.Pairwise fun first later => first.key = later.key →
        index.settles tree first = true → (index.candidates? tree later).isOk = true →
          index.fresh tree first = index.fresh tree later := by
  subst same
  have answers := fun earlier call => ready.answerAfter_eq rfl earlier call
  rw [pairwise_iff_split]
  constructor
  · intro transparent front later back whole first member key settles finds
    -- The first call that left an answer under the key answers for both.
    obtain ⟨before, after, rfl⟩ := List.append_of_mem member
    have own := transparent before first (after ++ later :: back) (by simp [whole])
    have others := transparent (before ++ first :: after) later back whole
    have recalled : searcher.index.rememberedCall tree (before ++ first :: after) first.key =
        (searcher.index.rememberedCall tree before first.key).or (some first) := by
      rw [rememberedCall_append, rememberedCall_cons_of_settles settles]
    rw [answers] at own others
    cases earlier : searcher.index.rememberedCall tree before first.key with
    | none =>
        rw [earlier, Option.none_or, key] at recalled
        rwa [source_of_rememberedCall finds recalled] at others
    | some earliest =>
        rw [earlier, Option.some_or, key] at recalled
        rw [source_of_rememberedCall (isOk_candidates_of_settles settles) earlier] at own
        rw [source_of_rememberedCall finds recalled] at others
        exact own.symm.trans others
  · intro pairs front later back whole
    rw [answers]
    rcases source_cases searcher.index tree front later with source | ⟨finds, recalled⟩
    · rw [source]
    · obtain ⟨member, key, settles⟩ := settles_of_rememberedCall recalled
      exact pairs front later back whole _ member key settles finds

/-- **Term searches.**  A run of searches is answered as without the query cache exactly if terms
with one key have the same answer, as far as the first of them leaves it.  That is so for terms
which are in the form that the key is made from. -/
theorem searches_transparent_iff (ready : index.IsReady location tree)
    (same : searcher.index = index) (terms : List String) :
    (Transparent searcher tree (terms.map .ofTerm) ↔
      terms.Pairwise fun first later => cacheKey first = cacheKey later →
        index.settles tree (.ofTerm first) = true →
          index.fresh tree (.ofTerm first) = index.fresh tree (.ofTerm later)) ∧
    ((∀ first ∈ terms, ∀ later ∈ terms, cacheKey first = cacheKey later →
        cacheText first = cacheText later) →
      (∀ term ∈ terms, lowercase term = cacheText term) →
        Transparent searcher tree (terms.map .ofTerm)) := by
  have exact : Transparent searcher tree (terms.map .ofTerm) ↔
      terms.Pairwise fun first later => cacheKey first = cacheKey later →
        index.settles tree (.ofTerm first) = true →
          index.fresh tree (.ofTerm first) = index.fresh tree (.ofTerm later) := by
    rw [ready.transparent_iff same, List.pairwise_map]
    exact List.Pairwise.iff fun first later => by
      simp [Call.key, Call.text, candidates?, Except.isOk, Except.toBool]
  refine ⟨exact, fun apart plain => exact.mpr ?_⟩
  refine List.pairwise_of_forall_mem_list fun first member later member' key _ => fresh_congr ?_
  calc lowercase first
      = cacheText first := plain first member
    _ = cacheText later := apart first member later member' key
    _ = lowercase later := (plain later member').symm

theorem isOk_candidates_ofQuery (index : Index) (tree : FileTree) (query : Query) :
    (index.candidates? tree (.ofQuery query)).isOk = query.filter.isOk := by
  rw [candidates?]
  cases query.filter with
  | error failure => rw [Except.map]; rfl
  | ok filter => rw [Except.map]; rfl

/-- **Queries.**  Among searches and queries in any order, the queries find the same documents as
without the query cache exactly if the first call that left its answer under the key of a query,
be it a search or a query, finds the documents of the query.  That is so if no two different calls
have the same text but for blanks and case. -/
theorem queries_transparent_iff (ready : index.IsReady location tree)
    (same : searcher.index = index) (calls : List Call) :
    ((∀ front query back, calls = front ++ .ofQuery query :: back →
        withoutPreviews (searcher.answerAfter front (.ofQuery query) tree).1 =
          withoutPreviews (index.fresh tree (.ofQuery query))) ↔
      ∀ front query back, calls = front ++ .ofQuery query :: back → query.filter.isOk = true →
        ∀ first, index.rememberedCall tree front (cacheKey query.render) = some first →
          withoutPreviews (index.fresh tree first) =
            withoutPreviews (index.fresh tree (.ofQuery query))) ∧
    ((∀ first ∈ calls, ∀ later ∈ calls, first.key = later.key →
        cacheText first.text = cacheText later.text) →
      (∀ first ∈ calls, ∀ later ∈ calls, cacheText first.text = cacheText later.text →
        first = later) →
        ∀ front query back, calls = front ++ .ofQuery query :: back →
          (searcher.answerAfter front (.ofQuery query) tree).1 =
            index.fresh tree (.ofQuery query)) := by
  have answers := ready.answerAfter_eq same
  refine ⟨⟨?_, ?_⟩, ?_⟩
  · intro transparent front query back whole compiles first recalled
    have found := transparent front query back whole
    rw [← isOk_candidates_ofQuery index tree query] at compiles
    rwa [answers, source_of_rememberedCall compiles recalled] at found
  · intro alike front query back whole
    rw [answers]
    rcases source_cases index tree front (.ofQuery query) with source | ⟨finds, recalled⟩
    · rw [source]
    · rw [isOk_candidates_ofQuery] at finds
      exact alike front query back whole finds _ recalled
  · intro apart distinct front query back whole
    rw [answers]
    rcases source_cases index tree front (.ofQuery query) with source | ⟨-, recalled⟩
    · rw [source]
    · obtain ⟨member, key, -⟩ := settles_of_rememberedCall recalled
      have listed : index.source tree front (.ofQuery query) ∈ calls := by simp [whole, member]
      have listed' : Call.ofQuery query ∈ calls := by simp [whole]
      rw [distinct _ listed _ listed' (apart _ listed _ listed' key)]

/-! ## Built indexes -/

section Built

variable {documents : List IndexedDocument}

/-- In a built index every search leaves its answer. -/
theorem Represents.settles_ofTerm (represents : index.Represents location documents tree)
    (fits : index.config.maxShardGenerations ≤ Json.max32)
    (within : index.WithinShards IndexedDocument.trigrams documents) (term : String) :
    index.settles tree (.ofTerm term) = true := by
  rw [settles, candidates?]
  refine List.all_eq_true.mpr fun key member => ?_
  by_cases wide : 3 ≤ (lowercase term).length
  · have covers : Covers documents (fun document => document.hasText (lowercase term) = true)
        (Searcher.candidates { index } tree term).1 :=
      covers_text (represents.findsTexts fits within) wide
    obtain ⟨document, listed, rfl⟩ := covers.sound key member
    rw [judge, represents.recalls.wordsMatch?_eq listed, Option.isSome_some]
  · rw [candidates_of_short _ tree wide] at member
    exact absurd member SortedSet.not_mem_empty

/-- Without the cache a search in a built index lists the documents that have the term. -/
theorem Represents.lists_fresh_ofTerm (represents : index.Represents location documents tree)
    (fits : index.config.maxShardGenerations ≤ Json.max32)
    (within : index.WithinShards IndexedDocument.trigrams documents) (term : String) :
    ∃ hits, index.fresh tree (.ofTerm term) = .ok hits ∧
      Lists documents
        (fun document => 3 ≤ (lowercase term).length ∧ document.hasText (lowercase term) = true)
        hits := by
  obtain ⟨hits, later, run, lists⟩ :=
    (represents_uncached.mpr represents).lists_search rfl fits within
      { index := index.uncached } rfl term
  refine ⟨hits, ?_, lists⟩
  change Except.ok (Searcher.search { index := index.uncached } term tree).1.1 = _
  rw [run]

/-- Without the cache a query of a built index lists the documents that satisfy it. -/
theorem Represents.lists_fresh_ofQuery (represents : index.Represents location documents tree)
    (fits : index.config.maxShardGenerations ≤ Json.max32)
    (texts : index.WithinShards IndexedDocument.trigrams documents)
    (tags : index.WithinShards (fun document => document.record.tagTrigrams) documents)
    {query : Query} {filter : TrigramFilter} (compiled : query.filter = .ok filter)
    (nonempty : filter.isEmpty = false) :
    ∃ hits, index.fresh tree (.ofQuery query) = .ok hits ∧
      Lists documents (fun document => document.Satisfies query) hits := by
  obtain ⟨hits, later, run, -, lists⟩ :=
    (represents_uncached.mpr represents).lists_query rfl fits texts tags
      { index := index.uncached } rfl compiled
  refine ⟨hits, ?_, lists nonempty⟩
  change (Searcher.query { index := index.uncached } query tree).1.1 = _
  rw [run]

end Built

/-! ## A sample -/

/-- The index of the sample, with the query cache on. -/
def cachingIndex : Index := { root := ⟨"/index"⟩, config := {} }

theorem uncached_cachingIndex : cachingIndex.uncached = sampleIndex := rfl

/-- The sample is built. -/
theorem builds_cachingIndex : ∃ summary built, summary.failed = [] ∧
    cachingIndex.Builds sampleScheme .standard ⟨"/src"⟩ ["index"] sampleTree summary built := by
  obtain ⟨summary, built, failed, builds⟩ := builds_sample
  rw [← uncached_cachingIndex] at builds
  exact ⟨summary, built, failed, builds_uncached.mp builds⟩

theorem indexedDocuments_cachingIndex {summary : BuildSummary} (failed : summary.failed = []) :
    cachingIndex.indexedDocuments sampleScheme .standard ⟨"/src"⟩ sampleTree summary.failed =
      sampleDocuments := by
  rw [failed, ← indexedDocuments_uncached, uncached_cachingIndex, sampleDocuments]

/-- The sample is built. -/
theorem represents_cachingIndex :
    ∃ built, cachingIndex.Represents ["index"] sampleDocuments built := by
  obtain ⟨summary, built, failed, builds⟩ := builds_sample
  have represents := builds.represents.1
  rw [failed, ← uncached_cachingIndex] at represents
  exact ⟨built, represents_uncached.mp represents⟩

/-- In the sample the term of the document is found. -/
theorem fresh_term_sample {built : FileTree}
    (represents : cachingIndex.Represents ["index"] sampleDocuments built) :
    ∃ hits, cachingIndex.fresh built (.ofTerm "abc") = .ok hits ∧ hits ≠ [] := by
  obtain ⟨hits, answers, lists⟩ :=
    represents.lists_fresh_ofTerm (by decide) (withinShards_sample _) "abc"
  obtain ⟨document, member⟩ := exists_mem_sampleDocuments
  exact ⟨hits, answers,
    lists.ne_nil member ⟨by decide, by rw [hasText_sample member]; decide⟩⟩

/-- In the sample a blank before a term makes a search for it find nothing, and after that the term
itself finds nothing. -/
theorem searches_transparent_iff_sample : ∃ built,
    cachingIndex.IsReady ["index"] built ∧
      ¬ Transparent { index := cachingIndex } built ([" abc", "abc"].map .ofTerm) ∧
      Transparent { index := cachingIndex } built (["abc", "abc"].map .ofTerm) := by
  obtain ⟨built, represents⟩ := represents_cachingIndex
  have ready := represents.isReady rfl
  have fresh := represents.lists_fresh_ofTerm (by decide) (withinShards_sample _)
  refine ⟨built, ready, fun transparent => ?_, ?_⟩
  · have pairs := (searches_transparent_iff ready rfl [" abc", "abc"]).1.mp transparent
    have same := List.rel_of_pairwise_cons pairs (List.mem_singleton.mpr rfl)
      (cacheKey_congr (by decide))
      (represents.settles_ofTerm (by decide) (withinShards_sample _) _)
    obtain ⟨hits, blank, lists⟩ := fresh " abc"
    obtain ⟨found, bare, some⟩ := fresh_term_sample represents
    rw [blank, bare, Except.ok.injEq] at same
    have nothing : hits = [] := lists.eq_nil fun document member matched => by
      rw [hasText_sample member] at matched
      exact absurd matched.2 (by decide)
    exact some (same.symm.trans nothing)
  · refine (searches_transparent_iff ready rfl ["abc", "abc"]).2 (by simp) ?_
    have plain : lowercase "abc" = cacheText "abc" := by decide
    simp [plain]

/-- In the sample a search for the text of a query finds nothing, and after that the query finds
nothing. -/
theorem queries_transparent_iff_sample : ∃ built,
    cachingIndex.IsReady ["index"] built ∧
      ¬ ∀ front query back, [.ofTerm "[ 'TEXT', 'abc' ]", .ofQuery (.text "abc")] =
          front ++ .ofQuery query :: back →
        withoutPreviews (Searcher.answerAfter { index := cachingIndex } front (.ofQuery query)
            built).1 =
          withoutPreviews (cachingIndex.fresh built (.ofQuery query)) := by
  obtain ⟨built, represents⟩ := represents_cachingIndex
  have ready := represents.isReady rfl
  refine ⟨built, ready, fun transparent => ?_⟩
  have same := (queries_transparent_iff ready rfl _).1.mp transparent
    [.ofTerm "[ 'TEXT', 'abc' ]"] (.text "abc") [] rfl rfl _ (rememberedCall_cons_of_settles
      (represents.settles_ofTerm (by decide) (withinShards_sample _) _) [])
  obtain ⟨hits, term, lists⟩ :=
    represents.lists_fresh_ofTerm (by decide) (withinShards_sample _) "[ 'TEXT', 'abc' ]"
  have compiled : Query.filter (.text "abc") = .ok _ := rfl
  obtain ⟨found, query, lists'⟩ := represents.lists_fresh_ofQuery (by decide)
    (withinShards_sample _) (withinShards_sample _) compiled (by decide)
  have nothing : hits = [] := lists.eq_nil fun document member matched => by
    rw [hasText_sample member] at matched
    exact absurd matched.2 (by decide)
  rw [term, query, nothing, withoutPreviews, withoutPreviews, Except.map, Except.map,
    Except.ok.injEq, List.map_nil] at same
  obtain ⟨document, member⟩ := exists_mem_sampleDocuments
  have satisfied : document.satisfies (.text "abc") = true := by
    have single : document.satisfies (.text "abc") =
        ((document.hasText (lowercase "abc") && true && !false) && (true && !false)) := rfl
    rw [single, hasText_sample member]
    decide
  exact lists'.ne_nil member (IndexedDocument.satisfies_iff.mp satisfied)
    (List.map_eq_nil_iff.mp same.symm)

end Index
end SourceSearch
