import SourceSearch.Proofs.Search.Memory
import SourceSearch.Proofs.Search.Queries

/-!
# Runs of a search engine

A search engine that keeps a query cache answers one call after another.  Every call is answered as
without the cache, but on behalf of the first earlier call that left its answer under the same key.
-/

namespace SourceSearch

/-- A call of a search engine. -/
inductive Call where
  /-- Search for a term. -/
  | ofTerm (term : String)
  /-- Evaluate a query. -/
  | ofQuery (query : Query)

namespace Call

/-- The text that stands for a call. -/
def text : Call → String
  | ofTerm term => term
  | ofQuery query => query.render

/-- The key that an answer is remembered under. -/
def key (call : Call) : String := cacheKey call.text

/-- The call does not fail: there is a trigram filter for its query. -/
def compiles : Call → Bool
  | ofTerm _ => true
  | ofQuery query => query.filter.isOk

/-- The term that previews show. -/
def shown? : Call → Option String
  | ofTerm term => some (lowercase term)
  | ofQuery query => query.requiredWords.head?

end Call

namespace Searcher

/-- Answer a call. -/
def answer (searcher : Searcher) : Call → DiskM (Except Failure (List Hit) × Searcher)
  | .ofTerm term => do
      let (hits, later) ← searcher.search term
      return (.ok hits, later)
  | .ofQuery query => searcher.query query

/-- Answer calls one after another. -/
def serve (searcher : Searcher) : List Call → DiskM Searcher
  | [] => return searcher
  | call :: rest => do
      let (_, later) ← searcher.answer call
      later.serve rest

/-- The answer to a call after earlier ones. -/
def answerAfter (searcher : Searcher) (earlier : List Call) (call : Call) :
    DiskM (Except Failure (List Hit)) := do
  let later ← searcher.serve earlier
  let (answer, _) ← later.answer call
  return answer

end Searcher

namespace Index

variable {index : Index} {location : Location} {tree now : FileTree} {searcher : Searcher}

/-- The same index without the query cache. -/
def uncached (index : Index) : Index :=
  { index with config := { index.config with useQueryCache := false } }

/-- The answer to a call without the query cache. -/
def fresh (index : Index) (tree : FileTree) (call : Call) : Except Failure (List Hit) :=
  (Searcher.answer { index := index.uncached } call tree).1.1

/-- The documents that are verified for a call. -/
def candidates? (index : Index) (tree : FileTree) : Call → Except Failure (SortedSet DocumentKey)
  | .ofTerm term => .ok (Searcher.candidates { index } tree term).1
  | .ofQuery query =>
      query.filter.map fun filter => (Searcher.filtered { index } tree filter query.mentionsTag).1

/-- The verdict of a call on a document. -/
def judge (index : Index) (tree : FileTree) : Call → DocumentKey → Option Bool
  | .ofTerm term => index.wordsMatch? tree [lowercase term] []
  | .ofQuery query => index.satisfies? tree query

/-- The documents that pass. -/
def passing (index : Index) (tree : FileTree) (call : Call) (found : SortedSet DocumentKey) :
    List DocumentKey :=
  found.toList.filter fun key => index.judge tree call key = some true

/-- Every document that is verified for a call can be judged, so that its answer is remembered. -/
def settles (index : Index) (tree : FileTree) (call : Call) : Bool :=
  match index.candidates? tree call with
  | .ok found => found.toList.all fun key => (index.judge tree call key).isSome
  | .error _ => false

theorem passing_empty (index : Index) (tree : FileTree) (call : Call) :
    index.passing tree call .empty = [] := rfl

/-! ## Single calls -/

/-- A call that compiles has candidates. -/
theorem exists_candidates {call : Call} (compiles : call.compiles = true) (index : Index)
    (tree : FileTree) : ∃ found, index.candidates? tree call = .ok found := by
  cases call with
  | ofTerm term => exact ⟨_, rfl⟩
  | ofQuery query =>
      rw [candidates?]
      change query.filter.isOk = true at compiles
      cases compiled : query.filter with
      | ok filter => exact ⟨_, rfl⟩
      | error failure =>
          rw [compiled] at compiles
          cases compiles

/-- A call that does not compile fails in the same way everywhere. -/
theorem exists_error {call : Call} (fails : call.compiles = false) :
    ∃ failure, ∀ (index : Index) (tree : FileTree),
      index.candidates? tree call = .error failure := by
  cases call with
  | ofTerm term => cases fails
  | ofQuery query =>
      change query.filter.isOk = false at fails
      cases compiled : query.filter with
      | error failure => exact ⟨failure, fun _ _ => by rw [candidates?, compiled, Except.map]⟩
      | ok filter =>
          rw [compiled] at fails
          cases fails

theorem filtered_eq (searcher : Searcher) (tree : FileTree) (filter : TrigramFilter)
    (mentionsTag : Bool) :
    (searcher.filtered tree filter mentionsTag).1 =
        (Searcher.filtered { index := searcher.index } tree filter mentionsTag).1 ∧
      (searcher.filtered tree filter mentionsTag).2.index = searcher.index := by
  rw [Searcher.filtered, Searcher.filtered]
  cases filter.content.isEmpty <;> cases mentionsTag && !filter.metadata.isEmpty <;>
    exact ⟨rfl, rfl⟩

/-- A call whose query fails has no other effect. -/
theorem answer_of_error (searcher : Searcher) {call : Call} {failure : Failure}
    (fails : searcher.index.candidates? tree call = .error failure) (tree' : FileTree) :
    searcher.answer call tree' = ((.error failure, searcher), tree') := by
  cases call with
  | ofTerm term => cases fails
  | ofQuery query =>
      rw [candidates?] at fails
      cases compiled : query.filter with
      | ok filter =>
          rw [compiled] at fails
          cases fails
      | error other =>
          rw [compiled] at fails
          cases fails
          rw [Searcher.answer, Searcher.query, compiled]
          rfl

/-- Any other call asks the query cache first. -/
theorem answer_of_remembered {call : Call} {found : SortedSet DocumentKey} {results : List Hit}
    (finds : searcher.index.candidates? tree call = .ok found)
    (remembered : searcher.index.remembered? now call.key = some results) :
    searcher.answer call now = ((.ok results, searcher), now) := by
  cases call with
  | ofTerm term =>
      change ((Except.ok (searcher.search term now).1.1, (searcher.search term now).1.2),
        (searcher.search term now).2) = _
      rw [Searcher.search_eq]
      change searcher.index.remembered? now (cacheKey term) = _ at remembered
      rw [remembered]
  | ofQuery query =>
      rw [candidates?] at finds
      cases compiled : query.filter with
      | error failure =>
          rw [compiled] at finds
          cases finds
      | ok filter =>
          rw [Searcher.answer, Searcher.query_eq _ compiled]
          change searcher.index.remembered? now (cacheKey query.render) = _ at remembered
          rw [remembered]

/-- What is not remembered is found and verified, and then it may be remembered. -/
theorem answer_of_forgotten (searcher : Searcher) {call : Call} {found : SortedSet DocumentKey}
    (finds : searcher.index.candidates? now call = .ok found)
    (forgotten : searcher.index.remembered? now call.key = none) :
    ∃ later, later.index = searcher.index ∧
      searcher.answer call now =
        ((.ok ((searcher.index.passing now call found).map
            (searcher.index.hit now call.shown?)), later),
          if searcher.index.config.useQueryCache && searcher.index.settles now call then
            (searcher.index.remember call.key ((searcher.index.passing now call found).map
              (searcher.index.hit now call.shown?)) now).2
          else now) := by
  rw [settles, finds]
  cases call with
  | ofTerm term =>
      cases finds
      refine ⟨(searcher.candidates now term).2, rfl, ?_⟩
      change ((Except.ok (searcher.search term now).1.1, (searcher.search term now).1.2),
        (searcher.search term now).2) = _
      change searcher.index.remembered? now (cacheKey term) = _ at forgotten
      rw [Searcher.search_eq, forgotten]
      simp only [conclude_eq]
      rfl
  | ofQuery query =>
      rw [candidates?] at finds
      cases compiled : query.filter with
      | error failure =>
          rw [compiled] at finds
          cases finds
      | ok filter =>
          rw [compiled, Except.map, Except.ok.injEq] at finds
          obtain ⟨same, kept⟩ := filtered_eq searcher now filter query.mentionsTag
          refine ⟨(searcher.filtered now filter query.mentionsTag).2, kept, ?_⟩
          rw [Searcher.answer, Searcher.query_eq _ compiled]
          change searcher.index.remembered? now (cacheKey query.render) = _ at forgotten
          rw [forgotten, ← finds, ← same]
          simp only [conclude_eq]
          rfl

theorem filtered_uncached (index : Index) (tree : FileTree) (filter : TrigramFilter)
    (mentionsTag : Bool) :
    (Searcher.filtered { index := index.uncached } tree filter mentionsTag).1 =
      (Searcher.filtered { index } tree filter mentionsTag).1 := by
  rw [Searcher.filtered, Searcher.filtered]
  cases filter.content.isEmpty <;> cases mentionsTag && !filter.metadata.isEmpty <;> rfl

theorem candidates?_uncached (index : Index) (tree : FileTree) (call : Call) :
    index.uncached.candidates? tree call = index.candidates? tree call := by
  cases call with
  | ofTerm term => rfl
  | ofQuery query =>
      rw [candidates?, candidates?]
      cases query.filter with
      | error failure => rfl
      | ok filter => rw [Except.map, Except.map, filtered_uncached]

theorem passing_uncached (index : Index) (tree : FileTree) (call : Call) :
    index.uncached.passing tree call = index.passing tree call := by
  cases call <;> rfl

/-- Without the cache the answer is what passes. -/
theorem fresh_eq (index : Index) (tree : FileTree) (call : Call) :
    index.fresh tree call = (index.candidates? tree call).map fun found =>
      (index.passing tree call found).map (index.hit tree call.shown?) := by
  have finds := index.candidates?_uncached tree call
  cases found : index.candidates? tree call with
  | error failure =>
      rw [found] at finds
      rw [fresh, answer_of_error { index := index.uncached } finds tree]
      rfl
  | ok documents =>
      rw [found] at finds
      obtain ⟨later, -, answers⟩ := answer_of_forgotten { index := index.uncached }
        finds (remembered?_eq_none rfl tree call.key)
      rw [fresh, answers, passing_uncached]
      rfl

/-- Only calls that compile have results. -/
theorem compiles_of_fresh {call : Call} {hits : List Hit}
    (fresh : index.fresh tree call = .ok hits) : call.compiles = true := by
  rw [← Bool.not_eq_false]
  intro fails
  obtain ⟨failure, error⟩ := exists_error fails
  rw [fresh_eq, error, Except.map] at fresh
  cases fresh

/-- A search engine without the query cache gives the answers without the cache and writes
nothing. -/
theorem answer_uncached (uncached : searcher.index.config.useQueryCache = false) (call : Call)
    (tree : FileTree) : ∃ later, later.index = searcher.index ∧
      searcher.answer call tree = ((searcher.index.fresh tree call, later), tree) := by
  rw [fresh_eq]
  cases finds : searcher.index.candidates? tree call with
  | error failure => exact ⟨searcher, rfl, answer_of_error searcher finds tree⟩
  | ok found =>
      obtain ⟨later, kept, answers⟩ :=
        answer_of_forgotten searcher finds (remembered?_eq_none uncached tree call.key)
      rw [uncached] at answers
      exact ⟨later, kept, answers⟩

/-- Its answers are those without the cache. -/
theorem answer_eq_fresh (uncached : searcher.index.config.useQueryCache = false) (call : Call)
    (tree : FileTree) : (searcher.answer call tree).1.1 = searcher.index.fresh tree call := by
  obtain ⟨_, -, answers⟩ := answer_uncached uncached call tree
  rw [answers]

theorem isOk_fresh_of_settles {call : Call} (settles : index.settles tree call = true) :
    ∃ hits, index.fresh tree call = .ok hits := by
  rw [Index.settles] at settles
  rw [fresh_eq]
  cases found : index.candidates? tree call with
  | error failure =>
      rw [found] at settles
      cases settles
  | ok documents => exact ⟨_, rfl⟩

/-- A term enters its answer in lowercase. -/
theorem fresh_congr {term other : String} (same : lowercase term = lowercase other) :
    index.fresh tree (.ofTerm term) = index.fresh tree (.ofTerm other) := by
  have finds : index.candidates? tree (.ofTerm term) = index.candidates? tree (.ofTerm other) := by
    rw [candidates?, candidates?, Searcher.candidates, Searcher.candidates, same]
  have passes : index.passing tree (.ofTerm term) = index.passing tree (.ofTerm other) := by
    funext found
    rw [passing, passing, judge, judge, same]
  rw [fresh_eq, fresh_eq, finds, passes, Call.shown?, Call.shown?, same]

/-! ## Calls beside the query cache -/

/-- Searches that find the same give the same candidates. -/
theorem candidates?_congr (same : ∀ folder ∈ [textFolder, tagFolder], ∀ trigrams abortRatio,
      (index.reader folder).search abortRatio now trigrams =
        (index.reader folder).search abortRatio tree trigrams) (call : Call) :
    index.candidates? now call = index.candidates? tree call := by
  have texts := same textFolder (by simp)
  have tags := same tagFolder (by simp)
  cases call with
  | ofTerm term =>
      rw [candidates?, candidates?, Searcher.candidates, Searcher.candidates,
        Searcher.searchTexts, Searcher.searchTexts, textReader]
      simp only [texts]
  | ofQuery query =>
      simp only [candidates?, Searcher.filtered, Searcher.searchTexts, Searcher.searchTags,
        textReader, tagReader, texts, tags]

theorem KeepsRecords.judge (keeps : index.KeepsRecords tree now) (call : Call) :
    index.judge now call = index.judge tree call := by
  cases call with
  | ofTerm term => exact keeps.wordsMatch? _ _
  | ofQuery query => exact keeps.satisfies? query

theorem KeepsRecords.passing (keeps : index.KeepsRecords tree now) (call : Call) :
    index.passing now call = index.passing tree call := by
  funext found
  rw [Index.passing, Index.passing, keeps.judge]

namespace Unchanged

theorem candidates? (unchanged : index.Unchanged location tree now) (call : Call) :
    index.candidates? now call = index.candidates? tree call :=
  candidates?_congr (fun _ member => unchanged.search member) call

theorem hit (unchanged : index.Unchanged location tree now) (term : Option String) :
    index.hit now term = index.hit tree term := unchanged.keepsRecords.hit term

theorem judge (unchanged : index.Unchanged location tree now) (call : Call) :
    index.judge now call = index.judge tree call := unchanged.keepsRecords.judge call

theorem passing (unchanged : index.Unchanged location tree now) (call : Call) :
    index.passing now call = index.passing tree call := unchanged.keepsRecords.passing call

theorem settles (unchanged : index.Unchanged location tree now) (call : Call) :
    index.settles now call = index.settles tree call := by
  rw [Index.settles, Index.settles, unchanged.candidates?, unchanged.judge]

end Unchanged

/-! ## Calls that can be judged -/

section Judging

variable {documents : List IndexedDocument} {call : Call}

namespace Recalls

theorem judge_ofTerm (recalls : index.Recalls documents tree) (term : String) :
    ∀ document ∈ documents, index.judge tree (.ofTerm term) document.key =
      some (document.hasText (lowercase term)) := by
  intro document member
  rw [judge, recalls.wordsMatch?_eq member]
  simp

/-- Every document is judged whose words and record are read. -/
theorem isSome_judge (recalls : index.Recalls documents tree) {document : IndexedDocument}
    (member : document ∈ documents) : (index.judge tree call document.key).isSome := by
  cases call with
  | ofTerm term => rw [recalls.judge_ofTerm term document member, Option.isSome_some]
  | ofQuery query => rw [judge, recalls.satisfies?_eq member, Option.isSome_some]

/-- A call leaves its answer if all of its candidates are such documents. -/
theorem settles (recalls : index.Recalls documents tree) {found : SortedSet DocumentKey}
    (finds : index.candidates? tree call = .ok found) (keys : KeysOf documents found) :
    index.settles tree call = true := by
  rw [Index.settles, finds]
  refine List.all_eq_true.mpr fun key member => ?_
  obtain ⟨document, listed, rfl⟩ := keys key (SortedSet.mem_toList.mp member)
  exact recalls.isSome_judge listed

end Recalls

theorem KeepsRecords.recalls (keeps : index.KeepsRecords tree now)
    (recalls : index.Recalls documents tree) : index.Recalls documents now where
  words document member := (keeps.words _).trans (recalls.words document member)
  records document member := (keeps.load? _).trans (recalls.records document member)

end Judging

/-! ## Calls that find an entry, and calls that find none -/

theorem map_documentKey_rememberedResults (previews : Previews) (keys : List DocumentKey) :
    (index.rememberedResults tree previews keys).map Hit.documentKey = keys := by
  induction keys generalizing previews with
  | nil => rfl
  | cons key rest ih => rw [rememberedResults, List.map_cons, ih]

/-- **One call with an entry.**  It is answered by the keys of the entry, whatever else there is. -/
theorem answer_of_result (same : searcher.index = index)
    (caches : index.config.useQueryCache = true) {call : Call} (compiles : call.compiles = true)
    {keys : List DocumentKey} (stored : index.queries.result? tree call.key = some keys) :
    ∃ hits, searcher.answer call tree = ((.ok hits, searcher), tree) ∧
      hits.map Hit.documentKey = keys := by
  subst same
  obtain ⟨found, finds⟩ := exists_candidates compiles searcher.index tree
  have remembered : searcher.index.remembered? tree call.key =
      some (searcher.index.rememberedResults tree
        ((searcher.index.queries.previews? tree call.key).getD .empty) keys) := by
    rw [remembered?, if_pos caches, stored, Option.map_some]
  exact ⟨_, answer_of_remembered finds remembered, map_documentKey_rememberedResults _ keys⟩

theorem remembered?_of_no_result {key : String} (none : index.queries.result? tree key = none) :
    index.remembered? tree key = Option.none := by
  rw [remembered?, none]
  split <;> rfl

/-- **One call without an entry.**  It is answered by what passes, and exactly if every candidate
could be judged, the keys are in the query cache afterwards. -/
theorem Stands.answer_of_no_result (stands : index.Stands location now)
    (same : searcher.index = index) {call : Call} {found : SortedSet DocumentKey}
    (finds : index.candidates? now call = .ok found)
    (none : index.queries.result? now call.key = Option.none) :
    ∃ later after, later.index = index ∧ searcher.answer call now =
        ((.ok ((index.passing now call found).map (index.hit now call.shown?)), later), after) ∧
      index.Stands location after ∧ now.AgreesOutside location [queriesFolder] after ∧
      index.queries.result? after call.key =
        if index.config.useQueryCache && index.settles now call then
          some (index.passing now call found)
        else Option.none := by
  subst same
  obtain ⟨later, kept, answers⟩ :=
    answer_of_forgotten searcher finds (remembered?_of_no_result none)
  split at answers
  · rename_i remembers
    obtain ⟨after, run, stands', recorded⟩ := stands.remember call.text
      ((searcher.index.passing now call found).map (searcher.index.hit now call.shown?))
    have left : (searcher.index.remember call.key ((searcher.index.passing now call found).map
        (searcher.index.hit now call.shown?)) now).2 = after := congrArg Prod.snd run
    rw [left] at answers
    refine ⟨later, after, kept, answers, stands', recorded.agrees, ?_⟩
    rw [if_pos remembers, stands'.result?_eq]
    exact recorded.cached?_result.trans (congrArg some (map_documentKey_hit _))
  · rename_i forgets
    exact ⟨later, now, kept, answers, stands, .refl _ _ _, by rw [if_neg forgets, none]⟩

end Index
end SourceSearch
